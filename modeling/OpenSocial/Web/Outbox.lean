/-
This file models how the web client sends a direct message, and proves that a message
is sent once and in order, however often the page is closed and its network fails.

The page stores the encrypted message and its id before it submits it, and forgets
them only when it has read exactly this message from the chain, or when the person
discards them. Until then it offers nothing else to send, so a retry submits what is
stored. The chain includes calls whenever it likes, those of attempts whose answer was
lost among them. One page is open at a time.
-/

import OpenSocial.Library.Service
import OpenSocial.Web.Messages

namespace OpenSocial.Web.Messages

open Library Library.Utf16 Sdk.Messages

/-! ### Values -/

/-- What is stored of a message until it is on the chain. -/
structure Pending where
  id : Text
  envelope : Text
  generation : Text
  deriving DecidableEq

/-- What sending reads of a conversation. -/
structure ConversationView where
  status : ℕ
  generation : Text

/-- What sending reads of an identity. -/
structure IdentityView where
  encryption_key : Bytes
  key_version : ℤ

/-- The arguments of `send_message`. -/
structure SendMessage where
  sender : Text
  recipient : Text
  message_id : Bytes
  generation : Text
  envelope : Bytes
  deriving DecidableEq

/-- What the page asks for: the chain, random values, its storage, its own state, a submission. -/
inductive PageRequest where
  | getConversation (a b : Text)
  | getIdentity (account : Text)
  | getMessage (sender : Text) (messageId : Bytes)
  | randomBytes
  | getItem
  | setItem (request : Pending)
  | removeItem
  | discardItem
  | setPending (pending : Option Pending)
  | submitAction (operation : SendMessage)

/-- Storing also shows the request as the pending one, and removing or discarding clears it. -/
abbrev PageAnswer : PageRequest → Type
  | .getConversation _ _ => Except String (Option ConversationView)
  | .getIdentity _ => Except String (Option IdentityView)
  | .getMessage _ _ => Except String (Option DirectMessageRecord)
  | .randomBytes => Bytes × Drawn
  | .getItem => Option Pending
  | .setItem _ => Except String Unit
  | .removeItem => Unit
  | .discardItem => Unit
  | .setPending _ => Unit
  | .submitAction _ => Except String Unit

abbrev PageAction := Program PageRequest PageAnswer OpenFailure

/-! ### Sending -/

section Sending

variable (network : Network) (me : Identity) (target : Text)

def CONFIRMATION_PENDING : String :=
  "Message submitted; confirmation is still pending. Keep the saved copy and check again."

def SAVED_MISMATCH : String := "Saved message does not match the network record."

def getMessage (messageId : Bytes) : PageAction (Option DirectMessageRecord) :=
  .query (.getMessage me.account messageId) fun answer => answer.mapError .node

def getIdentity (account : Text) : PageAction (Option IdentityView) :=
  .query (.getIdentity account) fun answer => answer.mapError .node

/-- An accepted conversation. -/
def accepting (found : Option ConversationView) : Except OpenFailure ConversationView :=
  match found.filter fun conversation => conversation.status = 2 with
  | some conversation => .ok conversation
  | none => .error (.thrown "The recipient needs to accept your request first.")

def registered : Option IdentityView → Option IdentityView →
    Except OpenFailure (IdentityView × IdentityView)
  | some self, some other => .ok (self, other)
  | _, _ => .error (.thrown "Both accounts must be registered.")

/-- The key on the chain must be the one derived from the seed. -/
def checkKey (self : IdentityView) : Except OpenFailure Unit := do
  let secret ← (secretForVersion network me self.key_version).mapError .sdk
  check (network.crypto.publicKey secret = self.encryption_key)
    "Restore the current encryption key before sending messages."

/-- The two parties, as keys are sealed for them. -/
def partiesOf (both : IdentityView × IdentityView) : List Recipient :=
  [⟨.text me.account, both.1.encryption_key, both.1.key_version⟩,
    ⟨.text target, both.2.encryption_key, both.2.key_version⟩]

/-- The encrypted message, as it is stored. -/
def encrypted (text : Text) (conversation : ConversationView) (both : IdentityView × IdentityView)
    (drawn : Bytes × Drawn) : Except OpenFailure Pending := do
  let sent ← (encryptDirectMessage network.crypto
    ⟨network.chainId, network.messaging, me.account, target, drawn.1, conversation.generation⟩
    text (partiesOf me target both) drawn.2).mapError .sdk
  .ok ⟨network.crypto.toBase64url drawn.1, network.crypto.toBase64url sent.1,
    conversation.generation⟩

/-- Encrypt a text and store it, before anything is submitted. -/
def compose (text : Text) : PageAction Pending := do
  let found ← Program.query (.getConversation me.account target) fun answer =>
    answer.mapError OpenFailure.node
  let conversation ← Program.lift (accepting found)
  let self ← getIdentity me.account
  let other ← getIdentity target
  let both ← Program.lift (registered self other)
  let _ ← Program.lift (checkKey network me both.1)
  let drawn ← Program.query .randomBytes .ok
  let request ← Program.lift (encrypted network me target text conversation both drawn)
  let _ ← Program.query (.setItem request) fun answer => answer.mapError OpenFailure.node
  pure request

/-- The content of a record is that of the request. -/
def checkContent (request : Pending) (record : DirectMessageRecord) (message : String) :
    Except OpenFailure Unit := do
  check (record.recipient = target ∧ record.generation = request.generation) message
  let envelope ← decoded network request.envelope
  check (record.content_hash = network.crypto.sha256 envelope) message

/-- A message that is stored already must be the one of the request. -/
def checkSaved (request : Pending) (id : Bytes) (record : DirectMessageRecord) :
    Except OpenFailure Unit := do
  check (record.sender = me.account ∧ record.message_id = id) SAVED_MISMATCH
  checkContent network target request record SAVED_MISMATCH

/-- Submit a message the chain does not have, or check the one it has. -/
def settle (request : Pending) (id : Bytes) : Option DirectMessageRecord → PageAction Unit
  | none => do
    let envelope ← Program.lift (decoded network request.envelope)
    Program.query (.submitAction ⟨me.account, target, id, request.generation, envelope⟩)
      fun answer => answer.mapError OpenFailure.node
  | some record => Program.lift (checkSaved network me target request id record)

def confirm (request : Pending) : Option DirectMessageRecord → Except OpenFailure Unit
  | none => .error (.thrown CONFIRMATION_PENDING)
  | some record => checkContent network target request record CONFIRMATION_PENDING

/-- Bring what is stored to the chain, and forget it once it is there. -/
def deliver (request : Pending) : PageAction Unit := do
  let id ← Program.lift (decoded network request.id)
  let existing ← getMessage me id
  let _ ← settle network me target request id existing
  let confirmed ← getMessage me id
  let _ ← Program.lift (confirm network target request confirmed)
  Program.query .removeItem .ok

/-- The pending request, or a new one. -/
def requestFor (text : Text) : Option Pending → PageAction Pending
  | some request => pure request
  | none => compose network me target text

/-- `send`. -/
def send (text : Text) (pending : Option Pending) : PageAction Unit := do
  let request ← requestFor network me target text pending
  deliver network me target request

/-- The person confirmed that the saved copy is removed. -/
def discard : PageAction Unit :=
  .query .discardItem .ok

/-- What is read back from the storage. -/
def readable (saved : Pending) : Bool :=
  (network.fromBase64url saved.id).elim false (fun id => id.length = 32) &&
    (network.fromBase64url saved.envelope).elim false (fun envelope => envelope.length ≤ 4096) &&
      isGeneration saved.generation

/-- What the page does when it is opened. -/
def restore : PageAction Unit := do
  let saved ← Program.query .getItem .ok
  Program.query (.setPending (saved.filter (readable network))) .ok

end Sending

/-! ### The world -/

/-- The storage, the page if it is open, the calls the chain has included, and what was stored so
far and not discarded. -/
structure PageWorld where
  item : Option Pending
  page : Option (Option Pending)
  chain : List Messaging.Call
  composed : List Pending

section World

variable (network : Network) (host : Host) (sender : Address)

/-- The contract after these calls. -/
def contractOf (chain : List Messaging.Call) : Messaging.State :=
  (Messaging.machine host).final Messaging.empty chain

def PageWorld.store (world : PageWorld) (request : Pending) : PageWorld :=
  { world with
    item := some request
    page := world.page.map fun _ => some request
    composed := world.composed ++ [request] }

def PageWorld.clear (world : PageWorld) : PageWorld :=
  { world with
    item := none
    page := world.page.map fun _ => none }

def PageWorld.discard (world : PageWorld) : PageWorld :=
  { world.clear with composed := world.composed.dropLast }

/-- How the world answers. Drawn ids are new, the node answers the contract's records or fails, and
a submission tells nothing. -/
def pageServes (world : PageWorld) : (request : PageRequest) → PageAnswer request →
    PageWorld → Prop
  | .getConversation _ _, _, after => after = world
  | .getIdentity _, _, after => after = world
  | .getMessage account messageId, answer, after => after = world ∧ ∀ found, answer = .ok found →
    nodeRead network (contractOf host world.chain) account messageId = .ok found
  | .randomBytes, drawn, after => after = world ∧
    (contractOf host world.chain).messages.get (Messaging.messageKey sender.val drawn.1) = none
  | .getItem, saved, after => after = world ∧ saved = world.item
  | .setItem request, answer, after => (answer = .ok () ∧ after = world.store request) ∨
    (answer ≠ .ok () ∧ after = world)
  | .removeItem, _, after => after = world.clear
  | .discardItem, _, after => after = world.discard
  | .setPending pending, _, after => after = { world with page := some pending }
  | .submitAction _, _, after => after = world

/-- The chain includes what it includes, and the page may be closed. -/
def pageDrifts (world later : PageWorld) : Prop :=
  later.item = world.item ∧ later.composed = world.composed ∧ world.chain <+: later.chain ∧
    (later.page = world.page ∨ later.page = none)

/-- The page's world. -/
def pageService : Service PageRequest PageAnswer PageWorld where
  drift := pageDrifts
  serve := pageServes network host sender
  drift_refl _ := ⟨rfl, rfl, List.prefix_refl _, .inl rfl⟩
  drift_trans first second third one other := by
    refine ⟨other.1.trans one.1, other.2.1.trans one.2.1, one.2.2.1.trans other.2.2.1, ?_⟩
    rcases other.2.2.2 with same | closed
    · rw [same]
      exact one.2.2.2
    · exact .inr closed

end World

/-! ### Requests on the chain -/

section Requests

variable (network : Network) (sender : Address) (me : Identity) (target : Text)

/-- A request that was made of a text for the recipient. -/
def Written (request : Pending) : Prop :=
  ∃ text conversation both drawn,
    encrypted network me target text conversation both drawn = .ok request

/-- The stored message is exactly the one of the request. -/
def Carries (state : Messaging.State) (request : Pending) (message : Messaging.MessageRecord) :
    Prop :=
  ∃ id envelope, network.fromBase64url request.id = some id ∧
    network.fromBase64url request.envelope = some envelope ∧
    state.messages.get (Messaging.messageKey sender.val id) = some message ∧
    network.toBase58 message.recipient.val = target ∧
    decimal message.generation = request.generation ∧
    message.contentHash = network.crypto.sha256 envelope

def Delivered (state : Messaging.State) (request : Pending) : Prop :=
  ∃ message, Carries network sender target state request message

/-- The first request is on the chain, and whatever comes under the id of the second comes after
it. -/
def Before (state : Messaging.State) (first second : Pending) : Prop :=
  Delivered network sender target state first ∧ ∃ one other,
    network.fromBase64url first.id = some one ∧ network.fromBase64url second.id = some other ∧
      Messaging.Precedes state (Messaging.messageKey sender.val one)
        (Messaging.messageKey sender.val other)

variable {network sender me target} {host : Host} {chain later : List Messaging.Call}
  {request : Pending}

theorem Delivered.grows (grown : chain <+: later)
    (delivered : Delivered network sender target (contractOf host chain) request) :
    Delivered network sender target (contractOf host later) request := by
  obtain ⟨more, rfl⟩ := grown
  obtain ⟨message, id, envelope, named, served, stored, content⟩ := delivered
  exact ⟨message, id, envelope, named, served, Messaging.message_later stored more, content⟩

theorem Before.grows {second : Pending} (grown : chain <+: later)
    (before : Before network sender target (contractOf host chain) request second) :
    Before network sender target (contractOf host later) request second := by
  obtain ⟨delivered, one, other, named, also, precedes⟩ := before
  refine ⟨delivered.grows grown, one, other, named, also, ?_⟩
  obtain ⟨more, rfl⟩ := grown
  exact Messaging.precedes_later precedes more

/-- What comes before another request has another id. -/
theorem Before.different {state : Messaging.State} {second : Pending}
    (before : Before network sender target state request second) : request.id ≠ second.id := by
  obtain ⟨_, one, other, named, also, message, stored, lower⟩ := before
  intro same
  rw [same] at named
  obtain rfl := Option.some.inj (named.symm.trans also)
  exact absurd (lower message stored rfl) (lt_irrefl _)

/-- What comes before another request has a lower number. -/
theorem Before.lower (sound : network.Sound) {state : Messaging.State} {second : Pending}
    {message after : Messaging.MessageRecord}
    (filed : ∀ key message, state.messages.get key = some message →
      Messaging.Filed state key message)
    (before : Before network sender target state request second)
    (carries : Carries network sender target state request message)
    (follows : Carries network sender target state second after) :
    message.sequence < after.sequence := by
  obtain ⟨_, one, other, named, also, first, stored, lower⟩ := before
  obtain ⟨id, _, identifier, _, present, addressed, _⟩ := carries
  obtain ⟨next, _, identifies, _, placed, recipient, _⟩ := follows
  obtain rfl := Option.some.inj (named.symm.trans identifier)
  obtain rfl := Option.some.inj (also.symm.trans identifies)
  obtain rfl := Option.some.inj (stored.symm.trans present)
  have senders : first.sender = after.sender := by
    have one := (Messaging.messageKey_inj.mp (filed _ _ stored).keyed).1
    have other := (Messaging.messageKey_inj.mp (filed _ _ placed).keyed).1
    exact one.symm.trans other
  have recipients : first.recipient = after.recipient := by
    have same := congrArg network.crypto.fromBase58 (addressed.trans recipient.symm)
    rw [sound.fromBase58_toBase58, sound.fromBase58_toBase58] at same
    exact Subtype.ext (Option.some.inj same)
  refine lower after placed ?_
  rw [senders, recipients]

/-- A request is made by encrypting a text. -/
theorem written_iff : Written network me target request ↔
    ∃ (text : Text) (conversation : ConversationView) (both : IdentityView × IdentityView)
      (drawn : Bytes × Drawn) (sent : Bytes × Bytes),
      encryptDirectMessage network.crypto ⟨network.chainId, network.messaging, me.account, target,
        drawn.1, conversation.generation⟩ text (partiesOf me target both) drawn.2 = .ok sent ∧
      request = ⟨network.crypto.toBase64url drawn.1, network.crypto.toBase64url sent.1,
        conversation.generation⟩ := by
  unfold Written encrypted
  simp only [bind_ok_iff, mapError_eq_ok, Except.ok.injEq]
  constructor
  · rintro ⟨text, conversation, both, drawn, sent, accepted, same⟩
    exact ⟨text, conversation, both, drawn, sent, accepted, same.symm⟩
  · rintro ⟨text, conversation, both, drawn, sent, accepted, same⟩
    exact ⟨text, conversation, both, drawn, sent, accepted, same.symm⟩

/-- What is encrypted names an id of 32 bytes and a generation, and its envelope is short. -/
theorem sized_of_accepted {crypto : Crypto} (sound : crypto.Sound) {c : DirectMessageContext}
    {text : Text} {participants : List Recipient} {drawn : Drawn} {sent : Bytes × Bytes}
    (accepted : encryptDirectMessage crypto c text participants drawn = .ok sent) :
    c.messageId.length = 32 ∧ isGeneration c.generation = true ∧ sent.1.length ≤ 4096 := by
  obtain ⟨envelope, hash⟩ := sent
  obtain ⟨bound, ciphertext, keys, sent, _, rfl, _⟩ := sent_of_accepted sound accepted
  have authenticated := sent.authenticated
  unfold aad at authenticated
  split at authenticated
  · cases authenticated
  · next fine =>
    rw [not_or, not_not, Bool.not_eq_false] at fine
    exact ⟨fine.1, fine.2, sent.length_le sound⟩

/-- What is stored is read back, and its id can be decoded. -/
theorem Written.readable (sound : network.Sound)
    (coded : ∀ bytes, network.fromBase64url (network.crypto.toBase64url bytes) = some bytes)
    (written : Written network me target request) :
    readable network request = true ∧ ∃ id, network.fromBase64url request.id = some id := by
  obtain ⟨text, conversation, both, drawn, sent, accepted, rfl⟩ := written_iff.mp written
  obtain ⟨identified, generation, short⟩ := sized_of_accepted sound.crypto accepted
  refine ⟨?_, drawn.1, coded drawn.1⟩
  unfold Messages.readable
  rw [coded, coded, Option.elim_some, Option.elim_some, Bool.and_eq_true, Bool.and_eq_true,
    decide_eq_true_eq, decide_eq_true_eq]
  exact ⟨⟨identified, short⟩, generation⟩

/-- All requests of an ordered list but the last are on the chain. -/
theorem last_or_delivered {state : Messaging.State} {composed : List Pending}
    (ordered : composed.Pairwise (Before network sender target state))
    (last : composed.getLast? = some request) :
    ∀ other ∈ composed, other = request ∨ Delivered network sender target state other := by
  obtain ⟨front, rfl⟩ := List.getLast?_eq_some_iff.mp last
  intro other member
  rcases List.mem_append.mp member with early | same
  · exact .inr ((List.pairwise_append.mp ordered).2.2 other early request List.mem_cons_self).1
  · exact .inl (List.mem_singleton.mp same)

end Requests

/-! ### What the page keeps -/

section Runs

variable (network : Network) (host : Host) (sender : Address) (me : Identity) (target : Text)

/-- An open page offers what is stored; what is stored was composed last; and what was composed
before it is on the chain, in order. -/
structure Kept (world : PageWorld) : Prop where
  shown : ∀ pending, world.page = some pending → pending = world.item
  last : ∀ request, world.item = some request → world.composed.getLast? = some request
  written : ∀ request ∈ world.composed, Written network me target request
  done : world.item = none → ∀ request ∈ world.composed,
    Delivered network sender target (contractOf host world.chain) request
  ordered : world.composed.Pairwise (Before network sender target (contractOf host world.chain))

/-- The arguments of an operation that submits a request. -/
def Submits (request : Pending) (operation : SendMessage) : Prop :=
  ∃ id envelope, network.fromBase64url request.id = some id ∧
    network.fromBase64url request.envelope = some envelope ∧
    operation = ⟨me.account, target, id, request.generation, envelope⟩

/-- What the page may ask. -/
def allowed (world : PageWorld) : PageRequest → Prop
  | .setItem request => world.item = none ∧ Written network me target request ∧
    ∀ earlier ∈ world.composed,
      Before network sender target (contractOf host world.chain) earlier request
  | .removeItem => ∀ request, world.item = some request →
    Delivered network sender target (contractOf host world.chain) request
  | .discardItem => world.item ≠ none
  | .setPending pending => pending = world.item
  | .submitAction operation => ∃ request, world.item = some request ∧
    Submits network me target request operation
  | _ => True

variable {network host sender me target} {world : PageWorld}

theorem Kept.drifted {later : PageWorld} (kept : Kept network host sender me target world)
    (drifts : pageDrifts world later) : Kept network host sender me target later := by
  obtain ⟨item, composed, grown, page⟩ := drifts
  refine ⟨fun pending open_ => ?_, ?_, ?_, fun none request member => ?_, ?_⟩
  · rw [item]
    rcases page with same | closed
    · exact kept.shown pending (same ▸ open_)
    · rw [closed] at open_
      cases open_
  · rw [item, composed]
    exact kept.last
  · rw [composed]
    exact kept.written
  · rw [composed] at member
    exact (kept.done (item ▸ none) request member).grows grown
  · rw [composed]
    exact kept.ordered.imp fun before => before.grows grown

theorem Kept.stored (kept : Kept network host sender me target world) {request : Pending}
    (newest : Written network me target request)
    (after : ∀ earlier ∈ world.composed,
      Before network sender target (contractOf host world.chain) earlier request) :
    Kept network host sender me target (world.store request) := by
  refine ⟨fun pending open_ => ?_, fun other same => ?_, ?_, fun none => ?_, ?_⟩
  · obtain ⟨_, _, same⟩ := Option.map_eq_some_iff.mp open_
    exact same.symm
  · rw [← show request = other from Option.some.inj same]
    exact List.getLast?_concat
  · intro other member
    rcases List.mem_append.mp member with early | same
    · exact kept.written other early
    · rw [List.mem_singleton.mp same]
      exact newest
  · cases none
  · refine List.pairwise_append.mpr ⟨kept.ordered, List.pairwise_singleton _ _, ?_⟩
    intro earlier member other same
    rw [List.mem_singleton.mp same]
    exact after earlier member

theorem Kept.cleared (kept : Kept network host sender me target world)
    (delivered : ∀ request, world.item = some request →
      Delivered network sender target (contractOf host world.chain) request) :
    Kept network host sender me target world.clear := by
  refine ⟨fun pending open_ => ?_, fun request same => ?_, kept.written, fun _ other member => ?_,
    kept.ordered⟩
  · obtain ⟨_, _, same⟩ := Option.map_eq_some_iff.mp open_
    exact same.symm
  · cases same
  · cases held : world.item with
    | none => exact kept.done held other member
    | some request =>
      rcases last_or_delivered kept.ordered (kept.last request held) other member with rfl | early
      · exact delivered other held
      · exact early

theorem Kept.discarded (kept : Kept network host sender me target world)
    (held : world.item ≠ none) : Kept network host sender me target world.discard := by
  obtain ⟨request, item⟩ := Option.ne_none_iff_exists'.mp held
  obtain ⟨front, whole⟩ := List.getLast?_eq_some_iff.mp (kept.last request item)
  have rest : world.composed.dropLast = front := by rw [whole, List.dropLast_concat]
  have ordered := kept.ordered
  rw [whole] at ordered
  obtain ⟨first, _, across⟩ := List.pairwise_append.mp ordered
  refine ⟨fun pending open_ => ?_, fun other same => ?_, fun other member => ?_,
    fun _ other member => ?_, ?_⟩
  · obtain ⟨_, _, same⟩ := Option.map_eq_some_iff.mp open_
    exact same.symm
  · cases same
  · exact kept.written other (List.dropLast_subset _ member)
  · rw [show world.discard.composed = front from rest] at member
    exact (across other member request List.mem_cons_self).1
  · rw [show world.discard.composed = front from rest]
    exact first

/-- Serving what is allowed keeps the page in order. -/
theorem Kept.served {request : PageRequest} {answer : PageAnswer request} {after : PageWorld}
    (kept : Kept network host sender me target world)
    (allows : allowed network host sender me target world request)
    (serves : pageServes network host sender world request answer after) :
    Kept network host sender me target after := by
  cases request with
  | getConversation a b => exact (show after = world from serves) ▸ kept
  | getIdentity account => exact (show after = world from serves) ▸ kept
  | submitAction operation => exact (show after = world from serves) ▸ kept
  | getMessage account messageId => exact serves.1 ▸ kept
  | randomBytes => exact serves.1 ▸ kept
  | getItem => exact serves.1 ▸ kept
  | setItem request =>
    obtain ⟨_, newest, before⟩ := allows
    rcases serves with ⟨_, rfl⟩ | ⟨_, rfl⟩
    · exact kept.stored newest before
    · exact kept
  | removeItem =>
    obtain rfl := serves
    exact kept.cleared allows
  | discardItem =>
    obtain rfl := serves
    exact kept.discarded allows
  | setPending pending =>
    obtain rfl := serves
    refine { kept with shown := fun other same => ?_ }
    obtain rfl := Option.some.inj same
    exact allows

/-! ### What the page asks -/

/-- However the world goes on, the program only asks what is allowed, and this holds of what it
returns. -/
abbrev Asks (network : Network) (host : Host) (sender : Address) (me : Identity) (target : Text)
    {Value : Type} (post : Value → PageWorld → Prop) (program : PageAction Value)
    (world : PageWorld) : Prop :=
  (pageService network host sender).Obeys (Kept network host sender me target)
    (allowed network host sender me target) post program world

section Asking

variable {Value Result : Type} {request : PageRequest}

/-- A request that is the whole program. -/
theorem asks_query {read : PageAnswer request → Except OpenFailure Value}
    {post : Value → PageWorld → Prop}
    (asks : ∀ later, pageDrifts world later → Kept network host sender me target later →
      allowed network host sender me target later request)
    (after : ∀ later answer last value final, pageDrifts world later →
      pageServes network host sender later request answer last → read answer = .ok value →
        pageDrifts last final → post value final) :
    Asks network host sender me target post (Program.query request read) world := by
  intro later drifts kept
  refine ⟨asks later drifts kept, fun answer last served _ => ?_⟩
  show Asks network host sender me target post (Program.lift (read answer)) last
  cases reading : read answer with
  | ok value =>
    intro final further _
    exact after later answer last value final drifts served reading further
  | error failure => trivial

/-- A computation that is the whole program. -/
theorem asks_lift {computation : Except OpenFailure Value} {post : Value → PageWorld → Prop}
    (after : ∀ value later, pageDrifts world later → post value later) :
    Asks network host sender me target post (Program.lift computation) world := by
  cases computation with
  | ok value => exact fun later drifts _ => after value later drifts
  | error failure => trivial

/-- A request that leaves the world as it is, first in a sequence. -/
theorem asks_reading {read : PageAnswer request → Except OpenFailure Value}
    {next : Value → PageAction Result} {post : Result → PageWorld → Prop}
    (leaves : ∀ later answer after,
      pageServes network host sender later request answer after → after = later)
    (asks : ∀ later, allowed network host sender me target later request)
    (after : ∀ later answer value, pageDrifts world later →
      Kept network host sender me target later →
      pageServes network host sender later request answer later → read answer = .ok value →
        Asks network host sender me target post (next value) later) :
    Asks network host sender me target post (Program.query request read >>= next) world := by
  refine .query_seq (fun later _ _ => asks later) ?_
  intro later answer last value drifts kept served _ reading
  obtain rfl := leaves later answer last served
  exact after last answer value drifts kept served reading

end Asking

/-- A page that is opened shows what is stored. -/
theorem asks_restore (sound : network.Sound)
    (coded : ∀ bytes, network.fromBase64url (network.crypto.toBase64url bytes) = some bytes) :
    Asks network host sender me target (fun _ _ => True) (restore network) world := by
  refine asks_reading (fun _ _ _ served => served.1) (fun _ => trivial) ?_
  intro first saved value _ kept served read
  obtain rfl : saved = value := Except.ok.inj read
  have whole : saved.filter (readable network) = first.item := by
    rw [served.2]
    cases held : first.item with
    | none => rfl
    | some request =>
      have member := List.mem_of_getLast? (kept.last request held)
      exact Option.filter_eq_some_iff.mpr
        ⟨rfl, ((kept.written request member).readable sound coded).1⟩
  refine asks_query (fun later drifts _ => ?_) fun _ _ _ _ _ _ _ _ _ => trivial
  exact whole.trans drifts.1.symm

/-- A new request is stored while nothing is, and comes after everything that was stored. -/
theorem asks_compose
    (coded : ∀ bytes, network.fromBase64url (network.crypto.toBase64url bytes) = some bytes)
    (text : Text) (empty : world.item = none) :
    Asks network host sender me target (fun request later => later.item = some request)
      (compose network me target text) world := by
  refine asks_reading (fun _ _ _ served => served) (fun _ => trivial) ?_
  intro first _ found drifts _ _ _
  have empty := drifts.1.trans empty
  refine .lift_seq fun conversation _ => ?_
  refine asks_reading (fun _ _ _ served => served) (fun _ => trivial) ?_
  intro second _ self drifts _ _ _
  have empty := drifts.1.trans empty
  refine asks_reading (fun _ _ _ served => served) (fun _ => trivial) ?_
  intro third _ other drifts _ _ _
  have empty := drifts.1.trans empty
  refine .lift_seq fun both _ => .lift_seq fun _ _ => ?_
  refine asks_reading (fun _ _ _ served => served.1) (fun _ => trivial) ?_
  intro drawing drawn value drifts kept served read
  obtain rfl : drawn = value := Except.ok.inj read
  have empty := drifts.1.trans empty
  refine .lift_seq fun request made => ?_
  have written : Written network me target request := ⟨text, conversation, both, drawn, made⟩
  have named : network.fromBase64url request.id = some drawn.1 := by
    unfold encrypted at made
    simp only [bind_ok_iff, mapError_eq_ok, Except.ok.injEq] at made
    obtain ⟨_, _, rfl⟩ := made
    exact coded drawn.1
  -- The id is new when it is drawn, so what is on the chain then comes before it.
  have before : ∀ earlier ∈ drawing.composed,
      Before network sender target (contractOf host drawing.chain) earlier request := by
    intro earlier member
    have delivered := kept.done empty earlier member
    obtain ⟨message, id, envelope, known, opened, stored, content⟩ := delivered
    exact ⟨⟨message, id, envelope, known, opened, stored, content⟩, id, drawn.1, known, named,
      Messaging.precedes_of_free stored served.2⟩
  refine .query_seq (fun later drifts _ => ⟨drifts.1.trans empty, written, ?_⟩) ?_
  · intro earlier member
    rw [drifts.2.1] at member
    exact (before earlier member).grows drifts.2.2.1
  · intro later answer last value _ _ served _ read
    refine .done fun final drifts _ => ?_
    rcases served with ⟨_, rfl⟩ | ⟨failed, _⟩
    · exact drifts.1
    · exact absurd (mapError_eq_ok.mp read) failed

/-- What is checked of a record it says of its message. -/
theorem carries_of_checked {state : Messaging.State} {request : Pending} {id : Bytes}
    {record : DirectMessageRecord} {message : Messaging.MessageRecord} {failure : String}
    (named : network.fromBase64url request.id = some id)
    (stored : state.messages.get (Messaging.messageKey sender.val id) = some message)
    (same : record = recordView network message) {result : Unit}
    (checked : checkContent network target request record failure = .ok result) :
    Carries network sender target state request message := by
  unfold checkContent at checked
  simp only [bind_ok_iff, check_eq_ok, decoded_eq_ok] at checked
  obtain ⟨_, ⟨recipient, generation⟩, envelope, served, content⟩ := checked
  subst same
  exact ⟨id, envelope, named, served, stored, recipient, generation, content⟩

/-- What is stored is submitted and nothing else, and it is forgotten only when it is on the
chain. -/
theorem asks_deliver (sound : network.Sound) (own : me.account = network.toBase58 sender.val)
    (request : Pending) (held : world.item = some request) :
    Asks network host sender me target (fun _ _ => True)
      (deliver network me target request) world := by
  refine .lift_seq fun id decodes => ?_
  have named := decoded_eq_ok.mp decodes
  refine asks_reading (fun _ _ _ served => served.1) (fun _ => trivial) ?_
  intro first _ existing drifts kept _ _
  have held := drifts.1.trans held
  have settles : Asks network host sender me target (fun _ later => later.item = some request)
      (settle network me target request id existing) first := by
    cases existing with
    | none =>
      refine .lift_seq fun envelope opens => ?_
      refine asks_query (fun later drifts _ => ?_) fun later _ last _ final drifts served _
        further => ?_
      · exact ⟨request, drifts.1.trans held, id, envelope, named, decoded_eq_ok.mp opens, rfl⟩
      · obtain rfl : last = later := served
        exact further.1.trans (drifts.1.trans held)
    | some record => exact asks_lift fun _ later drifts => drifts.1.trans held
  refine .seq kept settles fun _ second _ held => ?_
  refine asks_reading (fun _ _ _ served => served.1) (fun _ => trivial) ?_
  intro third answer confirmed drifts _ served read
  have held := drifts.1.trans held
  refine .lift_seq fun _ confirms => ?_
  have delivered : Delivered network sender target (contractOf host third.chain) request := by
    cases confirmed with
    | none => cases confirms
    | some record =>
      obtain ⟨account, message, based, stored, same⟩ :=
        stored_of_nodeRead (served.2 _ (mapError_eq_ok.mp read))
      rw [own, sound.fromBase58_toBase58] at based
      rw [← Option.some.inj based] at stored
      exact ⟨message, carries_of_checked named stored same confirms⟩
  refine asks_query (fun later drifts _ other same => ?_) fun _ _ _ _ _ _ _ _ _ => trivial
  obtain rfl := Option.some.inj ((drifts.1.trans held).symm.trans same)
  exact delivered.grows drifts.2.2.1

/-! ### Every run -/

variable (network host sender me target)

/-- The page is opened, the saved copy that it shows is discarded, or it sends what it shows or a
new text. -/
def PageStarted (world : PageWorld) (program : PageAction Unit) : Prop :=
  program = restore network ∨ (∃ request, world.page = some (some request) ∧ program = discard) ∨
    ∃ text pending, world.page = some pending ∧ program = send network me target text pending

/-- The configurations reached from an empty storage and a fresh contract; the page may be closed
anywhere, with what it was doing. -/
def PageReached (configuration : Service.Configuration PageRequest PageAnswer PageWorld
    OpenFailure Unit) : Prop :=
  (pageService network host sender).Admits (PageStarted network me target) ⟨none, none, [], []⟩
    configuration

variable {network host sender me target}

theorem kept_reached (sound : network.Sound)
    (coded : ∀ bytes, network.fromBase64url (network.crypto.toBase64url bytes) = some bytes)
    (own : me.account = network.toBase58 sender.val)
    {configuration : Service.Configuration PageRequest PageAnswer PageWorld OpenFailure Unit}
    (reached : PageReached network host sender me target configuration) :
    Kept network host sender me target configuration.1 ∧
      ∀ program, configuration.2 = some program →
        Asks network host sender me target (fun _ _ => True) program configuration.1 := by
  refine Service.invariant_admitted (fun _ _ kept drifts => kept.drifted drifts)
    (fun _ _ _ _ kept allows served => kept.served allows served) ?_ ?_ reached
  · rintro program world (rfl | ⟨request, page, rfl⟩ | ⟨text, pending, page, rfl⟩) kept
    · exact asks_restore sound coded
    · refine asks_query (fun later drifts _ => ?_) fun _ _ _ _ _ _ _ _ _ => trivial
      rw [show allowed network host sender me target later .discardItem = (later.item ≠ none) from
        rfl, drifts.1, ← kept.shown _ page]
      exact Option.some_ne_none request
    · obtain rfl := kept.shown pending page
      have requests : Asks network host sender me target
          (fun request later => later.item = some request)
          (requestFor network me target text world.item) world := by
        cases held : world.item with
        | none => exact asks_compose coded text held
        | some request => exact .done fun later drifts _ => drifts.1.trans held
      exact .seq kept requests fun request later _ held => asks_deliver sound own request held
  · refine ⟨fun _ impossible => ?_, fun _ impossible => ?_, fun _ impossible => ?_,
      fun _ _ impossible => ?_, .nil⟩
    · cases impossible
    · cases impossible
    · cases impossible
    · cases impossible

/-! ### How a message gets through -/

/-- A text that can be encrypted is stored, if the page and the node do not fail meanwhile. -/
theorem reached_stored {text : Text} {conversation : ConversationView}
    {both : IdentityView × IdentityView} {drawn : Bytes × Drawn} {request : Pending}
    (accepted : conversation.status = 2) (key : checkKey network me both.1 = .ok ())
    (made : encrypted network me target text conversation both drawn = .ok request)
    (fresh : (contractOf host world.chain).messages.get
      (Messaging.messageKey sender.val drawn.1) = none)
    (reached : PageReached network host sender me target
      (world, some (send network me target text none))) :
    PageReached network host sender me target
      (world.store request, some (deliver network me target request)) := by
  have accepts : accepting (some conversation) = .ok conversation := by
    unfold accepting
    rw [Option.filter_some, if_pos (decide_eq_true accepted)]
  unfold PageReached send requestFor compose getIdentity at reached
  simp only [Program.bind_assoc] at reached
  have told : (pageService network host sender).serve world (.getConversation me.account target)
      (.ok (some conversation)) world := rfl
  have self : (pageService network host sender).serve world (.getIdentity me.account)
      (.ok (some both.1)) world := rfl
  have other : (pageService network host sender).serve world (.getIdentity target)
      (.ok (some both.2)) world := rfl
  have draws : (pageService network host sender).serve world .randomBytes drawn world :=
    ⟨rfl, fresh⟩
  have stores : (pageService network host sender).serve world (.setItem request) (.ok ())
      (world.store request) := .inl ⟨rfl, rfl⟩
  have found := (reached.query told rfl).lift accepts
  have first := found.query self rfl
  have second := ((first.query other rfl).lift rfl).lift key
  exact ((second.query draws rfl).lift made).query stores rfl

/-- A retry ends, and forgets its message, once the chain has it. -/
theorem reached_forgotten (sound : network.Sound) (own : me.account = network.toBase58 sender.val)
    {request : Pending}
    (reached : PageReached network host sender me target
      (world, some (deliver network me target request)))
    (delivered : Delivered network sender target (contractOf host world.chain) request) :
    PageReached network host sender me target (world.clear, some (.done ())) := by
  obtain ⟨message, id, envelope, named, served, stored, recipient, generation, content⟩ := delivered
  have filed := Messaging.filed_final host world.chain _ _ stored
  obtain ⟨account, same⟩ := Messaging.messageKey_inj.mp filed.keyed
  have read : nodeRead network (contractOf host world.chain) me.account id =
      .ok (some (recordView network message)) := by
    rw [own]
    exact nodeRead_stored sound (same ▸ filed.identified) stored
  have checked : ∀ failure, checkContent network target request (recordView network message)
      failure = .ok () := by
    intro failure
    unfold checkContent
    simp only [bind_ok_iff, check_eq_ok, decoded_eq_ok]
    exact ⟨(), ⟨recipient, generation⟩, envelope, served, content⟩
  have saved : checkSaved network me target request id (recordView network message) = .ok () := by
    unfold checkSaved
    simp only [bind_ok_iff, check_eq_ok]
    refine ⟨(), ⟨?_, same.symm⟩, checked _⟩
    rw [own, account]
    rfl
  have answers : (pageService network host sender).serve world (.getMessage me.account id)
      (.ok (some (recordView network message))) world :=
    ⟨rfl, fun found answer => read.trans (by rw [Except.ok.inj answer])⟩
  have forgets : (pageService network host sender).serve world .removeItem () world.clear := rfl
  unfold PageReached deliver getMessage at reached
  have settled := ((reached.lift (decoded_eq_ok.mpr named)).query answers rfl).lift saved
  have confirms : confirm network target request (some (recordView network message)) = .ok () :=
    checked _
  exact ((settled.query answers rfl).lift confirms).answer forgets

/-- The page is opened and shows what is stored. -/
theorem reached_opened (saved : world.item.filter (readable network) = world.item)
    (reached : PageReached network host sender me target (world, none)) :
    PageReached network host sender me target ({ world with page := some world.item }, none) := by
  have restoring : PageStarted network me target world (restore network) := .inl rfl
  have reads : (pageService network host sender).serve world .getItem world.item world := ⟨rfl, rfl⟩
  have displays : (pageService network host sender).serve world
      (.setPending (world.item.filter (readable network))) ()
      { world with page := some world.item } := by
    rw [saved]
    rfl
  exact (((reached.start restoring).query reads rfl).answer displays).stop

/-- A stored message that the chain does not have is submitted; the answer is lost, and the page is
closed. -/
theorem reached_lost {request : Pending} {id envelope : Bytes} {later : List Messaging.Call}
    (named : network.fromBase64url request.id = some id)
    (served : network.fromBase64url request.envelope = some envelope)
    (unread : nodeRead network (contractOf host world.chain) me.account id = .ok none)
    (grown : world.chain <+: later)
    (reached : PageReached network host sender me target
      (world, some (deliver network me target request))) :
    PageReached network host sender me target ({ world with page := none, chain := later }, none) := by
  have answers : (pageService network host sender).serve world (.getMessage me.account id)
      (.ok none) world :=
    ⟨rfl, fun found answer => unread.trans (by rw [Except.ok.inj answer])⟩
  have loses : (pageService network host sender).serve world
      (.submitAction ⟨me.account, target, id, request.generation, envelope⟩)
      (.error "Failed to fetch") world := rfl
  have closes : (pageService network host sender).drift world
      { world with page := none, chain := later } :=
    ⟨rfl, rfl, grown, .inr rfl⟩
  unfold PageReached deliver getMessage at reached
  have absent := (reached.lift (decoded_eq_ok.mpr named)).query answers rfl
  unfold settle at absent
  dsimp only at absent
  rw [Program.bind_assoc] at absent
  have submits := absent.lift (decoded_eq_ok.mpr served)
  exact (submits.answer loses).stop.drift closes

/-- A text that can be encrypted gets through: it is stored and submitted, the answer is lost and
the page closed, the chain includes the message anyway, and a retry forgets it. -/
theorem reached_through (sound : network.Sound)
    (coded : ∀ bytes, network.fromBase64url (network.crypto.toBase64url bytes) = some bytes)
    (own : me.account = network.toBase58 sender.val) {text : Text}
    {conversation : ConversationView} {both : IdentityView × IdentityView} {drawn : Bytes × Drawn}
    {request : Pending} {chain later : List Messaging.Call} {composed : List Pending}
    (accepted : conversation.status = 2) (key : checkKey network me both.1 = .ok ())
    (made : encrypted network me target text conversation both drawn = .ok request)
    (fresh : (contractOf host chain).messages.get (Messaging.messageKey sender.val drawn.1) = none)
    (grown : chain <+: later)
    (delivered : Delivered network sender target (contractOf host later) request)
    (reached : PageReached network host sender me target (⟨none, some none, chain, composed⟩, none)) :
    PageReached network host sender me target
      (⟨none, some none, later, composed ++ [request]⟩, none) := by
  obtain ⟨readable, _⟩ := Written.readable sound coded ⟨text, conversation, both, drawn, made⟩
  have sending : PageStarted network me target ⟨none, some none, chain, composed⟩
      (send network me target text none) := .inr (.inr ⟨text, none, rfl, rfl⟩)
  have stored := reached_stored accepted key made fresh (reached.start sending)
  have closed : PageReached network host sender me target
      (⟨some request, none, later, composed ++ [request]⟩, none) := by
    unfold encrypted at made
    simp only [bind_ok_iff, mapError_eq_ok, Except.ok.injEq] at made
    obtain ⟨sent, accepted, rfl⟩ := made
    obtain ⟨identified, _⟩ := sized_of_accepted sound.crypto accepted
    refine reached_lost (coded drawn.1) (coded sent.1) ?_ grown stored
    rw [own]
    exact nodeRead_fresh sound identified fresh
  have shown := reached_opened (by rw [Option.filter_some, if_pos readable]) closed
  have retrying : PageStarted network me target
      ⟨some request, some (some request), later, composed ++ [request]⟩
      (deliver network me target request) := .inr (.inr ⟨text, some request, rfl, rfl⟩)
  exact (reached_forgotten sound own (shown.start retrying) delivered).stop

end Runs

/-- In every run, whatever the network fails to do, wherever the page is closed and whatever the
chain includes: an open page offers exactly what is stored; every message that was composed and
not discarded is stored or on the chain with its content; these messages have different ids, and
those on the chain are numbered in the order they were composed; and only what is stored is
submitted. -/
theorem messages_sent_once (network : Network) (sound : network.Sound)
    (coded : ∀ bytes, network.fromBase64url (network.crypto.toBase64url bytes) = some bytes)
    (host : Host) (sender : Address) (me : Identity)
    (own : me.account = network.toBase58 sender.val) (target : Text)
    (configuration : Service.Configuration PageRequest PageAnswer PageWorld OpenFailure Unit)
    (reached : PageReached network host sender me target configuration) :
    (∀ pending, configuration.1.page = some pending → pending = configuration.1.item) ∧
    (∀ request ∈ configuration.1.composed, Written network me target request ∧
      (configuration.1.item = some request ∨
        Delivered network sender target (contractOf host configuration.1.chain) request)) ∧
    (configuration.1.composed.Pairwise fun first second => first.id ≠ second.id ∧
      ∀ message later,
        Carries network sender target (contractOf host configuration.1.chain) first message →
        Carries network sender target (contractOf host configuration.1.chain) second later →
          message.sequence < later.sequence) ∧
    ∀ program operation, configuration.2 = some program →
      Service.pending program = some (.submitAction operation) →
        ∃ request, configuration.1.item = some request ∧
          Submits network me target request operation := by
  obtain ⟨kept, asks⟩ := kept_reached sound coded own reached
  refine ⟨kept.shown, fun request member => ⟨kept.written request member, ?_⟩, ?_, ?_⟩
  · cases held : configuration.1.item with
    | none => exact .inr (kept.done held request member)
    | some last =>
      rcases last_or_delivered kept.ordered (kept.last last held) request member with rfl | early
      · exact .inl rfl
      · exact .inr early
  · refine kept.ordered.imp fun before => ⟨before.different, fun message later one other => ?_⟩
    exact before.lower sound (Messaging.filed_final host configuration.1.chain) one other
  · intro program operation running asking
    exact Service.allowed_of_pending kept (asks program running) asking

/-! ### Two messages that are sent -/

/-- The sender of the messages. -/
def greeter : Identity := ⟨[], List.replicate 25 97⟩

/-- The keys of the two accounts. -/
def greetingParties : IdentityView × IdentityView :=
  (⟨List.replicate 32 1, 1⟩, ⟨List.replicate 32 2, 3⟩)

/-- A text, encrypted under an id of one byte repeated. -/
def sentOf (id : UInt8) (text : Text) : Except MessageError (Bytes × Bytes) :=
  encryptDirectMessage plainNetwork.crypto
    ⟨plainNetwork.chainId, plainNetwork.messaging, greeter.account, List.replicate 25 98,
      List.replicate 32 id, literal "1"⟩
    text (partiesOf greeter (List.replicate 25 98) greetingParties) sampleDrawn

def envelopeOf (id : UInt8) (text : Text) : Bytes := ((sentOf id text).toOption.getD ([], [])).1

def requestOf (id : UInt8) (text : Text) : Pending :=
  ⟨plainNetwork.crypto.toBase64url (List.replicate 32 id),
    plainNetwork.crypto.toBase64url (envelopeOf id text), literal "1"⟩

/-- The call that sends it. -/
def callOf (time : ℕ) (id : UInt8) (text : Text) : Messaging.Call :=
  ⟨Env.signedBy [] time, .sendMessage ⟨List.replicate 25 97, List.replicate 25 98, [],
    List.replicate 32 id, 1, envelopeOf id text⟩⟩

/-- The calls that open the conversation. -/
def openingCalls : List Messaging.Call := greetingCalls.take 3

def greeting : Pending := requestOf 7 (literal "hi")

def farewell : Pending := requestOf 8 (literal "bye")

def greetingChain : List Messaging.Call := openingCalls ++ [callOf 3 7 (literal "hi")]

def farewellChain : List Messaging.Call := greetingChain ++ [callOf 4 8 (literal "bye")]

theorem plainNetwork_coded (bytes : Bytes) :
    plainNetwork.fromBase64url (plainNetwork.crypto.toBase64url bytes) = some bytes :=
  sampleAddress_map bytes

theorem requestOf_encrypted {id : UInt8} {text : Text} (fine : (sentOf id text).toBool = true) :
    encrypted plainNetwork greeter (List.replicate 25 98) text ⟨2, literal "1"⟩ greetingParties
      (List.replicate 32 id, sampleDrawn) = .ok (requestOf id text) := by
  cases sent : sentOf id text with
  | error failure =>
    rw [sent] at fine
    cases fine
  | ok result =>
    unfold encrypted requestOf envelopeOf
    rw [sent]
    simp only [bind_ok_iff, mapError_eq_ok, Except.ok.injEq]
    exact ⟨result, sent, rfl⟩

/-- A request is on the chain if its message is stored in the first generation, with the digest that
these libraries give everything. -/
theorem delivered_of_stored {id : UInt8} {text : Text} {chain : List Messaging.Call}
    {sequence timestamp : ℕ}
    (stored : (contractOf zeroHost chain).messages.get
      (Messaging.messageKey (Address.repeated 97).val (List.replicate 32 id)) =
        some ⟨Address.repeated 97, Address.repeated 98, List.replicate 32 id, List.replicate 32 0, 1,
          sequence, timestamp⟩) :
    Delivered plainNetwork (Address.repeated 97) (List.replicate 25 98) (contractOf zeroHost chain)
      (requestOf id text) := by
  have generation : decimal 1 = literal "1" := by decide +kernel
  exact ⟨_, List.replicate 32 id, envelopeOf id text, plainNetwork_coded _, plainNetwork_coded _,
    stored, rfl, generation, rfl⟩

theorem messages_sent_once_greeting :
    PageReached plainNetwork zeroHost (Address.repeated 97) greeter (List.replicate 25 98)
      (⟨none, some none, farewellChain, [greeting, farewell]⟩, none) ∧
    Delivered plainNetwork (Address.repeated 97) (List.replicate 25 98)
      (contractOf zeroHost farewellChain) greeting ∧
    Delivered plainNetwork (Address.repeated 97) (List.replicate 25 98)
      (contractOf zeroHost farewellChain) farewell ∧
    greeting.id ≠ farewell.id := by
  have first := @requestOf_encrypted 7 (literal "hi") (by decide +kernel)
  have second := @requestOf_encrypted 8 (literal "bye") (by decide +kernel)
  have delivers : (pageService plainNetwork zeroHost (Address.repeated 97)).drift
      ⟨none, some none, [], []⟩ ⟨none, some none, openingCalls, []⟩ :=
    ⟨rfl, rfl, List.nil_prefix, .inl rfl⟩
  have opened := (reached_opened rfl (.refl : PageReached plainNetwork zeroHost (Address.repeated 97)
    greeter (List.replicate 25 98) (⟨none, none, [], []⟩, none))).drift delivers
  have greeted := reached_through plainNetwork_sound plainNetwork_coded rfl rfl rfl first
    (by decide +kernel) (List.prefix_append _ _) (delivered_of_stored
      (by decide +kernel : (contractOf zeroHost greetingChain).messages.get _ =
        some ⟨_, _, _, _, 1, 1, 3⟩)) opened
  have through := reached_through plainNetwork_sound plainNetwork_coded rfl rfl rfl second
    (by decide +kernel) (List.prefix_append _ _) (delivered_of_stored
      (by decide +kernel : (contractOf zeroHost farewellChain).messages.get _ =
        some ⟨_, _, _, _, 1, 2, 4⟩)) greeted
  obtain ⟨_, known, ordered, _⟩ := messages_sent_once plainNetwork plainNetwork_sound
    plainNetwork_coded zeroHost (Address.repeated 97) greeter rfl (List.replicate 25 98) _ through
  have delivered : ∀ request ∈ [greeting, farewell], Delivered plainNetwork (Address.repeated 97)
      (List.replicate 25 98) (contractOf zeroHost farewellChain) request := fun request member =>
    ((known request member).2).resolve_left fun held => by cases held
  exact ⟨through, delivered greeting List.mem_cons_self,
    delivered farewell (List.mem_cons_of_mem _ List.mem_cons_self),
    ((List.pairwise_pair.mp ordered)).1⟩

end OpenSocial.Web.Messages
