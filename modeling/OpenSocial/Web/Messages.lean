/-
This file models how the web client opens a direct message, and proves that whatever an
indexer serves, only what was sent is shown.

A row comes from an indexer, which may forge it. The client asks the node for the
record of the row's sender and id, and decrypts the row's envelope only if the record
names the two parties of the conversation and holds the hash of the envelope. So a
message that is shown was sent by its sender in an accepted conversation, and a row of
a message shows either its text or nothing.
-/

import OpenSocial.Messaging.Delivery
import OpenSocial.Sdk.DirectMessages

namespace OpenSocial.Web.Messages

open Library Library.Utf16 Sdk.Messages

/-! ### Values -/

/-- What opening a message uses of the deployment and the libraries; decoding and deriving may
throw. -/
structure Network where
  crypto : Crypto
  toBase58 : Bytes → Text
  fromBase64url : Text → Option Bytes
  deriveEncryptionSecret : (seed : Bytes) → (keyVersion : ℤ) → Option Bytes
  chainId : Text
  messaging : Text

/-- What the libraries are relied on for. -/
structure Network.Sound (network : Network) : Prop where
  crypto : network.crypto.Sound
  fromBase58_toBase58 : ∀ bytes,
    network.crypto.fromBase58 (network.toBase58 bytes) = some bytes

/-- The account that reads. -/
structure Identity where
  seed : Bytes
  account : Text

/-- A row of the indexer. -/
structure MessageView where
  sender : Text
  recipient : Text
  message_id : Text
  content_hash : Text
  generation : Text
  sequence : Text
  timestamp : Text
  envelope : Text
  txId : Text

/-- A record of the chain, as the client reads it. -/
structure DirectMessageRecord where
  sender : Text
  recipient : Text
  message_id : Bytes
  content_hash : Bytes
  generation : Text
  sequence : Text
  timestamp : Text
  deriving DecidableEq

/-- A message that is shown. -/
structure OpenedMessage where
  id : Text
  text : Text
  sender : Text
  timestamp : Text
  sequence : Text
  deriving DecidableEq

/-- Why a message is not shown: what the function throws, what the node answers, or what the SDK
throws. -/
inductive OpenFailure where
  | thrown (message : String)
  | node (reason : String)
  | sdk (error : MessageError)
  deriving DecidableEq

/-- The node's answer to `get_message`. -/
abbrev GetMessage := (sender : Text) → (messageId : Bytes) →
  Except String (Option DirectMessageRecord)

/-! ### Opening a message -/

section Opening

variable (network : Network)

/-- `if (!holds) throw new Error(message)`. -/
def check (holds : Prop) [Decidable holds] (message : String) : Except OpenFailure Unit :=
  if holds then .ok () else .error (.thrown message)

/-- `fromBase64url`. -/
def decoded (text : Text) : Except OpenFailure Bytes :=
  (network.fromBase64url text).elim (.error (.thrown "invalid base64url")) .ok

/-- The party of a conversation that is not the sender. -/
def otherParty (me : Identity) (peer sender : Text) : Text :=
  if sender = me.account then peer else me.account

/-- The record, if it is that of the row's message in this conversation. -/
def verifiedRecord (me : Identity) (peer sender : Text) (messageId : Bytes) :
    Option DirectMessageRecord → Except OpenFailure DirectMessageRecord
  | none => .error (.thrown "Message is not verified on chain")
  | some record =>
    if record.sender ≠ sender ∨ record.message_id ≠ messageId ∨
        record.recipient ≠ otherParty me peer sender then
      .error (.thrown "Message is not verified on chain")
    else .ok record

/-- `deriveEncryptionSecret(me.seed, v)`. -/
def secretForVersion (me : Identity) (version : ℤ) : Except MessageError Bytes :=
  given "seed must not be empty" (network.deriveEncryptionSecret me.seed version)

/-- The context a record's message is decrypted in. -/
def contextOf (record : DirectMessageRecord) (messageId : Bytes) : DirectMessageContext where
  chainId := network.chainId
  contract := network.messaging
  sender := record.sender
  recipient := record.recipient
  messageId := messageId
  generation := record.generation

/-- `openVerifiedMessage`. -/
def openVerifiedMessage (getMessage : GetMessage) (me : Identity) (peer : Text)
    (row : MessageView) : Except OpenFailure OpenedMessage := do
  check (row.sender = me.account ∨ row.sender = peer) "Unexpected sender"
  let id ← decoded network row.message_id
  check (id.length = 32) "Invalid message id"
  let found ← (getMessage row.sender id).mapError .node
  let record ← verifiedRecord me peer row.sender id found
  let envelope ← decoded network row.envelope
  let text ← (decryptDirectMessage network.crypto (contextOf network record id) envelope
    record.content_hash me.account (secretForVersion network me)).mapError .sdk
  .ok
    { id := row.sender ++ row.message_id
      text := text
      sender := record.sender
      timestamp := record.timestamp
      sequence := record.sequence }

/-! ### The node -/

/-- The decimal text of an integer. -/
def decimal (number : ℕ) : Text := literal (toString number)

/-- A message of the contract, as the client reads it. -/
def recordView (message : Messaging.MessageRecord) : DirectMessageRecord where
  sender := network.toBase58 message.sender.val
  recipient := network.toBase58 message.recipient.val
  message_id := message.messageId
  content_hash := message.contentHash
  generation := decimal message.generation
  sequence := decimal message.sequence
  timestamp := decimal message.timestamp

/-- What an honest node answers in a state of the contract. -/
def nodeRead (state : Messaging.State) : GetMessage := fun sender messageId =>
  match network.crypto.fromBase58 sender with
  | none => .error "invalid base58"
  | some account =>
    match Messaging.getMessage state account messageId with
    | .error _ => .error "reverted"
    | .ok found => .ok (found.map (recordView network))

end Opening

/-! ### What opening takes -/

section Facts

variable {network : Network} {getMessage : GetMessage} {me : Identity} {peer : Text}
  {row : MessageView} {opened : OpenedMessage}

/-- Everything that was checked of a message that is shown. -/
structure Opens (network : Network) (getMessage : GetMessage) (me : Identity) (peer : Text)
    (row : MessageView) (id : Bytes) (record : DirectMessageRecord) (envelope : Bytes)
    (text : Text) : Prop where
  party : row.sender = me.account ∨ row.sender = peer
  identifier : network.fromBase64url row.message_id = some id
  identified : id.length = 32
  recorded : getMessage row.sender id = .ok (some record)
  sender : record.sender = row.sender
  message_id : record.message_id = id
  recipient : record.recipient = otherParty me peer row.sender
  enveloped : network.fromBase64url row.envelope = some envelope
  decrypted : decryptDirectMessage network.crypto (contextOf network record id) envelope
    record.content_hash me.account (secretForVersion network me) = .ok text

theorem bind_ok_iff {Error Value Result : Type} {first : Except Error Value}
    {rest : Value → Except Error Result} {result : Result} :
    (first >>= rest) = .ok result ↔ ∃ value, first = .ok value ∧ rest value = .ok result := by
  constructor
  · exact Sdk.ok_of_bind
  · rintro ⟨value, rfl, answered⟩
    exact answered

theorem check_eq_ok {holds : Prop} [Decidable holds] {message : String} {result : Unit} :
    check holds message = .ok result ↔ holds := by
  unfold check
  by_cases fine : holds
  · rw [if_pos fine]
    exact ⟨fun _ => fine, fun _ => rfl⟩
  · rw [if_neg fine]
    exact ⟨nofun, fun holds => absurd holds fine⟩

theorem decoded_eq_ok {text : Text} {bytes : Bytes} :
    decoded network text = .ok bytes ↔ network.fromBase64url text = some bytes := by
  unfold decoded
  cases network.fromBase64url text with
  | none => exact ⟨nofun, nofun⟩
  | some other =>
    exact ⟨fun same => congrArg some (Except.ok.inj same),
      fun same => congrArg Except.ok (Option.some.inj same)⟩

theorem verifiedRecord_eq_ok {sender : Text} {messageId : Bytes}
    {found : Option DirectMessageRecord} {record : DirectMessageRecord} :
    verifiedRecord me peer sender messageId found = .ok record ↔ found = some record ∧
      record.sender = sender ∧ record.message_id = messageId ∧
        record.recipient = otherParty me peer sender := by
  cases found with
  | none => exact ⟨nofun, fun impossible => absurd impossible.1 (Option.some_ne_none record).symm⟩
  | some other =>
    unfold verifiedRecord
    dsimp only
    by_cases wrong : other.sender ≠ sender ∨ other.message_id ≠ messageId ∨
        other.recipient ≠ otherParty me peer sender
    · rw [if_pos wrong]
      refine ⟨nofun, ?_⟩
      rintro ⟨same, fromSender, named, addressed⟩
      obtain rfl := Option.some.inj same
      rcases wrong with other | other | other
      · exact absurd fromSender other
      · exact absurd named other
      · exact absurd addressed other
    · rw [if_neg wrong]
      rw [not_or, not_or, not_not, not_not, not_not] at wrong
      constructor
      · intro same
        obtain rfl := Except.ok.inj same
        exact ⟨rfl, wrong⟩
      · rintro ⟨same, _⟩
        exact congrArg Except.ok (Option.some.inj same)

/-- A message is shown exactly if everything about it is as it should be. -/
theorem openVerifiedMessage_eq_ok :
    openVerifiedMessage network getMessage me peer row = .ok opened ↔
      ∃ id record envelope text, Opens network getMessage me peer row id record envelope text ∧
        opened = ⟨row.sender ++ row.message_id, text, record.sender, record.timestamp,
          record.sequence⟩ := by
  unfold openVerifiedMessage
  simp only [bind_ok_iff, check_eq_ok, decoded_eq_ok, mapError_eq_ok, verifiedRecord_eq_ok]
  constructor
  · rintro ⟨_, party, id, identifier, _, identified, found, recorded, record,
      ⟨rfl, sender, named, recipient⟩, envelope, enveloped, text, decrypted, same⟩
    exact ⟨id, record, envelope, text, ⟨party, identifier, identified, recorded, sender, named,
      recipient, enveloped, decrypted⟩, (Except.ok.inj same).symm⟩
  · rintro ⟨id, record, envelope, text, opens, rfl⟩
    exact ⟨(), opens.party, id, opens.identifier, (), opens.identified, some record,
      opens.recorded, record, ⟨rfl, opens.sender, opens.message_id, opens.recipient⟩, envelope,
      opens.enveloped, text, opens.decrypted, rfl⟩

/-- The envelope of a message that is decrypted has the recorded hash. -/
theorem hash_of_decrypted {crypto : Crypto} {c : DirectMessageContext}
    {envelope hash : Bytes} {account text : Text}
    {secretOf : ℤ → Except MessageError Bytes}
    (answered : decryptDirectMessage crypto c envelope hash account secretOf = .ok text) :
    crypto.sha256 envelope = hash := by
  obtain ⟨_, fine, _⟩ := Sdk.ok_of_bind answered
  unfold Sdk.Messages.require at fine
  split at fine
  · next holds => exact holds.2.2
  · cases fine

/-- The reader is one of the two parties of what they open. -/
theorem Opens.among {id : Bytes} {record : DirectMessageRecord} {envelope : Bytes} {text : Text}
    (opens : Opens network getMessage me peer row id record envelope text) :
    me.account = (contextOf network record id).sender ∨
      me.account = (contextOf network record id).recipient := by
  by_cases own : row.sender = me.account
  · exact .inl (own.symm.trans opens.sender.symm)
  · refine .inr ?_
    have addressed := opens.recipient
    unfold otherParty at addressed
    rw [if_neg own] at addressed
    exact addressed.symm

/-! ### What the node reads -/

variable {state : Messaging.State} {sender : Text} {messageId : Bytes}

/-- A record the node answers is a message stored under the sender's account and the id. -/
theorem stored_of_nodeRead {record : DirectMessageRecord}
    (read : nodeRead network state sender messageId = .ok (some record)) :
    ∃ (account : Address) (message : Messaging.MessageRecord),
      network.crypto.fromBase58 sender = some account.val ∧
        state.messages.get (Messaging.messageKey account.val messageId) = some message ∧
          record = recordView network message := by
  unfold nodeRead at read
  cases based : network.crypto.fromBase58 sender with
  | none =>
    rw [based] at read
    cases read
  | some bytes =>
    rw [based] at read
    dsimp only at read
    cases answer : Messaging.getMessage state bytes messageId with
    | error failure =>
      rw [answer] at read
      cases read
    | ok found =>
      rw [answer] at read
      simp only [Messaging.getMessage, bind_eq_ok, pure_eq_ok, Util.requireAddress_eq_ok,
        Util.requireBytes_eq_ok] at answer
      obtain ⟨account, rfl, _, ⟨rfl, _⟩, stored⟩ := answer
      cases found with
      | none => cases read
      | some message =>
        exact ⟨account, message, rfl, stored, (Option.some.inj (Except.ok.inj read)).symm⟩

/-- The node answers the record under the key of a message. -/
theorem nodeRead_eq (sound : network.Sound) {account : Address}
    (identified : messageId.length = 32) :
    nodeRead network state (network.toBase58 account.val) messageId =
      .ok ((state.messages.get (Messaging.messageKey account.val messageId)).map
        (recordView network)) := by
  have answer : Messaging.getMessage state account.val messageId =
      .ok (state.messages.get (Messaging.messageKey account.val messageId)) := by
    simp only [Messaging.getMessage, bind_eq_ok, pure_eq_ok, Util.requireAddress_eq_ok,
      Util.requireBytes_eq_ok]
    refine ⟨account, rfl, messageId, ⟨rfl, ?_, identified.le⟩, rfl⟩
    rintro rfl
    cases identified
  unfold nodeRead
  rw [sound.fromBase58_toBase58]
  dsimp only
  rw [answer]

/-- The node answers a message that is stored. -/
theorem nodeRead_stored (sound : network.Sound) {account : Address}
    {message : Messaging.MessageRecord} (identified : messageId.length = 32)
    (stored : state.messages.get (Messaging.messageKey account.val messageId) = some message) :
    nodeRead network state (network.toBase58 account.val) messageId =
      .ok (some (recordView network message)) := by
  rw [nodeRead_eq sound identified, stored]
  rfl

theorem nodeRead_fresh (sound : network.Sound) {account : Address}
    (identified : messageId.length = 32)
    (fresh : state.messages.get (Messaging.messageKey account.val messageId) = none) :
    nodeRead network state (network.toBase58 account.val) messageId = .ok none := by
  rw [nodeRead_eq sound identified, fresh]
  rfl

end Facts

/-! ### Messages that were encrypted -/

section Encrypted

variable {network : Network} {me : Identity} {c : DirectMessageContext} {text : Text}
  {participants : List Recipient} {drawn : Drawn} {envelope hash : Bytes}

/-- The reader can derive the keys that were sealed for them. -/
def HoldsKeys (network : Network) (me : Identity) (participants : List Recipient) : Prop :=
  ∀ participant ∈ participants, At network.crypto me.account participant →
    ∃ secret : Bytes, secret.length = 32 ∧
      network.crypto.publicKey secret = participant.publicKey ∧
        network.deriveEncryptionSecret me.seed participant.keyVersion = some secret

/-- A party decrypts what was encrypted, unless the key sealed for them has the version 0. -/
theorem decrypt_accepted (sound : network.Sound)
    (accepted : encryptDirectMessage network.crypto c text participants drawn =
      .ok (envelope, hash)) (holds : HoldsKeys network me participants)
    (among : me.account = c.sender ∨ me.account = c.recipient) {participant : Recipient}
    (member : participant ∈ participants) (isAt : At network.crypto me.account participant) :
    decryptDirectMessage network.crypto c envelope hash me.account (secretForVersion network me) =
      if participant.keyVersion = 0 then .error (.thrown "No decryption key for this account")
      else .ok (utf8Decode network.crypto.lossy (utf8 text)) := by
  obtain ⟨bound, ciphertext, keys, sent, encodable, rfl, rfl⟩ :=
    sent_of_accepted sound.crypto accepted
  obtain ⟨secret, long, own, derived⟩ := holds participant member isAt
  have answers : secretForVersion network me participant.keyVersion = .ok secret := by
    unfold secretForVersion
    rw [derived]
    rfl
  have positive : participant.keyVersion < 1 ↔ participant.keyVersion = 0 := by
    have low := sent.version_nonneg sound.crypto encodable member
    omega
  rw [decrypt_sent sound.crypto sent encodable member among isAt long own answers]
  exact if_congr positive rfl rfl

/-- Each party is among the participants of what was encrypted. -/
theorem participant_of_accepted (sound : network.Sound)
    (accepted : encryptDirectMessage network.crypto c text participants drawn =
      .ok (envelope, hash)) (among : me.account = c.sender ∨ me.account = c.recipient) :
    ∃ participant ∈ participants, At network.crypto me.account participant := by
  obtain ⟨_, _, _, sent, _, _, _⟩ := sent_of_accepted sound.crypto accepted
  exact sent.those.2.2 _ (List.mem_pair.mpr among)

/-- A message decrypted from what was encrypted was encrypted in the same context, and its text is
what the bytes of the text decode to. -/
theorem text_of_decrypted (sound : network.Sound)
    (accepted : encryptDirectMessage network.crypto c text participants drawn =
      .ok (envelope, hash)) (only : OpensOnly network.crypto c text drawn)
    (holds : HoldsKeys network me participants) {other : DirectMessageContext} {shown : Text}
    (among : me.account = other.sender ∨ me.account = other.recipient)
    (decrypted : decryptDirectMessage network.crypto other envelope hash me.account
      (secretForVersion network me) = .ok shown) :
    other = c ∧ shown = utf8Decode network.crypto.lossy (utf8 text) := by
  have same : other = c := by
    obtain ⟨bound, ciphertext, keys, sent, encodable, rfl, rfl⟩ :=
      sent_of_accepted sound.crypto accepted
    by_contra different
    exact bound_of_sent sound.crypto sent encodable only other different _ _ _ _ decrypted
  subst same
  obtain ⟨participant, member, isAt⟩ := participant_of_accepted sound accepted among
  rw [decrypt_accepted sound accepted holds among member isAt] at decrypted
  split at decrypted
  · cases decrypted
  · exact ⟨rfl, (Except.ok.inj decrypted).symm⟩

end Encrypted

/-! ### What is shown -/

/-- A row serves another envelope with the same hash. -/
def Collides (network : Network) (row : MessageView) (envelope : Bytes) : Prop :=
  ∃ other, network.fromBase64url row.envelope = some other ∧ other ≠ envelope ∧
    network.crypto.sha256 other = network.crypto.sha256 envelope

section Served

variable {network : Network} {state : Messaging.State} {message : Messaging.MessageRecord}
  {text : Text} {participants : List Recipient} {drawn : Drawn} {envelope : Bytes}
  {me : Identity} {peer : Text} {row : MessageView}

/-- A row that serves the hash of what was encrypted serves its envelope. -/
theorem served_envelope (sound : network.Sound) {c : DirectMessageContext} {hash served : Bytes}
    (accepted : encryptDirectMessage network.crypto c text participants drawn =
      .ok (envelope, hash)) (apart : ¬ Collides network row envelope)
    (enveloped : network.fromBase64url row.envelope = some served)
    (hashed : network.crypto.sha256 served = hash) : served = envelope := by
  by_contra different
  refine apart ⟨served, enveloped, different, ?_⟩
  obtain ⟨_, _, _, _, _, rfl, recorded⟩ := sent_of_accepted sound.crypto accepted
  exact hashed.trans recorded

/-- The reader and the peer are the two parties of a message. -/
def AreParties (network : Network) (message : Messaging.MessageRecord) (me : Identity)
    (peer : Text) : Prop :=
  (me.account = network.toBase58 message.sender.val ∧
      peer = network.toBase58 message.recipient.val) ∨
    me.account = network.toBase58 message.recipient.val ∧
      peer = network.toBase58 message.sender.val

theorem AreParties.among (parties : AreParties network message me peer) :
    me.account = network.toBase58 message.sender.val ∨
      me.account = network.toBase58 message.recipient.val :=
  parties.imp And.left And.left

/-- The other party of what the sender sent is its recipient. -/
theorem AreParties.otherParty (parties : AreParties network message me peer) :
    network.toBase58 message.recipient.val =
      otherParty me peer (network.toBase58 message.sender.val) := by
  unfold Messages.otherParty
  rcases parties with ⟨own, other⟩ | ⟨own, other⟩
  · rw [if_pos own.symm, other]
  · by_cases same : network.toBase58 message.sender.val = me.account
    · rw [if_pos same, other, same, own]
    · rw [if_neg same, own]

/-- A row that serves the envelope of a message shows the text of the message. -/
theorem opened_of_served (sound : network.Sound)
    (stored : state.messages.get
      (Messaging.messageKey message.sender.val message.messageId) = some message)
    (identified : message.messageId.length = 32)
    (accepted : encryptDirectMessage network.crypto
      (contextOf network (recordView network message) message.messageId) text participants drawn =
        .ok (envelope, message.contentHash))
    (holds : HoldsKeys network me participants) (parties : AreParties network message me peer)
    (sender : row.sender = network.toBase58 message.sender.val)
    (identifier : network.fromBase64url row.message_id = some message.messageId)
    (enveloped : network.fromBase64url row.envelope = some envelope)
    {participant : Recipient} (member : participant ∈ participants)
    (isAt : At network.crypto me.account participant) (version : participant.keyVersion ≠ 0) :
    openVerifiedMessage network (nodeRead network state) me peer row =
      .ok ⟨row.sender ++ row.message_id, utf8Decode network.crypto.lossy (utf8 text),
        row.sender, decimal message.timestamp, decimal message.sequence⟩ := by
  have read := nodeRead_stored sound identified stored
  rw [← sender] at read
  refine openVerifiedMessage_eq_ok.mpr ⟨message.messageId, recordView network message, envelope,
    _, ⟨?_, identifier, identified, read, sender.symm, rfl, ?_, enveloped,
      (decrypt_accepted sound accepted holds parties.among member isAt).trans (if_neg version)⟩, ?_⟩
  · rcases parties with ⟨own, _⟩ | ⟨_, other⟩
    · exact .inl (sender.trans own.symm)
    · exact .inr (sender.trans other.symm)
  · rw [sender]
    exact parties.otherParty
  · rw [sender]
    rfl

end Served

/-- Whatever row an indexer serves and whatever the node leaves unanswered, a message that is shown
is one that an accepted call of its sender stored, in a conversation both parties accepted, between
the reader and the peer. If its sender encrypted the stored content with the client, it was
encrypted for this very message, and its text is shown. -/
theorem opened_authentic (network : Network) (sound : network.Sound) (host : Host)
    (digest : ∀ bytes, Messaging.contentHash host bytes = network.crypto.sha256 bytes)
    (calls : List Messaging.Call) (getMessage : GetMessage)
    (honest : ∀ sender messageId found, getMessage sender messageId = .ok found →
      nodeRead network ((Messaging.machine host).final Messaging.empty calls) sender messageId =
        .ok found)
    (me : Identity) (peer : Text) (row : MessageView) (opened : OpenedMessage)
    (shown : openVerifiedMessage network getMessage me peer row = .ok opened) :
    ∃ message : Messaging.MessageRecord,
      (∃ entry ∈ (Messaging.machine host).history Messaging.empty calls,
        Messaging.Originates entry message ∧ ∃ envelope,
          network.fromBase64url row.envelope = some envelope ∧
            Messaging.contentHash host envelope = message.contentHash) ∧
      network.fromBase64url row.message_id = some message.messageId ∧
      opened.sender = row.sender ∧ network.toBase58 message.sender.val = row.sender ∧
      ((row.sender = me.account ∧ network.toBase58 message.recipient.val = peer) ∨
        row.sender = peer ∧ network.toBase58 message.recipient.val = me.account) ∧
      opened.sequence = decimal message.sequence ∧ opened.timestamp = decimal message.timestamp ∧
      ∀ c text participants drawn envelope,
        encryptDirectMessage network.crypto c text participants drawn =
          .ok (envelope, message.contentHash) →
        OpensOnly network.crypto c text drawn → HoldsKeys network me participants →
          ¬ Collides network row envelope →
            c = contextOf network (recordView network message) message.messageId ∧
              opened.text = utf8Decode network.crypto.lossy (utf8 text) := by
  obtain ⟨id, record, envelope, text, opens, rfl⟩ := openVerifiedMessage_eq_ok.mp shown
  obtain ⟨account, message, _, stored, rfl⟩ :=
    stored_of_nodeRead (honest _ _ _ opens.recorded)
  obtain ⟨entry, member, originates⟩ := Messaging.originates_final host calls _ _ stored
  have named : message.messageId = id := opens.message_id
  have hashed : network.crypto.sha256 envelope = message.contentHash :=
    hash_of_decrypted opens.decrypted
  refine ⟨message, ⟨entry, member, originates, envelope, opens.enveloped,
    (digest envelope).trans hashed⟩, ?_, opens.sender, opens.sender, ?_, rfl, rfl, ?_⟩
  · rw [named]
    exact opens.identifier
  · have addressed : network.toBase58 message.recipient.val = otherParty me peer row.sender :=
      opens.recipient
    unfold otherParty at addressed
    by_cases own : row.sender = me.account
    · rw [if_pos own] at addressed
      exact .inl ⟨own, addressed⟩
    · rw [if_neg own] at addressed
      exact .inr ⟨opens.party.resolve_left own, addressed⟩
  · intro c written participants drawn original accepted only holds apart
    obtain rfl := served_envelope sound accepted apart opens.enveloped hashed
    obtain ⟨context, decodes⟩ := text_of_decrypted sound accepted only holds opens.among
      opens.decrypted
    rw [named]
    exact ⟨context.symm, decodes⟩

/-- A row that names a message whose content its sender encrypted with the client shows the text of
the message exactly if it serves its envelope, whatever else it says, and the key that is sealed for
the reader has a version; and it shows nothing else. -/
theorem opened_iff (network : Network) (sound : network.Sound) (host : Host)
    (calls : List Messaging.Call) (message : Messaging.MessageRecord)
    (stored : ((Messaging.machine host).final Messaging.empty calls).messages.get
      (Messaging.messageKey message.sender.val message.messageId) = some message)
    (text : Text) (participants : List Recipient) (drawn : Drawn) (envelope : Bytes)
    (accepted : encryptDirectMessage network.crypto
      (contextOf network (recordView network message) message.messageId) text participants drawn =
        .ok (envelope, message.contentHash))
    (me : Identity) (holds : HoldsKeys network me participants) (peer : Text)
    (parties : AreParties network message me peer)
    (row : MessageView) (sender : row.sender = network.toBase58 message.sender.val)
    (identifier : network.fromBase64url row.message_id = some message.messageId)
    (apart : ¬ Collides network row envelope) (opened : OpenedMessage) :
    openVerifiedMessage network
        (nodeRead network ((Messaging.machine host).final Messaging.empty calls)) me peer row =
          .ok opened ↔
      network.fromBase64url row.envelope = some envelope ∧
        (∃ participant ∈ participants, At network.crypto me.account participant ∧
          participant.keyVersion ≠ 0) ∧
        opened = ⟨row.sender ++ row.message_id, utf8Decode network.crypto.lossy (utf8 text),
          row.sender, decimal message.timestamp, decimal message.sequence⟩ := by
  have identified := (Messaging.filed_final host calls _ _ stored).identified
  have read := nodeRead_stored sound identified stored
  rw [← sender] at read
  constructor
  · intro shown
    obtain ⟨id, record, found, shownText, opens, rfl⟩ := openVerifiedMessage_eq_ok.mp shown
    obtain rfl : id = message.messageId :=
      Option.some.inj (opens.identifier.symm.trans identifier)
    obtain rfl : record = recordView network message :=
      Option.some.inj (Except.ok.inj (opens.recorded.symm.trans read))
    obtain rfl := served_envelope sound accepted apart opens.enveloped
      (hash_of_decrypted opens.decrypted)
    obtain ⟨participant, member, isAt⟩ := participant_of_accepted sound accepted opens.among
    have decrypted := opens.decrypted
    rw [show (recordView network message).content_hash = message.contentHash from rfl,
      decrypt_accepted sound accepted holds opens.among member isAt] at decrypted
    split at decrypted
    · cases decrypted
    · next version =>
      refine ⟨opens.enveloped, ⟨participant, member, isAt, version⟩, ?_⟩
      rw [← Except.ok.inj decrypted, sender]
      rfl
  · rintro ⟨enveloped, ⟨participant, member, isAt, version⟩, rfl⟩
    exact opened_of_served sound stored identified accepted holds parties sender identifier
      enveloped member isAt version

/-! ### A message that is served -/

/-- Libraries whose texts are their bytes. -/
def plainNetwork : Network where
  crypto := sampleCrypto
  toBase58 := fun bytes => bytes.map UInt8.toUInt16
  fromBase64url := sampleAddress
  deriveEncryptionSecret := fun _ version => some (List.replicate 32 (if version = 1 then 1 else 2))
  chainId := literal "main"
  messaging := literal "messaging"

theorem sampleAddress_map (bytes : Bytes) :
    sampleAddress (bytes.map UInt8.toUInt16) = some bytes := by
  have small : (bytes.map UInt8.toUInt16).all (fun unit => unit.toNat < 256) = true := by
    refine List.all_eq_true.mpr fun unit member => ?_
    obtain ⟨byte, _, rfl⟩ := List.mem_map.mp member
    rw [decide_eq_true_eq, UInt8.toNat_toUInt16]
    exact byte.toNat_lt
  unfold sampleAddress
  rw [if_pos small, List.map_map]
  refine congrArg some ((List.map_congr_left fun byte _ => ?_).trans (List.map_id bytes))
  exact UInt8.toUInt8_toUInt16 byte

theorem plainNetwork_sound : plainNetwork.Sound where
  crypto := sampleCrypto_sound
  fromBase58_toBase58 := sampleAddress_map

theorem addressToBytes_plain {bytes : Bytes} (long : bytes.length = 25) :
    addressToBytes plainNetwork.crypto (.text (bytes.map UInt8.toUInt16)) = .ok bytes := by
  unfold addressToBytes
  dsimp only
  rw [show plainNetwork.crypto.fromBase58 (bytes.map UInt8.toUInt16) = some bytes from
    sampleAddress_map bytes]
  exact if_neg (not_not.mpr long)

/-- An account is at its own address. -/
theorem at_plain {bytes : Bytes} (long : bytes.length = 25) (publicKey : Bytes)
    (keyVersion : ℤ) :
    At plainNetwork.crypto (bytes.map UInt8.toUInt16)
      ⟨.text (bytes.map UInt8.toUInt16), publicKey, keyVersion⟩ :=
  ⟨bytes, addressToBytes_plain long, addressToBytes_plain long⟩

/-- A host whose digest is the one of those libraries. -/
def zeroHost : Host := ⟨List.replicate 25 9, [], fun _ => List.replicate 34 0⟩

/-- The envelope of a greeting. -/
def greetingEnvelope : Bytes := ((sampleMessage (literal "hi")).toOption.getD ([], [])).1

/-- A run that opens a conversation and sends the greeting. -/
def greetingCalls : List Messaging.Call :=
  let first := (Address.repeated 97).val
  let second := (Address.repeated 98).val
  let env := Env.signedBy []
  [⟨env 0, .setDependencies
      ⟨(Address.repeated 11).val, (Address.repeated 12).val, (Address.repeated 13).val⟩⟩,
    ⟨env 1, .requestConversation ⟨first, second, [], 0⟩⟩,
    ⟨env 2, .acceptConversation ⟨second, first, [], 1⟩⟩,
    ⟨env 3, .sendMessage ⟨first, second, [], List.replicate 32 7, 1, greetingEnvelope⟩⟩]

def greetingMessage : Messaging.MessageRecord :=
  ⟨Address.repeated 97, Address.repeated 98, List.replicate 32 7, List.replicate 32 0, 1, 1, 3⟩

/-- The recipient of the greeting. -/
def greeted : Identity := ⟨[], List.replicate 25 98⟩

/-- A row that serves this envelope for the greeting, and tells nothing else right. -/
def rowOf (envelope : Bytes) : MessageView where
  sender := List.replicate 25 97
  recipient := []
  message_id := List.replicate 32 7
  content_hash := []
  generation := []
  sequence := []
  timestamp := []
  envelope := envelope.map UInt8.toUInt16
  txId := []

theorem greeting_stored :
    ((Messaging.machine zeroHost).final Messaging.empty greetingCalls).messages.get
      (Messaging.messageKey greetingMessage.sender.val greetingMessage.messageId) =
        some greetingMessage := by
  decide +kernel

theorem greeting_context :
    contextOf plainNetwork (recordView plainNetwork greetingMessage) greetingMessage.messageId =
      sampleContext := rfl

theorem greeting_accepted :
    encryptDirectMessage plainNetwork.crypto
      (contextOf plainNetwork (recordView plainNetwork greetingMessage)
        greetingMessage.messageId) (literal "hi") sampleParticipants sampleDrawn =
          .ok (greetingEnvelope, greetingMessage.contentHash) := by
  rw [greeting_context]
  obtain ⟨envelope, hash, accepted⟩ := sampleMessage_accepted (literal "hi") (by decide +kernel)
  have named : greetingEnvelope = envelope := by
    unfold greetingEnvelope
    rw [accepted]
    rfl
  obtain ⟨_, _, _, _, _, _, rfl⟩ := sent_of_accepted sampleCrypto_sound accepted
  rw [named]
  exact accepted

theorem plainNetwork_holds (me : Identity) : HoldsKeys plainNetwork me sampleParticipants := by
  refine List.forall_mem_cons.mpr ⟨fun _ => ⟨List.replicate 32 1, rfl, rfl, rfl⟩,
    List.forall_mem_cons.mpr ⟨fun _ => ⟨List.replicate 32 2, rfl, rfl, rfl⟩, ?_⟩⟩
  intro participant member
  cases member

theorem rowOf_served (envelope : Bytes) :
    plainNetwork.fromBase64url (rowOf envelope).envelope = some envelope :=
  sampleAddress_map envelope

theorem rowOf_apart (envelope : Bytes) : ¬ Collides plainNetwork (rowOf envelope) envelope := by
  rintro ⟨other, served, different, _⟩
  exact different (Option.some.inj (served.symm.trans (rowOf_served envelope)))

theorem greeted_parties :
    AreParties plainNetwork greetingMessage greeted (List.replicate 25 97) :=
  .inr ⟨rfl, rfl⟩

/-- The recipient is shown the greeting. -/
theorem greeting_shown :
    openVerifiedMessage plainNetwork
        (nodeRead plainNetwork
          ((Messaging.machine zeroHost).final Messaging.empty greetingCalls)) greeted
        (List.replicate 25 97) (rowOf greetingEnvelope) =
      .ok ⟨(rowOf greetingEnvelope).sender ++ (rowOf greetingEnvelope).message_id,
        utf8Decode plainNetwork.crypto.lossy (utf8 (literal "hi")),
        (rowOf greetingEnvelope).sender, decimal greetingMessage.timestamp,
        decimal greetingMessage.sequence⟩ :=
  opened_of_served plainNetwork_sound greeting_stored (by decide) greeting_accepted
    (plainNetwork_holds greeted) greeted_parties rfl (sampleAddress_map (List.replicate 32 7))
    (rowOf_served greetingEnvelope) (List.mem_cons_of_mem _ List.mem_cons_self)
    (@at_plain (List.replicate 25 98) rfl _ _) (by decide)

theorem opened_authentic_greeting :
    ∃ message : Messaging.MessageRecord,
      (∃ entry ∈ (Messaging.machine zeroHost).history Messaging.empty greetingCalls,
        Messaging.Originates entry message) ∧
      message.messageId = List.replicate 32 7 ∧
      plainNetwork.toBase58 message.sender.val = List.replicate 25 97 ∧
      plainNetwork.toBase58 message.recipient.val = List.replicate 25 98 := by
  obtain ⟨message, ⟨entry, member, originates, _⟩, identifier, _, sender, parties, _⟩ :=
    opened_authentic plainNetwork plainNetwork_sound zeroHost (fun _ => rfl) greetingCalls _
      (fun _ _ _ answer => answer) greeted (List.replicate 25 97) (rowOf greetingEnvelope) _
      greeting_shown
  have named : some message.messageId = some (List.replicate 32 7) :=
    identifier.symm.trans (sampleAddress_map (List.replicate 32 7))
  refine ⟨message, ⟨entry, member, originates⟩, Option.some.inj named, sender, ?_⟩
  rcases parties with ⟨own, _⟩ | ⟨_, addressed⟩
  · have different : (rowOf greetingEnvelope).sender ≠ greeted.account := by decide
    exact absurd own different
  · exact addressed

/-- The sender is shown the greeting, too. -/
theorem opened_iff_greeting :
    openVerifiedMessage plainNetwork
        (nodeRead plainNetwork
          ((Messaging.machine zeroHost).final Messaging.empty greetingCalls))
        ⟨[], List.replicate 25 97⟩ (List.replicate 25 98) (rowOf greetingEnvelope) =
      .ok ⟨(rowOf greetingEnvelope).sender ++ (rowOf greetingEnvelope).message_id,
        utf8Decode plainNetwork.crypto.lossy (utf8 (literal "hi")),
        (rowOf greetingEnvelope).sender, decimal greetingMessage.timestamp,
        decimal greetingMessage.sequence⟩ :=
  (opened_iff plainNetwork plainNetwork_sound zeroHost greetingCalls greetingMessage
    greeting_stored (literal "hi") sampleParticipants sampleDrawn greetingEnvelope
    greeting_accepted ⟨[], List.replicate 25 97⟩ (plainNetwork_holds _) (List.replicate 25 98)
    (.inl ⟨rfl, rfl⟩) (rowOf greetingEnvelope) rfl (sampleAddress_map (List.replicate 32 7))
    (rowOf_apart greetingEnvelope) _).mpr
      ⟨rowOf_served greetingEnvelope, ⟨_, List.mem_cons_self,
        @at_plain (List.replicate 25 97) rfl _ _, by decide⟩, rfl⟩

end OpenSocial.Web.Messages
