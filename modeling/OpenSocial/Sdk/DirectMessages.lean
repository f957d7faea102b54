/-
This file proves when a direct message comes back. Whatever is accepted is sealed for
both participants and fits into an envelope; each of them finds the key that is
sealed for them, opens it and decrypts the bytes of the text. The bytes are the text
again if it is well formed and has no byte-order mark in front, and the key is looked
for only if its version is not zero.

The associated data is the text of a JSON object whose members are quoted, and a
context is recovered from it, so no other context opens the ciphertext.
-/

import OpenSocial.Library.Outcome
import OpenSocial.Sdk.MessageCodec

namespace OpenSocial.Sdk.Messages

open Library Library.Utf16 Extension

/-- What the libraries are relied on for. -/
structure Crypto.Sound (crypto : Crypto) : Prop where
  decrypt_encrypt : ∀ key nonce aad plaintext ciphertext,
    crypto.encrypt key nonce aad plaintext = some ciphertext →
      crypto.decrypt key nonce aad ciphertext = some plaintext
  encrypt_lengths : ∀ key nonce aad plaintext ciphertext,
    crypto.encrypt key nonce aad plaintext = some ciphertext →
      nonce.length = 24 ∧ ciphertext.length = plaintext.length + 16
  publicKey_length : ∀ secret, secret.length = 32 → (crypto.publicKey secret).length = 32
  sharedSecret_comm : ∀ first second, first.length = 32 → second.length = 32 →
    crypto.sharedSecret first (crypto.publicKey second) =
      crypto.sharedSecret second (crypto.publicKey first)
  fromBase58_inj : ∀ first second bytes, crypto.fromBase58 first = some bytes →
    crypto.fromBase58 second = some bytes → first = second
  toBase64url_inj : ∀ first second, crypto.toBase64url first = crypto.toBase64url second →
    first = second
  sha256_length : ∀ bytes, (crypto.sha256 bytes).length = 32

section Messages

variable {crypto : Crypto}

/-! ### Associated data -/

theorem boundMembers_sorted (c : DirectMessageContext) :
    (boundMembers crypto c).insertionSort (fun first second => first.1 ≤ second.1) =
      [(literal "chainId", c.chainId), (literal "contract", c.contract),
        (literal "domain", literal "osp/v1/direct-message"), (literal "generation", c.generation),
        (literal "id", crypto.toBase64url c.messageId), (literal "recipient", c.recipient),
        (literal "sender", c.sender)] := rfl

theorem aad_ok {c : DirectMessageContext} {bound : Bytes} (found : aad crypto c = .ok bound) :
    bound = Library.Utf16.bytesOf (canonicalText (boundMembers crypto c)) := by
  unfold aad at found
  by_cases invalid : c.messageId.length ≠ 32 ∨ isGeneration c.generation = false
  · rw [if_pos invalid] at found
    cases found
  · rw [if_neg invalid] at found
    exact (Except.ok.inj found).symm

/-- A context is recovered from its associated data. -/
theorem aad_inj (sound : crypto.Sound) {first second : DirectMessageContext} {bound : Bytes}
    (one : aad crypto first = .ok bound) (other : aad crypto second = .ok bound) :
    first = second := by
  have same := bytesOf_inj ((aad_ok one).symm.trans (aad_ok other))
  have members := objectText_inj same
  rw [boundMembers_sorted, boundMembers_sorted] at members
  injection members with chainId members
  injection members with contract members
  injection members with domain members
  injection members with generation members
  injection members with messageId members
  injection members with recipient members
  injection members with sender members
  have identifier := sound.toBase64url_inj _ _ (congrArg Prod.snd messageId)
  cases first with
  | mk chain contractId senderId recipientId identifierBytes number =>
    cases second with
    | mk _ _ _ _ _ _ =>
      cases congrArg Prod.snd chainId
      cases congrArg Prod.snd contract
      cases congrArg Prod.snd generation
      cases congrArg Prod.snd recipient
      cases congrArg Prod.snd sender
      cases identifier
      rfl

/-! ### What is accepted -/

/-- Not a refusal because of the size of the envelope. -/
def Other (error : MessageError) : Prop := error ≠ .thrown TOO_LARGE

theorem meets_require {holds : Prop} [Decidable holds] {message : String}
    (other : message ≠ TOO_LARGE) : Meets Other (require holds message) fun _ => holds := by
  unfold require
  by_cases fine : holds
  · rw [if_pos fine]
    exact .ok fine
  · rw [if_neg fine]
    exact .error fun same => other (MessageError.thrown.inj same)

theorem meets_given {Value : Type} {message : String} (other : message ≠ TOO_LARGE)
    (value : Option Value) : Meets Other (given message value) fun found => value = some found := by
  cases value with
  | none => exact .error fun same => other (MessageError.thrown.inj same)
  | some found => exact .ok rfl

theorem meets_addressToBytes (address : AddressLike) :
    Meets Other (addressToBytes crypto address) fun bytes =>
      addressToBytes crypto address = .ok bytes := by
  cases found : addressToBytes crypto address with
  | ok bytes => exact .ok rfl
  | error error =>
    refine .error fun same => ?_
    rw [same] at found
    unfold addressToBytes at found
    dsimp only at found
    split at found
    · cases found
    · split at found
      · cases found
      · cases found

theorem length_addressToBytes {address : AddressLike} {bytes : Bytes}
    (found : addressToBytes crypto address = .ok bytes) : bytes.length = 25 := by
  unfold addressToBytes at found
  dsimp only at found
  split at found
  · cases found
  · split at found
    · cases found
    · next fine =>
      cases found
      exact not_not.mp fine

/-- A key that is sealed for a participant. -/
def SealedFor (crypto : Crypto) (c : DirectMessageContext) (messageKey : Bytes)
    (participant : Recipient) (key : SealedKey) : Prop :=
  ∃ (drawn : Bytes × Bytes) (shared bound : Bytes),
    messageKey.length = 32 ∧ drawn.1.length = 32 ∧ drawn.2.length = 24 ∧
      crypto.sharedSecret drawn.1 participant.publicKey = some shared ∧
      addressToBytes crypto participant.address = .ok key.recipient ∧
      sealAad crypto (messageAudience c) (.bytes key.recipient) = .ok bound ∧
      crypto.encrypt (deriveSealKey crypto shared (crypto.publicKey drawn.1) participant.publicKey)
        drawn.2 bound messageKey = some key.ciphertext ∧
      key.recipient_key_version = participant.keyVersion ∧
      key.ephemeral_public_key = crypto.publicKey drawn.1 ∧ key.nonce = drawn.2

/-- Two addresses are read, and nothing else can fail. -/
theorem meets_sealAad (c : DirectMessageContext) (recipient : AddressLike) :
    Meets Other (sealAad crypto (messageAudience c) recipient) fun bound =>
      sealAad crypto (messageAudience c) recipient = .ok bound := by
  have epoch : Meets Other (u32be (messageAudience c).epoch) fun _ => True := .ok trivial
  have answers : Meets Other (sealAad crypto (messageAudience c) recipient) fun _ => True :=
    .seq (meets_addressToBytes (.text c.sender)) fun _ _ =>
      .seq epoch fun _ _ => .seq (meets_addressToBytes recipient) fun _ _ => .ok trivial
  exact answers.remember

theorem meets_sealEpochKey (c : DirectMessageContext) (messageKey : Bytes)
    (participant : Recipient) (drawn : Bytes × Bytes) :
    Meets Other (sealEpochKey crypto (messageAudience c) messageKey participant drawn)
      (SealedFor crypto c messageKey participant) :=
  .seq (meets_require (by decide)) fun _ keyLength =>
    .seq (meets_require (by decide)) fun _ _ =>
      .seq (meets_require (by decide)) fun _ secretLength =>
        .seq (meets_require (by decide)) fun _ nonceLength =>
          .seq (meets_given (by decide) _) fun shared agreed =>
            .seq (meets_addressToBytes participant.address) fun _ addressed =>
              .seq (meets_sealAad c _) fun bound isBound =>
                .seq (meets_given (by decide) _) fun _ encrypted =>
                  .ok ⟨drawn, shared, bound, keyLength, secretLength, nonceLength, agreed,
                    addressed, isBound, encrypted, rfl, rfl, rfl⟩

/-- A key is sealed for every participant. -/
theorem meets_sealAll (c : DirectMessageContext) (drawn : Drawn) (place : ℕ)
    (participants : List Recipient) :
    Meets Other (sealAll crypto c drawn place participants) fun keys =>
      List.Forall₂ (SealedFor crypto c drawn.key) participants keys := by
  induction participants generalizing place with
  | nil => exact .ok .nil
  | cons participant participants inductionHypothesis =>
    exact .seq (meets_sealEpochKey c drawn.key participant (drawn.seals place)) fun key first =>
      .seq (inductionHypothesis (place + 1)) fun keys others => .ok (.cons first others)

/-- A participant with this address. -/
def At (crypto : Crypto) (address : Text) (participant : Recipient) : Prop :=
  ∃ bytes, addressToBytes crypto participant.address = .ok bytes ∧
    addressToBytes crypto (.text address) = .ok bytes

theorem meets_isAmong (address : Text) (participants : List Recipient) :
    Meets Other (isAmong crypto address participants) fun found =>
      found = true → ∃ participant ∈ participants, At crypto address participant := by
  induction participants with
  | nil => exact .ok fun other => by cases other
  | cons participant participants inductionHypothesis =>
    refine .seq (meets_addressToBytes participant.address) fun theirs first =>
      .seq (meets_addressToBytes (.text address)) fun sought second => ?_
    by_cases same : theirs = sought
    · show Meets Other (if theirs = sought then _ else _) _
      rw [if_pos same]
      exact .ok fun _ => ⟨participant, List.mem_cons_self, theirs, first, same ▸ second⟩
    · show Meets Other (if theirs = sought then _ else _) _
      rw [if_neg same]
      refine inductionHypothesis.weaken fun found among isFound => ?_
      obtain ⟨other, member, has⟩ := among isFound
      exact ⟨other, List.mem_cons_of_mem _ member, has⟩

theorem meets_areAmong (participants : List Recipient) (addresses : List Text) :
    Meets Other (areAmong crypto participants addresses) fun all =>
      all = true → ∀ address ∈ addresses, ∃ participant ∈ participants,
        At crypto address participant := by
  induction addresses with
  | nil =>
    refine .ok fun _ address member => ?_
    cases member
  | cons address addresses inductionHypothesis =>
    refine .seq (meets_isAmong address participants) fun found first => ?_
    cases found with
    | false => exact .ok fun other => by cases other
    | true =>
      refine inductionHypothesis.weaken fun all others isAll => ?_
      exact List.forall_mem_cons.mpr ⟨first rfl, others isAll⟩

/-- The participants are the two of the context. -/
def AreThose (crypto : Crypto) (c : DirectMessageContext) (participants : List Recipient) : Prop :=
  c.sender ≠ c.recipient ∧ participants.length = 2 ∧
    ∀ address ∈ [c.sender, c.recipient], ∃ participant ∈ participants, At crypto address participant

theorem meets_checkParticipants (c : DirectMessageContext) (participants : List Recipient) :
    Meets Other (checkParticipants crypto c participants) fun _ =>
      AreThose crypto c participants := by
  unfold checkParticipants
  refine .branch (fun _ => .error fun same => ?_) fun fine => ?_
  · exact absurd (MessageError.thrown.inj same) (by decide)
  · rw [not_or, not_not] at fine
    exact .seq (meets_areAmong participants _) fun all among =>
      (meets_require (by decide)).weaken fun _ isAll => ⟨fine.1, fine.2, among isAll⟩

theorem meets_aad (c : DirectMessageContext) :
    Meets Other (aad crypto c) fun bound => aad crypto c = .ok bound := by
  cases found : aad crypto c with
  | ok bound => exact .ok rfl
  | error error =>
    refine .error fun same => ?_
    rw [same] at found
    unfold aad at found
    split at found
    · exact absurd (MessageError.thrown.inj (Except.error.inj found)) (by decide)
    · cases found

theorem meets_encodeMessageEnvelope (envelope : MessageEnvelope) :
    Meets Other (encodeMessageEnvelope envelope) fun bytes =>
      encodeMessageEnvelope envelope = .ok bytes := by
  cases found : encodeMessageEnvelope envelope with
  | ok bytes => exact .ok rfl
  | error error =>
    refine .error fun same => ?_
    rw [same] at found
    unfold encodeMessageEnvelope at found
    generalize Encoding.encode _ _ _ _ _ = result at found
    cases result with
    | ok bytes => cases found
    | error inner => cases found

/-- What a message that is sent consists of. -/
structure Sent (crypto : Crypto) (c : DirectMessageContext) (text : Text)
    (participants : List Recipient) (drawn : Drawn) (bound ciphertext : Bytes)
    (keys : List SealedKey) : Prop where
  short : (utf8 text).length ≤ 2500
  those : AreThose crypto c participants
  authenticated : aad crypto c = .ok bound
  encrypted : crypto.encrypt drawn.key drawn.nonce bound (utf8 text) = some ciphertext
  keys : List.Forall₂ (SealedFor crypto c drawn.key) participants keys

theorem sealed_of_mem {relation : Recipient → SealedKey → Prop} {participants : List Recipient}
    {keys : List SealedKey} (related : List.Forall₂ relation participants keys) {key : SealedKey}
    (member : key ∈ keys) : ∃ participant ∈ participants, relation participant key := by
  induction related with
  | nil => cases member
  | cons head _ inductionHypothesis =>
    rcases List.mem_cons.mp member with rfl | later
    · exact ⟨_, List.mem_cons_self, head⟩
    · obtain ⟨participant, among, has⟩ := inductionHypothesis later
      exact ⟨participant, List.mem_cons_of_mem _ among, has⟩

theorem sized_of_sealed (sound : crypto.Sound) {c : DirectMessageContext} {messageKey : Bytes}
    {participant : Recipient} {key : SealedKey}
    (isSealed : SealedFor crypto c messageKey participant key) : Sized key := by
  obtain ⟨drawn, shared, bound, keyLength, secretLength, nonceLength, _, addressed, _, encrypted, _,
    ephemeral, nonce⟩ := isSealed
  refine ⟨length_addressToBytes addressed, ?_, ?_, ?_⟩
  · rw [ephemeral, sound.publicKey_length _ secretLength]
  · rw [nonce, nonceLength]
  · rw [(sound.encrypt_lengths _ _ _ _ _ encrypted).2, keyLength]

section Sending

variable {c : DirectMessageContext} {text : Text} {participants : List Recipient} {drawn : Drawn}

/-- The envelope of a message that is sent. -/
def sentEnvelope (drawn : Drawn) (ciphertext : Bytes) (keys : List SealedKey) : MessageEnvelope :=
  ⟨1, drawn.nonce, ciphertext, keys⟩

theorem Sent.length_le (sound : crypto.Sound) {bound ciphertext : Bytes} {keys : List SealedKey}
    (sent : Sent crypto c text participants drawn bound ciphertext keys) :
    (messageBytes (sentEnvelope drawn ciphertext keys)).length ≤ 4096 := by
  have lengths := sound.encrypt_lengths _ _ _ _ _ sent.encrypted
  refine length_messageBytes_le ?_ ?_ lengths.1 ?_
  · exact sent.keys.length_eq.symm.trans sent.those.2.1
  · intro key member
    obtain ⟨participant, _, isSealed⟩ := sealed_of_mem sent.keys member
    exact sized_of_sealed sound isSealed
  · have short := sent.short
    show ciphertext.length ≤ 2516
    omega

/-- An accepted text is sent, and no text is refused because its envelope is too large. -/
theorem meets_encryptDirectMessage (sound : crypto.Sound) :
    Meets Other (encryptDirectMessage crypto c text participants drawn) fun result =>
      ∃ bound ciphertext keys, Sent crypto c text participants drawn bound ciphertext keys ∧
        Encodable (sentEnvelope drawn ciphertext keys) ∧
        result = (messageBytes (sentEnvelope drawn ciphertext keys),
          crypto.sha256 (messageBytes (sentEnvelope drawn ciphertext keys))) := by
  refine .seq (meets_require (by decide)) fun _ short => ?_
  refine .seq (meets_checkParticipants c participants) fun _ those => ?_
  refine .seq (meets_aad c) fun bound isBound => ?_
  refine .seq (meets_given (by decide) _) fun ciphertext encrypted => ?_
  refine .seq (meets_sealAll c drawn 0 participants) fun keys sealing => ?_
  refine .seq (meets_encodeMessageEnvelope _) fun envelope encoded => ?_
  rw [not_or, not_lt] at short
  have sent : Sent crypto c text participants drawn bound ciphertext keys :=
    ⟨short.2, those, isBound, encrypted, sealing⟩
  have filled : keys ≠ [] := by
    intro none
    have two := sealing.length_eq.symm.trans those.2.1
    rw [none] at two
    cases two
  have encodable : Encodable (sentEnvelope drawn ciphertext keys) :=
    ⟨rfl, filled, fits_of_encoded encoded⟩
  have fits := sent.length_le sound
  have written := encodeMessageEnvelope_eq encodable (fits.trans_lt (by norm_num))
  have same : envelope = messageBytes (sentEnvelope drawn ciphertext keys) :=
    Except.ok.inj (encoded.symm.trans written)
  rw [same]
  show Meets Other ((require _ TOO_LARGE).bind _) _
  unfold require
  rw [if_pos (show _ ≤ maxMessageBytes from fits)]
  exact .ok ⟨bound, ciphertext, keys, sent, encodable, rfl⟩

theorem sent_of_accepted (sound : crypto.Sound) {envelope hash : Bytes}
    (accepted : encryptDirectMessage crypto c text participants drawn = .ok (envelope, hash)) :
    ∃ bound ciphertext keys, Sent crypto c text participants drawn bound ciphertext keys ∧
      Encodable (sentEnvelope drawn ciphertext keys) ∧
      envelope = messageBytes (sentEnvelope drawn ciphertext keys) ∧
      hash = crypto.sha256 (messageBytes (sentEnvelope drawn ciphertext keys)) := by
  have meets := @meets_encryptDirectMessage crypto c text participants drawn sound
  rw [accepted] at meets
  obtain ⟨bound, ciphertext, keys, sent, encodable, result⟩ := meets
  exact ⟨bound, ciphertext, keys, sent, encodable, congrArg Prod.fst result,
    congrArg Prod.snd result⟩

end Sending

/-! ### What is read -/

theorem step_ok {Value Result : Type} {first : Except MessageError Value} {value : Value}
    (answered : first = .ok value) (rest : Value → Except MessageError Result) :
    (first >>= rest) = rest value := by
  rw [answered]
  rfl

theorem require_pos {holds : Prop} [Decidable holds] (fine : holds) (message : String) :
    require holds message = .ok () := if_pos fine

theorem given_some {Value : Type} {value : Option Value} {found : Value} (has : value = some found)
    (message : String) : given message value = .ok found := by
  rw [has]
  rfl

/-- Whoever has the secret opens a key that is sealed for them. -/
theorem openEpochKey_sealed (sound : crypto.Sound) {c : DirectMessageContext} {messageKey : Bytes}
    {participant : Recipient} {key : SealedKey}
    (isSealed : SealedFor crypto c messageKey participant key) {secret : Bytes}
    (long : secret.length = 32) (own : crypto.publicKey secret = participant.publicKey) :
    openEpochKey crypto (messageAudience c) key secret = .ok messageKey := by
  obtain ⟨drawn, shared, bound, keyLength, secretLength, nonceLength, agreed, addressed, isBound,
    encrypted, _, ephemeral, nonce⟩ := isSealed
  have alike : crypto.sharedSecret secret key.ephemeral_public_key = some shared := by
    rw [ephemeral, sound.sharedSecret_comm _ _ long secretLength, own, agreed]
  have opened := sound.decrypt_encrypt _ _ _ _ _ encrypted
  rw [← own, ← ephemeral, ← nonce] at opened
  refine (step_ok (require_pos long _) _).trans ?_
  refine (step_ok (require_pos ?_ _) _).trans ?_
  · rw [ephemeral]
    exact sound.publicKey_length _ secretLength
  refine (step_ok (require_pos ?_ _) _).trans ?_
  · rw [nonce]
    exact nonceLength
  refine (step_ok (given_some alike _) _).trans ?_
  refine (step_ok isBound _).trans ?_
  exact given_some opened _

theorem fromBase58_of_text {address : Text} {bytes : Bytes}
    (found : addressToBytes crypto (.text address) = .ok bytes) :
    crypto.fromBase58 address = some bytes := by
  unfold addressToBytes at found
  dsimp only at found
  split at found
  · cases found
  · next read =>
    split at found
    · cases found
    · cases found
      exact read

/-- Participants whose addresses differ. -/
def Apart (crypto : Crypto) (first second : Recipient) : Prop :=
  ∀ bytes, addressToBytes crypto first.address = .ok bytes →
    addressToBytes crypto second.address ≠ .ok bytes

/-- The two participants of a context are different ones. -/
theorem AreThose.apart (sound : crypto.Sound) {c : DirectMessageContext}
    {participants : List Recipient} (those : AreThose crypto c participants) :
    participants.Pairwise (Apart crypto) := by
  obtain ⟨distinct, two, among⟩ := those
  obtain ⟨first, second, rfl⟩ := List.length_eq_two.mp two
  refine List.pairwise_pair.mpr fun bytes one other => distinct ?_
  have each : ∀ address ∈ [c.sender, c.recipient], crypto.fromBase58 address = some bytes := by
    intro address member
    obtain ⟨participant, isOne, found, theirs, sought⟩ := among address member
    rw [fromBase58_of_text sought]
    rcases List.mem_pair.mp isOne with rfl | rfl
    · exact congrArg some (Except.ok.inj (theirs.symm.trans one))
    · exact congrArg some (Except.ok.inj (theirs.symm.trans other))
  exact sound.fromBase58_inj _ _ bytes (each _ List.mem_cons_self)
    (each _ (List.mem_cons_of_mem _ List.mem_cons_self))

/-- Each participant finds the key that is sealed for them. -/
theorem find_sealed {c : DirectMessageContext} {messageKey : Bytes}
    {participants : List Recipient} {keys : List SealedKey}
    (sealing : List.Forall₂ (SealedFor crypto c messageKey) participants keys)
    (apart : participants.Pairwise (Apart crypto)) {participant : Recipient}
    (member : participant ∈ participants) {address : Bytes}
    (has : addressToBytes crypto participant.address = .ok address) :
    ∃ key, (keys.find? fun key => key.recipient = address) = some key ∧
      SealedFor crypto c messageKey participant key := by
  induction sealing with
  | nil => cases member
  | @cons first key rest others head _ inductionHypothesis =>
    rw [List.pairwise_cons] at apart
    have addressed := head
    obtain ⟨_, _, _, _, _, _, _, addressed, _⟩ := addressed
    by_cases same : key.recipient = address
    · have found : (key :: others).find? (fun key => key.recipient = address) = some key :=
        List.find?_cons_of_pos (decide_eq_true same)
      rw [found]
      rcases List.mem_cons.mp member with rfl | later
      · exact ⟨key, rfl, head⟩
      · rw [same] at addressed
        exact absurd has (apart.1 participant later address addressed)
    · have skipped : (key :: others).find? (fun key => key.recipient = address) =
          others.find? (fun key => key.recipient = address) :=
        List.find?_cons_of_neg (by
          rw [decide_eq_true_eq]
          exact same)
      rw [skipped]
      rcases List.mem_cons.mp member with rfl | later
      · rw [has] at addressed
        exact absurd (Except.ok.inj addressed).symm same
      · exact inductionHypothesis apart.2 later

section Reading

variable {c : DirectMessageContext} {text : Text} {participants : List Recipient} {drawn : Drawn}
variable {bound ciphertext : Bytes} {keys : List SealedKey}

/-- What a participant makes of the envelope: a key of the version 0 is not looked at, and otherwise
the bytes of the text are decoded. -/
theorem decrypt_sent (sound : crypto.Sound)
    (sent : Sent crypto c text participants drawn bound ciphertext keys)
    (encodable : Encodable (sentEnvelope drawn ciphertext keys)) {participant : Recipient}
    (member : participant ∈ participants) {account : Text}
    (among : account = c.sender ∨ account = c.recipient) (isAt : At crypto account participant)
    {secret : Bytes} (long : secret.length = 32)
    (own : crypto.publicKey secret = participant.publicKey)
    {secretForVersion : ℤ → Except MessageError Bytes}
    (holds : secretForVersion participant.keyVersion = .ok secret) :
    decryptDirectMessage crypto c (messageBytes (sentEnvelope drawn ciphertext keys))
        (crypto.sha256 (messageBytes (sentEnvelope drawn ciphertext keys))) account
        secretForVersion =
      if participant.keyVersion < 1 then .error (.thrown "No decryption key for this account")
      else .ok (utf8Decode crypto.lossy (utf8 text)) := by
  have fits := sent.length_le sound
  obtain ⟨address, theirs, sought⟩ := isAt
  obtain ⟨key, found, isSealed⟩ := find_sealed sent.keys (sent.those.apart sound) member theirs
  have version : key.recipient_key_version = participant.keyVersion := by
    obtain ⟨_, _, _, _, _, _, _, _, _, _, same, _⟩ := isSealed
    exact same
  refine (step_ok (require_pos ⟨fits, sound.sha256_length _, rfl⟩ _) _).trans ?_
  refine (step_ok (require_pos among _) _).trans ?_
  refine (step_ok (decodeMessageEnvelope_eq encodable (fits.trans_lt (by norm_num))) _).trans ?_
  have nonceLength := (sound.encrypt_lengths _ _ _ _ _ sent.encrypted).1
  have two : keys.length = 2 := sent.keys.length_eq.symm.trans sent.those.2.1
  refine (step_ok (require_pos ⟨rfl, nonceLength, two⟩ _) _).trans ?_
  refine (step_ok sought _).trans ?_
  have looked : keyFor (sentEnvelope drawn ciphertext keys) address =
      if participant.keyVersion < 1 then .error (.thrown "No decryption key for this account")
      else .ok key := by
    unfold keyFor
    rw [show (sentEnvelope drawn ciphertext keys).keys.find? (fun key => key.recipient = address) =
      some key from found]
    dsimp only
    rw [version]
  by_cases zero : participant.keyVersion < 1
  · rw [if_pos zero] at looked ⊢
    rw [looked]
    rfl
  · rw [if_neg zero] at looked ⊢
    refine (step_ok looked _).trans ?_
    rw [version]
    refine (step_ok holds _).trans ?_
    refine (step_ok (openEpochKey_sealed sound isSealed long own) _).trans ?_
    refine (step_ok sent.authenticated _).trans ?_
    exact step_ok (given_some (sound.decrypt_encrypt _ _ _ _ _ sent.encrypted) _) _

end Reading

/-! ### Other contexts -/

theorem some_of_given {Value : Type} {message : String} {value : Option Value} {found : Value}
    (answered : given message value = .ok found) : value = some found := by
  cases value with
  | none => cases answered
  | some other => exact congrArg some (Except.ok.inj answered)

/-- What is decrypted is the ciphertext of the envelope, under the associated data of the
context. -/
theorem decrypted_of_ok {c : DirectMessageContext} {envelope hash : Bytes} {account result : Text}
    {secretForVersion : ℤ → Except MessageError Bytes}
    (answered : decryptDirectMessage crypto c envelope hash account secretForVersion =
      .ok result) :
    ∃ read key bound plaintext, decodeMessageEnvelope envelope = .ok read ∧
      aad crypto c = .ok bound ∧
      crypto.decrypt key read.nonce bound read.ciphertext = some plaintext := by
  obtain ⟨_, _, answered⟩ := ok_of_bind answered
  obtain ⟨_, _, answered⟩ := ok_of_bind answered
  obtain ⟨read, decoded, answered⟩ := ok_of_bind answered
  obtain ⟨_, _, answered⟩ := ok_of_bind answered
  obtain ⟨_, _, answered⟩ := ok_of_bind answered
  obtain ⟨_, _, answered⟩ := ok_of_bind answered
  obtain ⟨_, _, answered⟩ := ok_of_bind answered
  obtain ⟨key, _, answered⟩ := ok_of_bind answered
  obtain ⟨bound, isBound, answered⟩ := ok_of_bind answered
  obtain ⟨plaintext, opened, _⟩ := ok_of_bind answered
  exact ⟨read, key, bound, plaintext, decoded, isBound, some_of_given opened⟩

/-! ### Direct messages -/

/-- Each participant is one of the two of the context. -/
theorem AreThose.account (sound : crypto.Sound) {c : DirectMessageContext}
    {participants : List Recipient} (those : AreThose crypto c participants)
    {participant : Recipient} (member : participant ∈ participants) :
    ∃ account, (account = c.sender ∨ account = c.recipient) ∧ At crypto account participant := by
  obtain ⟨distinct, two, among⟩ := those
  obtain ⟨first, second, rfl⟩ := List.length_eq_two.mp two
  obtain ⟨one, isOne, atOne⟩ := among c.sender List.mem_cons_self
  obtain ⟨other, isOther, atOther⟩ :=
    among c.recipient (List.mem_cons_of_mem _ List.mem_cons_self)
  have different : one ≠ other := by
    rintro rfl
    obtain ⟨bytes, theirs, sought⟩ := atOne
    obtain ⟨more, again, also⟩ := atOther
    have same : bytes = more := Except.ok.inj (theirs.symm.trans again)
    refine distinct (sound.fromBase58_inj _ _ bytes (fromBase58_of_text sought) ?_)
    rw [same]
    exact fromBase58_of_text also
  have either : participant = one ∨ participant = other := by
    rw [List.mem_pair] at member isOne isOther
    rcases member with rfl | rfl
    · rcases isOne with rfl | rfl
      · exact Or.inl rfl
      · rcases isOther with rfl | rfl
        · exact Or.inr rfl
        · exact absurd rfl different
    · rcases isOne with rfl | rfl
      · rcases isOther with rfl | rfl
        · exact absurd rfl different
        · exact Or.inr rfl
      · exact Or.inl rfl
  rcases either with rfl | rfl
  · exact ⟨c.sender, Or.inl rfl, atOne⟩
  · exact ⟨c.recipient, Or.inr rfl, atOther⟩

theorem Sent.version_nonneg (sound : crypto.Sound) {c : DirectMessageContext} {text : Text}
    {participants : List Recipient} {drawn : Drawn} {bound ciphertext : Bytes}
    {keys : List SealedKey} (sent : Sent crypto c text participants drawn bound ciphertext keys)
    (encodable : Encodable (sentEnvelope drawn ciphertext keys)) {participant : Recipient}
    (member : participant ∈ participants) : 0 ≤ participant.keyVersion := by
  obtain ⟨account, _, address, theirs, _⟩ := sent.those.account sound member
  obtain ⟨key, found, isSealed⟩ := find_sealed sent.keys (sent.those.apart sound) member theirs
  obtain ⟨_, _, _, _, _, _, _, _, _, _, version, _⟩ := isSealed
  rw [← version]
  exact (encodable.fits key (List.mem_of_find?_eq_some found)).1

/-- Either participant gets the text back with a secret of theirs. -/
def Returned (crypto : Crypto) (c : DirectMessageContext) (text : Text)
    (participants : List Recipient) (envelope hash : Bytes) : Prop :=
  ∀ participant ∈ participants, ∀ account, (account = c.sender ∨ account = c.recipient) →
    At crypto account participant → ∀ secret : Bytes, secret.length = 32 →
      crypto.publicKey secret = participant.publicKey → ∀ secretForVersion,
        secretForVersion participant.keyVersion = .ok secret →
          decryptDirectMessage crypto c envelope hash account secretForVersion = .ok text

/-- In no other context is the envelope decrypted. -/
def Bound (crypto : Crypto) (c : DirectMessageContext) (envelope : Bytes) : Prop :=
  ∀ other, other ≠ c → ∀ hash account secretForVersion result,
    decryptDirectMessage crypto other envelope hash account secretForVersion ≠ .ok result

/-- The cipher is ideal for this message: its ciphertext opens under its associated data only. -/
def OpensOnly (crypto : Crypto) (c : DirectMessageContext) (text : Text) (drawn : Drawn) : Prop :=
  ∀ bound ciphertext, aad crypto c = .ok bound →
    crypto.encrypt drawn.key drawn.nonce bound (utf8 text) = some ciphertext →
      ∀ key nonce other plaintext, crypto.decrypt key nonce other ciphertext = some plaintext →
        other = bound

theorem bound_of_sent (sound : crypto.Sound) {c : DirectMessageContext} {text : Text}
    {participants : List Recipient} {drawn : Drawn} {bound ciphertext : Bytes}
    {keys : List SealedKey} (sent : Sent crypto c text participants drawn bound ciphertext keys)
    (encodable : Encodable (sentEnvelope drawn ciphertext keys))
    (only : OpensOnly crypto c text drawn) :
    Bound crypto c (messageBytes (sentEnvelope drawn ciphertext keys)) := by
  intro other different hash account secretForVersion result answered
  obtain ⟨read, key, theirs, plaintext, decoded, isBound, opened⟩ := decrypted_of_ok answered
  have short := (sent.length_le sound).trans_lt (show 4096 < 2 ^ 32 by norm_num)
  rw [decodeMessageEnvelope_eq encodable short] at decoded
  rw [← Except.ok.inj decoded] at opened
  have same := only bound ciphertext sent.authenticated sent.encrypted _ _ _ _ opened
  rw [same] at isBound
  exact different (aad_inj sound isBound sent.authenticated)

end Messages

/-- No text is refused because its envelope would be too large. An accepted text comes back to both
participants, in an envelope of at most 4096 bytes that no other context decrypts, exactly if it is
well formed, no byte-order mark stands in front of it, and no key version is zero. -/
theorem direct_message_iff (crypto : Crypto) (sound : crypto.Sound) (c : DirectMessageContext)
    (text : Text) (participants : List Recipient) (drawn : Drawn) :
    encryptDirectMessage crypto c text participants drawn ≠ .error (.thrown TOO_LARGE) ∧
      ∀ envelope hash,
        encryptDirectMessage crypto c text participants drawn = .ok (envelope, hash) →
        (∀ participant ∈ participants, ∃ secret : Bytes, secret.length = 32 ∧
          crypto.publicKey secret = participant.publicKey) →
        OpensOnly crypto c text drawn →
          ((Returned crypto c text participants envelope hash ∧
            envelope.length ≤ maxMessageBytes ∧ Bound crypto c envelope) ↔
              WellFormed text ∧ text.head? ≠ some 0xFEFF ∧
                ∀ participant ∈ participants, participant.keyVersion ≠ 0) := by
  refine ⟨(meets_encryptDirectMessage sound).ne_error (fun other => other rfl), ?_⟩
  intro envelope hash accepted held only
  obtain ⟨bound, ciphertext, keys, sent, encodable, rfl, rfl⟩ := sent_of_accepted sound accepted
  constructor
  · rintro ⟨returned, _, _⟩
    have each : ∀ participant ∈ participants, ¬ participant.keyVersion < 1 ∧
        utf8Decode crypto.lossy (utf8 text) = text := by
      intro participant member
      obtain ⟨account, among, isAt⟩ := sent.those.account sound member
      obtain ⟨secret, long, own⟩ := held participant member
      have back := returned participant member account among isAt secret long own
        (fun _ => .ok secret) rfl
      rw [decrypt_sent sound sent encodable member among isAt long own rfl] at back
      by_cases zero : participant.keyVersion < 1
      · rw [if_pos zero] at back
        cases back
      · rw [if_neg zero] at back
        exact ⟨zero, Except.ok.inj back⟩
    obtain ⟨one, isOne, _⟩ := sent.those.2.2 c.sender List.mem_cons_self
    obtain ⟨fine, first⟩ := (utf8Decode_utf8_iff crypto.lossy text).mp (each one isOne).2
    refine ⟨fine, first, fun participant member zero => (each participant member).1 ?_⟩
    rw [zero]
    decide
  · rintro ⟨fine, first, versions⟩
    refine ⟨?_, sent.length_le sound, bound_of_sent sound sent encodable only⟩
    intro participant member account among isAt secret long own secretForVersion holds
    have positive : ¬ participant.keyVersion < 1 := by
      have low := sent.version_nonneg sound encodable member
      have other := versions participant member
      omega
    rw [decrypt_sent sound sent encodable member among isAt long own holds, if_neg positive,
      (utf8Decode_utf8_iff crypto.lossy text).mpr ⟨fine, first⟩]

/-! ### A message of two participants -/

/-- A context between two accounts. -/
def sampleContext : DirectMessageContext where
  chainId := literal "main"
  contract := literal "messaging"
  sender := List.replicate 25 97
  recipient := List.replicate 25 98
  messageId := List.replicate 32 7
  generation := literal "1"

/-- The bytes of a text whose units are bytes. -/
def sampleAddress (text : Text) : Option Bytes :=
  if text.all fun unit => unit.toNat < 256 then some (text.map UInt16.toUInt8) else none

/-- The tag of some associated data, which tells that of the sample context from all others. -/
def sampleTag (aad : Bytes) : Bytes :=
  List.replicate 16 (if aad = Library.Utf16.bytesOf (objectText
    [(literal "chainId", literal "main"), (literal "contract", literal "messaging"),
      (literal "domain", literal "osp/v1/direct-message"), (literal "generation", literal "1"),
      (literal "id", List.replicate 32 7), (literal "recipient", List.replicate 25 98),
      (literal "sender", List.replicate 25 97)]) then 1 else 0)

/-- Libraries whose ciphertexts are the plaintext with a tag behind it. -/
def sampleCrypto : Crypto where
  sha256 := fun _ => List.replicate 32 0
  fromBase58 := sampleAddress
  toBase64url := fun bytes => bytes.map UInt8.toUInt16
  encrypt := fun _ nonce aad plaintext =>
    if nonce.length = 24 then some (plaintext ++ sampleTag aad) else none
  decrypt := fun _ _ aad ciphertext =>
    if ciphertext.drop (ciphertext.length - 16) = sampleTag aad then
      some (ciphertext.take (ciphertext.length - 16))
    else none
  publicKey := id
  sharedSecret := fun secret other => some (List.zipWith (· + ·) secret other)
  hkdf := fun _ _ _ length => List.replicate length 0
  lossy := fun _ => []

theorem length_sampleTag (aad : Bytes) : (sampleTag aad).length = 16 := List.length_replicate

theorem sampleCrypto_sound : sampleCrypto.Sound where
  decrypt_encrypt := by
    intro key nonce aad plaintext ciphertext encrypted
    have whole : ciphertext = plaintext ++ sampleTag aad := by
      by_cases fine : nonce.length = 24
      · exact (Option.some.inj ((if_pos fine).symm.trans encrypted)).symm
      · cases (if_neg fine).symm.trans encrypted
    have split : ciphertext.length - 16 = plaintext.length := by
      rw [whole, List.length_append, length_sampleTag, Nat.add_sub_cancel]
    show (if ciphertext.drop (ciphertext.length - 16) = sampleTag aad then
      some (ciphertext.take (ciphertext.length - 16)) else none) = _
    rw [split, whole, List.drop_left, List.take_left, if_pos rfl]
  encrypt_lengths := by
    intro key nonce aad plaintext ciphertext encrypted
    by_cases fine : nonce.length = 24
    · have whole := Option.some.inj ((if_pos fine).symm.trans encrypted)
      rw [← whole, List.length_append, length_sampleTag]
      exact ⟨fine, rfl⟩
    · cases (if_neg fine).symm.trans encrypted
  publicKey_length := fun _ long => long
  sharedSecret_comm := by
    intro first second _ _
    refine congrArg some (List.zipWith_comm_of_comm ?_)
    intro one other
    exact UInt8.add_comm one other
  fromBase58_inj := by
    have units : ∀ {text : Text} {bytes : Bytes}, sampleAddress text = some bytes →
        text = bytes.map UInt8.toUInt16 := by
      intro text bytes found
      unfold sampleAddress at found
      split at found
      · next small =>
        cases found
        rw [List.map_map]
        refine (List.map_id text).symm.trans (List.map_congr_left fun unit member => ?_)
        have bounded := List.all_eq_true.mp small unit member
        rw [decide_eq_true_eq] at bounded
        refine UInt16.toNat_inj.mp ?_
        show unit.toNat = (unit.toUInt8.toUInt16).toNat
        rw [UInt8.toNat_toUInt16, UInt16.toNat_toUInt8]
        omega
      · cases found
    intro first second bytes one other
    rw [units one, units other]
  toBase64url_inj := by
    intro first second same
    refine List.map_injective_iff.mpr (fun one other equal => ?_) same
    have numbers := congrArg UInt16.toNat equal
    rw [UInt8.toNat_toUInt16, UInt8.toNat_toUInt16] at numbers
    exact UInt8.toNat_inj.mp numbers
  sha256_length := fun _ => List.length_replicate

def sampleParticipants : List Recipient :=
  [⟨.text (List.replicate 25 97), List.replicate 32 1, 1⟩,
    ⟨.text (List.replicate 25 98), List.replicate 32 2, 3⟩]

def sampleDrawn : Drawn where
  key := List.replicate 32 5
  nonce := List.replicate 24 6
  seals := fun place => (List.replicate 32 (UInt8.ofNat place), List.replicate 24 8)

theorem sampleAad : aad sampleCrypto sampleContext =
    .ok (Library.Utf16.bytesOf (canonicalText (boundMembers sampleCrypto sampleContext))) := by
  decide +kernel

theorem sampleOpensOnly (text : Text) : OpensOnly sampleCrypto sampleContext text sampleDrawn := by
  intro bound ciphertext isBound encrypted key nonce other plaintext opened
  have same : bound =
      Library.Utf16.bytesOf (canonicalText (boundMembers sampleCrypto sampleContext)) :=
    Except.ok.inj (isBound.symm.trans sampleAad)
  have whole : utf8 text ++ sampleTag bound = ciphertext := Option.some.inj encrypted
  have behind : ciphertext.drop (ciphertext.length - 16) = sampleTag bound := by
    rw [← whole, List.length_append, length_sampleTag, Nat.add_sub_cancel, List.drop_left]
  have tags : ciphertext.drop (ciphertext.length - 16) = sampleTag other := by
    by_contra different
    cases (if_neg different).symm.trans opened
  have one : sampleTag bound = List.replicate 16 1 := by
    rw [same]
    exact congrArg (List.replicate 16) (if_pos rfl)
  rw [behind, one] at tags
  by_contra different
  have zero : sampleTag other = List.replicate 16 0 := by
    refine congrArg (List.replicate 16) (if_neg fun equal => different ?_)
    rw [equal, same]
    rfl
  rw [zero] at tags
  exact absurd tags (by decide)

theorem sampleHeld : ∀ participant ∈ sampleParticipants, ∃ secret : Bytes, secret.length = 32 ∧
    sampleCrypto.publicKey secret = participant.publicKey :=
  List.forall_mem_cons.mpr ⟨⟨List.replicate 32 1, rfl, rfl⟩,
    List.forall_mem_cons.mpr ⟨⟨List.replicate 32 2, rfl, rfl⟩, fun _ member => by cases member⟩⟩

/-- A text that begins with a byte-order mark. -/
def markedText : Text := [0xFEFF, 97]

/-- A message of the two participants, with what comes of it. -/
def sampleMessage (text : Text) : Except MessageError (Bytes × Bytes) :=
  encryptDirectMessage sampleCrypto sampleContext text sampleParticipants sampleDrawn

theorem sampleMessage_accepted (text : Text) (fine : (sampleMessage text).toBool = true) :
    ∃ envelope hash, sampleMessage text = .ok (envelope, hash) := by
  cases found : sampleMessage text with
  | ok result => exact ⟨result.1, result.2, rfl⟩
  | error error =>
    rw [found] at fine
    cases fine

theorem direct_message_iff_hi :
    ∃ envelope hash, sampleMessage (literal "hi") = .ok (envelope, hash) ∧
      Returned sampleCrypto sampleContext (literal "hi") sampleParticipants envelope hash ∧
        Bound sampleCrypto sampleContext envelope := by
  obtain ⟨envelope, hash, accepted⟩ := sampleMessage_accepted (literal "hi") (by decide +kernel)
  have holds := ((direct_message_iff sampleCrypto sampleCrypto_sound sampleContext (literal "hi")
    sampleParticipants sampleDrawn).2 envelope hash accepted sampleHeld
      (sampleOpensOnly (literal "hi"))).mpr ⟨wellFormed_chars _, by decide, by decide⟩
  exact ⟨envelope, hash, accepted, holds.1, holds.2.2⟩

/-- The text is accepted, and both participants get it without the mark. -/
theorem marked_text_changed :
    ∃ envelope hash, sampleMessage markedText = .ok (envelope, hash) ∧
      decryptDirectMessage sampleCrypto sampleContext envelope hash sampleContext.sender
          (fun _ => .ok (List.replicate 32 1)) = .ok [97] ∧
        ¬ Returned sampleCrypto sampleContext markedText sampleParticipants envelope hash := by
  obtain ⟨envelope, hash, accepted⟩ := sampleMessage_accepted markedText (by decide +kernel)
  obtain ⟨bound, ciphertext, keys, sent, encodable, rfl, rfl⟩ :=
    sent_of_accepted sampleCrypto_sound accepted
  have member : sampleParticipants.head (by decide) ∈ sampleParticipants := List.head_mem _
  have isAt : At sampleCrypto sampleContext.sender (sampleParticipants.head (by decide)) :=
    ⟨List.replicate 25 97, by decide +kernel, by decide +kernel⟩
  have read := @decrypt_sent sampleCrypto sampleContext markedText sampleParticipants sampleDrawn
    bound ciphertext keys sampleCrypto_sound sent encodable _ member sampleContext.sender
      (Or.inl rfl) isAt (List.replicate 32 1) (by decide) rfl
        (fun _ => .ok (List.replicate 32 1)) rfl
  have lost : utf8Decode sampleCrypto.lossy (utf8 markedText) = [97] := by
    rw [utf8Decode_utf8]
    decide +kernel
  rw [if_neg (by decide), lost] at read
  refine ⟨_, _, accepted, read, fun returned => ?_⟩
  have back := returned _ member sampleContext.sender (Or.inl rfl) isAt (List.replicate 32 1)
    (by decide) rfl (fun _ => .ok (List.replicate 32 1)) rfl
  rw [read] at back
  exact absurd (Except.ok.inj back) (by decide)

end OpenSocial.Sdk.Messages
