/-
This file models how the clients open a post that an indexer serves: plaintext
directly, friends-only posts through the key store, in the web client and in the
extension.

The key store is given by what its operations do, so that the same text reads
against any store; the texts of a view are what the indexer chose to put there.
-/

import OpenSocial.Library.Exchange
import OpenSocial.Sdk.Envelope

namespace OpenSocial.Web

open Library Sdk

/-- What a client reads of a post the indexer serves. -/
structure PostView where
  postId : String
  author : String
  sequence : String
  versionNumber : ℚ
  audience : ℚ
  audienceId : String
  epoch : ℚ
  envelope : String
  state : ℚ
  stateReason : String
  deriving DecidableEq

namespace LIFECYCLE

def AUTHOR_HIDDEN : ℚ := 1
def DELETED : ℚ := 2
def UNAVAILABLE : ℚ := 3

end LIFECYCLE

/-- What an audience epoch key is for. -/
structure EpochKeyRef where
  author : String
  audienceId : Bytes
  epoch : ℚ
  deriving DecidableEq

/-- A cached key; only a trusted one was made here or verified on chain. -/
structure EpochKeyEntry where
  key : Bytes
  recipients : List String
  trusted : Bool
  deriving DecidableEq, Repr

/-- `SealedKeyView`: a sealed key as the indexer serves it. -/
structure SealedKeyView where
  author : String
  audienceId : String
  epoch : ℚ
  recipient : String
  sealedKey : String
  txId : String
  deriving DecidableEq

/-- A sealed copy that was opened. -/
structure KeyCandidate where
  key : Bytes
  item : SealedKeyView
  deriving DecidableEq

/-! ### The web client -/

section Opening

variable {Request : Type} {Answer : Request → Type}

/-- What the web client asks of its key store. -/
structure KeyStore (Request : Type) (Answer : Request → Type) where
  entry : EpochKeyRef → Program Request Answer String (Option EpochKeyEntry)
  resolve : EpochKeyRef → Program Request Answer String (Option EpochKeyEntry)
  candidates : EpochKeyRef → Program Request Answer String (List KeyCandidate)
  adopt : EpochKeyRef → KeyCandidate → Program Request Answer String Unit
  forget : EpochKeyRef → Program Request Answer String Unit

/-- `PostContent`. -/
inductive PostContent where
  | plain (content : Content)
  | decrypted (content : Content)
  | tombstone (reason : Option String)
  | hidden (reason : Option String)
  | unavailable (reason : Option String)
  | noKey (message : String)
  | locked (message : String)
  | error (message : String)
  deriving DecidableEq

/-- The content that is reported, decrypted or plain. -/
def PostContent.content? : PostContent → Option Content
  | .plain content => some content
  | .decrypted content => some content
  | _ => none

/-- `OpenContext`; `me` is the signed-in account, `keySource` whether there is an indexer to ask. -/
structure OpenContext (Request : Type) (Answer : Request → Type) where
  chainId : String
  keys : Option (KeyStore Request Answer)
  me : Option String
  keySource : Bool

def nonEmpty (text : String) : Option String := if text = "" then none else some text

variable (libraries : Libraries)

def tryDecrypt (envelope : Envelope) (epochKey : Bytes) (aad : AadInput) : Option Content :=
  (decryptContent libraries envelope (some aad) (some epochKey)).toOption

/-- The associated data a reader rebuilds from a view. -/
def viewAad (chainId : String) (post : PostView) : AadInput where
  chainId := chainId
  author := post.author
  postId := bytesOf libraries.toEncodings post.postId
  audience := post.audience
  audienceId := bytesOf libraries.toEncodings post.audienceId
  epoch := post.epoch
  versionNumber := post.versionNumber

def keyRef (post : PostView) : EpochKeyRef :=
  ⟨post.author, bytesOf libraries.toEncodings post.audienceId, post.epoch⟩

def noKeyMessage (own : Bool) : String :=
  "Friends-only post: " ++
    (if own then "this device has not received the key for this post yet"
      else "you do not have the key for this post yet") ++ "."

/-- A key that was made here or verified is left as it is. -/
def unlessTrusted (entry : EpochKeyEntry) (change : Program Request Answer String Unit) :
    Program Request Answer String Unit :=
  if entry.trusted then pure () else change

/-- The key for a post: with an indexer to ask it is resolved, else it is the cached one. -/
def heldKey (keys : KeyStore Request Answer) (keySource : Bool) (ref : EpochKeyRef) :
    Program Request Answer String (Option EpochKeyEntry) :=
  if keySource then keys.resolve ref else keys.entry ref

/-- The other sealed copies, none when the indexer cannot be reached. -/
def otherCopies (keys : KeyStore Request Answer) (keySource : Bool) (ref : EpochKeyRef) :
    Program Request Answer String (List KeyCandidate) :=
  if keySource then do
    let found ← Program.attempt (keys.candidates ref)
    pure (found.toOption.getD [])
  else pure []

/-- The other sealed copies addressed to the account, in turn. -/
def tryCandidates (keys : KeyStore Request Answer) (ref : EpochKeyRef) (envelope : Envelope)
    (aad : AadInput) (entry : EpochKeyEntry) :
    List KeyCandidate → Program Request Answer String (Option Content)
  | [] => pure none
  | candidate :: candidates =>
    if candidate.key = entry.key then tryCandidates keys ref envelope aad entry candidates
    else match tryDecrypt libraries envelope candidate.key aad with
      | none => tryCandidates keys ref envelope aad entry candidates
      | some opened => do
        unlessTrusted entry (keys.adopt ref candidate)
        pure (some opened)

/-- A suite-1 envelope, with the key the store gave: that key first, then the other copies. -/
def openWith (post : PostView) (chainId : String) (keySource : Bool)
    (keys : KeyStore Request Answer) (envelope : Envelope) (entry : EpochKeyEntry) :
    Program Request Answer String PostContent :=
  match tryDecrypt libraries envelope entry.key (viewAad libraries chainId post) with
  | some content => pure (.decrypted content)
  | none => do
    let candidates ← otherCopies keys keySource (keyRef libraries post)
    match ← tryCandidates libraries keys (keyRef libraries post) envelope
        (viewAad libraries chainId post) entry candidates with
    | some opened => pure (.decrypted opened)
    | none => do
      unlessTrusted entry (keys.forget (keyRef libraries post))
      pure (.error "This post could not be decrypted with the key you have.")

/-- A suite-1 envelope, with the key store of the signed-in account. -/
def openEncrypted (post : PostView) (chainId account : String) (keySource : Bool)
    (keys : KeyStore Request Answer) (envelope : Envelope) :
    Program Request Answer String PostContent := do
  match ← heldKey keys keySource (keyRef libraries post) with
  | none => pure (.noKey (noKeyMessage (post.author == account)))
  | some entry => openWith libraries post chainId keySource keys envelope entry

/-- What a client says of a post that is not to be displayed, and of a plaintext it cannot decode. -/
structure Wording where
  tombstone : PostContent
  hidden : PostContent
  unavailable : PostContent
  undecodable : PostContent

/-- The part of opening a view that both clients share: its lifecycle state, its envelope, and
plaintext; what to do with an encrypted envelope is given. -/
def openView (post : PostView) (wording : Wording)
    (encrypted : Envelope → Program Request Answer String PostContent) :
    Program Request Answer String PostContent :=
  if post.state = LIFECYCLE.DELETED then pure wording.tombstone
  else if post.state = LIFECYCLE.AUTHOR_HIDDEN then pure wording.hidden
  else if post.state = LIFECYCLE.UNAVAILABLE then pure wording.unavailable
  else if (bytesOf libraries.toEncodings post.envelope).length = 0 then
    pure (.error "The indexer did not provide this post's content.")
  else
    match decodeEnvelope libraries (bytesOf libraries.toEncodings post.envelope) with
    | .error _ => pure (.error "This post is not readable by this client version.")
    | .ok envelope =>
      if envelope.suite = SUITE.PLAINTEXT then
        match decryptContent libraries envelope none none with
        | .ok content => pure (.plain content)
        | .error _ => pure wording.undecodable
      else encrypted envelope

def wording (post : PostView) : Wording where
  tombstone := .tombstone (nonEmpty post.stateReason)
  hidden := .hidden (nonEmpty post.stateReason)
  unavailable := .unavailable (nonEmpty post.stateReason)
  undecodable := .error "This post is not readable by this client version."

/-- `openPost` of the web client. -/
def openPost (post : PostView) (ctx : OpenContext Request Answer) :
    Program Request Answer String PostContent :=
  openView libraries post (wording post) fun envelope =>
    if envelope.suite ≠ SUITE.XCHACHA20POLY1305_X25519 then
      pure (.error "This post uses an encryption suite this client does not support.")
    else
      match ctx.keys, ctx.me with
      | some keys, some account =>
        openEncrypted libraries post ctx.chainId account ctx.keySource keys envelope
      | _, _ => pure (.locked "Unlock your account to read friends-only posts.")

end Opening

end OpenSocial.Web
