/-
This file models the message router of the extension's background worker
(`background/messages.ts`) and proves what it lets run.

Messages of web pages and of the extension's own pages arrive while others wait for the
granted permissions or for their handler. Whatever they are and however they interleave,
a handler runs only for a message of this extension that passed every check of its
source, and no tab gets more than the limit of handlers run within one window of time.
-/

import OpenSocial.Extension.Validate
import OpenSocial.Library.Tasks
import OpenSocial.Library.Window
import OpenSocial.Sdk.Ids

namespace OpenSocial.Extension.Router

open Library

/-! ### Messages and replies -/

inductive MessageSource where
  | extension
  | content
  deriving DecidableEq, Repr

/-- What is read of `chrome.runtime.MessageSender`. -/
structure MessageSender where
  id : Option String
  origin : Option String
  url : Option String
  tabId : Option ℤ
  frameId : Option ℤ
  deriving DecidableEq, Repr

/-- The error of a reply; what a message is answered with is an `Except` of it. -/
structure Rejection where
  code : String
  message : String
  deriving DecidableEq, Repr

def reject {Value : Type} (code message : String) : Except Rejection Value :=
  .error ⟨code, message⟩

/-- `if (!holds) return reject(code, message)`. -/
def require (holds : Bool) (code message : String) : Except Rejection Unit :=
  if holds then .ok () else reject code message

structure HandlerDef where
  source : MessageSource
  validate : Option Json → String → Except ValidationError (Option Json)
  requireGesture : Bool

/-- What `options.handlers[type]` is: nothing, a member every object has, or a handler. -/
inductive Registered where
  | unknown
  | inherited
  | handler (definition : HandlerDef)

structure RateLimit where
  max : ℕ
  windowMs : ℤ
  deriving DecidableEq, Repr

structure RouterOptions where
  browser : Browser
  runtimeId : String
  handlers : List (String × HandlerDef)
  rateLimit : RateLimit
  maxBytes : ℕ

def CONTENT_SCRIPT_TYPES : List String := ["crosspost.propose", "feed.request"]

namespace RouterOptions

variable (options : RouterOptions)

def registered (type : String) : Registered :=
  match options.handlers.lookup type with
  | some definition => .handler definition
  | none => if Json.inheritedNames.contains type then .inherited else .unknown

def extensionOrigin : String := options.browser.lower ("chrome-extension://" ++ options.runtimeId)

end RouterOptions

/-! ### Origins -/

/-- The line ends that a dot of an expression does not match. -/
def isLineTerminator (character : Char) : Bool :=
  ['\n', '\r', Char.ofNat 0x2028, Char.ofNat 0x2029].contains character

/-- The host of what follows the scheme of a pattern: up to the first slash, without a star. -/
def hostOf (rest : List Char) : Option (List Char) :=
  let host := rest.takeWhile fun character => character != '/' && character != '*'
  match rest.dropWhile fun character => character != '/' && character != '*' with
  | '/' :: path => if host.isEmpty || path.any isLineTerminator then none else some host
  | _ => none

/-- The origin a host permission names, if it names one host. -/
def originFromPattern (browser : Browser) (pattern : String) : Option String :=
  if "https://".toList.isPrefixOf pattern.toList then
    (hostOf (pattern.toList.drop 8)).map fun host =>
      browser.lower ("https://" ++ String.ofList host)
  else if "http://".toList.isPrefixOf pattern.toList then
    (hostOf (pattern.toList.drop 7)).map fun host => browser.lower ("http://" ++ String.ofList host)
  else none

def originsFromPatterns (browser : Browser) (patterns : List String) : List String :=
  (patterns.filterMap (originFromPattern browser)).eraseDups

def originFromSender (browser : Browser) (sender : MessageSender) : Option String :=
  match sender.origin.filter fun origin => origin != "null" with
  | some origin => some (browser.lower origin)
  | none => do
    let url ← sender.url
    let parsed ← browser.parseUrl url
    pure (browser.lower parsed.origin)

/-! ### The worker -/

/-- What the admission of a content script's message rested on. -/
structure Admission where
  tab : ℤ
  at_ : ℤ
  patterns : List String
  deriving DecidableEq, Repr

/-- A handler's call: the payload and context it gets, and the admission of its message. -/
structure HandlerCall where
  type : String
  payload : Option Json
  sender : MessageSender
  source : MessageSource
  tabId : Option ℤ
  origin : String
  admission : Option Admission
  deriving DecidableEq

/-- An error a handler throws: its name, its message, and its code if it is a `RouterError`. -/
structure HandlerError where
  name : String
  message : String
  code : Option String
  deriving DecidableEq, Repr

/-- What the worker asks: the granted host permissions, the clock, the hits of a tab, and a
handler, whose result it waits for. -/
inductive RouterRequest where
  | grantedOrigins
  | now
  | hits (tab : ℤ)
  | setHits (tab : ℤ) (hits : List ℤ) (at_ : ℤ) (admitted : Bool)
  | call (call : HandlerCall)
  | result (call : HandlerCall)

abbrev RouterAnswer : RouterRequest → Type
  | .grantedOrigins => Except String (List String)
  | .now => ℤ
  | .hits _ => List ℤ
  | .setHits _ _ _ _ => Unit
  | .call _ => Unit
  | .result _ => Except HandlerError (Option Json)

/-- A message on its way: it ends in a reply. -/
abbrev RouterAction := Program RouterRequest RouterAnswer Rejection

/-- `/^[a-z][a-zA-Z0-9.]*$/`, and no longer than 64. -/
def isTypeName (type : String) : Bool :=
  match type.toList with
  | [] => false
  | first :: rest => 'a' ≤ first && first ≤ 'z' &&
      rest.all (fun character => character.isAlphanum || character == '.') && type.length ≤ 64

/-- The first own key of a message that is not one of its two. -/
def rejectKeys : List (String × Json) → Except Rejection Unit
  | [] => .ok ()
  | (key, _) :: members => do
    require (key == "type" || key == "payload") "invalid_message"
      ("Unexpected message key " ++ key ++ ".")
    rejectKeys members

section Options

variable (options : RouterOptions)

/-- 1. Shape and size: the type and the payload of a message. -/
def checkShape (message : Json) : Except Rejection (String × Option Json) :=
  match message with
  | .object members =>
    match members.lookup "type" with
    | some (.string type) => do
      require (isTypeName type) "invalid_message" "Missing message type."
      rejectKeys members
      require (options.browser.jsonSize message ≤ options.maxBytes) "too_large"
        ("Message exceeds " ++ toString options.maxBytes ++ " bytes.")
      pure (type, members.lookup "payload")
    | _ => reject "invalid_message" "Missing message type."
  | _ => reject "invalid_message" "Messages must be objects."

/-- 2. Sender identity, 3. known type, and the origin of 4. -/
def checkSender (type : String) (sender : MessageSender) : Except Rejection String := do
  require (sender.id = some options.runtimeId) "forbidden"
    "Messages are accepted from this extension only."
  match options.registered type with
  | .unknown => reject "unknown_type" ("Unknown message type " ++ type ++ ".")
  | _ =>
    match (originFromSender options.browser sender).filter fun origin => origin != "" with
    | none => reject "forbidden" "Sender origin is unknown."
    | some origin => pure origin

/-- What is asked of a content script before its host's permission. -/
def checkContent (type : String) (sender : MessageSender) : Except Rejection ℤ :=
  match sender.tabId.filter fun tab => 0 ≤ tab with
  | none => reject "forbidden" "Content-script messages must come from a tab."
  | some tab => do
    require (sender.frameId.all fun frame => frame = 0) "forbidden"
      "Only the top frame may send messages."
    require (CONTENT_SCRIPT_TYPES.contains type) "forbidden"
      ("Content scripts may not send " ++ type ++ ".")
    pure tab

/-- The hits of a tab that still count, with this one unless there are too many; and when. -/
def rateLimited (tab : ℤ) : RouterAction (Bool × ℤ) := do
  let at_ ← Program.query .now .ok
  let hits ← Program.query (.hits tab) .ok
  let answer := Window.ask options.rateLimit.windowMs options.rateLimit.max hits at_
  Program.query (.setHits tab answer.1 at_ answer.2) .ok
  pure (!answer.2, at_)

def sourceName : MessageSource → String
  | .content => "content scripts"
  | .extension => "extension pages"

/-- A message that is known to come from an own page or a content script. -/
structure Envelope where
  type : String
  payload : Option Json
  sender : MessageSender
  source : MessageSource
  tabId : Option ℤ
  origin : String
  admission : Option Admission

/-- The end of 4 and 5: the handler must be for this source, and the payload of its kind. -/
def checkPayload (envelope : Envelope) : Except Rejection HandlerCall :=
  match options.registered envelope.type with
  | .handler definition => do
    require (definition.source = envelope.source) "forbidden"
      (envelope.type ++ " is not available to " ++ sourceName envelope.source ++ ".")
    match definition.validate envelope.payload "payload" with
    | .error error => reject "invalid_payload" error.message
    | .ok payload => do
      require (!(envelope.source = .content && definition.requireGesture) ||
          payload.bind (fun given => given.get? "userGesture") = some (.bool true)) "forbidden"
        "This action requires a user gesture."
      pure ⟨envelope.type, payload, envelope.sender, envelope.source, envelope.tabId,
        envelope.origin, envelope.admission⟩
  | _ => reject "forbidden"
      (envelope.type ++ " is not available to " ++ sourceName envelope.source ++ ".")

/-- `name.replace(/Error$/, "")`. -/
def withoutError (name : String) : String :=
  if name.endsWith "Error" then String.ofList (name.toList.take (name.length - 5)) else name

def errorCode (error : HandlerError) : String :=
  error.code.getD <|
    let code := options.browser.lower (withoutError error.name)
    if code = "" then "error" else code

/-- 6. The handler. -/
def runHandler (call : HandlerCall) : RouterAction Json := do
  Program.query (.call call) .ok
  Program.query (.result call) fun
    | .ok result => .ok (result.getD .null)
    | .error error => reject (errorCode options error) error.message

def dispatch (envelope : Envelope) : RouterAction Json := do
  let call ← Program.lift (checkPayload options envelope)
  runHandler options call

/-- What follows the answer to which hosts are granted. -/
def admitMessage (type : String) (payload : Option Json) (sender : MessageSender) (origin : String)
    (tab : ℤ) (patterns : List String) : RouterAction Json := do
  Program.lift (require ((originsFromPatterns options.browser patterns).contains origin)
    "forbidden" ("Origin " ++ origin ++ " is not a granted host."))
  let (limited, at_) ← rateLimited options tab
  Program.lift (require (!limited) "rate_limited"
    "Too many messages from this tab; try again shortly.")
  dispatch options ⟨type, payload, sender, .content, some tab, origin, some ⟨tab, at_, patterns⟩⟩

/-- The listener's reply to a permission query that fails. -/
def readGranted (answer : Except String (List String)) : Except Rejection (List String) :=
  match answer with
  | .ok patterns => .ok patterns
  | .error message => reject "internal" message

def handle (message : Json) (sender : MessageSender) : RouterAction Json := do
  let (type, payload) ← Program.lift (checkShape options message)
  let origin ← Program.lift (checkSender options type sender)
  if origin = options.extensionOrigin then
    dispatch options ⟨type, payload, sender, .extension, none, origin, none⟩
  else do
    let tab ← Program.lift (checkContent type sender)
    let patterns ← Program.query .grantedOrigins readGranted
    admitMessage options type payload sender origin tab patterns

end Options

/-! ### Many messages at once -/

/-- A question to the rate limit, and its answer. -/
structure Reading where
  tab : ℤ
  at_ : ℤ
  admitted : Bool
  deriving DecidableEq, Repr

/-- The clock and the hits of the tabs; and, in the order they happened, the permissions that were
answered, the questions to the rate limit and the calls of handlers. -/
structure RouterWorld where
  clock : ℤ
  buckets : ℤ → List ℤ
  granted : List (List String)
  readings : List Reading
  called : List HandlerCall

namespace RouterWorld

def started (clock : ℤ) : RouterWorld := ⟨clock, fun _ => [], [], [], []⟩

/-- The hits of a tab after a question to the rate limit. -/
def asked (world : RouterWorld) (reading : Reading) (hits : List ℤ) : RouterWorld :=
  { world with
    buckets := Function.update world.buckets reading.tab hits
    readings := world.readings ++ [reading] }

end RouterWorld

def routerWaits : RouterRequest → Bool
  | .grantedOrigins => true
  | .result _ => true
  | _ => false

/-- How the requests are served: permissions and results may be anything. -/
def routerServes (world : RouterWorld) :
    (request : RouterRequest) → RouterAnswer request → RouterWorld → Prop
  | .grantedOrigins, .ok patterns, after =>
    after = { world with granted := world.granted ++ [patterns] }
  | .grantedOrigins, .error _, after => after = world
  | .now, answer, after => answer = world.clock ∧ after = world
  | .hits tab, answer, after => answer = world.buckets tab ∧ after = world
  | .setHits tab hits at_ admitted, _, after => after = world.asked ⟨tab, at_, admitted⟩ hits
  | .call call, _, after => after = { world with called := world.called ++ [call] }
  | .result _, _, after => after = world

/-- The clock may show anything next. -/
def routerRuntime : Runtime RouterRequest RouterAnswer RouterWorld where
  awaits := routerWaits
  serve := routerServes
  drift world later := ∃ clock, later = { world with clock := clock }

section Runs

variable (options : RouterOptions)

/-- Every incoming message starts its own run of `handle`. -/
def MessageStarted (program : RouterAction Json) : Prop :=
  ∃ message sender, program = handle options message sender

/-- What the worker has done after some run. -/
def RouterReached (world : RouterWorld) : Prop :=
  ∃ clock tasks, routerRuntime.Reaches (MessageStarted options) (.started clock, []) (world, tasks)

/-- What must hold of a call: its message was sent by this extension, a handler for its source got
a payload that handler lets through, and a content script's message came from the top frame of a
tab, was of one of their types, from a host the extension had the permission for, and by a
gesture where one is required. -/
structure Authorized (granted : List (List String)) (call : HandlerCall) : Prop where
  own : call.sender.id = some options.runtimeId
  origin : originFromSender options.browser call.sender = some call.origin
  handler : ∃ definition given, options.handlers.lookup call.type = some definition ∧
    definition.source = call.source ∧ definition.validate given "payload" = .ok call.payload ∧
      (call.source = .content → definition.requireGesture = true →
        call.payload.bind (fun given => given.get? "userGesture") = some (.bool true))
  page : call.source = .extension → call.origin = options.extensionOrigin ∧ call.admission = none
  content : call.source = .content → call.origin ≠ options.extensionOrigin ∧
    call.type ∈ CONTENT_SCRIPT_TYPES ∧ (∀ frame ∈ call.sender.frameId, frame = 0) ∧
      ∃ tab at_ patterns, call.admission = some ⟨tab, at_, patterns⟩ ∧ 0 ≤ tab ∧
        call.sender.tabId = some tab ∧ call.tabId = some tab ∧ patterns ∈ granted ∧
          call.origin ∈ originsFromPatterns options.browser patterns

end Runs

/-- The times at which a tab asked the rate limit. -/
def askedTimes (tab : ℤ) (readings : List Reading) : List ℤ :=
  (readings.filter fun reading => reading.tab = tab).map Reading.at_

/-- The times at which it was admitted. -/
def admittedTimes (tab : ℤ) (readings : List Reading) : List ℤ :=
  (readings.filter fun reading => reading.tab = tab ∧ reading.admitted).map Reading.at_

/-- When the calls of a tab's messages were admitted. -/
def calledTimes (tab : ℤ) (called : List HandlerCall) : List ℤ :=
  ((called.filterMap HandlerCall.admission).filter fun admission => admission.tab = tab).map
    Admission.at_

/-! ### What the checks find -/

section Checks

variable {options : RouterOptions} {type : String} {sender : MessageSender}

theorem require_eq_ok {holds : Bool} {code message : String} {result : Unit} :
    require holds code message = .ok result ↔ holds = true := by
  cases holds with
  | true => exact ⟨fun _ => rfl, fun _ => rfl⟩
  | false =>
    constructor
    · intro impossible
      cases impossible
    · intro impossible
      cases impossible

theorem checkSender_ok {origin : String} (found : checkSender options type sender = .ok origin) :
    sender.id = some options.runtimeId ∧
      originFromSender options.browser sender = some origin := by
  obtain ⟨_, own, found⟩ := Sdk.ok_of_bind found
  refine ⟨of_decide_eq_true (require_eq_ok.mp own), ?_⟩
  have named : (match (originFromSender options.browser sender).filter
      (fun origin => origin != "") with
    | none => reject "forbidden" "Sender origin is unknown."
    | some origin => pure origin : Except Rejection String) = .ok origin := by
    revert found
    cases options.registered type with
    | unknown => exact fun impossible => by cases impossible
    | inherited => exact id
    | handler definition => exact id
  cases filtered : (originFromSender options.browser sender).filter
      fun origin => origin != "" with
  | none =>
    rw [filtered] at named
    cases named
  | some given =>
    rw [filtered] at named
    obtain rfl := Except.ok.inj named
    exact (Option.filter_eq_some_iff.mp filtered).1

theorem checkContent_ok {tab : ℤ} (found : checkContent type sender = .ok tab) :
    sender.tabId = some tab ∧ 0 ≤ tab ∧ (∀ frame ∈ sender.frameId, frame = 0) ∧
      type ∈ CONTENT_SCRIPT_TYPES := by
  unfold checkContent at found
  split at found
  · cases found
  · next given filtered =>
    obtain ⟨_, top, found⟩ := Sdk.ok_of_bind found
    obtain ⟨_, listed, found⟩ := Sdk.ok_of_bind found
    obtain rfl := Except.ok.inj found
    obtain ⟨present, nonnegative⟩ := Option.filter_eq_some_iff.mp filtered
    exact ⟨present, of_decide_eq_true nonnegative,
      fun frame given => of_decide_eq_true (all_of_option (require_eq_ok.mp top) frame given),
      List.contains_iff_mem.mp (require_eq_ok.mp listed)⟩

/-- A call has what its envelope has, and a payload of its handler. -/
theorem checkPayload_ok {envelope : Envelope} {call : HandlerCall}
    (found : checkPayload options envelope = .ok call) :
    (∃ payload, call = ⟨envelope.type, payload, envelope.sender, envelope.source, envelope.tabId,
      envelope.origin, envelope.admission⟩) ∧
    ∃ definition given, options.handlers.lookup envelope.type = some definition ∧
      definition.source = envelope.source ∧ definition.validate given "payload" = .ok call.payload ∧
        (envelope.source = .content → definition.requireGesture = true →
          call.payload.bind (fun given => given.get? "userGesture") = some (.bool true)) := by
  unfold checkPayload at found
  split at found
  · next definition known =>
    obtain ⟨_, source, found⟩ := Sdk.ok_of_bind found
    have registered : options.handlers.lookup envelope.type = some definition := by
      unfold RouterOptions.registered at known
      split at known
      · next given listed =>
        obtain rfl := Registered.handler.inj known
        exact listed
      · split at known
        · cases known
        · cases known
    split at found
    · cases found
    · next payload validated =>
      obtain ⟨_, gesture, found⟩ := Sdk.ok_of_bind found
      obtain rfl := Except.ok.inj found
      refine ⟨⟨payload, rfl⟩, definition, envelope.payload, registered,
        of_decide_eq_true (require_eq_ok.mp source), validated, fun content required => ?_⟩
      have either := require_eq_ok.mp gesture
      rw [content, required, decide_eq_true rfl, Bool.and_self, Bool.not_true,
        Bool.false_or] at either
      exact of_decide_eq_true either
  · cases found

end Checks

/-! ### Runs -/

section Times

variable (tab : ℤ)

theorem askedTimes_append (readings : List Reading) (reading : Reading) :
    askedTimes tab (readings ++ [reading]) =
      askedTimes tab readings ++ if reading.tab = tab then [reading.at_] else [] := by
  rw [askedTimes, List.filter_append, List.map_append, askedTimes, List.filter_singleton]
  split
  · next same => rw [decide_eq_true same]; rfl
  · next differs => rw [decide_eq_false differs]; rfl

theorem admittedTimes_append (readings : List Reading) (reading : Reading) :
    admittedTimes tab (readings ++ [reading]) = admittedTimes tab readings ++
      if reading.tab = tab ∧ reading.admitted then [reading.at_] else [] := by
  rw [admittedTimes, List.filter_append, List.map_append, admittedTimes, List.filter_singleton]
  split
  · next same => rw [decide_eq_true same]; rfl
  · next differs => rw [decide_eq_false differs]; rfl

theorem calledTimes_append (called : List HandlerCall) (call : HandlerCall) :
    calledTimes tab (called ++ [call]) = calledTimes tab called ++
      ((call.admission.toList.filter fun admission => admission.tab = tab).map
        Admission.at_) := by
  rw [calledTimes, List.filterMap_append, List.filter_append, List.map_append, calledTimes]
  cases admission : call.admission with
  | none => rw [List.filterMap_cons_none admission]; rfl
  | some given => rw [List.filterMap_cons_some admission]; rfl

end Times

section Kept

variable (options : RouterOptions)

/-- What every run keeps. -/
structure RouterKept (world : RouterWorld) : Prop where
  authorized : ∀ call ∈ world.called, Authorized options world.granted call
  buckets : ∀ tab, world.buckets tab = Window.keptAfter options.rateLimit.windowMs
    options.rateLimit.max [] (askedTimes tab world.readings)
  admitted : ∀ tab, admittedTimes tab world.readings = Window.admitted options.rateLimit.windowMs
    options.rateLimit.max [] (askedTimes tab world.readings)
  paced : ∀ tab, (calledTimes tab world.called).Sublist (admittedTimes tab world.readings)

/-- Where a message on its way stands when it waits. -/
def Waiting : RouterAction Json → Prop
  | .done _ => True
  | .fail _ => True
  | .ask .grantedOrigins rest => ∃ type payload sender origin tab,
      sender.id = some options.runtimeId ∧
        originFromSender options.browser sender = some origin ∧
        origin ≠ options.extensionOrigin ∧ checkContent type sender = .ok tab ∧
        rest = fun answer => Program.lift (readGranted answer) >>=
          admitMessage options type payload sender origin tab
  | .ask (.result _) rest => ∀ answer, (∃ value, rest answer = .done value) ∨
      ∃ rejection, rest answer = .fail rejection
  | .ask _ _ => False

variable {options} {world : RouterWorld}

theorem Authorized.mono {granted more : List (List String)} {call : HandlerCall}
    (authorized : Authorized options granted call)
    (further : ∀ patterns ∈ granted, patterns ∈ more) :
    Authorized options more call where
  own := authorized.own
  origin := authorized.origin
  handler := authorized.handler
  page := authorized.page
  content source := by
    obtain ⟨other, listed, top, tab, at_, patterns, admission, nonnegative, tabId, given, asked,
      host⟩ := authorized.content source
    exact ⟨other, listed, top, tab, at_, patterns, admission, nonnegative, tabId, given,
      further patterns asked, host⟩

theorem routerKept_started (clock : ℤ) : RouterKept options (.started clock) where
  authorized _ absent := absurd absent List.not_mem_nil
  buckets _ := rfl
  admitted _ := rfl
  paced _ := List.Sublist.slnil

/-- Knowing more permissions changes nothing that was decided. -/
theorem RouterKept.grantedMore (kept : RouterKept options world) (patterns : List String) :
    RouterKept options { world with granted := world.granted ++ [patterns] } where
  authorized call member := (kept.authorized call member).mono fun _ asked =>
    List.mem_append_left _ asked
  buckets := kept.buckets
  admitted := kept.admitted
  paced := kept.paced

/-- A question to the rate limit keeps the hits those of the tab's questions. -/
theorem routerKept_asked (kept : RouterKept options world) (tab time : ℤ)
    {answer : List ℤ × Bool} (answered : answer = Window.ask options.rateLimit.windowMs
      options.rateLimit.max (world.buckets tab) time) :
    RouterKept options (world.asked ⟨tab, time, answer.2⟩ answer.1) where
  authorized := kept.authorized
  buckets other := by
    show Function.update world.buckets tab answer.1 other = Window.keptAfter _ _ []
      (askedTimes other (world.readings ++ [⟨tab, time, answer.2⟩]))
    rw [askedTimes_append, Window.keptAfter_append, ← kept.buckets, answered]
    by_cases same : tab = other
    · subst same
      rw [if_pos rfl, Function.update_self]
      rfl
    · rw [if_neg same, Function.update_of_ne (Ne.symm same)]
      rfl
  admitted other := by
    show admittedTimes other (world.readings ++ [⟨tab, time, answer.2⟩]) = Window.admitted _ _ []
      (askedTimes other (world.readings ++ [⟨tab, time, answer.2⟩]))
    rw [askedTimes_append, admittedTimes_append, Window.admitted_append, ← kept.buckets,
      ← kept.admitted]
    by_cases same : tab = other
    · subst same
      rw [if_pos rfl, Window.admitted, ← answered]
      cases admission : answer.2 with
      | true => rw [if_pos ⟨rfl, rfl⟩]; rfl
      | false => rw [if_neg fun both => Bool.false_ne_true both.2]; rfl
    · rw [if_neg same, if_neg fun both => same both.1]
      rfl
  paced other := by
    show (calledTimes other world.called).Sublist
      (admittedTimes other (world.readings ++ [⟨tab, time, answer.2⟩]))
    rw [admittedTimes_append]
    exact (kept.paced other).trans (List.sublist_append_left _ _)

/-- Running the handler of a call that may be made keeps what every run keeps. -/
theorem ends_runHandler (kept : RouterKept options world) {call : HandlerCall}
    (authorized : Authorized options world.granted call)
    (paced : ∀ tab, (calledTimes tab (world.called ++ [call])).Sublist
      (admittedTimes tab world.readings)) :
    routerRuntime.BlockEnds world (runHandler options call) fun after rest =>
      RouterKept options after ∧ Waiting options rest := by
  refine .serve rfl fun _ middle served => ?_
  obtain rfl : middle = { world with called := world.called ++ [call] } := served
  refine .wait rfl ⟨⟨fun other member => ?_, kept.buckets, kept.admitted, paced⟩,
    fun answer => ?_⟩
  · rcases List.mem_append.mp member with old | new
    · exact kept.authorized other old
    · exact List.mem_singleton.mp new ▸ authorized
  · cases answer with
    | ok result => exact .inl ⟨_, rfl⟩
    | error error => exact .inr ⟨_, rfl⟩

/-- What an envelope must have for a call made of it to be authorized, whatever its handler. -/
structure Admissible (options : RouterOptions) (granted : List (List String))
    (envelope : Envelope) : Prop where
  own : envelope.sender.id = some options.runtimeId
  origin : originFromSender options.browser envelope.sender = some envelope.origin
  page : envelope.source = .extension →
    envelope.origin = options.extensionOrigin ∧ envelope.admission = none
  content : envelope.source = .content → envelope.origin ≠ options.extensionOrigin ∧
    envelope.type ∈ CONTENT_SCRIPT_TYPES ∧ (∀ frame ∈ envelope.sender.frameId, frame = 0) ∧
      ∃ tab at_ patterns, envelope.admission = some ⟨tab, at_, patterns⟩ ∧ 0 ≤ tab ∧
        envelope.sender.tabId = some tab ∧ envelope.tabId = some tab ∧ patterns ∈ granted ∧
          envelope.origin ∈ originsFromPatterns options.browser patterns

theorem ends_dispatch (kept : RouterKept options world) {envelope : Envelope}
    (admissible : Admissible options world.granted envelope)
    (paced : ∀ call : HandlerCall, call.admission = envelope.admission → ∀ tab,
      (calledTimes tab (world.called ++ [call])).Sublist (admittedTimes tab world.readings)) :
    routerRuntime.BlockEnds world (dispatch options envelope) fun after rest =>
      RouterKept options after ∧ Waiting options rest := by
  refine .lift_seq (fun _ _ => ⟨kept, trivial⟩) fun call checked => ?_
  obtain ⟨⟨payload, rfl⟩, definition, given, listed, source, validated, gesture⟩ :=
    checkPayload_ok checked
  refine ends_runHandler kept ?_ (paced _ rfl)
  exact ⟨admissible.own, admissible.origin, ⟨definition, given, listed, source, validated, gesture⟩,
    admissible.page, admissible.content⟩

/-- Admitting a content script's message asks the rate limit once, and then runs at most one
handler. -/
theorem ends_admitMessage (kept : RouterKept options world) {type : String} {payload : Option Json}
    {sender : MessageSender} {origin : String} {tab : ℤ} {patterns : List String}
    (own : sender.id = some options.runtimeId)
    (found : originFromSender options.browser sender = some origin)
    (other : origin ≠ options.extensionOrigin) (content : checkContent type sender = .ok tab)
    (granted : patterns ∈ world.granted) :
    routerRuntime.BlockEnds world (admitMessage options type payload sender origin tab patterns)
      fun after rest => RouterKept options after ∧ Waiting options rest := by
  obtain ⟨present, nonnegative, top, listed⟩ := checkContent_ok content
  refine .lift_seq (fun _ _ => ⟨kept, trivial⟩) fun _ host => ?_
  have host := List.contains_iff_mem.mp (require_eq_ok.mp host)
  refine .serve rfl fun time middle served => ?_
  obtain ⟨-, rfl⟩ : time = world.clock ∧ world = middle := ⟨served.1, served.2.symm⟩
  refine .serve rfl fun hits middle served => ?_
  obtain ⟨rfl, rfl⟩ : hits = world.buckets tab ∧ world = middle := ⟨served.1, served.2.symm⟩
  refine .serve rfl fun _ middle served => ?_
  have asked := routerKept_asked kept tab time rfl
  obtain rfl := (served : middle = world.asked _ _)
  refine .lift_seq (fun _ _ => ⟨asked, trivial⟩) fun _ unlimited => ?_
  have room := require_eq_ok.mp unlimited
  rw [Bool.not_not] at room
  refine ends_dispatch asked ⟨own, found, (fun page => by cases page), fun _ => ?_⟩ ?_
  · exact ⟨other, listed, top, tab, time, patterns, rfl, nonnegative, present, rfl, granted, host⟩
  · intro call admission place
    show (calledTimes place (world.called ++ [call])).Sublist
      (admittedTimes place (world.readings ++ [_]))
    rw [calledTimes_append, admittedTimes_append, admission]
    refine (kept.paced place).append ?_
    by_cases same : tab = place
    · subst same
      rw [if_pos ⟨rfl, room⟩]
      exact List.Sublist.trans (List.Sublist.map _ List.filter_sublist) (List.Sublist.refl _)
    · have none : (([⟨tab, time, patterns⟩] : List Admission).filter fun admission =>
          admission.tab = place) = [] := by
        rw [List.filter_singleton, decide_eq_false same]
        rfl
      show (List.map Admission.at_ (([⟨tab, time, patterns⟩] : List Admission).filter
        fun admission => admission.tab = place)).Sublist _
      rw [none]
      exact List.nil_sublist _

theorem ends_handle (kept : RouterKept options world) (message : Json) (sender : MessageSender) :
    routerRuntime.BlockEnds world (handle options message sender) fun after rest =>
      RouterKept options after ∧ Waiting options rest := by
  refine .lift_seq (fun _ _ => ⟨kept, trivial⟩) fun shape _ => ?_
  obtain ⟨type, payload⟩ := shape
  refine .lift_seq (fun _ _ => ⟨kept, trivial⟩) fun origin checked => ?_
  obtain ⟨own, found⟩ := checkSender_ok checked
  by_cases page : origin = options.extensionOrigin
  · rw [if_pos page]
    refine ends_dispatch kept ⟨own, found, fun _ => ⟨page, rfl⟩, (fun content => by cases content)⟩
      ?_
    intro call admission tab
    rw [calledTimes_append, admission]
    show (calledTimes tab world.called ++ []).Sublist _
    rw [List.append_nil]
    exact kept.paced tab
  · rw [if_neg page]
    refine .lift_seq (fun _ _ => ⟨kept, trivial⟩) fun tab content => ?_
    exact .wait rfl ⟨kept, type, payload, sender, origin, tab, own, found, page, content, rfl⟩

/-- Whatever messages arrive and however they interleave, this is kept. -/
theorem routerKept_reached (reached : RouterReached options world) : RouterKept options world := by
  obtain ⟨clock, tasks, reaches⟩ := reached
  have both : RouterKept options (world, tasks).1 ∧
      ∀ task ∈ (world, tasks).2, Waiting options task := by
    refine Runtime.blocks_reached ?_ ?_ ?_ (routerKept_started clock)
      (fun task absent => absurd absent List.not_mem_nil) reaches
    · rintro world later kept ⟨clock, rfl⟩
      exact ⟨kept.authorized, kept.buckets, kept.admitted, kept.paced⟩
    · rintro world program ⟨message, sender, rfl⟩ kept
      exact ends_handle kept message sender
    · intro world request rest answer middle waiting kept served
      cases request with
      | grantedOrigins =>
        obtain ⟨type, payload, sender, origin, tab, own, found, other, content, rfl⟩ := waiting
        cases answer with
        | error message =>
          obtain rfl := (served : middle = world)
          exact .fail ⟨kept, trivial⟩
        | ok patterns =>
          obtain rfl := (served : middle = { world with granted := world.granted ++ [patterns] })
          exact ends_admitMessage (kept.grantedMore patterns) own found other content
            (List.mem_append_right _ (List.mem_singleton.mpr rfl))
      | result call =>
        obtain rfl := (served : middle = world)
        rcases waiting answer with ⟨value, ended⟩ | ⟨rejection, ended⟩
        · rw [ended]
          exact .done ⟨kept, trivial⟩
        · rw [ended]
          exact .fail ⟨kept, trivial⟩
      | now => exact absurd waiting id
      | hits tab => exact absurd waiting id
      | setHits tab hits at_ admitted => exact absurd waiting id
      | call call => exact absurd waiting id
  exact both.1

end Kept

/-! ### Too many messages -/

/-- A message is answered with this error before any handler runs: on its arrival, or as soon as
the granted permissions are known. -/
inductive Refused (options : RouterOptions) (world : RouterWorld) (message : Json)
    (sender : MessageSender) (rejection : Rejection) : Prop where
  | arriving {after : RouterWorld}
      (block : routerRuntime.Block world (handle options message sender) after (.fail rejection))
  | asked {rest : RouterAnswer .grantedOrigins → RouterAction Json}
      {answer : RouterAnswer .grantedOrigins} {middle after : RouterWorld}
      (waits : handle options message sender = .ask .grantedOrigins rest)
      (served : routerRuntime.serve world .grantedOrigins answer middle)
      (block : routerRuntime.Block middle (rest answer) after (.fail rejection))

/-- As many messages of a tab as the limit were admitted less than a window ago. -/
def Full (options : RouterOptions) (world : RouterWorld) (tab : ℤ) : Prop :=
  options.rateLimit.max ≤ ((admittedTimes tab world.readings).filter fun time =>
    world.clock - time < options.rateLimit.windowMs).length

/-- Where a task ends in this error only under this condition. -/
def LimitedOnly (condition : Prop) (rest : RouterAction Json) : Prop :=
  ∀ rejection, rest = .fail rejection → rejection.code = "rate_limited" → condition

section Limited

variable {options : RouterOptions} {world : RouterWorld} {type : String} {sender : MessageSender}

/-- The check does not answer that there are too many messages. -/
def Unlimited {Value : Type} (check : Except Rejection Value) : Prop :=
  Meets (fun rejection => rejection.code ≠ "rate_limited") check fun _ => True

theorem LimitedOnly.of_unlimited {Value : Type} {check : Except Rejection Value}
    {rejection : Rejection} {condition : Prop} (unlimited : Unlimited check)
    (failed : check = .error rejection) : LimitedOnly condition (.fail rejection) := by
  subst failed
  intro other same limited
  obtain rfl := Program.fail.inj same
  exact absurd limited unlimited

theorem unlimited_require {holds : Bool} {code message : String} (other : code ≠ "rate_limited") :
    Unlimited (require holds code message) := by
  cases holds with
  | true => exact Meets.ok trivial
  | false => exact Meets.error other

theorem unlimited_reject {Value : Type} {code message : String} (other : code ≠ "rate_limited") :
    Unlimited (reject code message : Except Rejection Value) :=
  Meets.error other

theorem unlimited_rejectKeys (members : List (String × Json)) : Unlimited (rejectKeys members) := by
  induction members with
  | nil => exact Meets.ok trivial
  | cons member members inductionHypothesis =>
    obtain ⟨key, value⟩ := member
    exact Meets.seq (unlimited_require (by decide)) fun _ _ => inductionHypothesis

theorem unlimited_checkShape (message : Json) : Unlimited (checkShape options message) := by
  unfold checkShape
  split
  · split
    · refine Meets.seq (unlimited_require (by decide)) fun _ _ => ?_
      refine Meets.seq (unlimited_rejectKeys _) fun _ _ => ?_
      exact Meets.seq (unlimited_require (by decide)) fun _ _ => Meets.ret trivial
    · exact unlimited_reject (by decide)
  · exact unlimited_reject (by decide)

theorem unlimited_checkSender : Unlimited (checkSender options type sender) := by
  refine Meets.seq (unlimited_require (by decide)) fun _ _ => ?_
  split
  · exact unlimited_reject (by decide)
  · split
    · exact unlimited_reject (by decide)
    · exact Meets.ret trivial

theorem unlimited_checkContent : Unlimited (checkContent type sender) := by
  unfold checkContent
  split
  · exact unlimited_reject (by decide)
  · refine Meets.seq (unlimited_require (by decide)) fun _ _ => ?_
    exact Meets.seq (unlimited_require (by decide)) fun _ _ => Meets.ret trivial

theorem unlimited_checkPayload (envelope : Envelope) :
    Unlimited (checkPayload options envelope) := by
  unfold checkPayload
  split
  · refine Meets.seq (unlimited_require (by decide)) fun _ _ => ?_
    split
    · exact unlimited_reject (by decide)
    · exact Meets.seq (unlimited_require (by decide)) fun _ _ => Meets.ret trivial
  · exact unlimited_reject (by decide)

/-- A message that is dispatched waits for its handler, unless its payload is refused. -/
theorem limitedOnly_dispatch (condition : Prop) (envelope : Envelope) :
    routerRuntime.BlockEnds world (dispatch options envelope) fun _ => LimitedOnly condition := by
  refine .lift_seq (fun _ => .of_unlimited (unlimited_checkPayload envelope)) fun call _ => ?_
  refine .serve rfl fun _ middle served => ?_
  refine .wait rfl fun rejection impossible => ?_
  cases impossible

theorem limitedOnly_admitMessage (kept : RouterKept options world) {payload : Option Json}
    {origin : String} {tab : ℤ} {patterns : List String} :
    routerRuntime.BlockEnds world (admitMessage options type payload sender origin tab patterns)
      fun _ => LimitedOnly (Full options world tab) := by
  refine .lift_seq (fun _ => .of_unlimited (unlimited_require (by decide))) fun _ _ => ?_
  refine .serve rfl fun time middle served => ?_
  obtain ⟨rfl, rfl⟩ : world.clock = time ∧ world = middle := ⟨served.1.symm, served.2.symm⟩
  refine .serve rfl fun hits middle served => ?_
  obtain ⟨rfl, rfl⟩ : world.buckets tab = hits ∧ world = middle :=
    ⟨served.1.symm, served.2.symm⟩
  refine .serve rfl fun _ middle served => ?_
  refine .lift_seq (fun rejection refused => ?_) fun _ _ => limitedOnly_dispatch _ _
  intro _ _ _
  show options.rateLimit.max ≤
    (Window.recent options.rateLimit.windowMs world.clock (admittedTimes tab world.readings)).length
  rw [kept.admitted]
  refine Window.full_of_refused ?_
  rw [← kept.buckets]
  by_contra room
  rw [Bool.not_eq_false] at room
  rw [room] at refused
  cases refused

/-- A message that waits for the permissions is a content script's, of a tab. -/
theorem handle_asks {message : Json} {rest : RouterAnswer .grantedOrigins → RouterAction Json}
    (waits : handle options message sender = .ask .grantedOrigins rest) :
    ∃ type payload origin tab, checkContent type sender = .ok tab ∧
      rest = fun answer => Program.lift (readGranted answer) >>=
        admitMessage options type payload sender origin tab := by
  obtain ⟨⟨type, payload⟩, -, waits⟩ := Program.lift_bind_eq_ask waits
  obtain ⟨origin, -, waits⟩ := Program.lift_bind_eq_ask waits
  split at waits
  · obtain ⟨call, -, waits⟩ := Program.lift_bind_eq_ask waits
    cases waits
  · obtain ⟨tab, content, waits⟩ := Program.lift_bind_eq_ask waits
    cases waits
    exact ⟨type, payload, origin, tab, content, rfl⟩

/-- On its arrival no message is refused for there being too many. -/
theorem limitedOnly_handle (condition : Prop) (message : Json) :
    routerRuntime.BlockEnds world (handle options message sender) fun _ =>
      LimitedOnly condition := by
  refine .lift_seq (fun _ => .of_unlimited (unlimited_checkShape message)) fun shape _ => ?_
  refine .lift_seq (fun _ => .of_unlimited unlimited_checkSender) fun origin _ => ?_
  split
  · exact limitedOnly_dispatch condition _
  · refine .lift_seq (fun _ => .of_unlimited unlimited_checkContent) fun tab _ => ?_
    refine .wait rfl fun rejection impossible => ?_
    cases impossible

/-- Whatever stage a message is refused at, it is as too frequent only if its tab's window is
full. -/
theorem full_of_refused (kept : RouterKept options world) {message : Json} {rejection : Rejection}
    (refused : Refused options world message sender rejection)
    (limited : rejection.code = "rate_limited") : ∃ tab ∈ sender.tabId, Full options world tab := by
  cases refused with
  | arriving block => exact limitedOnly_handle _ message _ _ block rejection rfl limited
  | @asked rest answer middle after waits served block =>
    obtain ⟨type, payload, origin, tab, content, rfl⟩ := handle_asks waits
    refine ⟨tab, (checkContent_ok content).1, ?_⟩
    cases answer with
    | error message =>
      cases block
      exact absurd limited (show "internal" ≠ "rate_limited" by decide)
    | ok patterns =>
      obtain rfl := (served : middle = { world with granted := world.granted ++ [patterns] })
      have still : RouterKept options { world with granted := world.granted ++ [patterns] } :=
        kept.grantedMore patterns
      exact limitedOnly_admitMessage still _ _ block rejection rfl limited

end Limited

/-! ### A run -/

/-- A host permission is granted, the clock stands still, and handlers answer nothing. -/
def routerAct (world : RouterWorld) :
    (request : RouterRequest) → RouterAnswer request × RouterWorld
  | .grantedOrigins => (.ok ["https://host.example/*"],
      { world with granted := world.granted ++ [["https://host.example/*"]] })
  | .now => (world.clock, world)
  | .hits tab => (world.buckets tab, world)
  | .setHits tab hits at_ admitted => ((), world.asked ⟨tab, at_, admitted⟩ hits)
  | .call call => ((), { world with called := world.called ++ [call] })
  | .result _ => (.ok none, world)

theorem routerAct_serves (world : RouterWorld) (request : RouterRequest) :
    routerRuntime.serve world request (routerAct world request).1 (routerAct world request).2 := by
  cases request with
  | grantedOrigins => rfl
  | now => exact ⟨rfl, rfl⟩
  | hits tab => exact ⟨rfl, rfl⟩
  | setHits tab hits at_ admitted => rfl
  | call call => rfl
  | result call => rfl

/-- A message arrives, or one that waits goes on. -/
inductive RouterMove where
  | arrive (message : Json) (sender : MessageSender)
  | goOn (index : ℕ)

section Play

variable (options : RouterOptions)

def RouterMove.turn : RouterMove →
    Runtime.Turn RouterRequest RouterAnswer RouterWorld Rejection Json
  | .arrive message sender => .start (handle options message sender)
  | .goOn index => .resume index routerAct

/-- What the worker has done after some moves. -/
def routerPlayed (moves : List RouterMove) : RouterWorld :=
  (Runtime.play routerWaits routerAct (.started 0, []) (moves.map (RouterMove.turn options))).1

theorem reached_routerPlayed (moves : List RouterMove) :
    RouterReached options (routerPlayed options moves) := by
  refine ⟨0, _, Runtime.reaches_play (fun world request _ => routerAct_serves world request) _
    (fun turn member => ?_) _⟩
  obtain ⟨move, _, rfl⟩ := List.mem_map.mp member
  cases move with
  | arrive message sender => exact ⟨message, sender, rfl⟩
  | goOn index => exact fun world request _ => routerAct_serves world request

end Play

/-- One handler for content scripts, and one message of a tab in ten seconds. -/
def sampleRouter : RouterOptions where
  browser := ⟨fun _ => none, id, fun _ => 0⟩
  runtimeId := "extension"
  handlers := [("feed.request", ⟨.content, fun value _ => .ok value, false⟩)]
  rateLimit := ⟨1, 10000⟩
  maxBytes := 32768

def sampleSender : MessageSender :=
  ⟨some "extension", some "https://host.example", none, some 7, some 0⟩

def sampleRequest : Json := .object [("type", .string "feed.request")]

/-- Two messages of one tab arrive before the first one's permission is known. -/
def sampleMoves : List RouterMove :=
  [.arrive sampleRequest sampleSender, .arrive sampleRequest sampleSender, .goOn 1, .goOn 0,
    .goOn 1]

/-- A third message is one too many, once its permission is known. -/
theorem refused_sample : Refused sampleRouter (routerPlayed sampleRouter sampleMoves) sampleRequest
    sampleSender ⟨"rate_limited", "Too many messages from this tab; try again shortly."⟩ := by
  let world := routerPlayed sampleRouter sampleMoves
  let patterns := ["https://host.example/*"]
  have served : routerRuntime.serve world .grantedOrigins (.ok patterns)
      { world with granted := world.granted ++ [patterns] } := rfl
  exact .asked rfl served <| Runtime.block_playBlock
    (fun world request _ _ => routerAct_serves world request)
    (admitMessage sampleRouter "feed.request" none sampleSender "https://host.example" 7 patterns)
    _ (Runtime.permitsBlock_all _ _)

section Results

variable (options : RouterOptions) (world : RouterWorld)

/-- Whatever arrives at the worker and however it interleaves, every call of a handler is
authorized. -/
theorem router_authorized (reached : RouterReached options world) :
    ∀ call ∈ world.called, Authorized options world.granted call :=
  (routerKept_reached reached).authorized

theorem router_authorized_sample :
    (routerPlayed sampleRouter sampleMoves).called.map HandlerCall.type = ["feed.request"] ∧
      ∀ call ∈ (routerPlayed sampleRouter sampleMoves).called,
        Authorized sampleRouter (routerPlayed sampleRouter sampleMoves).granted call :=
  ⟨by decide +kernel, router_authorized _ _ (reached_routerPlayed _ _)⟩

/-- If the clock does not run back between the questions of a tab, no window of time sees more
calls of handlers for its messages than the limit; and whatever the clock does, a message is
answered with `rate_limited` only if as many of its tab were admitted less than a window ago. -/
theorem router_paced (reached : RouterReached options world) :
    (∀ tab, (askedTimes tab world.readings).Pairwise (· ≤ ·) → ∀ first : ℤ,
      ((calledTimes tab world.called).filter fun time =>
        first ≤ time ∧ time < first + options.rateLimit.windowMs).length ≤ options.rateLimit.max) ∧
    ∀ message sender rejection, Refused options world message sender rejection →
      rejection.code = "rate_limited" → ∃ tab ∈ sender.tabId, Full options world tab := by
  have kept := routerKept_reached reached
  refine ⟨fun tab forward first => ?_, fun _ _ _ => full_of_refused kept⟩
  refine ((kept.paced tab).filter _).length_le.trans ?_
  rw [kept.admitted]
  exact Window.length_admitted_le forward first

theorem router_paced_sample :
    (routerPlayed sampleRouter sampleMoves).readings = [⟨7, 0, true⟩, ⟨7, 0, false⟩] ∧
      ((calledTimes 7 (routerPlayed sampleRouter sampleMoves).called).filter fun time =>
        (0 : ℤ) ≤ time ∧ time < 0 + 10000).length ≤ 1 ∧
      ∃ tab ∈ some 7, Full sampleRouter (routerPlayed sampleRouter sampleMoves) tab := by
  have readings : (routerPlayed sampleRouter sampleMoves).readings =
      [⟨7, 0, true⟩, ⟨7, 0, false⟩] := by decide +kernel
  have paced := router_paced sampleRouter _ (reached_routerPlayed _ sampleMoves)
  refine ⟨readings, paced.1 7 ?_ 0, paced.2 _ _ _ refused_sample rfl⟩
  rw [readings]
  decide

end Results

end OpenSocial.Extension.Router
