/-
This file proves what the state hash of a checkpoint says about the event log.

Two indexers that start at the same height have the same state hash at a height exactly if
they have logged the same events at every height up to it, whatever forks, failures and
restarts either of them has been through; a block without events leaves nothing of itself
in the hash but that it has none.
-/

import OpenSocial.Indexer.Confluence
import OpenSocial.Library.HashChain

namespace OpenSocial.Indexer

open Library Library.Script

/-! ### Hexadecimal digests -/

def lowerDigits : List Char :=
  ['0', '1', '2', '3', '4', '5', '6', '7', '8', '9', 'a', 'b', 'c', 'd', 'e', 'f']

/-- The text of a digest of 32 bytes. -/
def IsDigest (text : String) : Prop :=
  text.toList.length = 64 ∧ ∀ digit ∈ text.toList, digit ∈ lowerDigits

instance (text : String) : Decidable (IsDigest text) :=
  @instDecidableAnd _ _ inferInstance (List.decidableBAll _ _)

theorem hexDigit_lower {digit : Char} (lower : digit ∈ lowerDigits) :
    ∃ value < 16, hexDigit digit = some value := by
  have table : (lowerDigits.all fun digit => (hexDigit digit).any (· < 16)) = true := by
    decide +kernel
  have small := List.all_eq_true.mp table digit lower
  obtain ⟨value, found, bound⟩ := (Option.any_eq_true _ _).mp small
  exact ⟨value, of_decide_eq_true bound, found⟩

theorem hexDigit_injective {first second : Char} (lower : first ∈ lowerDigits)
    (other : second ∈ lowerDigits) (same : hexDigit first = hexDigit second) : first = second := by
  have distinct : (lowerDigits.map hexDigit).Nodup := by decide +kernel
  exact List.inj_on_of_nodup_map distinct lower other same

theorem byte_injective {high low high' low' : ℕ} (bounded : high < 16 ∧ low < 16)
    (bounded' : high' < 16 ∧ low' < 16)
    (same : UInt8.ofNat (16 * high + low) = UInt8.ofNat (16 * high' + low')) :
    high = high' ∧ low = low' := by
  have values := congrArg UInt8.toNat same
  rw [UInt8.toNat_ofNat_of_lt' (by show _ < 256; omega),
    UInt8.toNat_ofNat_of_lt' (by show _ < 256; omega)] at values
  omega

/-- Texts of lowercase digits of the same even length are told apart by their bytes. -/
theorem hexPairs_injective : ∀ {digits others : List Char},
    (∀ digit ∈ digits, digit ∈ lowerDigits) → (∀ digit ∈ others, digit ∈ lowerDigits) →
    digits.length = others.length → 2 ∣ digits.length → hexPairs digits = hexPairs others →
    digits = others
  | [], [], _, _, _, _, _ => rfl
  | [_], _, _, _, _, even, _ => by
    rw [List.length_singleton] at even
    omega
  | high :: low :: rest, high' :: low' :: rest', lower, lower', lengths, even, same => by
    have head := List.forall_mem_cons.mp lower
    have head' := List.forall_mem_cons.mp lower'
    have next := List.forall_mem_cons.mp head.2
    have next' := List.forall_mem_cons.mp head'.2
    obtain ⟨first, firstBound, firstIs⟩ := hexDigit_lower head.1
    obtain ⟨second, secondBound, secondIs⟩ := hexDigit_lower next.1
    obtain ⟨first', firstBound', firstIs'⟩ := hexDigit_lower head'.1
    obtain ⟨second', secondBound', secondIs'⟩ := hexDigit_lower next'.1
    rw [hexPairs, hexPairs, firstIs, secondIs, firstIs', secondIs'] at same
    obtain ⟨byte, later⟩ := List.cons.inj same
    obtain ⟨highs, lows⟩ :=
      byte_injective ⟨firstBound, secondBound⟩ ⟨firstBound', secondBound'⟩ byte
    have one : high = high' :=
      hexDigit_injective head.1 head'.1 (firstIs.trans (highs ▸ firstIs'.symm))
    have two : low = low' :=
      hexDigit_injective next.1 next'.1 (secondIs.trans (lows ▸ secondIs'.symm))
    have three : rest = rest' :=
      hexPairs_injective next.2 next'.2
        (by simpa only [List.length_cons, add_left_inj] using lengths)
        (by
          rw [List.length_cons, List.length_cons] at even
          omega) later
    rw [one, two, three]

/-- Digests are read whole: none of them begins with the mark of a hexadecimal number. -/
theorem hexToBytes_digest {text : String} (digest : IsDigest text) :
    hexToBytes text = hexPairs text.toList := by
  have unmarked : ¬ text.startsWith "0x" = true := by
    rw [String.startsWith_string_iff]
    intro marked
    have inside : 'x' ∈ text.toList := marked.subset (by decide)
    exact absurd (digest.2 _ inside) (by decide)
  rw [hexToBytes, if_neg unmarked]

theorem hexToBytes_injective {text other : String} (digest : IsDigest text)
    (digest' : IsDigest other) (same : hexToBytes text = hexToBytes other) : text = other := by
  rw [hexToBytes_digest digest, hexToBytes_digest digest'] at same
  refine String.toList_inj.mp (hexPairs_injective digest.2 digest'.2 ?_ ?_ same)
  · rw [digest.1, digest'.1]
  · rw [digest.1]
    decide

/-! ### What is hashed -/

/-- The members of a logged event that its view shows, with its data in canonical form. -/
@[ext]
structure LoggedEvent where
  height : ℕ
  blockId : String
  txIndex : ℕ
  txId : String
  sequence : ℕ
  contract : String
  name : String
  data : Json
  impacted : List String
  deriving DecidableEq

def logged (row : EventLogRow) : LoggedEvent where
  height := row.height
  blockId := row.blockId
  txIndex := row.txIndex
  txId := row.txId
  sequence := row.sequence
  contract := row.contract.text
  name := row.name
  data := canonicalJson row.dataJson
  impacted := row.impacted

/-- The events logged at a height, in their order. -/
def loggedAt (db : IndexerDb) (height : ℕ) : List LoggedEvent :=
  (db.eventLog.filter fun row => row.height = height).map logged

theorem sortItems_eq_map (items : List Json) : sortItems items = items.map sortKeys := by
  induction items with
  | nil => rfl
  | cons item rest inductionHypothesis => rw [sortItems, List.map_cons, inductionHypothesis]

theorem sortItems_string (texts : List String) :
    sortItems (texts.map .string) = texts.map .string := by
  rw [sortItems_eq_map, List.map_map]
  rfl

/-- A logged event as it is hashed. -/
def LoggedEvent.view (event : LoggedEvent) : Json :=
  .object
    [("blockId", .string event.blockId), ("contract", .string event.contract),
      ("data", event.data), ("height", .string (toString event.height)),
      ("impacted", .array (event.impacted.map .string)), ("name", .string event.name),
      ("sequence", .number event.sequence), ("txId", .string event.txId),
      ("txIndex", .number event.txIndex)]

/-- The canonical form of a row's view shows the logged event. -/
theorem canonicalJson_rowView (row : EventLogRow) :
    canonicalJson (rowView row) = (logged row).view := by
  have sorted : sortKeys (rowView row) = .object (([("height", .string (toString row.height)),
      ("blockId", .string row.blockId), ("txIndex", .number row.txIndex),
      ("txId", .string row.txId), ("sequence", .number row.sequence),
      ("contract", .string row.contract.text), ("name", .string row.name),
      ("data", sortKeys row.dataJson), ("impacted", .array (row.impacted.map .string))] :
        List (String × Json)).insertionSort fun first second => first.1 ≤ second.1) := by
    simp only [rowView, sortKeys, sortMembers, sortItems_string]
  rw [canonicalJson, sorted]
  simp [List.insertionSort, List.orderedInsert, LoggedEvent.view, logged, canonicalJson]

/-- And shows it whole. -/
theorem view_injective : Function.Injective LoggedEvent.view := by
  intro first second same
  have heights : ∀ {one two : ℕ}, toString one = toString two → one = two :=
    fun same => Nat.repr_injective same
  have texts : Function.Injective (List.map Json.string) :=
    List.map_injective_iff.mpr fun _ _ same => Json.string.inj same
  simp only [LoggedEvent.view, Json.object.injEq, List.cons.injEq, Prod.mk.injEq, true_and,
    Json.string.injEq, Json.array.injEq, Json.number.injEq, Nat.cast_inj, and_true] at same
  obtain ⟨blockId, contract, data, height, impacted, name, sequence, txId, txIndex⟩ := same
  exact LoggedEvent.ext (heights height) blockId txIndex txId sequence contract name data
    (texts impacted)

/-- The events of a height as their hash is taken of them. -/
theorem canonicalJson_viewsAt (db : IndexerDb) (height : ℕ) :
    canonicalJson (.array (viewsAt db.eventLog height)) =
      .array ((loggedAt db height).map LoggedEvent.view) := by
  have each : sortKeys ∘ rowView = LoggedEvent.view ∘ logged :=
    funext fun row => canonicalJson_rowView row
  rw [canonicalJson, sortKeys, sortItems_eq_map, viewsAt, loggedAt, List.map_map, List.map_map,
    each]

theorem canonicalJson_viewsAt_inj {first second : IndexerDb} {height : ℕ} :
    canonicalJson (.array (viewsAt first.eventLog height)) =
        canonicalJson (.array (viewsAt second.eventLog height)) ↔
      loggedAt first height = loggedAt second height := by
  rw [canonicalJson_viewsAt, canonicalJson_viewsAt, Json.array.injEq]
  exact (List.map_injective_iff.mpr view_injective).eq_iff

/-! ### The chain of state hashes -/

section Chain

variable (runtime : Runtime)

def previousBytes (previous : Option String) : Bytes :=
  (previous.filter (· ≠ "")).elim [] hexToBytes

/-- What the state hash at a place of the log is taken of. -/
def hashedAt (startHeight : ℕ) (db : IndexerDb) (index : ℕ) : Bytes × Json :=
  (previousBytes (hashChain runtime db.eventLog startHeight index),
    canonicalJson (.array (viewsAt db.eventLog (startHeight + index))))

def hashLink (previous : Option String) (events : Json) : String :=
  runtime.sha256 (previousBytes previous) events

variable {runtime} {startHeight : ℕ} {first second : IndexerDb}

theorem hashChain_eq_digestAfter (log : List EventLogRow) (count : ℕ) :
    hashChain runtime log startHeight count =
      digestAfter (hashLink runtime)
        (fun index => canonicalJson (.array (viewsAt log (startHeight + index)))) count := by
  induction count with
  | zero => rfl
  | succ count inductionHypothesis =>
    rw [hashChain, digestAfter, ← inductionHypothesis]
    rfl

/-- Before a place, either both logs have no hash or each has a digest. -/
theorem hashChain_digests (hexadecimal : ∀ start value, IsDigest (runtime.sha256 start value))
    {log other : List EventLogRow} {index : ℕ}
    (same : previousBytes (hashChain runtime log startHeight index) =
      previousBytes (hashChain runtime other startHeight index)) :
    hashChain runtime log startHeight index = hashChain runtime other startHeight index := by
  cases index with
  | zero => rfl
  | succ index =>
    have nonempty : ∀ {text : String}, IsDigest text → text ≠ "" := by
      rintro text digest rfl
      exact absurd digest.1 (by decide)
    have bytes : ∀ {text : String}, IsDigest text →
        previousBytes (some text) = hexToBytes text := by
      intro text digest
      rw [previousBytes, Option.filter_some, if_pos (decide_eq_true (nonempty digest)),
        Option.elim_some]
    have digest : ∀ previous events, IsDigest (computeStateHash runtime previous events) :=
      fun _ _ => hexadecimal _ _
    rw [hashChain, hashChain, bytes (digest _ _), bytes (digest _ _)] at same
    rw [hashChain, hashChain, hexToBytes_injective (digest _ _) (digest _ _) same]

theorem separated_hashChain (hexadecimal : ∀ start value, IsDigest (runtime.sha256 start value))
    {count : ℕ} (resistant : ∀ index < count,
      runtime.sha256.uncurry (hashedAt runtime startHeight first index) =
        runtime.sha256.uncurry (hashedAt runtime startHeight second index) →
      hashedAt runtime startHeight first index = hashedAt runtime startHeight second index) :
    Separated (hashLink runtime)
      (fun index => canonicalJson (.array (viewsAt first.eventLog (startHeight + index))))
      (fun index => canonicalJson (.array (viewsAt second.eventLog (startHeight + index))))
      count := by
  intro index below same
  rw [← hashChain_eq_digestAfter, ← hashChain_eq_digestAfter] at same ⊢
  obtain ⟨bytes, events⟩ := Prod.mk.inj (resistant index below same)
  exact ⟨hashChain_digests hexadecimal bytes, events⟩

/-- The place of a stored checkpoint in the chain of hashes. -/
theorem hashChain_of_checkpoint (blocks : List (ChainBlock runtime.codec))
    (linked : Linked startHeight blocks) {row : CheckpointRow}
    (stored : row ∈ (databaseOf runtime blocks).checkpoints) :
    ∃ index, row.height = startHeight + index ∧
      hashChain runtime (databaseOf runtime blocks).eventLog startHeight (index + 1) =
        some row.stateHash := by
  obtain ⟨index, bound, found⟩ := List.mem_iff_getElem.mp stored
  have sits : (databaseOf runtime blocks).checkpoints[index]? = some row :=
    List.getElem?_eq_some_iff.mpr ⟨bound, found⟩
  refine ⟨index, ?_, hashChain_databaseOf linked sits⟩
  have heights := (integrity_databaseOf linked).contiguous
  have here := congrArg (fun column : List ℕ => column[index]?) heights
  simp only [List.getElem?_map, sits, Option.map_some] at here
  rw [List.getElem?_range' bound, Option.some.injEq] at here
  omega

/-- Below the start height nothing is logged. -/
theorem loggedAt_of_lt {blocks : List (ChainBlock runtime.codec)}
    (linked : Linked startHeight blocks) {height : ℕ} (below : height < startHeight) :
    loggedAt (databaseOf runtime blocks) height = [] := by
  have none_there : ((databaseOf runtime blocks).eventLog.filter fun row => row.height = height) =
      [] := by
    refine List.filter_eq_nil_iff.mpr fun row member => ?_
    rw [eventLog_databaseOf] at member
    obtain ⟨block, inside, found⟩ := List.mem_flatMap.mp member
    have bound := (height_of_mem_linked linked inside).1
    rw [height_of_mem_blockRows found]
    simp only [decide_eq_true_eq]
    omega
  rw [loggedAt, none_there, List.map_nil]

end Chain

/-- Two indexers that start at the same height, each after any polls, have the same state hash at a
height exactly if they logged the same events at every height up to it; the digest is trusted only
on what the two have hashed there. -/
theorem stateHash_commits (runtime : Runtime)
    (hexadecimal : ∀ start value, IsDigest (runtime.sha256 start value))
    (options others : SyncOptions) (start : others.first = options.first)
    (plans plans' : List Plan) (polls polls' : List (Poll runtime)) (row row' : CheckpointRow)
    (stored : row ∈ (syncerAfter runtime options plans polls).db.checkpoints)
    (stored' : row' ∈ (syncerAfter runtime others plans' polls').db.checkpoints)
    (level : row'.height = row.height)
    (resistant : ∀ index, options.first + index ≤ row.height →
      runtime.sha256.uncurry (hashedAt runtime options.first
          (syncerAfter runtime options plans polls).db index) =
        runtime.sha256.uncurry (hashedAt runtime options.first
          (syncerAfter runtime others plans' polls').db index) →
      hashedAt runtime options.first (syncerAfter runtime options plans polls).db index =
        hashedAt runtime options.first (syncerAfter runtime others plans' polls').db index) :
    row.stateHash = row'.stateHash ↔
      ∀ height ≤ row.height, loggedAt (syncerAfter runtime options plans polls).db height =
        loggedAt (syncerAfter runtime others plans' polls').db height := by
  obtain ⟨blocks, stores, _⟩ := @stores_syncerAfter runtime options plans polls
  obtain ⟨blocks', stores', _⟩ := @stores_syncerAfter runtime others plans' polls'
  have linked' : Linked options.first blocks' := start ▸ stores'.linked
  rw [stores.filled] at stored resistant ⊢
  rw [stores'.filled] at stored' resistant ⊢
  obtain ⟨index, height, chained⟩ := hashChain_of_checkpoint blocks stores.linked stored
  obtain ⟨index', height', chained'⟩ := hashChain_of_checkpoint blocks' linked' stored'
  obtain rfl : index = index' := by omega
  have separated := separated_hashChain hexadecimal
    fun place (below : place < index + 1) => resistant place (by omega)
  rw [← Option.some.injEq, ← chained, ← chained', hashChain_eq_digestAfter,
    hashChain_eq_digestAfter, digestAfter_eq_iff separated]
  constructor
  · intro same height within
    rcases Nat.lt_or_ge height options.first with below | above
    · rw [loggedAt_of_lt stores.linked below, loggedAt_of_lt linked' below]
    · have here := canonicalJson_viewsAt_inj.mp (same (height - options.first) (by omega))
      rw [Nat.add_sub_cancel' above] at here
      exact here
  · intro same place below
    exact canonicalJson_viewsAt_inj.mpr (same _ (by omega))

/-! ### A block with an event and one without -/

/-- A sponsor was deactivated. -/
def deactivated : ProtocolEvent :=
  .sponsorship (.sponsorDeactivated ⟨List.replicate 25 0, List.length_replicate⟩ 5)

/-- The view of that event's data. -/
def deactivatedView : Json :=
  .object [("sponsor", .string "1111111111111111111111111"), ("timestamp", .string "5")]

/-- The SHA-256 digests of the three things hashed below. -/
def threeDigests (start : Bytes) (value : Json) : String :=
  if start = [] then "4f53cda18c2baa0c0354bb5f9a3ecbe5ed12ab4d8e11ba873c2f11161202b945"
  else if value = .array [] then
    "e924f55c22fd5f2533592c26ebee071f88fe3cf9a9101299bd55ac2c88cc9885"
  else "a52dd846f0b921fbfdd980267ca3b35ce808d00137425851addca3bb481d97a5"

/-- Libraries that decode that event and have those digests. -/
def deactivatingRuntime : Runtime where
  codec :=
    ⟨fun _ raw => if raw = "deactivated" then deactivated else none, fun _ => deactivatedView⟩
  sdk := Sdk.standard
  sha256 := threeDigests

theorem digest_threeDigests (start : Bytes) (value : Json) :
    IsDigest (threeDigests start value) := by
  unfold threeDigests
  split_ifs
  · decide +kernel
  · decide +kernel
  · decide +kernel

def deactivation : ChainEvent :=
  ⟨0, 0, "t", "osp.sponsorship.sponsor_deactivated", "deactivated", deactivated, []⟩

theorem ordered_deactivation : Rows.Ordered ChainEvent.position [deactivation] :=
  List.pairwise_singleton _ _

theorem decoded_deactivation : ∀ event ∈ [deactivation],
    deactivatingRuntime.codec.decode event.name event.raw = some event.event := by
  intro event member
  rw [List.mem_singleton.mp member]
  rfl

theorem decoded_none : ∀ event ∈ ([] : List ChainEvent),
    deactivatingRuntime.codec.decode event.name event.raw = some event.event :=
  fun _ absent => absurd absent List.not_mem_nil

def firstBlock : ChainBlock deactivatingRuntime.codec where
  height := 1
  id := idOf 'b' 1
  previous := ""
  timestamp := 0
  events := []
  identified := idOf_ne_empty 'b' 1
  ordered := ordered_nothing
  decoded := decoded_none

def quietBlock : ChainBlock deactivatingRuntime.codec where
  height := 2
  id := idOf 'f' 2
  previous := idOf 'b' 1
  timestamp := 0
  events := []
  identified := idOf_ne_empty 'f' 2
  ordered := ordered_nothing
  decoded := decoded_none

def eventfulBlock : ChainBlock deactivatingRuntime.codec where
  height := 2
  id := idOf 'b' 2
  previous := idOf 'b' 1
  timestamp := 0
  events := [deactivation]
  identified := idOf_ne_empty 'b' 2
  ordered := ordered_deactivation
  decoded := decoded_deactivation

/-- A node with two blocks. -/
def pairNode (second : ChainBlock deactivatingRuntime.codec) : Node deactivatingRuntime.codec where
  chainId := .ok "main"
  head := .ok ⟨2, second.id, some 1, 0⟩
  returned := fun _ _ _ => .ok [firstBlock, second]

/-- The indexer of the eventful block and the one of the quiet block are told apart. -/
theorem stateHash_commits_pair :
    ¬ ∀ height ≤ 2, loggedAt (syncerAfter deactivatingRuntime plainOptions []
        [.step (pairNode eventfulBlock)]).db height =
      loggedAt (syncerAfter deactivatingRuntime plainOptions []
        [.step (pairNode quietBlock)]).db height := by
  have commits := stateHash_commits deactivatingRuntime digest_threeDigests plainOptions
    plainOptions rfl [] [] [.step (pairNode eventfulBlock)] [.step (pairNode quietBlock)]
    ⟨2, idOf 'b' 2, idOf 'b' 1, 0,
      "a52dd846f0b921fbfdd980267ca3b35ce808d00137425851addca3bb481d97a5", 1⟩
    ⟨2, idOf 'f' 2, idOf 'b' 1, 0,
      "e924f55c22fd5f2533592c26ebee071f88fe3cf9a9101299bd55ac2c88cc9885", 0⟩
    (by decide +kernel) (by decide +kernel) rfl ?_
  · intro same
    exact absurd (commits.mpr same) (by decide)
  · intro index within
    have places : index = 0 ∨ index = 1 := by
      have start : plainOptions.first = 1 := by decide
      have bound : plainOptions.first + index ≤ 2 := within
      omega
    rcases places with rfl | rfl
    · exact fun _ => by decide +kernel
    · exact fun collision => absurd collision (by decide +kernel)

end OpenSocial.Indexer
