/-
This file proves when the web client makes a second key for an epoch of friends.

A friends post is encrypted under a key that the store holds, or under a new one. A
new one is made exactly if the store has no trusted key and no copy came to notice:
the lookup failed, or no copy that was served opened and stood the check on chain.
A lookup that fails is taken for one that finds nothing, so a key may be made where
one was handed out before.
-/

import OpenSocial.Sdk.DirectMessages
import OpenSocial.Web.Publish

namespace OpenSocial.Web

open Library Sdk

/-! ### Stages of a plan -/

/-- The parts of a plan, by what they ask. -/
inductive Stage where
  | start
  | lookup
  | collect
  | make
  | hand
  | finish
  deriving DecidableEq

def Request.stage : Request → Stage
  | .audience _ => .start
  | .init => .lookup
  | .trusted _ => .lookup
  | .entry _ => .lookup
  | .put _ _ _ => .lookup
  | .remember _ _ => .lookup
  | .forget _ => .lookup
  | .missedLately _ => .lookup
  | .miss _ => .lookup
  | .keys _ => .lookup
  | .verify _ _ => .lookup
  | .graph => .collect
  | .relationship _ => .collect
  | .identity _ => .collect
  | .newEpochKey => .make
  | .seals => .hand
  | .distributeKeys _ _ _ => .hand
  | .authorState _ => .finish
  | .contentKeys => .finish
  | .publish _ => .finish

/-- A part of a trace belongs to one stage. -/
def At (stage : Stage) (trace : Trace) : Prop := ∀ exchange ∈ trace, exchange.1.stage = stage

theorem at_nil (stage : Stage) : At stage [] := fun _ absent => absurd absent List.not_mem_nil

theorem At.cons {stage : Stage} {exchange : Exchange} {trace : Trace}
    (first : exchange.1.stage = stage) (rest : At stage trace) : At stage (exchange :: trace) :=
  List.forall_mem_cons.mpr ⟨first, rest⟩

theorem At.append {stage : Stage} {first last : Trace} (front : At stage first)
    (back : At stage last) : At stage (first ++ last) :=
  List.forall_mem_append.mpr ⟨front, back⟩

theorem At.not_mem {stage : Stage} {trace : Trace} (part : At stage trace) {exchange : Exchange}
    (other : exchange.1.stage ≠ stage) : exchange ∉ trace :=
  fun member => other (part exchange member)

/-! ### What a plan came upon -/

section Findings

variable (libraries : KeyLibraries) (me : KeyResolverIdentity) (verifies : Bool)

/-- The chain answered that this is the epoch of the account's friends. -/
def Current (trace : Trace) (epoch : ℕ) : Prop :=
  ∃ answer, (⟨.audience me.account, .ok answer⟩ : Exchange) ∈ trace ∧ answer.getD 0 = epoch

/-- A key was drawn. -/
def Drawn (trace : Trace) : Prop := ∃ key, (⟨.newEpochKey, key⟩ : Exchange) ∈ trace

/-- A key was made for an epoch. -/
def Mints (trace : Trace) (epoch : ℕ) : Prop := Drawn trace ∧ Current me trace epoch

/-- The lookup of the sealed copies failed, or opening them did. -/
def LookupFailed (trace : Trace) (ref : EpochKeyRef) : Prop :=
  (∃ error, (⟨.keys ref, .error error⟩ : Exchange) ∈ trace) ∨
    ∃ items error, (⟨.keys ref, .ok items⟩ : Exchange) ∈ trace ∧
      openAll libraries me ref items = .error error

/-- Of the copies that were served, each that opens was refused on chain. -/
def AllRefused (trace : Trace) (ref : EpochKeyRef) : Prop :=
  ∃ items opened, (⟨.keys ref, .ok items⟩ : Exchange) ∈ trace ∧
    openAll libraries me ref items = .ok opened ∧ (opened = [] ∨ verifies = true) ∧
    ∀ item provenance, (⟨.verify item ref, provenance⟩ : Exchange) ∈ trace →
      ∃ reason, provenance = .rejected reason

/-- A verified copy was gone from the store when it was read back. -/
def Lost (trace : Trace) (ref : EpochKeyRef) : Prop := (⟨.entry ref, none⟩ : Exchange) ∈ trace

/-- No key of an epoch came to notice. -/
structure Unnoticed (trace : Trace) (ref : EpochKeyRef) : Prop where
  uncached : (⟨.trusted ref, none⟩ : Exchange) ∈ trace
  unseen : LookupFailed libraries me trace ref ∨ AllRefused libraries me verifies trace ref ∨ Lost trace ref

/-- The chain did not answer about a friend. -/
def Unreachable (exchange : Exchange) : Prop :=
  (∃ friend error, exchange = ⟨.relationship friend, .error error⟩) ∨
    ∃ friend error, exchange = ⟨.identity friend, .error error⟩

/-- The friends were listed, and the chain answered about each. -/
structure FriendsListed (trace : Trace) : Prop where
  listed : ∃ friends, (⟨.graph, .ok friends⟩ : Exchange) ∈ trace
  answered : ∀ exchange ∈ trace, ¬ Unreachable exchange

/-- The store gave an entry of an epoch. -/
def Held (trace : Trace) (ref : EpochKeyRef) (entry : EpochKeyEntry) : Prop :=
  (⟨.trusted ref, some entry⟩ : Exchange) ∈ trace ∨ (⟨.entry ref, some entry⟩ : Exchange) ∈ trace

end Findings

/-! ### Resolving -/

section Resolving

variable {libraries : KeyLibraries} {me : KeyResolverIdentity} {ref : EpochKeyRef}

/-- Every check refused its copy. -/
def Refuses (trace : Trace) (ref : EpochKeyRef) : Prop :=
  ∀ item provenance, (⟨.verify item ref, provenance⟩ : Exchange) ∈ trace →
    ∃ reason, provenance = .rejected reason

/-- What verifying copies comes to: it needs no lookup, and answers nothing exactly if every copy
was refused, or the one that was verified is gone. -/
structure Verifying (ref : EpochKeyRef) (unverifiable : Bool) (trace : Trace)
    (resolved : Resolved) : Prop where
  stage : At .lookup trace
  uncached : ∀ other cached, (⟨.trusted other, cached⟩ : Exchange) ∉ trace
  unasked : ∀ other answer, (⟨.keys other, answer⟩ : Exchange) ∉ trace
  same : ∀ other answer, (⟨.entry other, answer⟩ : Exchange) ∈ trace → other = ref
  nothing : (resolved.entry = none ∧ resolved.unverifiable = false) ↔
    (unverifiable = false ∧ Refuses trace ref) ∨ Lost trace ref
  held : ∀ entry, resolved.entry = some entry ↔ Held trace ref entry

theorem refuses_cons {trace : Trace} {item : SealedKeyView} {provenance : KeyProvenance} :
    Refuses (⟨.verify item ref, provenance⟩ :: trace) ref ↔
      (∃ reason, provenance = .rejected reason) ∧ Refuses trace ref := by
  constructor
  · intro refuses
    exact ⟨refuses item provenance List.mem_cons_self,
      fun other answer member => refuses other answer (List.mem_cons_of_mem _ member)⟩
  · rintro ⟨refused, refuses⟩ other answer member
    rcases List.mem_cons.mp member with same | later
    · cases same
      exact refused
    · exact refuses other answer later

/-- A check in front, after which the other copies are verified. -/
theorem Verifying.cons {trace : Trace} {item : SealedKeyView} {provenance : KeyProvenance}
    {unverifiable after : Bool} {resolved : Resolved}
    (verifying : Verifying ref after trace resolved)
    (flagged : after = false ↔ unverifiable = false ∧ ∃ reason, provenance = .rejected reason) :
    Verifying ref unverifiable (⟨.verify item ref, provenance⟩ :: trace) resolved where
  stage := .cons rfl verifying.stage
  uncached := by
    intro other cached member
    rcases List.mem_cons.mp member with same | later
    · cases same
    · exact verifying.uncached other cached later
  unasked := by
    intro other answer member
    rcases List.mem_cons.mp member with same | later
    · cases same
    · exact verifying.unasked other answer later
  same := by
    intro other answer member
    rcases List.mem_cons.mp member with same | later
    · cases same
    · exact verifying.same other answer later
  nothing := by
    have lost : Lost (⟨.verify item ref, provenance⟩ :: trace) ref ↔ Lost trace ref := by
      refine ⟨fun member => ?_, fun member => List.mem_cons_of_mem _ member⟩
      rcases List.mem_cons.mp member with same | later
      · cases same
      · exact later
    rw [verifying.nothing, flagged, refuses_cons, lost, and_assoc]
  held := by
    intro entry
    rw [verifying.held, Held, Held, List.mem_cons, List.mem_cons]
    refine or_congr ⟨.inr, fun either => ?_⟩ ⟨.inr, fun either => ?_⟩
    · exact either.resolve_left fun same => by cases same
    · exact either.resolve_left fun same => by cases same

/-- A copy that is verified is stored, and read back. -/
theorem verifying_verified (unverifiable : Bool) (item : SealedKeyView) (key : Bytes)
    (recipients : List String) (entry : Option EpochKeyEntry) :
    Verifying ref unverifiable [⟨.verify item ref, .verified recipients⟩,
      ⟨.put ref key recipients, ()⟩, ⟨.entry ref, entry⟩] ⟨entry, false⟩ where
  stage := .cons rfl (.cons rfl (.cons rfl (at_nil _)))
  uncached := by
    intro other cached member
    simp at member
  unasked := by
    intro other answer member
    simp at member
  same := by
    intro other answer member
    simp at member
    exact member.1
  nothing := by
    have checked : ¬ Refuses [⟨.verify item ref, .verified recipients⟩,
        ⟨.put ref key recipients, ()⟩, ⟨.entry ref, entry⟩] ref := by
      intro refuses
      obtain ⟨reason, impossible⟩ := (refuses_cons.mp refuses).1
      cases impossible
    have lost : Lost [⟨.verify item ref, .verified recipients⟩,
        ⟨.put ref key recipients, ()⟩, ⟨.entry ref, entry⟩] ref ↔ entry = none := by
      unfold Lost
      simp [eq_comm]
    rw [lost, and_iff_left rfl]
    exact ⟨.inr, fun either => either.resolve_left fun both => checked both.2⟩
  held := by
    intro found
    unfold Held
    simp [eq_comm]

theorem ensures_verifyFirst {Failure : Type} (ref : EpochKeyRef) (unverifiable : Bool)
    (found : List KeyCandidate) :
    (verifyFirst ref unverifiable found : Program Request Answer Failure Resolved).Ensures
      fun trace result => ∃ resolved, result = .ok resolved ∧
        Verifying ref unverifiable trace resolved := by
  induction found generalizing unverifiable with
  | nil =>
    refine .done ⟨_, rfl, at_nil _, fun _ _ absent => absurd absent List.not_mem_nil,
      fun _ _ absent => absurd absent List.not_mem_nil,
      fun _ _ absent => absurd absent List.not_mem_nil, ?_, fun entry => ?_⟩
    · constructor
      · rintro ⟨_, verifiable⟩
        exact .inl ⟨verifiable, fun item provenance absent => absurd absent List.not_mem_nil⟩
      · rintro (⟨verifiable, _⟩ | lost)
        · exact ⟨rfl, verifiable⟩
        · exact absurd lost List.not_mem_nil
    · unfold Held
      simp
  | cons candidate others inductionHypothesis =>
    unfold verifyFirst
    refine .query_seq (fun answer failure impossible => by cases impossible)
      fun provenance _ same => ?_
    cases same
    cases provenance with
    | verified recipients =>
      refine .query_seq (fun answer failure impossible => by cases impossible) fun _ _ same => ?_
      cases same
      refine .query_seq (fun answer failure impossible => by cases impossible)
        fun entry _ same => ?_
      cases same
      exact .done ⟨_, rfl, verifying_verified unverifiable _ _ recipients entry⟩
    | rejected reason =>
      refine (inductionHypothesis unverifiable).weaken fun last result ended => ?_
      obtain ⟨resolved, same, verifying⟩ := ended
      exact ⟨resolved, same, verifying.cons ⟨fun fine => ⟨fine, reason, rfl⟩, And.left⟩⟩
    | unavailable reason =>
      refine (inductionHypothesis true).weaken fun last result ended => ?_
      obtain ⟨resolved, same, verifying⟩ := ended
      refine ⟨resolved, same, verifying.cons ⟨fun impossible => (by cases impossible), ?_⟩⟩
      rintro ⟨_, other, impossible⟩
      cases impossible

/-- What resolving a trusted key comes to: it answers nothing exactly if no key came to notice. -/
structure Resolving (libraries : KeyLibraries) (me : KeyResolverIdentity) (verifies : Bool)
    (ref : EpochKeyRef) (trace : Trace) (resolved : Resolved) : Prop where
  stage : At .lookup trace
  sought : ∃ cached, (⟨.trusted ref, cached⟩ : Exchange) ∈ trace
  same : ∀ other cached, (⟨.trusted other, cached⟩ : Exchange) ∈ trace → other = ref
  nothing : (resolved.entry = none ∧ resolved.unverifiable = false) ↔
    Unnoticed libraries me verifies trace ref
  held : ∀ entry, resolved.entry = some entry ↔ Held trace ref entry
  alone : ∀ other entry, Held trace other entry → other = ref

/-- The exchanges before any copy is checked. -/
def sought (ref : EpochKeyRef) (cached : Option EpochKeyEntry) : Trace :=
  [⟨.init, ()⟩, ⟨.trusted ref, cached⟩]

theorem resolving_cached {verifies : Bool} (entry : EpochKeyEntry) :
    Resolving libraries me verifies ref (sought ref (some entry)) ⟨some entry, false⟩ where
  stage := .cons rfl (.cons rfl (at_nil _))
  sought := ⟨some entry, List.mem_cons_of_mem _ List.mem_cons_self⟩
  same := by
    intro other cached member
    simp [sought] at member
    exact member.1
  nothing := by
    refine ⟨fun both => (by cases both.1), fun unnoticed => ?_⟩
    have uncached := unnoticed.uncached
    simp [sought] at uncached
  held := by
    intro found
    unfold Held sought
    simp [eq_comm]
  alone := by
    intro other found held
    unfold Held sought at held
    simp at held
    exact held.1

/-- The copies are looked up, and then what comes of them. -/
theorem resolving_lookup {verifies : Bool}
    {answer : Except String (List SealedKeyView)} {last : Trace} {resolved : Resolved}
    (stage : At .lookup last)
    (uncached : ∀ other cached, (⟨.trusted other, cached⟩ : Exchange) ∉ last)
    (nothing : (resolved.entry = none ∧ resolved.unverifiable = false) ↔
      LookupFailed libraries me (⟨.keys ref, answer⟩ :: last) ref ∨
        AllRefused libraries me verifies (⟨.keys ref, answer⟩ :: last) ref ∨ Lost last ref)
    (held : ∀ entry, resolved.entry = some entry ↔ Held last ref entry)
    (alone : ∀ other entry, Held last other entry → other = ref) :
    Resolving libraries me verifies ref (sought ref none ++ ⟨.keys ref, answer⟩ :: last)
      resolved where
  stage := .append (.cons rfl (.cons rfl (at_nil _))) (.cons rfl stage)
  sought := ⟨none, List.mem_append_left _ (List.mem_cons_of_mem _ List.mem_cons_self)⟩
  same := by
    intro other cached member
    rcases List.mem_append.mp member with first | later
    · simp [sought] at first
      exact first.1
    · rcases List.mem_cons.mp later with same | behind
      · cases same
      · exact absurd behind (uncached other cached)
  nothing := by
    rw [nothing]
    have keys : ∀ answered, (⟨.keys ref, answered⟩ : Exchange) ∈
        sought ref none ++ ⟨.keys ref, answer⟩ :: last ↔
          (⟨.keys ref, answered⟩ : Exchange) ∈ ⟨.keys ref, answer⟩ :: last := by
      intro answered
      simp [sought]
    have checks : ∀ item provenance, (⟨.verify item ref, provenance⟩ : Exchange) ∈
        sought ref none ++ ⟨.keys ref, answer⟩ :: last ↔
          (⟨.verify item ref, provenance⟩ : Exchange) ∈ ⟨.keys ref, answer⟩ :: last := by
      intro item provenance
      simp [sought]
    have lost : Lost (sought ref none ++ ⟨.keys ref, answer⟩ :: last) ref ↔ Lost last ref := by
      unfold Lost
      simp [sought]
    have unseen : (LookupFailed libraries me (⟨.keys ref, answer⟩ :: last) ref ∨
        AllRefused libraries me verifies (⟨.keys ref, answer⟩ :: last) ref ∨ Lost last ref) ↔
        (LookupFailed libraries me (sought ref none ++ ⟨.keys ref, answer⟩ :: last) ref ∨
          AllRefused libraries me verifies (sought ref none ++ ⟨.keys ref, answer⟩ :: last) ref ∨
            Lost (sought ref none ++ ⟨.keys ref, answer⟩ :: last) ref) := by
      unfold LookupFailed AllRefused
      simp only [keys, checks, lost]
    rw [unseen]
    refine ⟨fun either => ⟨?_, either⟩, Unnoticed.unseen⟩
    exact List.mem_append_left _ (List.mem_cons_of_mem _ List.mem_cons_self)
  held := by
    intro entry
    rw [held]
    unfold Held sought
    simp
  alone := by
    intro other entry found
    refine alone other entry ?_
    unfold Held sought at found
    unfold Held
    simpa using found

theorem not_held_nil (ref : EpochKeyRef) (entry : EpochKeyEntry) : ¬ Held [] ref entry := by
  unfold Held
  simp

theorem nothing_held (entry : EpochKeyEntry) :
    (none : Option EpochKeyEntry) = some entry ↔ Held [] ref entry :=
  ⟨fun impossible => (by cases impossible), fun held => absurd held (not_held_nil ref entry)⟩

theorem Verifying.alone {unverifiable : Bool} {trace : Trace} {resolved : Resolved}
    (verifying : Verifying ref unverifiable trace resolved) (other : EpochKeyRef)
    (entry : EpochKeyEntry) (held : Held trace other entry) : other = ref := by
  rcases held with cached | read
  · exact absurd cached (verifying.uncached other _)
  · exact verifying.same other _ read

section Served

variable {items : List SealedKeyView} {last : Trace}
  (unasked : ∀ other answer, (⟨.keys other, answer⟩ : Exchange) ∉ last)

include unasked

/-- A lookup that answers failed if what it served could not be opened. -/
theorem lookupFailed_served : LookupFailed libraries me (⟨.keys ref, .ok items⟩ :: last) ref ↔
    ∃ error, openAll libraries me ref items = .error error := by
  constructor
  · rintro (⟨error, member⟩ | ⟨others, error, member, failed⟩)
    · rcases List.mem_cons.mp member with same | later
      · cases same
      · exact absurd later (unasked ref _)
    · rcases List.mem_cons.mp member with same | later
      · cases same
        exact ⟨error, failed⟩
      · exact absurd later (unasked ref _)
  · rintro ⟨error, failed⟩
    exact .inr ⟨items, error, List.mem_cons_self, failed⟩

theorem allRefused_served {verifies : Bool} :
    AllRefused libraries me verifies (⟨.keys ref, .ok items⟩ :: last) ref ↔
      ∃ opened, openAll libraries me ref items = .ok opened ∧ (opened = [] ∨ verifies = true) ∧
        Refuses last ref := by
  constructor
  · rintro ⟨others, opened, member, opens, either, refuses⟩
    rcases List.mem_cons.mp member with same | later
    · cases same
      exact ⟨opened, opens, either, fun item provenance checked =>
        refuses item provenance (List.mem_cons_of_mem _ checked)⟩
    · exact absurd later (unasked ref _)
  · rintro ⟨opened, opens, either, refuses⟩
    refine ⟨items, opened, List.mem_cons_self, opens, either, fun item provenance member => ?_⟩
    rcases List.mem_cons.mp member with same | later
    · cases same
    · exact refuses item provenance later

end Served

theorem ensures_resolveTrusted {Failure : Type} (libraries : KeyLibraries)
    (me : KeyResolverIdentity) (verifies : Bool) (ref : EpochKeyRef) :
    (resolveTrusted libraries me verifies ref : Program Request Answer Failure Resolved).Ensures
      fun trace result => ∃ resolved, result = .ok resolved ∧
        Resolving libraries me verifies ref trace resolved := by
  unfold resolveTrusted
  refine .query_seq (fun answer failure impossible => by cases impossible) fun _ _ same => ?_
  cases same
  refine .query_seq (fun answer failure impossible => by cases impossible) fun cached _ same => ?_
  cases same
  cases cached with
  | some entry => exact .done ⟨_, rfl, resolving_cached entry⟩
  | none =>
    have before : (candidates libraries me ref).Ensures fun trace ending =>
        ∃ answer, trace = [⟨.keys ref, answer⟩] ∧ ending = answer.bind (openAll libraries me ref) :=
      .query fun answer => ⟨answer, rfl, rfl⟩
    refine .attempt_seq before fun first ending asked => ?_
    obtain ⟨answer, rfl, rfl⟩ := asked
    have unasked : ∀ other answer, (⟨.keys other, answer⟩ : Exchange) ∉ ([] : Trace) :=
      fun _ _ absent => absurd absent List.not_mem_nil
    have uncached : ∀ other cached, (⟨.trusted other, cached⟩ : Exchange) ∉ ([] : Trace) :=
      fun _ _ absent => absurd absent List.not_mem_nil
    have unheld : ∀ other entry, Held [] other entry → other = ref :=
      fun other entry held => absurd held (not_held_nil other entry)
    cases answer with
    | error error =>
      refine .done ⟨_, rfl, resolving_lookup (at_nil _) uncached ?_ nothing_held unheld⟩
      exact ⟨fun _ => .inl (.inl ⟨error, List.mem_cons_self⟩), fun _ => ⟨rfl, rfl⟩⟩
    | ok items =>
      have served : (Except.ok items).bind (openAll libraries me ref) =
          openAll libraries me ref items := rfl
      rw [served]
      cases opening : openAll libraries me ref items with
      | error error =>
        refine .done ⟨_, rfl, resolving_lookup (at_nil _) uncached ?_ nothing_held unheld⟩
        exact ⟨fun _ => .inl (.inr ⟨items, error, List.mem_cons_self, opening⟩),
          fun _ => ⟨rfl, rfl⟩⟩
      | ok opened =>
        show (verifyCopies verifies ref opened).Ensures _
        unfold verifyCopies
        cases verifies with
        | false =>
          refine .done ⟨_, rfl, @resolving_lookup libraries me ref false (.ok items) [] _ (at_nil _)
            uncached ?_ nothing_held unheld⟩
          rw [lookupFailed_served unasked, allRefused_served unasked, opening]
          constructor
          · rintro ⟨_, empty⟩
            rw [Bool.not_eq_false', List.isEmpty_iff] at empty
            exact .inr (.inl ⟨opened, rfl, .inl empty, fun item provenance absent => by
              cases absent⟩)
          · rintro (⟨error, impossible⟩ | ⟨_, same, empty | impossible, _⟩ | lost)
            · cases impossible
            · cases same
              refine ⟨rfl, ?_⟩
              rw [Bool.not_eq_false', List.isEmpty_iff]
              exact empty
            · cases impossible
            · exact absurd lost List.not_mem_nil
        | true =>
          refine (ensures_verifyFirst ref false _).weaken fun last result ended => ?_
          obtain ⟨resolved, same, verifying⟩ := ended
          refine ⟨resolved, same, @resolving_lookup libraries me ref true (.ok items) last resolved
            verifying.stage verifying.uncached ?_ verifying.held verifying.alone⟩
          rw [verifying.nothing, lookupFailed_served verifying.unasked,
            allRefused_served verifying.unasked, opening]
          constructor
          · rintro (⟨_, refuses⟩ | lost)
            · exact .inr (.inl ⟨opened, rfl, .inr rfl, refuses⟩)
            · exact .inr (.inr lost)
          · rintro (⟨error, impossible⟩ | ⟨_, _, _, refuses⟩ | lost)
            · cases impossible
            · exact .inl ⟨rfl, refuses⟩
            · exact .inr lost

end Resolving

/-! ### Friends -/

section Collecting

/-- An exchange of another kind is no failed answer about a friend. -/
theorem reachable_relationship (friend : String) (status : Option ℕ) :
    ¬ Unreachable ⟨.relationship friend, .ok status⟩ := by
  rintro (⟨other, error, impossible⟩ | ⟨other, error, impossible⟩)
  · cases impossible
  · cases impossible

theorem reachable_identity (friend : String) (record : Option EncryptionRecord) :
    ¬ Unreachable ⟨.identity friend, .ok record⟩ := by
  rintro (⟨other, error, impossible⟩ | ⟨other, error, impossible⟩)
  · cases impossible
  · cases impossible

/-- What confirming friends comes to: it answers exactly if the chain answered about each. -/
structure Confirming (trace : Trace) (result : Except PlanFailure Collected) : Prop where
  stage : At .collect trace
  unlisted : ∀ answer, (⟨.graph, answer⟩ : Exchange) ∉ trace
  answers : (∃ collected, result = .ok collected) ↔ ∀ exchange ∈ trace, ¬ Unreachable exchange

theorem Confirming.cons {exchange : Exchange} {trace : Trace}
    {result : Except PlanFailure Collected} (confirming : Confirming trace result)
    (stage : exchange.1.stage = .collect) (other : ∀ answer, exchange ≠ ⟨.graph, answer⟩)
    (reached : ¬ Unreachable exchange) : Confirming (exchange :: trace) result where
  stage := .cons stage confirming.stage
  unlisted := by
    intro answer member
    rcases List.mem_cons.mp member with same | later
    · exact other answer same.symm
    · exact confirming.unlisted answer later
  answers := by
    rw [confirming.answers, List.forall_mem_cons]
    exact (and_iff_right reached).symm

/-- The first failed answer ends it. -/
theorem confirming_failed {exchange : Exchange} {failure : PlanFailure}
    (stage : exchange.1.stage = .collect) (other : ∀ answer, exchange ≠ ⟨.graph, answer⟩)
    (failed : Unreachable exchange) : Confirming [exchange] (.error failure) where
  stage := .cons stage (at_nil _)
  unlisted := by
    intro answer member
    exact other answer (List.mem_singleton.mp member).symm
  answers := by
    refine ⟨?_, fun reached => absurd failed (reached _ List.mem_cons_self)⟩
    rintro ⟨collected, impossible⟩
    cases impossible

theorem ensures_confirmFriends (account : String) (collected : Collected) (friends : List String) :
    (confirmFriends account collected friends).Ensures Confirming := by
  induction friends generalizing collected with
  | nil =>
    exact .done ⟨at_nil _, fun _ => List.not_mem_nil,
      fun _ _ absent => absurd absent List.not_mem_nil, fun _ => ⟨collected, rfl⟩⟩
  | cons friend others inductionHypothesis =>
    unfold confirmFriends
    split
    · exact inductionHypothesis collected
    · refine .query_seq (fun answer failure failed => ?_) fun answer status known => ?_
      · cases answer with
        | ok status => cases failed
        | error error =>
          exact confirming_failed rfl (fun _ same => by cases same) (.inl ⟨friend, error, rfl⟩)
      · cases answer with
        | error error => cases known
        | ok answered =>
          have front : ∀ {last : Trace} {result : Except PlanFailure Collected},
              Confirming last result →
                Confirming (⟨.relationship friend, .ok answered⟩ :: last) result :=
            fun confirming => confirming.cons rfl (fun _ same => by cases same)
              (reachable_relationship friend answered)
          split
          · exact (inductionHypothesis collected).weaken fun _ _ confirming => front confirming
          · refine .query_seq (fun answer failure failed => ?_) fun answer record found => ?_
            · cases answer with
              | ok record => cases failed
              | error error =>
                exact front (confirming_failed rfl (fun _ same => by cases same)
                  (.inr ⟨friend, error, rfl⟩))
            · cases answer with
              | error error => cases found
              | ok recorded =>
                exact (inductionHypothesis _).weaken fun _ _ confirming =>
                  front (confirming.cons rfl (fun _ same => by cases same)
                    (reachable_identity friend recorded))

/-- Friends are collected exactly if they are listed and the chain answers about each. -/
structure Collecting (trace : Trace) (result : Except PlanFailure Collected) : Prop where
  stage : At .collect trace
  answers : (∃ collected, result = .ok collected) ↔ FriendsListed trace

theorem reachable_graph (answer : Except String (List String)) :
    ¬ Unreachable ⟨.graph, answer⟩ := by
  rintro (⟨other, error, impossible⟩ | ⟨other, error, impossible⟩)
  · cases impossible
  · cases impossible

theorem ensures_collectRecipients (account : String) :
    (collectRecipients account).Ensures Collecting := by
  unfold collectRecipients
  refine .query_seq (fun answer failure failed => ?_) fun answer friends listed => ?_
  · cases answer with
    | ok friends => cases failed
    | error error =>
      refine ⟨.cons rfl (at_nil _), ?_⟩
      constructor
      · rintro ⟨collected, impossible⟩
        cases impossible
      · rintro ⟨⟨friends, member⟩, _⟩
        cases List.mem_singleton.mp member
  · cases answer with
    | error error => cases listed
    | ok answered =>
      refine (ensures_confirmFriends account _ _).weaken fun last result confirming => ?_
      refine ⟨.cons rfl confirming.stage, ?_⟩
      rw [confirming.answers]
      constructor
      · intro reached
        exact ⟨⟨answered, List.mem_cons_self⟩,
          List.forall_mem_cons.mpr ⟨reachable_graph _, reached⟩⟩
      · intro found
        exact (List.forall_mem_cons.mp found.answered).2

end Collecting

/-! ### The course of a plan -/

/-- Two traces have the same exchanges of a stage. -/
def Alike (stage : Stage) (first second : Trace) : Prop :=
  ∀ exchange : Exchange, exchange.1.stage = stage → (exchange ∈ first ↔ exchange ∈ second)

/-- Whether a property holds is settled by the exchanges of a stage. -/
def About (stage : Stage) (property : Trace → Prop) : Prop :=
  ∀ first second, Alike stage first second → property first → property second

/-- The exchanges of a plan, by stage and in the order of the stages. -/
structure Course where
  start : Trace
  lookup : Trace
  collect : Trace
  make : Trace
  hand : Trace
  finish : Trace

namespace Course

def part (course : Course) : Stage → Trace
  | .start => course.start
  | .lookup => course.lookup
  | .collect => course.collect
  | .make => course.make
  | .hand => course.hand
  | .finish => course.finish

def trace (course : Course) : Trace :=
  course.start ++ (course.lookup ++ (course.collect ++ (course.make ++ (course.hand ++
    course.finish))))

/-- Every part is of its stage. -/
def Ordered (course : Course) : Prop := ∀ stage, At stage (course.part stage)

theorem ordered_mk {start lookup collect make hand finish : Trace} (one : At .start start)
    (two : At .lookup lookup) (three : At .collect collect) (four : At .make make)
    (five : At .hand hand) (six : At .finish finish) :
    Ordered ⟨start, lookup, collect, make, hand, finish⟩ := by
  intro stage
  cases stage with
  | start => exact one
  | lookup => exact two
  | collect => exact three
  | make => exact four
  | hand => exact five
  | finish => exact six

variable {course : Course}

theorem mem_trace {exchange : Exchange} :
    exchange ∈ course.trace ↔ ∃ stage, exchange ∈ course.part stage := by
  simp only [trace, List.mem_append]
  constructor
  · rintro (one | two | three | four | five | six)
    · exact ⟨.start, one⟩
    · exact ⟨.lookup, two⟩
    · exact ⟨.collect, three⟩
    · exact ⟨.make, four⟩
    · exact ⟨.hand, five⟩
    · exact ⟨.finish, six⟩
  · rintro ⟨stage, member⟩
    cases stage with
    | start => exact .inl member
    | lookup => exact .inr (.inl member)
    | collect => exact .inr (.inr (.inl member))
    | make => exact .inr (.inr (.inr (.inl member)))
    | hand => exact .inr (.inr (.inr (.inr (.inl member))))
    | finish => exact .inr (.inr (.inr (.inr (.inr member))))

theorem alike (ordered : course.Ordered) (stage : Stage) :
    Alike stage course.trace (course.part stage) := by
  intro exchange same
  rw [mem_trace]
  refine ⟨?_, fun member => ⟨stage, member⟩⟩
  rintro ⟨other, member⟩
  obtain rfl : stage = other := same.symm.trans (ordered other exchange member)
  exact member

/-- A property of a stage is one of that part. -/
theorem iff_part (ordered : course.Ordered) {stage : Stage} {property : Trace → Prop}
    (about : About stage property) : property course.trace ↔ property (course.part stage) :=
  ⟨about _ _ (alike ordered stage),
    about _ _ fun exchange same => (alike ordered stage exchange same).symm⟩

end Course

/-! ### What a plan does with its key -/

section Doing

variable (libraries : KeyLibraries) (content : Libraries) (me : KeyResolverIdentity)

/-- Where the key of a plan is from: it was made, or an entry of the store holds it. -/
def Origin (trace : Trace) (epoch : ℕ) (key : Bytes) (newKey : Option Bytes) : Prop :=
  (newKey = some key ∧ (⟨.newEpochKey, key⟩ : Exchange) ∈ trace) ∨
    newKey = none ∧ ∃ entry, Held trace (friendsRef me.account epoch) entry ∧ entry.key = key

/-- Every set that is handed out is the account's, for the epoch, and seals the key. -/
def HandsOut (trace : Trace) (epoch : ℕ) (key : Bytes) : Prop :=
  ∀ author given packages answer,
    (⟨.distributeKeys author given packages, answer⟩ : Exchange) ∈ trace →
      author = me.account ∧ given = epoch ∧ ∃ toSeal drawn sets,
        Messages.Audience.buildKeyPackageSets libraries.crypto
          (sealingOptions me epoch key toSeal) LIMITS.maxKeyPackageBytes drawn = .ok sets ∧
        ∃ set ∈ sets, packages = set.bytes

/-- The operation of the post was built. -/
def Published (trace : Trace) : Prop :=
  ∃ args operation, (⟨.publish args, .ok operation⟩ : Exchange) ∈ trace

/-- The post is the account's, for the epoch, and encrypted under the key. -/
def EncryptedUnder (input : PublishInput) (trace : Trace) (epoch : ℕ) (key : Bytes) : Prop :=
  ∀ args answer, (⟨.publish args, answer⟩ : Exchange) ∈ trace →
    args.author = me.account ∧ args.audience = input.audience ∧ args.epoch = epoch ∧
      ∃ drawn, sealContent libraries content me input epoch (some key) drawn = .ok args.envelope

end Doing

section Stages

variable {libraries : KeyLibraries} {content : Libraries} {me : KeyResolverIdentity}

theorem about_current (epoch : ℕ) : About .start fun trace => Current me trace epoch := by
  rintro first second alike ⟨answer, member, same⟩
  exact ⟨answer, (alike _ rfl).mp member, same⟩

theorem about_held (ref : EpochKeyRef) (entry : EpochKeyEntry) :
    About .lookup fun trace => Held trace ref entry :=
  fun _ _ alike held => held.imp (alike _ rfl).mp (alike _ rfl).mp

theorem about_unnoticed (verifies : Bool) (ref : EpochKeyRef) :
    About .lookup fun trace => Unnoticed libraries me verifies trace ref := by
  intro first second alike unnoticed
  refine ⟨(alike _ rfl).mp unnoticed.uncached, unnoticed.unseen.imp ?_ (Or.imp ?_ ?_)⟩
  · rintro (⟨error, member⟩ | ⟨items, error, member, failed⟩)
    · exact .inl ⟨error, (alike _ rfl).mp member⟩
    · exact .inr ⟨items, error, (alike _ rfl).mp member, failed⟩
  · rintro ⟨items, opened, member, opens, either, refuses⟩
    exact ⟨items, opened, (alike _ rfl).mp member, opens, either,
      fun item provenance checked => refuses item provenance ((alike _ rfl).mpr checked)⟩
  · exact fun lost => (alike _ rfl).mp lost

theorem about_friendsListed : About .collect FriendsListed := by
  intro first second alike found
  obtain ⟨friends, member⟩ := found.listed
  refine ⟨⟨friends, (alike _ rfl).mp member⟩, fun exchange among failed => ?_⟩
  have stage : exchange.1.stage = .collect := by
    rcases failed with ⟨friend, error, rfl⟩ | ⟨friend, error, rfl⟩
    · rfl
    · rfl
  exact found.answered exchange ((alike exchange stage).mpr among) failed

theorem about_drawn : About .make Drawn := by
  rintro first second alike ⟨key, member⟩
  exact ⟨key, (alike _ rfl).mp member⟩

theorem about_newEpochKey (key : Bytes) :
    About .make fun trace => (⟨.newEpochKey, key⟩ : Exchange) ∈ trace :=
  fun _ _ alike => (alike _ rfl).mp

theorem about_handsOut (epoch : ℕ) (key : Bytes) :
    About .hand fun trace => HandsOut libraries me trace epoch key :=
  fun _ _ alike handsOut author given packages answer member =>
    handsOut author given packages answer ((alike _ rfl).mpr member)

theorem about_published : About .finish Published := by
  rintro first second alike ⟨args, operation, member⟩
  exact ⟨args, operation, (alike _ rfl).mp member⟩

theorem about_encryptedUnder (input : PublishInput) (epoch : ℕ) (key : Bytes) :
    About .finish fun trace => EncryptedUnder libraries content me input trace epoch key :=
  fun _ _ alike encrypted args answer member => encrypted args answer ((alike _ rfl).mpr member)

end Stages

/-! ### Settling the key -/

section Settling

variable {libraries : KeyLibraries} {me : KeyResolverIdentity} {verifies : Bool}

/-- What settling the key of a friends post comes to: a key is made exactly if none came to notice
and the friends are known, and the one that is used is that key or one of the store. -/
structure Settling (libraries : KeyLibraries) (me : KeyResolverIdentity) (verifies : Bool)
    (course : Course) (result : Except PlanFailure FriendsKey) : Prop where
  ordered : course.Ordered
  unfinished : course.finish = []
  single : ∀ epoch other, Current me course.start epoch → Current me course.start other →
    epoch = other
  entries : ∀ ref entry other, Held course.lookup ref entry → Held course.lookup ref other →
    entry = other
  made : ∀ epoch, Current me course.start epoch → (Drawn course.make ↔
    Unnoticed libraries me verifies course.lookup (friendsRef me.account epoch) ∧
      FriendsListed course.collect)
  current : ∀ friends, result = .ok friends → Current me course.start friends.epoch
  origin : ∀ friends, result = .ok friends →
    (friends.newKey = some friends.epochKey ∧
        (⟨.newEpochKey, friends.epochKey⟩ : Exchange) ∈ course.make) ∨
      friends.newKey = none ∧ ∃ entry,
        Held course.lookup (friendsRef me.account friends.epoch) entry ∧
          entry.key = friends.epochKey
  handsOut : ∀ friends, result = .ok friends →
    HandsOut libraries me course.hand friends.epoch friends.epochKey

/-- The chain does not answer which epoch it is. -/
theorem settling_unanswered (error : String) (failure : PlanFailure) :
    Settling libraries me verifies ⟨[⟨.audience me.account, .error error⟩], [], [], [], [], []⟩
      (.error failure) := by
  have unknown : ∀ epoch, ¬ Current me [⟨.audience me.account, .error error⟩] epoch := by
    rintro epoch ⟨answer, member, -⟩
    cases List.mem_singleton.mp member
  exact
    { ordered := Course.ordered_mk (.cons rfl (at_nil _)) (at_nil _) (at_nil _) (at_nil _)
        (at_nil _) (at_nil _)
      unfinished := rfl
      single := fun epoch _ current => absurd current (unknown epoch)
      entries := fun ref entry _ held => absurd held (not_held_nil ref entry)
      made := fun epoch current => absurd current (unknown epoch)
      current := fun _ impossible => by cases impossible
      origin := fun _ impossible => by cases impossible
      handsOut := fun _ impossible => by cases impossible }

/-- The chain answers; what is left is whether a key was made, and which one is used. -/
theorem settling_answered {answered : Option ℕ} {resolved : Resolved}
    {lookup collect make hand : Trace} {result : Except PlanFailure FriendsKey}
    (resolving : Resolving libraries me verifies (friendsRef me.account (answered.getD 0)) lookup
      resolved)
    (collecting : At .collect collect) (making : At .make make) (handing : At .hand hand)
    (made : Drawn make ↔
      (resolved.entry = none ∧ resolved.unverifiable = false) ∧ FriendsListed collect)
    (used : ∀ friends, result = .ok friends → friends.epoch = answered.getD 0 ∧
      ((friends.newKey = some friends.epochKey ∧
          (⟨.newEpochKey, friends.epochKey⟩ : Exchange) ∈ make) ∨
        friends.newKey = none ∧ ∃ entry, resolved.entry = some entry ∧
          entry.key = friends.epochKey) ∧
      HandsOut libraries me hand (answered.getD 0) friends.epochKey) :
    Settling libraries me verifies
      ⟨[⟨.audience me.account, .ok answered⟩], lookup, collect, make, hand, []⟩ result := by
  have current : ∀ epoch, Current me [⟨.audience me.account, .ok answered⟩] epoch →
      epoch = answered.getD 0 := by
    rintro epoch ⟨answer, member, same⟩
    cases List.mem_singleton.mp member
    exact same.symm
  refine ⟨Course.ordered_mk (.cons rfl (at_nil _)) resolving.stage collecting making handing
    (at_nil _), rfl, ?_, ?_, ?_, ?_, ?_, ?_⟩
  · intro epoch other one another
    rw [current epoch one, current other another]
  · intro ref entry other held another
    have one := (resolving.held entry).mpr (resolving.alone ref entry held ▸ held)
    have two := (resolving.held other).mpr (resolving.alone ref other another ▸ another)
    exact Option.some.inj (one.symm.trans two)
  · intro epoch known
    rw [current epoch known, made, resolving.nothing]
  · intro friends same
    exact ⟨answered, List.mem_cons_self, (used friends same).1.symm⟩
  · intro friends same
    obtain ⟨epoch, origin, -⟩ := used friends same
    rw [epoch]
    refine origin.imp id (And.imp id ?_)
    rintro ⟨entry, found, key⟩
    exact ⟨entry, (resolving.held entry).mp found, key⟩
  · intro friends same
    obtain ⟨epoch, -, handsOut⟩ := used friends same
    rw [epoch]
    exact handsOut

theorem ensures_distribute (account : String) (epoch : ℕ)
    (packages : List Messages.Audience.KeyPackage) :
    (distribute account epoch packages).Ensures fun trace _ => At .hand trace ∧
      ∀ author given bytes answer,
        (⟨.distributeKeys author given bytes, answer⟩ : Exchange) ∈ trace →
          author = account ∧ given = epoch ∧ ∃ set ∈ packages, bytes = set.bytes := by
  induction packages with
  | nil =>
    exact .done ⟨at_nil _, fun _ _ _ _ absent => absurd absent List.not_mem_nil⟩
  | cons package others inductionHypothesis =>
    have front : ∀ {trace : Trace} answer, (At .hand trace ∧ ∀ author given bytes answer,
        (⟨.distributeKeys author given bytes, answer⟩ : Exchange) ∈ trace →
          author = account ∧ given = epoch ∧ ∃ set ∈ others, bytes = set.bytes) →
        At .hand (⟨.distributeKeys account epoch package.bytes, answer⟩ :: trace) ∧
          ∀ author given bytes given_,
            (⟨.distributeKeys author given bytes, given_⟩ : Exchange) ∈
              (⟨.distributeKeys account epoch package.bytes, answer⟩ : Exchange) :: trace →
            author = account ∧ given = epoch ∧ ∃ set ∈ package :: others, bytes = set.bytes := by
      rintro trace answer ⟨handing, rest⟩
      refine ⟨.cons rfl handing, fun author given bytes reply member => ?_⟩
      rcases List.mem_cons.mp member with same | later
      · cases same
        exact ⟨rfl, rfl, package, List.mem_cons_self, rfl⟩
      · obtain ⟨whose, which, set, among, same⟩ := rest author given bytes reply later
        exact ⟨whose, which, set, List.mem_cons_of_mem _ among, same⟩
    have none : At .hand [] ∧ ∀ author given bytes answer,
        (⟨.distributeKeys author given bytes, answer⟩ : Exchange) ∈ [] →
          author = account ∧ given = epoch ∧ ∃ set ∈ others, bytes = set.bytes :=
      ⟨at_nil _, fun _ _ _ _ absent => absurd absent List.not_mem_nil⟩
    unfold distribute
    refine .query_seq (fun answer _ _ => front answer none) fun answer _ _ => ?_
    refine .seq inductionHypothesis (fun _ _ handing => front answer handing) ?_
    intro last rest handing
    refine .done ?_
    rw [List.append_nil]
    exact front answer handing

theorem ensures_sealFor (epoch : ℕ) (epochKey : Bytes) (toSeal : List FriendRecipient) :
    (sealFor libraries me epoch epochKey toSeal).Ensures fun trace _ => At .hand trace ∧
      HandsOut libraries me trace epoch epochKey := by
  have drawing : ∀ drawn, At .hand [⟨.seals, drawn⟩] ∧
      HandsOut libraries me [⟨.seals, drawn⟩] epoch epochKey := by
    refine fun drawn => ⟨.cons rfl (at_nil _), fun author given packages answer member => ?_⟩
    cases List.mem_singleton.mp member
  unfold sealFor
  split
  · exact .done ⟨at_nil _, fun _ _ _ _ absent => absurd absent List.not_mem_nil⟩
  · refine .query_seq (fun drawn _ _ => drawing drawn) fun drawn _ same => ?_
    cases same
    refine .lift_seq (fun _ _ => drawing drawn) fun packages built => ?_
    refine (ensures_distribute me.account epoch packages).weaken fun last _ handing => ?_
    refine ⟨.cons rfl handing.1, fun author given bytes answer member => ?_⟩
    have built : Messages.Audience.buildKeyPackageSets libraries.crypto
        (sealingOptions me epoch epochKey toSeal) LIMITS.maxKeyPackageBytes drawn = .ok packages :=
      mapError_eq_ok.mp built
    rcases List.mem_cons.mp member with same | later
    · cases same
    · obtain ⟨whose, which, among⟩ := handing.2 author given bytes answer later
      exact ⟨whose, which, toSeal, drawn, packages, built, among⟩

/-- What choosing a key comes to: one is drawn exactly if there is no entry. -/
theorem ensures_chooseKey (entry : Option EpochKeyEntry) (collected : Collected) :
    (chooseKey me entry collected).Ensures fun trace result =>
      At .make trace ∧ (Drawn trace ↔ entry = none) ∧ ∀ choice, result = .ok choice →
        (choice.newKey = some choice.epochKey ∧
            (⟨.newEpochKey, choice.epochKey⟩ : Exchange) ∈ trace) ∨
          choice.newKey = none ∧ ∃ held, entry = some held ∧ held.key = choice.epochKey := by
  cases entry with
  | some entry =>
    refine .done ⟨at_nil _, ⟨?_, fun impossible => by cases impossible⟩, ?_⟩
    · rintro ⟨key, absent⟩
      exact absurd absent List.not_mem_nil
    · rintro choice ⟨⟩
      exact .inr ⟨rfl, entry, rfl, rfl⟩
  | none =>
    have drawn : ∀ key, At .make [⟨.newEpochKey, key⟩] ∧
        (Drawn [⟨.newEpochKey, key⟩] ↔ (none : Option EpochKeyEntry) = none) :=
      fun key => ⟨.cons rfl (at_nil _), fun _ => rfl, fun _ => ⟨key, List.mem_cons_self⟩⟩
    refine .query_seq (fun key failure _ => ?_) fun key chosen same => .done ?_
    · exact ⟨(drawn key).1, (drawn key).2, fun _ impossible => by cases impossible⟩
    · refine ⟨(drawn key).1, (drawn key).2, ?_⟩
      have same : (if key.length ≠ Sdk.LIMITS.keyBytes then
        .error (.thrown "rng returned the wrong length") else .ok key :
          Except PlanFailure Bytes) = .ok chosen := same
      split at same
      · cases same
      · cases same
        rintro choice ⟨⟩
        exact .inl ⟨rfl, List.mem_cons_self⟩

theorem ensures_friendsKey (verifies : Bool) :
    (friendsKey libraries me verifies).Ensures fun trace result =>
      ∃ course : Course, trace = course.trace ∧ Settling libraries me verifies course result := by
  unfold friendsKey
  refine .query_seq (fun answer failure failed => ?_) fun answer epoch known => ?_
  · cases answer with
    | ok answered => cases failed
    | error error => exact ⟨_, rfl, settling_unanswered error failure⟩
  · cases answer with
    | error error => cases known
    | ok answered =>
      cases known
      refine .seq (ensures_resolveTrusted libraries me verifies _) (fun trace failure ended => ?_)
        fun lookup resolved ended => ?_
      · obtain ⟨_, impossible, _⟩ := ended
        cases impossible
      · obtain ⟨_, same, resolving⟩ := ended
        cases same
        have unasked : ¬ FriendsListed [] := fun found =>
          absurd found.listed.choose_spec List.not_mem_nil
        have undrawn : ¬ Drawn [] := fun drawn => absurd drawn.choose_spec List.not_mem_nil
        split
        · refine .lift ⟨_, ?_, settling_answered resolving (at_nil _) (at_nil _) (at_nil _)
            (iff_of_false undrawn fun both => unasked both.2) fun _ impossible => (by
              cases impossible)⟩
          simp [Course.trace]
        · next sure =>
          have nothing : resolved.entry = none ↔
              resolved.entry = none ∧ resolved.unverifiable = false := by
            refine ⟨fun absent => ⟨absent, ?_⟩, And.left⟩
            rw [absent] at sure
            exact Bool.eq_false_iff.mpr sure
          refine .seq (ensures_collectRecipients me.account) (fun trace failure collecting => ?_)
            fun collect friends collecting => ?_
          · have unlisted : ¬ FriendsListed trace := by
              intro listed
              obtain ⟨_, impossible⟩ := collecting.answers.mpr listed
              cases impossible
            refine ⟨_, ?_, settling_answered resolving collecting.stage (at_nil _) (at_nil _)
              (iff_of_false undrawn fun both => unlisted both.2) fun _ impossible => (by
                cases impossible)⟩
            simp [Course.trace]
          · have listed := collecting.answers.mp ⟨friends, rfl⟩
            have made : ∀ {make : Trace}, (Drawn make ↔ resolved.entry = none) →
                (Drawn make ↔ (resolved.entry = none ∧ resolved.unverifiable = false) ∧
                  FriendsListed collect) := by
              intro make drawn
              rw [drawn, ← nothing, and_iff_left listed]
            refine .seq (ensures_chooseKey resolved.entry friends) ?_ ?_
            · rintro make failure ⟨making, drawn, -⟩
              refine ⟨_, ?_, settling_answered resolving collecting.stage making (at_nil _)
                (made drawn) fun _ impossible => (by cases impossible)⟩
              simp [Course.trace]
            · rintro make choice ⟨making, drawn, chosen⟩
              refine .seq (ensures_sealFor _ choice.epochKey choice.toSeal) ?_ ?_
              · rintro hand failure ⟨handing, -⟩
                refine ⟨_, ?_, settling_answered resolving collecting.stage making handing
                  (made drawn) fun _ impossible => (by cases impossible)⟩
                simp [Course.trace]
              · rintro hand operations ⟨handing, handsOut⟩
                refine .done ⟨_, ?_, settling_answered resolving collecting.stage making handing
                  (made drawn) ?_⟩
                · simp [Course.trace]
                · rintro friends ⟨⟩
                  exact ⟨rfl, chosen choice rfl, handsOut⟩

end Settling

/-! ### Plans -/

section Plans

variable {libraries : KeyLibraries} {content : Libraries} {me : KeyResolverIdentity}
variable {input : PublishInput}

/-- What the rest of a plan comes to: the post is encrypted under the key that was settled, and the
plan is made exactly if its operation is built. -/
structure Finishing (libraries : KeyLibraries) (content : Libraries) (me : KeyResolverIdentity)
    (input : PublishInput) (friends : Option FriendsKey) (trace : Trace)
    (result : Except PlanFailure PublishPlan) : Prop where
  stage : At .finish trace
  published : Published trace ↔ ∃ plan, result = .ok plan
  encrypted : ∀ settled, friends = some settled →
    EncryptedUnder libraries content me input trace settled.epoch settled.epochKey
  plan : ∀ plan, result = .ok plan → ∀ settled, friends = some settled →
    plan.epoch = settled.epoch ∧ plan.epochKey = settled.newKey

/-- What is asked before the operation is built. -/
def Unbuilt (trace : Trace) : Prop :=
  At .finish trace ∧ ∀ args answer, (⟨.publish args, answer⟩ : Exchange) ∉ trace

theorem Unbuilt.cons {exchange : Exchange} {trace : Trace} (unbuilt : Unbuilt trace)
    (stage : exchange.1.stage = .finish) (other : ∀ args, exchange.1 ≠ .publish args) :
    Unbuilt (exchange :: trace) := by
  refine ⟨.cons stage unbuilt.1, fun args answer member => ?_⟩
  rcases List.mem_cons.mp member with same | later
  · exact other args (same ▸ rfl)
  · exact unbuilt.2 args answer later

theorem unbuilt_nil : Unbuilt [] := ⟨at_nil _, fun _ _ => List.not_mem_nil⟩

/-- A plan that fails before its operation is asked for. -/
theorem finishing_failed {friends : Option FriendsKey} {trace : Trace} {failure : PlanFailure}
    (unbuilt : Unbuilt trace) :
    Finishing libraries content me input friends trace (.error failure) where
  stage := unbuilt.1
  published := by
    constructor
    · rintro ⟨args, operation, member⟩
      exact absurd member (unbuilt.2 args _)
    · rintro ⟨plan, impossible⟩
      cases impossible
  encrypted _ _ args answer member := absurd member (unbuilt.2 args answer)
  plan _ impossible := by cases impossible

theorem ensures_placePost (hash : Bytes) :
    (placePost libraries me input hash).Ensures fun trace _ => Unbuilt trace := by
  have asked : ∀ answer, Unbuilt [⟨.authorState me.account, answer⟩] :=
    fun answer => unbuilt_nil.cons rfl fun _ impossible => by cases impossible
  unfold placePost
  split
  · exact .done unbuilt_nil
  · refine .query_seq (fun answer _ _ => asked answer) fun answer _ _ => ?_
    exact .lift_seq (fun _ _ => asked answer) fun _ _ => .done (asked answer)

/-- The operation is asked for, and the plan is made if it is built. -/
theorem finishing_asked {friends : Option FriendsKey} {trace : Trace} (unbuilt : Unbuilt trace)
    {envelope : Bytes} {drawn : Bytes × Bytes × Bytes}
    (isSealed : sealContent libraries content me input ((friends.map FriendsKey.epoch).getD 0)
      (friends.map FriendsKey.epochKey) drawn = .ok envelope)
    (idempotency : Bytes) (place : String × Bytes) (answer : Except String Json) :
    Finishing libraries content me input friends
      (trace ++ [⟨.publish (publishArgs libraries me input idempotency
        ((friends.map FriendsKey.epoch).getD 0) envelope place), answer⟩])
      ((answer.mapError .thrown).map (planOf libraries input idempotency friends envelope
        place)) where
  stage := unbuilt.1.append (.cons rfl (at_nil _))
  published := by
    constructor
    · rintro ⟨args, operation, member⟩
      rcases List.mem_append.mp member with before | asked
      · exact absurd before (unbuilt.2 args _)
      · cases List.mem_singleton.mp asked
        exact ⟨_, rfl⟩
    · rintro ⟨plan, made⟩
      cases answer with
      | error error => cases made
      | ok operation => exact ⟨_, operation, List.mem_append_right _ List.mem_cons_self⟩
  encrypted := by
    rintro settled rfl args given member
    rcases List.mem_append.mp member with before | asked
    · exact absurd before (unbuilt.2 args given)
    · cases List.mem_singleton.mp asked
      exact ⟨rfl, rfl, rfl, drawn, isSealed⟩
  plan := by
    rintro plan made settled rfl
    cases answer with
    | error error => cases made
    | ok operation =>
      cases made
      exact ⟨rfl, rfl⟩

theorem ensures_planWith (idempotency : Bytes) (friends : Option FriendsKey) :
    (planWith libraries content me input idempotency friends).Ensures
      (Finishing libraries content me input friends) := by
  have drawing : ∀ {trace : Trace} drawn, Unbuilt trace →
      Unbuilt (⟨.contentKeys, drawn⟩ :: trace) :=
    fun drawn unbuilt => unbuilt.cons rfl fun _ impossible => by cases impossible
  unfold planWith
  refine .query_seq (fun _ _ impossible => by cases impossible) fun drawn _ same => ?_
  cases same
  refine .lift_seq (fun _ _ => finishing_failed (drawing drawn unbuilt_nil))
    fun envelope isSealed => ?_
  refine .seq (ensures_placePost _) (fun _ _ placing => finishing_failed (drawing drawn placing))
    fun placed place placing => ?_
  have before := drawing drawn placing
  refine .query_seq (fun answer failure failed => ?_) fun answer operation built => .done ?_
  · have asked := finishing_asked before isSealed idempotency place answer
    cases answer with
    | ok operation => cases failed
    | error error =>
      cases failed
      exact asked
  · have asked := finishing_asked before isSealed idempotency place answer
    cases answer with
    | error error => cases built
    | ok answered =>
      cases built
      exact asked

end Plans

/-! ### One key for an epoch -/

/-- A key is made for no epoch of which one was handed out; and the post of a plan for friends is
the account's, for the epoch the chain answered, and encrypted under the key that is handed out
with it, which is the new key or the store's, and one that was handed out if any was. -/
structure OneKey (libraries : KeyLibraries) (content : Libraries) (me : KeyResolverIdentity)
    (input : PublishInput) (distributed : EpochKeyRef → Bytes → Prop) (trace : Trace)
    (result : Except PlanFailure PublishPlan) : Prop where
  mints : ∀ epoch, Mints me trace epoch → ∀ key, ¬ distributed (friendsRef me.account epoch) key
  reuses : ∀ plan, result = .ok plan → input.audience = AUDIENCE.FRIENDS →
    Current me trace plan.epoch ∧ Published trace ∧ ∃ key,
      EncryptedUnder libraries content me input trace plan.epoch key ∧
      HandsOut libraries me trace plan.epoch key ∧
      Origin me trace plan.epoch key plan.epochKey ∧
      ∀ handed, distributed (friendsRef me.account plan.epoch) handed →
        distributed (friendsRef me.account plan.epoch) key

/-- What a whole plan comes to. -/
structure Planned (libraries : KeyLibraries) (content : Libraries) (me : KeyResolverIdentity)
    (input : PublishInput) (trace : Trace) (result : Except PlanFailure PublishPlan) : Prop where
  friends : ∀ epoch, Current me trace epoch → input.audience = AUDIENCE.FRIENDS
  single : ∀ epoch other, Current me trace epoch → Current me trace other → epoch = other
  entries : ∀ ref entry other, Held trace ref entry → Held trace ref other → entry = other
  made : ∀ epoch, Current me trace epoch → (Drawn trace ↔
    Unnoticed libraries me input.verifies trace (friendsRef me.account epoch) ∧
      FriendsListed trace)
  published : Published trace ↔ ∃ plan, result = .ok plan
  reuses : ∀ plan, result = .ok plan → input.audience = AUDIENCE.FRIENDS →
    Current me trace plan.epoch ∧ ∃ key,
      EncryptedUnder libraries content me input trace plan.epoch key ∧
      HandsOut libraries me trace plan.epoch key ∧ Origin me trace plan.epoch key plan.epochKey

section Planned

variable {libraries : KeyLibraries} {content : Libraries} {me : KeyResolverIdentity}
variable {input : PublishInput}

/-- A plan that asks for no epoch needs no key. -/
theorem planned_keyless {trace : Trace} {result : Except PlanFailure PublishPlan}
    (finishing : Finishing libraries content me input none trace result)
    (keyless : ∀ plan, result = .ok plan → input.audience ≠ AUDIENCE.FRIENDS) :
    Planned libraries content me input trace result := by
  have unknown : ∀ epoch, ¬ Current me trace epoch := by
    rintro epoch ⟨answer, member, -⟩
    exact finishing.stage.not_mem (by simp [Request.stage]) member
  have unheld : ∀ ref entry, ¬ Held trace ref entry := by
    rintro ref entry (cached | read)
    · exact finishing.stage.not_mem (by simp [Request.stage]) cached
    · exact finishing.stage.not_mem (by simp [Request.stage]) read
  exact
    { friends := fun epoch current => absurd current (unknown epoch)
      single := fun epoch _ current => absurd current (unknown epoch)
      entries := fun ref entry _ held => absurd held (unheld ref entry)
      made := fun epoch current => absurd current (unknown epoch)
      published := finishing.published
      reuses := fun plan made friends => absurd friends (keyless plan made) }

/-- The course of a plan for friends, with the rest of it. -/
theorem planned_of_course {course : Course} {settled : Except PlanFailure FriendsKey}
    {result : Except PlanFailure PublishPlan}
    (settling : Settling libraries me input.verifies course settled) {finish : Trace}
    (stage : At .finish finish) (friends : input.audience = AUDIENCE.FRIENDS)
    (published : Published finish ↔ ∃ plan, result = .ok plan)
    (finishing : ∀ plan, result = .ok plan → ∃ key, settled = .ok key ∧
      EncryptedUnder libraries content me input finish key.epoch key.epochKey ∧
        plan.epoch = key.epoch ∧ plan.epochKey = key.newKey) :
    Planned libraries content me input (course.trace ++ finish) result := by
  obtain ⟨start, lookup, collect, make, hand, before⟩ := course
  obtain rfl : before = [] := settling.unfinished
  have whole : Course.trace ⟨start, lookup, collect, make, hand, []⟩ ++ finish =
      Course.trace ⟨start, lookup, collect, make, hand, finish⟩ := by
    simp [Course.trace]
  have ordered : Course.Ordered ⟨start, lookup, collect, make, hand, finish⟩ :=
    Course.ordered_mk (settling.ordered .start) (settling.ordered .lookup)
      (settling.ordered .collect) (settling.ordered .make) (settling.ordered .hand) stage
  rw [whole]
  have current := fun epoch => Course.iff_part ordered (@about_current me epoch)
  have held := fun ref entry => Course.iff_part ordered (about_held ref entry)
  exact
    { friends := fun _ _ => friends
      single := fun epoch other one another => settling.single epoch other
        ((current epoch).mp one) ((current other).mp another)
      entries := fun ref entry other one another => settling.entries ref entry other
        ((held ref entry).mp one) ((held ref other).mp another)
      made := fun epoch known => by
        rw [Course.iff_part ordered about_drawn,
          Course.iff_part ordered (about_unnoticed input.verifies (friendsRef me.account epoch)),
          Course.iff_part ordered about_friendsListed]
        exact settling.made epoch ((current epoch).mp known)
      published := (Course.iff_part ordered about_published).trans published
      reuses := fun plan made _ => by
        obtain ⟨key, rfl, encrypted, epoch, newKey⟩ := finishing plan made
        rw [epoch, newKey]
        refine ⟨(current _).mpr (settling.current key rfl), key.epochKey,
          (Course.iff_part ordered (about_encryptedUnder input _ _)).mpr encrypted,
          (Course.iff_part ordered (about_handsOut _ _)).mpr (settling.handsOut key rfl), ?_⟩
        refine (settling.origin key rfl).imp (And.imp id ?_) (And.imp id ?_)
        · exact (Course.iff_part ordered (about_newEpochKey key.epochKey)).mpr
        · rintro ⟨entry, found, same⟩
          exact ⟨entry, (held _ entry).mpr found, same⟩ }

theorem ensures_buildPublishPlan (libraries : KeyLibraries) (content : Libraries)
    (me : KeyResolverIdentity) (input : PublishInput) :
    (buildPublishPlan libraries content me input).Ensures
      (Planned libraries content me input) := by
  have failed : ∀ failure : PlanFailure, Planned libraries content me input [] (.error failure) :=
    fun failure => planned_keyless (finishing_failed unbuilt_nil) fun plan impossible => by
      cases impossible
  unfold buildPublishPlan
  refine .lift_seq (fun failure _ => failed failure) fun idempotency _ => ?_
  refine .lift_seq (fun failure _ => failed failure) fun _ _ => ?_
  split
  · next friends =>
    refine .seq (ensures_friendsKey input.verifies) ?_ ?_
    · rintro trace failure ⟨course, rfl, settling⟩
      have whole : Planned libraries content me input (course.trace ++ []) (.error failure) :=
        planned_of_course settling (at_nil _) friends
          (iff_of_false (fun ⟨_, _, absent⟩ => absurd absent List.not_mem_nil)
            fun ⟨_, impossible⟩ => by cases impossible) fun _ impossible => by cases impossible
      rwa [List.append_nil] at whole
    · rintro trace settled ⟨course, rfl, settling⟩
      refine (ensures_planWith idempotency (some settled)).weaken fun last result finishing => ?_
      exact planned_of_course settling finishing.stage friends finishing.published
        fun plan made => ⟨settled, rfl, finishing.encrypted settled rfl,
          finishing.plan plan made settled rfl⟩
  · next others =>
    refine (ensures_planWith idempotency none).weaken fun last result finishing => ?_
    exact planned_keyless finishing fun _ _ => others

end Planned

/-- Libraries that hash and encode simply. -/
def sampleKeyLibraries : KeyLibraries where
  toEncodings := plainLibraries.toEncodings
  crypto := Messages.sampleCrypto
  deriveEncryptionSecret := fun _ _ => .error "seed must not be empty"

def sampleAccount : String := "aaaaaaaaaaaaaaaaaaaaaaaaa"

def sampleMe : KeyResolverIdentity where
  account := sampleAccount
  seed := []
  secretKey := List.replicate 32 1
  publicKey := List.replicate 32 1
  keyVersion := 1

/-- A post for friends. -/
def friendsPost : PublishInput where
  chainId := "main"
  text := "hi"
  audience := AUDIENCE.FRIENDS
  media := []
  replyTo := none
  edit := none
  attemptId := List.replicate 16 3
  verifies := true
  lang := none
  createdAt := none

/-- An account without friends, given what its store holds and what the lookup answers. -/
def friendless (cached : Option EpochKeyEntry) (keys : Except String (List SealedKeyView)) :
    Trace → (request : Request) → Answer request
  | _, .init => ()
  | _, .trusted _ => cached
  | _, .entry _ => cached
  | _, .put _ _ _ => ()
  | _, .remember _ _ => ()
  | _, .forget _ => ()
  | _, .missedLately _ => false
  | _, .miss _ => ()
  | _, .keys _ => keys
  | _, .verify _ _ => .unavailable "timeout"
  | _, .graph => .ok []
  | _, .audience _ => .ok none
  | _, .relationship _ => .ok none
  | _, .identity _ => .ok none
  | _, .authorState _ => .ok none
  | _, .newEpochKey => List.replicate 32 5
  | _, .seals => fun _ => (List.replicate 32 6, List.replicate 24 7)
  | _, .contentKeys => (List.replicate 32 8, List.replicate 24 9, List.replicate 24 9)
  | _, .distributeKeys _ _ _ => .ok .null
  | _, .publish _ => .ok .null

/-- A plan of the post, run. -/
def planned (cached : Option EpochKeyEntry) (keys : Except String (List SealedKeyView)) :
    Trace × Except PlanFailure PublishPlan :=
  Program.exec (friendless cached keys) []
    (buildPublishPlan sampleKeyLibraries plainLibraries sampleMe friendsPost)

/-- The key that was handed out for the first epoch. -/
def handedOut (ref : EpochKeyRef) (key : Bytes) : Prop :=
  ref = friendsRef sampleAccount 0 ∧ key = List.replicate 32 4

/-- An exchange gives no entry but of the key that was handed out, and is no miss. -/
def givesHandedOut : Exchange → Bool
  | ⟨.trusted _, cached⟩ => cached.any fun entry => entry.key = List.replicate 32 4
  | ⟨.entry _, found⟩ => found.all fun entry => entry.key = List.replicate 32 4
  | _ => true

/-- An exchange in which the account's friends turn out to be in the first epoch. -/
def tellsFirstEpoch : Exchange → Bool
  | ⟨.audience account, .ok epoch⟩ => account = sampleAccount && epoch.isNone
  | _ => false

end OpenSocial.Web
