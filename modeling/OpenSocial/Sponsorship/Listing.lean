/-
This file proves that following the pages of the sponsors gives every sponsor once.

The contract may be called between one page and the next. As records never go away and
the pages are in the order of the addresses, whoever follows them to an empty page has
been shown every sponsor that was registered when the first page was read, nobody twice.
-/

import OpenSocial.Sponsorship.Records

namespace OpenSocial.Sponsorship

open Library

/-! ### One page -/

section Page

variable {state : State} {start : Bytes} {limit : ℕ}

/-- The address of a record as the order of the listing compares it. -/
def rankOf (record : SponsorRecord) : List ℕ := keyRank record.sponsor.val

/-- Every record stands under the address of its sponsor. -/
def Keyed (state : State) : Prop :=
  ∀ key record, state.sponsors.get key = some record → key = record.sponsor.val

theorem pageLimit_pos (limit : ℕ) : 1 ≤ pageLimit limit := by
  unfold pageLimit
  split
  · decide
  · omega

/-- The objects behind a key, in the order of their keys. -/
def objectsBehind (state : State) (start : Bytes) : List (Bytes × SponsorRecord) :=
  Rows.orderBy placeOf
    (Rows.beyond placeOf (state.sponsors.rows keyRank) (some (keyRank start)))

theorem listSponsors_eq_take : listSponsors state ⟨start, limit⟩ =
    ((objectsBehind state start).take (pageLimit limit)).map Prod.snd := rfl

theorem mem_objectsBehind {key : Bytes} {record : SponsorRecord} :
    (key, record) ∈ objectsBehind state start ↔
      state.sponsors.get key = some record ∧ keyRank start < keyRank key := by
  unfold objectsBehind
  rw [Rows.mem_orderBy, Rows.mem_beyond, Store.mem_rows]
  rfl

theorem ordered_objectsBehind : Rows.Ordered placeOf (objectsBehind state start) := by
  refine Rows.ordered_orderBy ?_
  have distinct : ((state.sponsors.rows keyRank).map placeOf).Nodup := by
    have keys : ((state.sponsors.rows keyRank).map Prod.fst).Nodup := Store.nodup_rows
    have places := keys.map keyRank.injective
    rw [List.map_map] at places
    exact places
  exact Rows.distinct_beyond distinct _

/-- The ranks of the records behind a key go up, and so do those of a page. -/
theorem ascending_objectsBehind (keyed : Keyed state) :
    ((objectsBehind state start).map Prod.snd).Pairwise fun first second =>
      rankOf first < rankOf second := by
  rw [List.pairwise_map]
  refine ordered_objectsBehind.imp_of_mem ?_
  rintro ⟨key, record⟩ ⟨key', record'⟩ member member' order
  have same := keyed key record (mem_objectsBehind.mp member).1
  have same' := keyed key' record' (mem_objectsBehind.mp member').1
  rw [rankOf, rankOf, ← same, ← same']
  exact order

theorem ascending_listSponsors (keyed : Keyed state) :
    (listSponsors state ⟨start, limit⟩).Pairwise fun first second =>
      rankOf first < rankOf second := by
  rw [listSponsors_eq_take, List.map_take]
  exact (ascending_objectsBehind keyed).sublist (List.take_sublist _ _)

/-- A page shows records that are stored, under addresses behind the start. -/
theorem stored_of_listed (keyed : Keyed state) {record : SponsorRecord}
    (listed : record ∈ listSponsors state ⟨start, limit⟩) :
    state.sponsors.get record.sponsor.val = some record ∧ keyRank start < rankOf record := by
  rw [listSponsors_eq_take] at listed
  obtain ⟨⟨key, other⟩, member, rfl⟩ := List.mem_map.mp listed
  obtain ⟨stored, behind⟩ := mem_objectsBehind.mp (List.mem_of_mem_take member)
  have own := keyed key other stored
  subst own
  exact ⟨stored, behind⟩

/-- What is stored behind the start is on the page, or behind the last record of it. -/
theorem listed_or_behind (keyed : Keyed state) {record : SponsorRecord}
    (stored : state.sponsors.get record.sponsor.val = some record)
    (behind : keyRank start < rankOf record) :
    record ∈ listSponsors state ⟨start, limit⟩ ∨
      ∃ last, (listSponsors state ⟨start, limit⟩).getLast? = some last ∧
        rankOf last < rankOf record := by
  have member : record ∈ (objectsBehind state start).map Prod.snd :=
    List.mem_map_of_mem (mem_objectsBehind.mpr ⟨stored, behind⟩)
  have ascending := @ascending_objectsBehind state start keyed
  rw [listSponsors_eq_take, List.map_take]
  generalize (objectsBehind state start).map Prod.snd = records at member ascending
  conv at member => rw [← List.take_append_drop (pageLimit limit) records]
  rcases List.mem_append.mp member with shown | left
  · exact .inl shown
  · right
    have long : pageLimit limit < records.length := by
      by_contra short
      rw [List.drop_eq_nil_of_le (by omega)] at left
      cases left
    have filled : (records.take (pageLimit limit)) ≠ [] := by
      rw [Ne, List.take_eq_nil_iff, not_or]
      refine ⟨?_, fun empty => ?_⟩
      · have positive := pageLimit_pos limit
        omega
      · rw [empty] at long
        exact absurd long (Nat.not_lt_zero _)
    refine ⟨_, List.getLast?_eq_some_getLast filled, ?_⟩
    rw [← List.take_append_drop (pageLimit limit) records, List.pairwise_append] at ascending
    exact ascending.2.2 _ (List.getLast_mem filled) record left

end Page

/-! ### Page after page -/

/-- Between one page and the next, some calls; then a page of at most so many records. -/
structure Turn where
  calls : List Call
  limit : ℕ

/-- Follow the pages from a key on, each after its calls: the records one is shown, whether an empty
page was reached, and the state in the end. -/
def follow (state : State) (start : Bytes) : List Turn → List SponsorRecord × Bool × State
  | [] => ([], false, state)
  | turn :: rest =>
    let now := machine.final state turn.calls
    let page := listSponsors now ⟨start, turn.limit⟩
    match page.getLast? with
    | none => ([], true, now)
    | some last =>
      let (later, ended, after) := follow now last.sponsor.val rest
      (page ++ later, ended, after)

/-- What following the pages from a key on comes to. -/
structure Followed (state : State) (start : Bytes) (turns : ℕ) (shown : List SponsorRecord)
    (ended : Bool) (after : State) : Prop where
  ascending : shown.Pairwise fun first second => rankOf first < rankOf second
  behind : ∀ record ∈ shown, keyRank start < rankOf record
  kept : Kept state after
  registered : ∀ record ∈ shown, ∃ other, after.sponsors.get record.sponsor.val = some other ∧
    other.registeredAt = record.registeredAt
  progress : ended = false → turns ≤ shown.length
  complete : ended = true → ∀ key record, state.sponsors.get key = some record →
    keyRank start < keyRank key → ∃ other ∈ shown, other.sponsor.val = key ∧
      other.registeredAt = record.registeredAt

theorem keyed_step {env : Env} {operation : Operation} {state after : State} {events : List Event}
    (effect : Effect env state operation after events) (keyed : Keyed state) : Keyed after := by
  have put : ∀ {sponsor : Address} {record : SponsorRecord}, sponsor.val = record.sponsor.val →
      Keyed (state.putSponsor sponsor record) := by
    intro sponsor record own key other stored
    rw [putSponsor_sponsors, Store.get_put] at stored
    split at stored
    · next same =>
      cases stored
      rw [same, own]
    · exact keyed key other stored
  cases effect with
  | sponsorSet record authorized publishable registered updated => exact put rfl
  | sponsorDeactivated sponsor record authorized stored =>
    exact put (keyed _ record stored)
  | userGrantSet grant record authorized different daily open_ standing updated stored active =>
    exact keyed
  | userGrantRevoked sponsor user grant authorized stored => exact keyed

theorem keyed_final {state : State} (keyed : Keyed state) (calls : List Call) :
    Keyed (machine.final state calls) :=
  machine.invariant_final state Keyed keyed
    (fun entry before => keyed_step (effect_of_entry entry) before) calls

theorem followed_follow {state : State} (keyed : Keyed state) (start : Bytes)
    (turns : List Turn) :
    Followed state start turns.length (follow state start turns).1 (follow state start turns).2.1
      (follow state start turns).2.2 := by
  induction turns generalizing state start with
  | nil =>
    exact ⟨List.Pairwise.nil, fun record absent => absurd absent List.not_mem_nil, kept_refl state,
      fun record absent => absurd absent List.not_mem_nil, fun _ => le_refl 0,
      fun impossible => absurd impossible Bool.false_ne_true⟩
  | cons turn rest inductionHypothesis =>
    have now := keyed_final keyed turn.calls
    have early := kept_final state turn.calls
    unfold follow
    dsimp only
    cases ends : (listSponsors (machine.final state turn.calls) ⟨start, turn.limit⟩).getLast? with
    | none =>
      refine ⟨List.Pairwise.nil, fun record absent => absurd absent List.not_mem_nil, early,
        fun record absent => absurd absent List.not_mem_nil,
        fun impossible => absurd impossible.symm Bool.false_ne_true, ?_⟩
      intro _ key record stored behind
      obtain ⟨other, found, same⟩ := early.records key record stored
      have own := now key other found
      rw [own] at found behind
      rcases @listed_or_behind _ start turn.limit now other found behind with
        listed | ⟨last, shown, _⟩
      · rw [List.getLast?_eq_none_iff.mp ends] at listed
        cases listed
      · rw [ends] at shown
        cases shown
    | some last =>
      dsimp only
      have member := List.mem_of_getLast? ends
      obtain ⟨found, beyond⟩ := stored_of_listed now member
      have followed := inductionHypothesis now last.sponsor.val
      have page := @ascending_listSponsors _ start turn.limit now
      obtain ⟨shown, shape⟩ := List.getLast?_eq_some_iff.mp ends
      have upTo : ∀ record ∈ listSponsors (machine.final state turn.calls) ⟨start, turn.limit⟩,
          rankOf record ≤ rankOf last := by
        intro record listed
        rw [shape] at listed page
        rcases List.mem_append.mp listed with before | same
        · exact (List.pairwise_append.mp page).2.2 record before last List.mem_cons_self |>.le
        · rw [List.mem_singleton.mp same]
      refine ⟨?_, ?_, kept_trans early followed.kept, ?_, ?_, ?_⟩
      · refine List.pairwise_append.mpr
          ⟨page, followed.ascending, fun record listed other later => ?_⟩
        exact (upTo record listed).trans_lt (followed.behind other later)
      · intro record listed
        rcases List.mem_append.mp listed with here | later
        · exact (stored_of_listed now here).2
        · exact beyond.trans (followed.behind record later)
      · intro record listed
        rcases List.mem_append.mp listed with here | later
        · exact followed.kept.records _ record (stored_of_listed now here).1
        · exact followed.registered record later
      · intro goesOn
        have more := followed.progress goesOn
        have some_here : 0 < (listSponsors (machine.final state turn.calls)
            ⟨start, turn.limit⟩).length := List.length_pos_of_mem member
        rw [List.length_cons, List.length_append]
        omega
      · intro ended key record stored behind
        obtain ⟨other, there, same⟩ := early.records key record stored
        have own := now key other there
        have place : state.sponsors.get other.sponsor.val = some record := own ▸ stored
        rw [own] at there behind
        rcases @listed_or_behind _ start turn.limit now other there behind with
          listed | ⟨final, ending, above⟩
        · exact ⟨other, List.mem_append_left _ listed, own.symm, same⟩
        · rw [ends] at ending
          cases ending
          obtain ⟨seen, later, address, registered⟩ :=
            followed.complete ended _ other there above
          exact ⟨seen, List.mem_append_right _ later, address.trans own.symm, registered.trans same⟩

/-- Records of different sponsors that are all registered are no more than the sponsors are. -/
theorem length_le_card {shown : List SponsorRecord} {after : State}
    (ascending : shown.Pairwise fun first second => rankOf first < rankOf second)
    (registered : ∀ record ∈ shown, ∃ other, after.sponsors.get record.sponsor.val = some other) :
    shown.length ≤ after.sponsors.keys.card := by
  have distinct : (shown.map fun record => record.sponsor.val).Nodup := by
    refine List.pairwise_map.mpr (ascending.imp fun order same => ?_)
    rw [rankOf, rankOf, same] at order
    exact lt_irrefl _ order
  have inside : (shown.map fun record => record.sponsor.val).toFinset ⊆ after.sponsors.keys := by
    intro key member
    obtain ⟨record, listed, rfl⟩ := List.mem_map.mp (List.mem_toFinset.mp member)
    obtain ⟨other, found⟩ := registered record listed
    exact Finmap.mem_keys.mpr (Finmap.mem_of_lookup_eq_some found)
  have count := Finset.card_le_card inside
  rw [List.toFinset_card_of_nodup distinct, List.length_map] at count
  exact count

theorem keyed_empty : Keyed empty :=
  fun key record stored => absurd stored (by simp [empty])

/-- Whatever is called before and between the pages, and whatever limits are asked for: the pages
show no sponsor twice and only registered ones, an empty page is reached within one more page than
there are sponsors, and then every sponsor that was registered at the beginning has been shown. -/
theorem sponsors_listed (calls : List Call) (turns : List Turn) :
    ((follow (machine.final empty calls) [] turns).1.Pairwise fun first second =>
        rankOf first < rankOf second) ∧
      (∀ record ∈ (follow (machine.final empty calls) [] turns).1, ∃ other,
        getSponsor (follow (machine.final empty calls) [] turns).2.2 record.sponsor.val =
            some other ∧ other.registeredAt = record.registeredAt) ∧
      ((follow (machine.final empty calls) [] turns).2.2.sponsors.keys.card < turns.length →
        (follow (machine.final empty calls) [] turns).2.1 = true) ∧
      ((follow (machine.final empty calls) [] turns).2.1 = true → ∀ sponsor record,
        getSponsor (machine.final empty calls) sponsor = some record →
          ∃ other ∈ (follow (machine.final empty calls) [] turns).1,
            other.sponsor.val = sponsor ∧ other.registeredAt = record.registeredAt) := by
  have followed := followed_follow (keyed_final keyed_empty calls) [] turns
  refine ⟨followed.ascending, ?_, ?_, ?_⟩
  · intro record listed
    rw [getSponsor, if_neg (key_ne_nil record.sponsor)]
    exact followed.registered record listed
  · intro many
    by_contra goesOn
    have few := length_le_card followed.ascending
      fun record listed => (followed.registered record listed).imp fun _ found => found.1
    have progress := followed.progress (Bool.eq_false_iff.mpr goesOn)
    omega
  · intro ended sponsor record found
    unfold getSponsor at found
    split at found
    · cases found
    · next named =>
      refine followed.complete ended sponsor record found ?_
      cases sponsor with
      | nil => exact absurd rfl named
      | cons byte rest => exact List.nil_lt_cons _ _

end OpenSocial.Sponsorship
