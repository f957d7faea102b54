/-
This file packs a list of items greedily. Items are gathered as long as what is made
of them is not too large; the item that would make it so begins the next run. One
item is never split, so a run of one item may be too large.

What is made of a run may be refused.
-/

import OpenSocial.Library.Outcome

namespace Library

section Packing

variable {Item Made Error : Type} (make : List Item → Except Error Made) (tooLarge : Made → Bool)

/-- What is made of the runs, the first of which begins with the items gathered so far. -/
def pack (current : List Item) : List Item → Except Error (List Made)
  | [] =>
    if current.isEmpty then .ok []
    else do
      let last ← make current
      .ok [last]
  | item :: items => do
    let candidate ← make (current ++ [item])
    if tooLarge candidate && !current.isEmpty then do
      let made ← make current
      let others ← pack [item] items
      .ok (made :: others)
    else pack (current ++ [item]) items

/-- A run fits if it has one item at most, or is not too large. -/
def Fits (run : List Item) : Prop :=
  1 < run.length → ∃ made, make run = .ok made ∧ tooLarge made = false

/-- A run with the first item of the next one is too large. -/
def Full (run next : List Item) : Prop :=
  ∀ item ∈ next.head?, ∃ made, make (run ++ [item]) = .ok made ∧ tooLarge made = true

/-- The runs of a packing, in their order, and what is made of them. -/
structure Packing (items : List Item) (runs : List (List Item)) (packed : List Made) : Prop where
  made : List.Forall₂ (fun run made => make run = .ok made) runs packed
  whole : runs.flatten = items
  filled : ∀ run ∈ runs, run ≠ []
  fits : ∀ run ∈ runs, Fits make tooLarge run
  full : runs.IsChain (Full make tooLarge)

end Packing

variable {Item Made Error : Type} {make : List Item → Except Error Made} {tooLarge : Made → Bool}

/-- The first item of the runs is the first one packed. -/
theorem Packing.head_head {item : Item} {items run : List Item} {runs : List (List Item)}
    {packed : List Made} (packing : Packing make tooLarge (item :: items) (run :: runs) packed) :
    run.head? = some item := by
  have whole := packing.whole
  cases run with
  | nil => exact absurd rfl (packing.filled [] List.mem_cons_self)
  | cons first rest =>
    rw [List.flatten_cons, List.cons_append, List.cons.injEq] at whole
    rw [whole.1]
    rfl

/-- A run in front of a packing whose first item would make it too large. -/
theorem Packing.cons {item : Item} {items run : List Item} {runs : List (List Item)}
    {packed : List Made} {made : Made} (packing : Packing make tooLarge (item :: items) runs packed)
    (isMade : make run = .ok made) (filled : run ≠ []) (fits : Fits make tooLarge run)
    {candidate : Made} (tried : make (run ++ [item]) = .ok candidate)
    (large : tooLarge candidate = true) :
    Packing make tooLarge (run ++ item :: items) (run :: runs) (made :: packed) where
  made := .cons isMade packing.made
  whole := by rw [List.flatten_cons, packing.whole]
  filled := List.forall_mem_cons.mpr ⟨filled, packing.filled⟩
  fits := List.forall_mem_cons.mpr ⟨fits, packing.fits⟩
  full := by
    cases runs with
    | nil => exact List.isChain_singleton run
    | cons next others =>
      refine List.isChain_cons_cons.mpr ⟨fun first starts => ?_, packing.full⟩
      rw [packing.head_head] at starts
      cases starts
      exact ⟨candidate, tried, large⟩

/-- A run of one item fits. -/
theorem fits_of_short {run : List Item} (short : run.length ≤ 1) : Fits make tooLarge run :=
  fun many => absurd many (not_lt.mpr short)

/-- Packing splits the items into runs that fit and are full, and fails only if making something of
some of the items does. -/
theorem meets_pack {allowed : Error → Prop} {good : Item → Prop}
    (makes : ∀ run : List Item, run ≠ [] → (∀ item ∈ run, good item) →
      Meets allowed (make run) fun _ => True)
    {current items : List Item} (all : ∀ item ∈ current ++ items, good item)
    (fits : Fits make tooLarge current) :
    Meets allowed (pack make tooLarge current items) fun packed =>
      ∃ runs, Packing make tooLarge (current ++ items) runs packed := by
  induction items generalizing current with
  | nil =>
    rw [List.append_nil] at all ⊢
    unfold pack
    refine .branch (fun empty => .ok ?_) fun filled => ?_
    · rw [List.isEmpty_iff.mp empty]
      exact ⟨[], .nil, rfl, fun run absent => absurd absent List.not_mem_nil,
        fun run absent => absurd absent List.not_mem_nil, .nil⟩
    · rw [List.isEmpty_iff] at filled
      refine .seq (makes current filled all).remember fun last made => .ok ?_
      exact ⟨[current], .cons made .nil, List.append_nil _,
        List.forall_mem_singleton.mpr filled, List.forall_mem_singleton.mpr fits,
        List.isChain_singleton _⟩
  | cons item items inductionHypothesis =>
    have whole : current ++ item :: items = current ++ [item] ++ items :=
      (List.append_assoc current [item] items).symm
    have longer : ∀ other ∈ current ++ [item], good other :=
      fun other member => all other (whole ▸ List.mem_append_left _ member)
    unfold pack
    have filled : current ++ [item] ≠ [] :=
      List.append_ne_nil_of_right_ne_nil _ (List.cons_ne_nil item [])
    refine .seq (makes _ filled longer).remember fun candidate tried =>
      .branch (fun large => ?_) fun small => ?_
    · rw [Bool.and_eq_true, Bool.not_eq_true', ← Bool.not_eq_true, List.isEmpty_iff] at large
      have gathered : ∀ other ∈ current, good other :=
        fun other member => longer other (List.mem_append_left _ member)
      have behind : ∀ other ∈ [item] ++ items, good other :=
        fun other member => all other (List.mem_append_right _ member)
      refine .seq (makes current large.2 gathered).remember fun made isMade => ?_
      refine .seq (inductionHypothesis behind (fits_of_short le_rfl)) fun others rest => .ok ?_
      obtain ⟨runs, packing⟩ := rest
      exact ⟨current :: runs, packing.cons isMade large.2 fits tried large.1⟩
    · rw [whole]
      refine inductionHypothesis (whole ▸ all) fun many => ⟨candidate, tried, ?_⟩
      by_contra isLarge
      rw [Bool.not_eq_false] at isLarge
      have empty : current = [] := by
        by_contra some
        rw [isLarge, Bool.true_and, Bool.not_eq_true', ← Bool.not_eq_true,
          List.isEmpty_iff] at small
        exact small some
      rw [empty] at many
      exact absurd many (lt_irrefl 1)

/-- Whatever is packed is a packing. -/
theorem packing_of_ok {current items : List Item} {packed : List Made}
    (answered : pack make tooLarge current items = .ok packed) (fits : Fits make tooLarge current) :
    ∃ runs, Packing make tooLarge (current ++ items) runs packed := by
  have makes : ∀ run : List Item, run ≠ [] → (∀ item ∈ run, True) →
      Meets (fun _ => True) (make run) fun _ => True := by
    intro run _ _
    cases make run with
    | error error => exact trivial
    | ok made => exact trivial
  have meets := meets_pack makes (fun (item : Item) (_ : item ∈ current ++ items) => trivial) fits
  rw [answered] at meets
  exact meets

/-- Packing answers if something is made of every run of good items. -/
theorem pack_answers {good : Item → Prop}
    (makes : ∀ run : List Item, run ≠ [] → (∀ item ∈ run, good item) →
      ∃ made, make run = .ok made)
    {items : List Item} (all : ∀ item ∈ items, good item) :
    ∃ packed, pack make tooLarge [] items = .ok packed := by
  have meets : Meets (fun _ => False) (pack make tooLarge [] items) fun packed =>
      ∃ runs, Packing make tooLarge ([] ++ items) runs packed := by
    refine meets_pack (fun run filled each => ?_) all (fits_of_short (Nat.zero_le 1))
    obtain ⟨made, answered⟩ := makes run filled each
    rw [answered]
    exact .ok trivial
  cases answered : pack make tooLarge [] items with
  | error error =>
    rw [answered] at meets
    exact meets.elim
  | ok packed => exact ⟨packed, rfl⟩

end Library
