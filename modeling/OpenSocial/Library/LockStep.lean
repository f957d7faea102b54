/-
This file sorts two arrays in lockstep by insertion: one array has the keys, the
other the values, and whatever moves in the one moves in the other.

The index that runs down while larger keys are shifted up is also where the new
entry is put. The arrays are those of a list of entries throughout, so the loop is
followed on the entries: those in front of the index, the place that is free, and
those behind it, which are larger.
-/

import Mathlib

namespace Library.LockStep

variable {Key Value : Type}

section Sorting

variable (greater : Key → Key → Bool)

/-- Shift larger keys, with their values, one place up, and answer the place that is free. -/
def shift (key : Key) : ℕ → List Key → List Value → List Key × List Value × ℕ
  | 0, keys, values => (keys, values, 0)
  | place + 1, keys, values =>
    match keys[place]?, values[place]? with
    | some previous, some value =>
      if greater previous key then
        shift key place (keys.set (place + 1) previous) (values.set (place + 1) value)
      else (keys, values, place + 1)
    | _, _ => (keys, values, place + 1)

/-- Push an entry, shift what is larger, and put the entry where there is room. -/
def insert (arrays : List Key × List Value) (entry : Key × Value) : List Key × List Value :=
  let (keys, values, place) := shift greater entry.1 arrays.1.length (arrays.1 ++ [entry.1])
    (arrays.2 ++ [entry.2])
  (keys.set place entry.1, values.set place entry.2)

def sort (entries : List (Key × Value)) : List Key × List Value :=
  entries.foldl (insert greater) ([], [])

end Sorting

/-- The arrays of some entries. -/
def arraysOf (entries : List (Key × Value)) : List Key × List Value :=
  (entries.map Prod.fst, entries.map Prod.snd)

/-- A strict order in which any two different keys can be compared. -/
structure Strict (greater : Key → Key → Bool) : Prop where
  asymm : ∀ first second, greater first second = true → greater second first = false
  trans : ∀ first second third, greater first second = true → greater second third = true →
    greater first third = true
  total : ∀ first second, first ≠ second → greater first second = true ∨ greater second first = true

/-- The keys of the entries go up. -/
def Ascending (greater : Key → Key → Bool) (entries : List (Key × Value)) : Prop :=
  entries.Pairwise fun first second => greater second.1 first.1 = true

variable {greater : Key → Key → Bool}

theorem set_before {Item : Type} {front back : List Item} (hole item : Item) :
    (front ++ hole :: back).set front.length item = front ++ item :: back := by
  rw [List.set_append_right _ _ le_rfl, Nat.sub_self]
  rfl

theorem shift_succ {key : Key} {place : ℕ} {keys : List Key} {values : List Value} {previous : Key}
    {value : Value} (keyAt : keys[place]? = some previous) (valueAt : values[place]? = some value) :
    shift greater key (place + 1) keys values =
      if greater previous key then
        shift greater key place (keys.set (place + 1) previous) (values.set (place + 1) value)
      else (keys, values, place + 1) := by
  rw [shift]
  rw [keyAt, valueAt]

/-- The free place moves down past the larger keys. -/
theorem shift_spec (key : Key) (front back : List (Key × Value)) (hole : Key × Value) :
    ∃ front' back' hole', front' ++ back' = front ++ back ∧
      (∀ entry ∈ back', entry ∈ back ∨ greater entry.1 key = true) ∧
      (∀ entry ∈ front'.getLast?, greater entry.1 key = false) ∧
      shift greater key front.length (arraysOf (front ++ hole :: back)).1
          (arraysOf (front ++ hole :: back)).2 =
        ((arraysOf (front' ++ hole' :: back')).1, (arraysOf (front' ++ hole' :: back')).2,
          front'.length) := by
  induction front using List.reverseRecOn generalizing back hole with
  | nil =>
    exact ⟨[], back, hole, rfl, fun entry member => .inl member, fun _ none => (by cases none), rfl⟩
  | append_singleton front last inductionHypothesis =>
    have whole : front ++ [last] ++ hole :: back = front ++ last :: hole :: back := by
      rw [List.append_assoc]
      rfl
    have keyAt : ((front ++ last :: hole :: back).map Prod.fst)[front.length]? = some last.1 := by
      rw [List.getElem?_map, List.getElem?_append_right le_rfl, Nat.sub_self]
      rfl
    have valueAt : ((front ++ last :: hole :: back).map Prod.snd)[front.length]? =
        some last.2 := by
      rw [List.getElem?_map, List.getElem?_append_right le_rfl, Nat.sub_self]
      rfl
    have step : shift greater key (front ++ [last]).length
        (arraysOf (front ++ [last] ++ hole :: back)).1
          (arraysOf (front ++ [last] ++ hole :: back)).2 =
        if greater last.1 key = true then
          shift greater key front.length (arraysOf (front ++ last :: last :: back)).1
            (arraysOf (front ++ last :: last :: back)).2
        else ((arraysOf (front ++ last :: hole :: back)).1,
          (arraysOf (front ++ last :: hole :: back)).2, front.length + 1) := by
      have moved : (front ++ last :: hole :: back).set (front.length + 1) last =
          front ++ last :: last :: back := by
        have behind : front ++ last :: hole :: back = (front ++ [last]) ++ hole :: back := whole.symm
        have long : front.length + 1 = (front ++ [last]).length := by
          rw [List.length_append]
          rfl
        rw [behind, long, set_before, List.append_assoc]
        rfl
      rw [whole, List.length_append]
      refine (shift_succ keyAt valueAt).trans ?_
      rw [← List.map_set, ← List.map_set, moved]
      rfl
    by_cases larger : greater last.1 key = true
    · rw [step, if_pos larger]
      obtain ⟨front', back', hole', same, behind, ahead, answer⟩ :=
        inductionHypothesis (last :: back) last
      refine ⟨front', back', hole', ?_, fun entry member => ?_, ahead, answer⟩
      · rw [same, List.append_assoc]
        rfl
      · rcases behind entry member with among | above
        · rcases List.mem_cons.mp among with rfl | old
          · exact .inr larger
          · exact .inl old
        · exact .inr above
    · rw [step, if_neg larger, ← whole]
      refine ⟨front ++ [last], back, hole, rfl, fun entry member => .inl member, ?_, ?_⟩
      · intro entry isLast
        rw [List.getLast?_append_of_ne_nil _ (by simp)] at isLast
        cases isLast
        exact Bool.eq_false_iff.mpr larger
      · rw [List.length_append]
        rfl

/-- What is below the last of some ascending entries is below all that the last is below. -/
theorem below_of_last (strict : Strict greater) {front : List (Key × Value)}
    (ascending : Ascending greater front) {key : Key}
    (last : ∀ entry ∈ front.getLast?, greater key entry.1 = true) :
    ∀ entry ∈ front, greater key entry.1 = true := by
  induction front using List.reverseRecOn with
  | nil =>
    intro entry member
    cases member
  | append_singleton front latest _ =>
    have above : greater key latest.1 = true := last latest (by simp)
    intro entry member
    rcases List.mem_append.mp member with earlier | isLatest
    · have order := (List.pairwise_append.mp ascending).2.2 entry earlier latest
        List.mem_cons_self
      exact strict.trans _ _ _ above order
    · rw [List.mem_singleton.mp isLatest]
      exact above

/-- An entry with a new key is put where it belongs. -/
theorem insert_spec (strict : Strict greater) {entries : List (Key × Value)}
    (ascending : Ascending greater entries) (entry : Key × Value)
    (new : entry.1 ∉ entries.map Prod.fst) :
    ∃ sorted, insert greater (arraysOf entries) entry = arraysOf sorted ∧
      sorted.Perm (entry :: entries) ∧ Ascending greater sorted := by
  obtain ⟨front, back, hole, same, behind, ahead, answer⟩ :=
    @shift_spec Key Value greater entry.1 entries [] entry
  rw [List.append_nil] at same
  have pushed : arraysOf (entries ++ [entry]) =
      ((arraysOf entries).1 ++ [entry.1], (arraysOf entries).2 ++ [entry.2]) := by
    unfold arraysOf
    rw [List.map_append, List.map_append]
    rfl
  have long : (arraysOf entries).1.length = entries.length := List.length_map _
  refine ⟨front ++ entry :: back, ?_, ?_, ?_⟩
  · unfold insert
    rw [pushed] at answer
    rw [long, answer]
    unfold arraysOf
    dsimp only
    rw [← List.map_set, set_before]
    have lengths : front.length = (front.map Prod.snd).length := (List.length_map _).symm
    rw [lengths, List.map_append, List.map_append, List.map_cons, List.map_cons, set_before,
      List.map_append, List.map_cons]
  · rw [← same]
    exact List.perm_middle
  · rw [← same] at ascending new
    obtain ⟨low, high, between⟩ := List.pairwise_append.mp ascending
    have different : ∀ other ∈ front ++ back, other.1 ≠ entry.1 := by
      intro other member equal
      exact new (List.mem_map.mpr ⟨other, member, equal⟩)
    have lower : ∀ other ∈ front, greater entry.1 other.1 = true := by
      refine below_of_last strict low fun other isLast => ?_
      have member : other ∈ front := List.mem_of_getLast? isLast
      rcases strict.total _ _ (different other (List.mem_append_left _ member)) with wrong | right
      · rw [ahead other isLast] at wrong
        cases wrong
      · exact right
    have higher : ∀ other ∈ back, greater other.1 entry.1 = true := by
      intro other member
      rcases behind other member with none | above
      · cases none
      · exact above
    refine List.pairwise_append.mpr ⟨low, List.pairwise_cons.mpr ⟨higher, high⟩, ?_⟩
    intro first member second later
    rcases List.mem_cons.mp later with rfl | after
    · exact lower first member
    · exact between first member second after

/-- The arrays come out as those of the entries in ascending order. -/
theorem sort_spec (strict : Strict greater) (entries : List (Key × Value))
    (distinct : (entries.map Prod.fst).Nodup) :
    ∃ sorted, sort greater entries = arraysOf sorted ∧ sorted.Perm entries ∧
      Ascending greater sorted := by
  induction entries using List.reverseRecOn with
  | nil => exact ⟨[], rfl, .nil, .nil⟩
  | append_singleton entries entry inductionHypothesis =>
    rw [List.map_append, List.nodup_append] at distinct
    obtain ⟨fresh, _, apart⟩ := distinct
    obtain ⟨sorted, answer, perm, ascending⟩ := inductionHypothesis fresh
    have new : entry.1 ∉ sorted.map Prod.fst := by
      intro member
      have old : entry.1 ∈ entries.map Prod.fst := (perm.map Prod.fst).mem_iff.mp member
      exact apart entry.1 old entry.1 List.mem_cons_self rfl
    obtain ⟨more, inserted, grown, order⟩ := insert_spec strict ascending entry new
    refine ⟨more, ?_, ?_, order⟩
    · unfold sort at answer ⊢
      rw [List.foldl_append, answer]
      exact inserted
    · exact grown.trans ((perm.cons entry).trans (List.perm_append_singleton entry entries).symm)

end Library.LockStep
