/-
This file gives histories the notion of something that was started and has
lasted since.

What a store holds is often explained by one past entry: a call put it there,
and no later call took it away. `LastsSince` says that some entry started it and
that every entry after that one kept it. The rules are those of an invariant
proof: an entry that starts it establishes it, and an entry that keeps it extends
it.
-/

import Mathlib

namespace Library

variable {Entry : Type}

/-- Some entry started it, given what had happened before, and every entry since then kept it. -/
def LastsSince (starts : List Entry → Entry → Prop) (keeps : Entry → Prop)
    (history : List Entry) : Prop :=
  ∃ older first between, history = older ++ first :: between ∧ starts older first ∧
    ∀ entry ∈ between, keeps entry

namespace LastsSince

variable {starts : List Entry → Entry → Prop} {keeps : Entry → Prop} {history : List Entry}
  {entry : Entry}

/-- An entry that starts it establishes it. -/
theorem begins (started : starts history entry) : LastsSince starts keeps (history ++ [entry]) :=
  ⟨history, entry, [], rfl, started, fun _ absent => absurd absent List.not_mem_nil⟩

/-- An entry that keeps it extends it. -/
theorem continues (lasting : LastsSince starts keeps history) (kept : keeps entry) :
    LastsSince starts keeps (history ++ [entry]) := by
  obtain ⟨older, first, between, history_eq, started, since⟩ := lasting
  refine ⟨older, first, between ++ [entry], ?_, started, fun other member => ?_⟩
  · rw [history_eq, List.append_assoc, List.cons_append]
  · rcases List.mem_append.mp member with old | last
    · exact since other old
    · rw [List.mem_singleton.mp last]
      exact kept

theorem weaken {weaklyStarts : List Entry → Entry → Prop} {weaklyKeeps : Entry → Prop}
    (lasting : LastsSince starts keeps history)
    (starting : ∀ older first, starts older first → weaklyStarts older first)
    (keeping : ∀ entry, keeps entry → weaklyKeeps entry) :
    LastsSince weaklyStarts weaklyKeeps history := by
  obtain ⟨older, first, between, history_eq, started, since⟩ := lasting
  exact ⟨older, first, between, history_eq, starting older first started,
    fun entry member => keeping entry (since entry member)⟩

/-- What started lies in every later part that holds the first entry that did not keep it. -/
theorem starts_after {before after : List Entry} (lasting : LastsSince starts keeps history)
    (split : history = before ++ entry :: after) (lost : ¬ keeps entry)
    (silent : ∀ older, ¬ starts older entry) :
    ∃ older, ∃ first ∈ after, starts older first := by
  obtain ⟨older, first, between, history_eq, started, since⟩ := lasting
  rw [split] at history_eq
  rcases List.append_eq_append_iff.mp history_eq with ⟨extra, older_eq, rest⟩ | ⟨extra, _, rest⟩
  · cases extra with
    | nil =>
      rw [List.nil_append, List.cons.injEq] at rest
      rw [← rest.1] at started
      exact absurd started (silent older)
    | cons head tail =>
      rw [List.cons_append, List.cons.injEq] at rest
      refine ⟨older, first, ?_, started⟩
      rw [rest.2]
      exact List.mem_append_right tail List.mem_cons_self
  · cases extra with
    | nil =>
      rw [List.nil_append, List.cons.injEq] at rest
      rw [rest.1] at started
      exact absurd started (silent older)
    | cons head tail =>
      rw [List.cons_append, List.cons.injEq] at rest
      refine absurd (since entry ?_) lost
      rw [rest.2]
      exact List.mem_append_right tail List.mem_cons_self

end LastsSince

end Library
