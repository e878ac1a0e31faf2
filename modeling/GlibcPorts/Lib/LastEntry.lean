import Mathlib.Logic.Function.Basic

/-!
# `GlibcPorts.Lib.LastEntry`: a table whose last entries count

A loop over a table that stores each value in the variable of its tag leaves there the last value
with this tag, and the variable as it was where the tag does not occur. `lastEntry` is that last
entry, `foldl_lastEntry` says this of any such loop, one variable at a time.
-/

set_option autoImplicit false

namespace GlibcPorts.Lib

universe u v w

section LastEntry

variable {α : Type u} {σ : Type v} {β : Type w}

/-- The last entry that satisfies `p`. -/
def lastEntry (p : α → Bool) : List α → Option α
  | [] => none
  | x :: xs => (lastEntry p xs).or (if p x then some x else none)

/-- A variable after a loop that sets it at the entries with `p` only. -/
theorem foldl_lastEntry {step : σ → α → σ} {p : α → Bool} {value : α → β} (read : σ → β)
    (hstep : ∀ s x, read (step s x) = if p x then value x else read s) (xs : List α) (s : σ) :
    read (xs.foldl step s) = ((lastEntry p xs).map value).getD (read s) := by
  induction xs generalizing s with
  | nil => rfl
  | cons x xs ih =>
      rw [List.foldl_cons, ih, lastEntry, hstep]
      cases lastEntry p xs with
      | some y => rfl
      | none =>
          by_cases hx : p x
          · simp [hx]
          · simp [hx]

end LastEntry

end GlibcPorts.Lib
