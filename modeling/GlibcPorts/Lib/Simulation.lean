import Mathlib.Logic.Function.Basic

/-!
# `GlibcPorts.Lib.Simulation`: calls that return results, and what they should return

A `Machine` answers calls: a call in a state gives a result and the next state, or it is not
possible there. A `Spec` says which results a call may have in an abstract state, and which
abstract state it leads to.

* `answers_of_run`: what every call keeps holds after every sequence of calls, and what a call
  answers under it is true of every answer.
* `pairwise_of_run`: what a call settles, and every later call keeps, relates each answer to all
  later ones.
* `follows_of_run`: when every call is matched by the specification from related states, so is
  every sequence of calls, and the states at the end are related.
-/

set_option autoImplicit false

namespace GlibcPorts.Lib

universe u v w x

/-- What answers calls. `step c s` is the result of the call `c` in `s` and the state after it,
and `none` when the call is not possible. -/
structure Machine (State : Type u) (Call : Type v) (Result : Type w) where
  step : Call → State → Option (Result × State)

/-- What calls may do: the call, its result, and the states before and after it. -/
abbrev Spec (State : Type u) (Call : Type v) (Result : Type w) :=
  State → Call → Result → State → Prop

namespace Machine

variable {State : Type u} {Call : Type v} {Result : Type w} (M : Machine State Call Result)

/-- The calls `cs` with their results, and the state after them. -/
def run : List Call → State → Option (List (Call × Result) × State)
  | [], s => some ([], s)
  | c :: cs, s =>
      (M.step c s).bind fun (r, s') =>
        (run cs s').map fun (answers, t) => ((c, r) :: answers, t)

variable {M}

theorem run_cons_eq_some {c : Call} {cs : List Call} {s t : State}
    {answers : List (Call × Result)} (h : M.run (c :: cs) s = some (answers, t)) :
    ∃ r s' rest, M.step c s = some (r, s') ∧ M.run cs s' = some (rest, t) ∧
      answers = (c, r) :: rest := by
  obtain ⟨⟨r, s'⟩, hstep, hrest⟩ := Option.bind_eq_some_iff.mp h
  obtain ⟨⟨rest, t'⟩, hrun, heq⟩ := Option.map_eq_some_iff.mp hrest
  cases heq
  exact ⟨r, s', rest, hstep, hrun, rfl⟩

/-- Calls whose possibility does not depend on the state. -/
theorem isSome_run_iff {ok : Call → Prop} (hstep : ∀ c s, (M.step c s).isSome ↔ ok c)
    {cs : List Call} {s : State} : (M.run cs s).isSome ↔ ∀ c ∈ cs, ok c := by
  induction cs generalizing s with
  | nil => simp [run]
  | cons c cs ih =>
      rw [List.forall_mem_cons, run, ← hstep c s]
      cases hs : M.step c s with
      | none => simp
      | some p => simp [ih]

/-- What every call keeps holds after every sequence of calls, and with it what it says of each
answer. -/
theorem answers_of_run {I : State → Prop} {ok : Call → Prop} {P : Call × Result → Prop}
    (hstep : ∀ c s r s', I s → ok c → M.step c s = some (r, s') → I s' ∧ P (c, r))
    {cs : List Call} {s t : State} {answers : List (Call × Result)} (hI : I s)
    (hok : ∀ c ∈ cs, ok c) (hrun : M.run cs s = some (answers, t)) :
    I t ∧ ∀ a ∈ answers, P a := by
  induction cs generalizing s answers with
  | nil =>
      cases hrun
      exact ⟨hI, List.forall_mem_nil _⟩
  | cons c cs ih =>
      obtain ⟨r, s', rest, hs, hrest, rfl⟩ := run_cons_eq_some hrun
      obtain ⟨hc, hcs⟩ := List.forall_mem_cons.mp hok
      obtain ⟨hI', hP⟩ := hstep c s r s' hI hc hs
      obtain ⟨ht, hall⟩ := ih hI' hcs hrest
      exact ⟨ht, List.forall_mem_cons.mpr ⟨hP, hall⟩⟩

/-- What holds after a call, and is kept by the calls behind it, relates its answer to every later
one. -/
theorem pairwise_of_run {I : State → Prop} {ok : Call → Prop}
    {S : Call × Result → State → Prop} {Q : Call × Result → Call × Result → Prop}
    (hset : ∀ c s r s', I s → ok c → M.step c s = some (r, s') → I s' ∧ S (c, r) s')
    (hkeep : ∀ a c s r s', I s → S a s → ok c → M.step c s = some (r, s') →
      S a s' ∧ Q a (c, r))
    {cs : List Call} {s t : State} {answers : List (Call × Result)} (hI : I s)
    (hok : ∀ c ∈ cs, ok c) (hrun : M.run cs s = some (answers, t)) : answers.Pairwise Q := by
  induction cs generalizing s answers with
  | nil =>
      cases hrun
      exact .nil
  | cons c cs ih =>
      obtain ⟨r, s', rest, hs, hrest, rfl⟩ := run_cons_eq_some hrun
      obtain ⟨hc, hcs⟩ := List.forall_mem_cons.mp hok
      obtain ⟨hI', hsettled⟩ := hset c s r s' hI hc hs
      -- The first answer, settled from here on, and then the later ones among themselves.
      have hlater := answers_of_run (I := fun s => I s ∧ S (c, r) s) (P := Q (c, r))
        (fun c' s₁ r' s₂ h₁ hc' hs' =>
          have hkept := hkeep (c, r) c' s₁ r' s₂ h₁.1 h₁.2 hc' hs'
          ⟨⟨(hset c' s₁ r' s₂ h₁.1 hc' hs').1, hkept.1⟩, hkept.2⟩)
        ⟨hI', hsettled⟩ hcs hrest
      exact .cons hlater.2 (ih hI' hcs hrest)

end Machine

namespace Spec

variable {State : Type u} {Call : Type v} {Result : Type w} (spec : Spec State Call Result)

/-- The calls with these results may lead from one state to another. -/
def Follows : State → List (Call × Result) → State → Prop
  | a, [], b => a = b
  | a, (c, r) :: answers, b => ∃ a', spec a c r a' ∧ Follows a' answers b

variable {spec}

/-- When every call is matched from related states, so is every sequence of calls. -/
theorem follows_of_run {Concrete : Type x} {M : Machine Concrete Call Result} {ok : Call → Prop}
    {R : Concrete → State → Prop}
    (hstep : ∀ c s a r s', R s a → ok c → M.step c s = some (r, s') →
      ∃ a', spec a c r a' ∧ R s' a')
    {cs : List Call} {s t : Concrete} {a : State} {answers : List (Call × Result)} (hR : R s a)
    (hok : ∀ c ∈ cs, ok c) (hrun : M.run cs s = some (answers, t)) :
    ∃ b, Follows spec a answers b ∧ R t b := by
  induction cs generalizing s a answers with
  | nil =>
      cases hrun
      exact ⟨a, rfl, hR⟩
  | cons c cs ih =>
      obtain ⟨r, s', rest, hs, hrest, rfl⟩ := Machine.run_cons_eq_some hrun
      obtain ⟨hc, hcs⟩ := List.forall_mem_cons.mp hok
      obtain ⟨a', hspec, hR'⟩ := hstep c s a r s' hR hc hs
      obtain ⟨b, hfollows, hb⟩ := ih hR' hcs hrest
      exact ⟨b, ⟨a', hspec, hfollows⟩, hb⟩

end Spec

end GlibcPorts.Lib
