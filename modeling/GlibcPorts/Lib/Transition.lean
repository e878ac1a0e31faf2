import Mathlib.Logic.Function.Basic

/-!
# `GlibcPorts.Lib.Transition`: transition systems and their invariants

A `System` has initial states and labelled steps; a step is a partial function of the
state, so a run is a list of labels and can be evaluated (`System.run`).

`System.ReachableVia ok` holds of the states that a run reaches when each of its steps
meets the condition `ok` on the label and the state before the step. `System.Reachable` is
the case without a condition. The induction rules:

* `ReachableVia.invariant`: what holds initially and is kept by every step holds in every
  state reached.
* `run_iff_via`: the rule for an exact condition. When a step from a safe state keeps safety
  exactly if it meets the condition, and safety is not regained, a run ends in a safe state
  exactly if all its steps meet the condition.
* `ReachableVia.outline`: the rule for threads. A shared invariant and one assertion for
  each thread hold in every state reached when each step keeps the shared invariant,
  establishes the assertion of the thread that moves, and does not interfere with the
  assertion of any other thread.
-/

set_option autoImplicit false

namespace GlibcPorts.Lib

universe u v w

/-- A transition system. `step l s` is the state after the step `l`, and `none` when `l` is
blocked in `s`. -/
structure System (State : Type u) (Label : Type v) where
  init : State → Prop
  step : Label → State → Option State

namespace System

variable {State : Type u} {Label : Type v} (S : System State Label)

/-- The state after the steps `ls`, taken in order from `s`. -/
def run : List Label → State → Option State
  | [], s => some s
  | l :: ls, s => (S.step l s).bind (run ls)

/-- Each step of the run `ls` from `s` meets the condition `ok`. -/
def Via (ok : Label → State → Prop) : List Label → State → Prop
  | [], _ => True
  | l :: ls, s => ok l s ∧ ∀ t ∈ S.step l s, Via ok ls t

instance Via.decidable {ok : Label → State → Prop} [∀ l s, Decidable (ok l s)] :
    ∀ (ls : List Label) (s : State), Decidable (S.Via ok ls s)
  | [], _ => inferInstanceAs (Decidable True)
  | l :: ls, s =>
      have : ∀ t, Decidable (S.Via ok ls t) := Via.decidable ls
      inferInstanceAs (Decidable (ok l s ∧ ∀ t ∈ S.step l s, S.Via ok ls t))

/-- The states that a run reaches, when each step meets the condition `ok` on its label and
the state before it. -/
inductive ReachableVia (ok : Label → State → Prop) : State → Prop where
  | init {s : State} : S.init s → ReachableVia ok s
  | step {s s' : State} (l : Label) : ReachableVia ok s → ok l s → S.step l s = some s' →
      ReachableVia ok s'

/-- The states that some run reaches. -/
abbrev Reachable : State → Prop := S.ReachableVia fun _ _ => True

variable {S}

/-- A run that can be evaluated ends in a state, and a part of that state has a property that can
be decided. -/
theorem exists_of_run {α : Type w} (ls : List Label) (s : State) (part : State → Option α)
    (P : α → Prop) [DecidablePred P] (h : ((S.run ls s).bind part).any (fun a => P a) = true) :
    ∃ s' a, S.run ls s = some s' ∧ part s' = some a ∧ P a := by
  obtain ⟨a, ha, hP⟩ := (Option.any_eq_true _ _).mp h
  obtain ⟨s', hrun, hpart⟩ := Option.bind_eq_some_iff.mp ha
  exact ⟨s', a, hrun, hpart, of_decide_eq_true hP⟩

/-- What every step keeps is kept by a run. -/
theorem kept_of_run {I : State → Prop} (hstep : ∀ l s s', I s → S.step l s = some s' → I s')
    {s s' : State} (ls : List Label) (hI : I s) (hrun : S.run ls s = some s') : I s' := by
  induction ls generalizing s with
  | nil =>
      cases hrun
      exact hI
  | cons l ls ih =>
      obtain ⟨t, ht, hrest⟩ := Option.bind_eq_some_iff.mp hrun
      exact ih (hstep l s t hI ht) hrest

/-- Safety that is not regained was there all along a run. -/
theorem safe_of_run {Safe : State → Prop}
    (hback : ∀ l s s', S.step l s = some s' → Safe s' → Safe s) {s s' : State}
    (ls : List Label) (hrun : S.run ls s = some s') (h : Safe s') : Safe s := by
  induction ls generalizing s with
  | nil =>
      cases hrun
      exact h
  | cons l ls ih =>
      obtain ⟨t, ht, hrest⟩ := Option.bind_eq_some_iff.mp hrun
      exact hback l s t ht (ih hrest)

/-- The rule for an exact condition: a run ends in a safe state exactly if all its steps meet
the condition. -/
theorem run_iff_via {I Safe : State → Prop} {ok : Label → State → Prop}
    (hstep : ∀ l s s', I s → S.step l s = some s' → I s')
    (hexact : ∀ l s s', I s → Safe s → S.step l s = some s' → (Safe s' ↔ ok l s))
    (hback : ∀ l s s', S.step l s = some s' → Safe s' → Safe s) {s s' : State}
    (ls : List Label) (hI : I s) (hsafe : Safe s) (hrun : S.run ls s = some s') :
    Safe s' ↔ S.Via ok ls s := by
  induction ls generalizing s with
  | nil =>
      cases hrun
      exact ⟨fun _ => trivial, fun _ => hsafe⟩
  | cons l ls ih =>
      obtain ⟨t, ht, hrest⟩ := Option.bind_eq_some_iff.mp hrun
      have hIt : I t := hstep l s t hI ht
      constructor
      · intro hs'
        have hsafet : Safe t := safe_of_run hback ls hrest hs'
        refine ⟨(hexact l s t hI hsafe ht).mp hsafet, fun u hu => ?_⟩
        cases ht.symm.trans hu
        exact (ih hIt hsafet hrest).mp hs'
      · rintro ⟨hok, hvia⟩
        have hsafet : Safe t := (hexact l s t hI hsafe ht).mpr hok
        exact (ih hIt hsafet hrest).mpr (hvia t ht)

/-- A condition that every step meets. -/
theorem via_of_forall {ok : Label → State → Prop} (hok : ∀ l s, ok l s) (ls : List Label)
    (s : State) : S.Via ok ls s := by
  induction ls generalizing s with
  | nil => trivial
  | cons l ls ih => exact ⟨hok l s, fun t _ => ih t⟩

namespace ReachableVia

variable {ok : Label → State → Prop} {s : State}

/-- What holds initially and is kept by every step holds in every state reached. -/
theorem invariant {I : State → Prop} (hinit : ∀ s, S.init s → I s)
    (hstep : ∀ l s s', I s → ok l s → S.step l s = some s' → I s')
    (h : S.ReachableVia ok s) : I s := by
  induction h with
  | init h => exact hinit _ h
  | step l _ hok hs ih => exact hstep l _ _ ih hok hs

/-- The rule for threads. `I` is the shared invariant, `A i` the assertion of thread `i`,
and `actor l` the thread that takes the step `l`, if a thread does. -/
theorem outline {ι : Type w} {I : State → Prop} {A : ι → State → Prop}
    (actor : Label → Option ι)
    (hinit : ∀ s, S.init s → I s ∧ ∀ i, A i s)
    (hinv : ∀ l s s', I s → (∀ i, A i s) → ok l s → S.step l s = some s' → I s')
    (hown : ∀ l s s' i, actor l = some i → I s → (∀ j, A j s) → ok l s →
      S.step l s = some s' → A i s')
    (hfree : ∀ l s s' i, actor l ≠ some i → I s → (∀ j, A j s) → ok l s →
      S.step l s = some s' → A i s')
    (h : S.ReachableVia ok s) : I s ∧ ∀ i, A i s := by
  refine invariant (I := fun s => I s ∧ ∀ i, A i s) hinit ?_ h
  rintro l s s' ⟨hI, hA⟩ hok hs
  refine ⟨hinv l s s' hI hA hok hs, fun i => ?_⟩
  by_cases hi : actor l = some i
  · exact hown l s s' i hi hI hA hok hs
  · exact hfree l s s' i hi hI hA hok hs

/-- A run from a reached state whose steps meet the condition reaches its last state. -/
theorem of_runVia {s' : State} (h : S.ReachableVia ok s) (ls : List Label) (hok : S.Via ok ls s)
    (hrun : S.run ls s = some s') : S.ReachableVia ok s' := by
  induction ls generalizing s with
  | nil =>
      cases hrun
      exact h
  | cons l ls ih =>
      obtain ⟨t, ht, hrest⟩ := Option.bind_eq_some_iff.mp hrun
      exact ih (.step l h hok.1 ht) (hok.2 t ht) hrest

/-- A run from a reached state reaches its last state. -/
theorem of_run {s' : State} (h : S.Reachable s) (ls : List Label) (hrun : S.run ls s = some s') :
    S.Reachable s' := by
  exact h.of_runVia ls (via_of_forall (fun _ _ => trivial) ls s) hrun

end ReachableVia

end System

end GlibcPorts.Lib
