import GlibcPorts.Lib.Transition

/-!
# `GlibcPorts.Lib.Probe`: a variable that remembers a missing facility

A call tries a facility, and falls back when the facility is missing. A variable remembers that:
a call that reads 0 there tries the facility and leaves -1 if it had to fall back, and a call that
reads -1 falls back at once (`Probe`). The threads share the variable and use no lock, so other
threads may run between the read and the end of a call (`Probe.system`).

* `inv_of_reachable`: the calls of each thread that ended are some that found the facility, then
  at most one that tried in vain, and then ones that fell back at once.
* `later_of_run`: once the variable is -1, the calls that begin fall back at once.
-/

set_option autoImplicit false

namespace GlibcPorts.Lib

universe u v w

/-- Calls that try first. `ask seen c` is the answer to the call `c` that reads `seen`, and the
value of the variable after it, had no other thread run. -/
structure Probe (Call : Type u) (Answer : Type v) where
  ask : Int → Call → Answer × Int
  ask_zero : ∀ c, (ask 0 c).2 = 0 ∨ (ask 0 c).2 = -1
  ask_missing : ∀ c, (ask (-1) c).2 = -1

namespace Probe

/-- The variable, the calls that began and did not end, each with the value it read, and the calls
that ended, with their answers. -/
structure State (Thread : Type w) (Call : Type u) (Answer : Type v) where
  flag : Int
  begun : Thread → Option (Int × Call)
  answered : Thread → List (Call × Answer)

/-- The steps of a thread. -/
inductive Label (Thread : Type w) (Call : Type u) where
  | begin (t : Thread) (c : Call)
  | finish (t : Thread)

section System

variable {Thread : Type w} [DecidableEq Thread] {Call : Type u} {Answer : Type v}

/-- The thread `t` reads the variable and goes on with the call `c`. -/
def State.starts (s : State Thread Call Answer) (t : Thread) (c : Call) :
    State Thread Call Answer :=
  { s with begun := Function.update s.begun t (some (s.flag, c)) }

/-- The call of the thread `t` ends, and leaves `flag` in the variable. -/
def State.ends (s : State Thread Call Answer) (t : Thread) (flag : Int) (answer : Call × Answer) :
    State Thread Call Answer where
  flag := flag
  begun := Function.update s.begun t none
  answered := Function.update s.answered t (s.answered t ++ [answer])

variable (P : Probe Call Answer)

/-- The state behind a step. -/
def step : Label Thread Call → State Thread Call Answer → Option (State Thread Call Answer)
  | .begin t c, s =>
      match s.begun t with
      | some _ => none
      | none => some (s.starts t c)
  | .finish t, s =>
      (s.begun t).map fun (seen, c) =>
        -- The call writes the variable only to change what it read.
        s.ends t (if (P.ask seen c).2 = seen then s.flag else (P.ask seen c).2)
          (c, (P.ask seen c).1)

/-- All threads, from a process that made no call yet. -/
def system : System (State Thread Call Answer) (Label Thread Call) where
  init s := s = ⟨0, fun _ => none, fun _ => []⟩
  step := P.step

end System

section Phases

variable {Thread : Type w} {Call : Type u} {Answer : Type v} (P : Probe Call Answer)

/-- The facility is missing for the call. -/
def Lacks (c : Call) : Prop := (P.ask 0 c).2 = -1

/-- The call with the answer that it has when it tries. -/
def tried (c : Call) : Call × Answer := (c, (P.ask 0 c).1)

/-- The call with the answer that it has when it falls back at once. -/
def fellBack (c : Call) : Call × Answer := (c, (P.ask (-1) c).1)

/-- Calls of one thread: `before` found the facility, `first` tried in vain. -/
structure Phases (before first after : List Call) (answered : List (Call × Answer)) : Prop where
  eq : answered = before.map P.tried ++ first.map P.tried ++ after.map P.fellBack
  found : ∀ c ∈ before, ¬ P.Lacks c
  lacks : ∀ c ∈ first, P.Lacks c
  once : first.length ≤ 1

/-- What holds of the thread `t`. A thread that fell back, or is about to, knows that the facility
is missing. -/
def ThreadInv (s : State Thread Call Answer) (t : Thread) : Prop :=
  ∃ before first after, P.Phases before first after (s.answered t) ∧
    ((first = [] ∧ after = []) ∨ (s.flag = -1 ∧ ∀ p ∈ s.begun t, p.1 = -1))

/-- What every step keeps. -/
structure Inv (s : State Thread Call Answer) : Prop where
  flag : s.flag = 0 ∨ s.flag = -1
  seen : ∀ t, ∀ p ∈ s.begun t, p.1 = 0 ∨ (p.1 = -1 ∧ s.flag = -1)
  missing : s.flag = -1 → ∃ t c, P.Lacks c ∧ P.tried c ∈ s.answered t
  thread : ∀ t, P.ThreadInv s t

variable {P}

/-- No call yet. -/
theorem Phases.nil : P.Phases [] [] [] [] :=
  ⟨rfl, List.forall_mem_nil _, List.forall_mem_nil _, Nat.zero_le 1⟩

variable {before first after : List Call} {answered : List (Call × Answer)} {c : Call}

/-- Another call that finds the facility. -/
theorem Phases.append_found (h : P.Phases before [] [] answered) (hc : ¬ P.Lacks c) :
    P.Phases (before ++ [c]) [] [] (answered ++ [P.tried c]) where
  eq := by simp [h.eq]
  found := List.forall_mem_append.mpr ⟨h.found, List.forall_mem_singleton.mpr hc⟩
  lacks := h.lacks
  once := h.once

/-- The first call that tries in vain. -/
theorem Phases.append_lacks (h : P.Phases before [] [] answered) (hc : P.Lacks c) :
    P.Phases before [c] [] (answered ++ [P.tried c]) where
  eq := by simp [h.eq]
  found := h.found
  lacks := List.forall_mem_singleton.mpr hc
  once := Nat.le_refl 1

/-- Another call that falls back at once. -/
theorem Phases.append_fellBack (h : P.Phases before first after answered) (c : Call) :
    P.Phases before first (after ++ [c]) (answered ++ [P.fellBack c]) where
  eq := by simp [h.eq]
  found := h.found
  lacks := h.lacks
  once := h.once

variable {s s' : State Thread Call Answer}

/-- Another thread's step leaves what holds of `t`, because the variable stays -1 once it is. -/
theorem ThreadInv.frame {t : Thread} (h : P.ThreadInv s t) (hbegun : s'.begun t = s.begun t)
    (hanswered : s'.answered t = s.answered t) (hflag : s.flag = -1 → s'.flag = -1) :
    P.ThreadInv s' t := by
  obtain ⟨before, first, after, hphases, hknows⟩ := h
  refine ⟨before, first, after, hanswered ▸ hphases, ?_⟩
  obtain hnone | ⟨hmissing, hseen⟩ := hknows
  · exact .inl hnone
  · exact .inr ⟨hflag hmissing, hbegun ▸ hseen⟩

/-- A thread in the middle of a call that read 0 never fell back. -/
theorem ThreadInv.direct {t : Thread} {c : Call} (h : P.ThreadInv s t)
    (hb : s.begun t = some (0, c)) : ∃ before, P.Phases before [] [] (s.answered t) := by
  obtain ⟨before, first, after, hphases, hknows⟩ := h
  obtain ⟨rfl, rfl⟩ | ⟨-, hseen⟩ := hknows
  · exact ⟨before, hphases⟩
  · have hzero : (0 : Int) = -1 := hseen (0, c) hb
    exact absurd hzero (by decide)

/-- The variable says that the facility is missing exactly if some call tried in vain. -/
theorem Inv.flag_iff (hI : P.Inv s) :
    s.flag = -1 ↔ ∃ t c, P.Lacks c ∧ P.tried c ∈ s.answered t := by
  refine ⟨hI.missing, ?_⟩
  rintro ⟨t, c, hlacks, hmem⟩
  obtain ⟨before, first, after, hphases, hknows⟩ := hI.thread t
  obtain ⟨rfl, rfl⟩ | ⟨hmissing, -⟩ := hknows
  · -- All calls of the thread found the facility, and this one is among them.
    rw [hphases.eq, List.map_nil, List.map_nil, List.append_nil, List.append_nil] at hmem
    obtain ⟨c', hc', heq⟩ := List.mem_map.mp hmem
    have hsame : c' = c := congrArg Prod.fst heq
    exact absurd hlacks (hsame ▸ hphases.found c' hc')
  · exact hmissing

end Phases

section Invariant

variable {Thread : Type w} [DecidableEq Thread] {Call : Type u} {Answer : Type v}
  {P : Probe Call Answer} {s s' : State Thread Call Answer}

/-- What a step does: a call begins, finds the facility, tries in vain, or falls back at once. -/
theorem Inv.step_cases (hI : P.Inv s) {l : Label Thread Call} (hs : P.step l s = some s') :
    (∃ t c, s.begun t = none ∧ s' = s.starts t c) ∨
    (∃ t c, s.begun t = some (0, c) ∧ ¬ P.Lacks c ∧ s' = s.ends t s.flag (P.tried c)) ∨
    (∃ t c, s.begun t = some (0, c) ∧ P.Lacks c ∧ s' = s.ends t (-1) (P.tried c)) ∨
    (∃ t c, s.begun t = some (-1, c) ∧ s.flag = -1 ∧ s' = s.ends t s.flag (P.fellBack c)) := by
  cases l with
  | begin t c =>
      cases hb : s.begun t with
      | some p => simp [step, hb] at hs
      | none =>
          simp only [step, hb, Option.some.injEq] at hs
          exact .inl ⟨t, c, hb, hs.symm⟩
  -- What the call read decides: 0 was a try, -1 was not.
  | finish t =>
      obtain ⟨⟨seen, c⟩, hb, rfl⟩ := Option.map_eq_some_iff.mp hs
      obtain hzero | ⟨hmissing, hflag⟩ := hI.seen t (seen, c) hb
      · have hseen : seen = 0 := hzero
        subst hseen
        obtain hfound | hlacks := P.ask_zero c
        · have hnot : ¬ P.Lacks c := by
            intro h
            rw [Lacks, hfound] at h
            exact absurd h (by decide)
          exact .inr (.inl ⟨t, c, hb, hnot, by simp [hfound, tried]⟩)
        · exact .inr (.inr (.inl ⟨t, c, hb, hlacks, by simp [hlacks, tried]⟩))
      · have hseen : seen = -1 := hmissing
        subst hseen
        exact .inr (.inr (.inr ⟨t, c, hb, hflag, by simp [P.ask_missing c, fellBack]⟩))

/-- The thread is in no call. -/
theorem ends_begun_self {t : Thread} {flag : Int} {answer : Call × Answer} :
    (s.ends t flag answer).begun t = none := Function.update_self ..

/-- The answer is its last one. -/
theorem ends_answered_self {t : Thread} {flag : Int} {answer : Call × Answer} :
    (s.ends t flag answer).answered t = s.answered t ++ [answer] := Function.update_self ..

/-- What the end of a call leaves of the parts of the invariant that are about one thread. -/
theorem Inv.ends (hI : P.Inv s) {t : Thread} {flag : Int} {answer : Call × Answer}
    (hflag : flag = 0 ∨ flag = -1) (hkept : s.flag = -1 → flag = -1)
    (hmissing : flag = -1 → s.flag = -1 ∨ ∃ c, P.Lacks c ∧ answer = P.tried c)
    (hthread : P.ThreadInv (s.ends t flag answer) t) : P.Inv (s.ends t flag answer) where
  flag := hflag
  seen u p hp := by
    by_cases hu : u = t
    · subst hu
      rw [ends_begun_self] at hp
      exact nomatch hp
    · have hold : (s.ends t flag answer).begun u = s.begun u := Function.update_of_ne hu ..
      rw [hold] at hp
      obtain hzero | ⟨hseen, hold⟩ := hI.seen u p hp
      · exact .inl hzero
      · exact .inr ⟨hseen, hkept hold⟩
  missing h := by
    -- Nothing that ended is forgotten.
    have hsub : ∀ u, ∀ a ∈ s.answered u, a ∈ (s.ends t flag answer).answered u := by
      intro u a ha
      by_cases hu : u = t
      · subst hu
        rw [ends_answered_self]
        exact List.mem_append_left _ ha
      · have hold : (s.ends t flag answer).answered u = s.answered u := Function.update_of_ne hu ..
        rw [hold]
        exact ha
    obtain hold | ⟨c, hlacks, heq⟩ := hmissing h
    · obtain ⟨u, c, hlacks, hmem⟩ := hI.missing hold
      exact ⟨u, c, hlacks, hsub u _ hmem⟩
    · refine ⟨t, c, hlacks, ?_⟩
      rw [ends_answered_self, heq]
      exact List.mem_append_right _ (List.mem_singleton_self _)
  thread u := by
    by_cases hu : u = t
    · subst hu
      exact hthread
    · exact (hI.thread u).frame (Function.update_of_ne hu ..) (Function.update_of_ne hu ..) hkept

/-- The call that the thread is in from now on. -/
theorem starts_begun_self {t : Thread} {c : Call} :
    (s.starts t c).begun t = some (s.flag, c) := Function.update_self ..

/-- A call begins, with what the variable has now. -/
theorem Inv.starts (hI : P.Inv s) (t : Thread) (c : Call) : P.Inv (s.starts t c) where
  flag := hI.flag
  seen u p hp := by
    by_cases hu : u = t
    · subst hu
      rw [starts_begun_self] at hp
      obtain rfl := Option.some.inj hp
      obtain hzero | hmissing := hI.flag
      · exact .inl hzero
      · exact .inr ⟨hmissing, hmissing⟩
    · have hold : (s.starts t c).begun u = s.begun u := Function.update_of_ne hu ..
      rw [hold] at hp
      exact hI.seen u p hp
  missing := hI.missing
  thread u := by
    by_cases hu : u = t
    · subst hu
      obtain ⟨before, first, after, hphases, hknows⟩ := hI.thread u
      refine ⟨before, first, after, hphases, ?_⟩
      -- A thread that knows that the facility is missing reads -1.
      obtain hnone | ⟨hmissing, -⟩ := hknows
      · exact .inl hnone
      · refine .inr ⟨hmissing, fun p hp => ?_⟩
        rw [starts_begun_self] at hp
        obtain rfl := Option.some.inj hp
        exact hmissing
    · exact (hI.thread u).frame (Function.update_of_ne hu ..) rfl id

/-- Each step keeps the invariant. -/
theorem Inv.step (hI : P.Inv s) {l : Label Thread Call} (hs : P.step l s = some s') :
    P.Inv s' := by
  obtain ⟨t, c, hb, rfl⟩ | ⟨t, c, hb, hfound, rfl⟩ | ⟨t, c, hb, hlacks, rfl⟩ |
    ⟨t, c, hb, hflag, rfl⟩ := hI.step_cases hs
  · exact hI.starts t c
  · obtain ⟨before, hphases⟩ := (hI.thread t).direct hb
    -- Only a call that tried in vain begins a new phase.
    refine hI.ends hI.flag id .inl ⟨before ++ [c], [], [], ?_, .inl ⟨rfl, rfl⟩⟩
    rw [ends_answered_self]
    exact hphases.append_found hfound
  · obtain ⟨before, hphases⟩ := (hI.thread t).direct hb
    refine hI.ends (.inr rfl) (fun _ => rfl) (fun _ => .inr ⟨c, hlacks, rfl⟩)
      ⟨before, [c], [], ?_, .inr ⟨rfl, fun p hp => ?_⟩⟩
    · rw [ends_answered_self]
      exact hphases.append_lacks hlacks
    · rw [ends_begun_self] at hp
      exact nomatch hp
  · obtain ⟨before, first, after, hphases, -⟩ := hI.thread t
    refine hI.ends hI.flag id .inl ⟨before, first, after ++ [c], ?_, .inr ⟨hflag, fun p hp => ?_⟩⟩
    · rw [ends_answered_self]
      exact hphases.append_fellBack c
    · rw [ends_begun_self] at hp
      exact nomatch hp

/-- It holds in every interleaving. -/
theorem inv_of_reachable (h : P.system.Reachable s) : P.Inv s := by
  refine h.invariant (fun s hs => ?_) fun l s s' hI _ hs => hI.step hs
  subst hs
  exact {
    flag := .inl rfl
    seen := fun _ _ hp => nomatch hp
    missing := fun h => absurd (show (0 : Int) = -1 from h) (by decide)
    thread := fun _ => ⟨[], [], [], .nil, .inl ⟨rfl, rfl⟩⟩ }

/-- The calls of `t` that ended since `s`: they all fell back at once, but for one that had begun
before, if `t` was in the middle of one. -/
def Later (P : Probe Call Answer) (s s' : State Thread Call Answer) (t : Thread) : Prop :=
  ∃ after : List Call,
    s'.answered t = s.answered t ++ after.map P.fellBack ∨
    ∃ c, s.begun t = some (0, c) ∧
      s'.answered t = s.answered t ++ P.tried c :: after.map P.fellBack

/-- What the steps keep, once the variable is -1. -/
structure Missing (P : Probe Call Answer) (s s' : State Thread Call Answer) : Prop where
  inv : P.Inv s'
  flag : s'.flag = -1
  thread : ∀ t, P.Later s s' t ∧
    ∀ p ∈ s'.begun t, p.1 = 0 → s'.begun t = s.begun t ∧ s'.answered t = s.answered t

section Missing

variable {s₀ : State Thread Call Answer} {t : Thread}

/-- A call begins, and reads -1. -/
theorem Missing.starts (h : P.Missing s₀ s) (t : Thread) (c : Call) :
    P.Missing s₀ (s.starts t c) := by
  refine ⟨h.inv.starts t c, h.flag, fun u => ⟨(h.thread u).1, fun p hp hzero => ?_⟩⟩
  by_cases hu : u = t
  · subst hu
    rw [starts_begun_self] at hp
    obtain rfl := Option.some.inj hp
    -- A call that begins now does not read 0.
    have hflag : s.flag = 0 := hzero
    exact absurd (hflag.symm.trans h.flag) (by decide)
  · have hold : (s.starts t c).begun u = s.begun u := Function.update_of_ne hu ..
    rw [hold] at hp ⊢
    exact (h.thread u).2 p hp hzero

/-- A call of `t` ends. For the other threads nothing changes. -/
theorem Missing.ends (h : P.Missing s₀ s) {flag : Int} {answer : Call × Answer}
    (hI : P.Inv (s.ends t flag answer)) (hflag : flag = -1)
    (hlater : P.Later s₀ (s.ends t flag answer) t) : P.Missing s₀ (s.ends t flag answer) := by
  refine ⟨hI, hflag, fun u => ?_⟩
  by_cases hu : u = t
  · subst hu
    refine ⟨hlater, fun p hp => ?_⟩
    rw [ends_begun_self] at hp
    exact nomatch hp
  · have hbegun : (s.ends t flag answer).begun u = s.begun u := Function.update_of_ne hu ..
    have hanswered : (s.ends t flag answer).answered u = s.answered u :=
      Function.update_of_ne hu ..
    rw [Later, hbegun, hanswered]
    exact h.thread u

/-- A call that ends, and read 0, had begun before the variable was -1. -/
theorem Missing.later_tried (h : P.Missing s₀ s) {flag : Int} {c : Call}
    (hb : s.begun t = some (0, c)) : P.Later s₀ (s.ends t flag (P.tried c)) t := by
  obtain ⟨hbegun, hanswered⟩ := (h.thread t).2 (0, c) hb rfl
  refine ⟨[], .inr ⟨c, hbegun ▸ hb, ?_⟩⟩
  rw [ends_answered_self, hanswered]
  rfl

/-- A call that fell back at once comes behind those before it. -/
theorem Missing.later_fellBack (h : P.Missing s₀ s) (t : Thread) (flag : Int) (c : Call) :
    P.Later s₀ (s.ends t flag (P.fellBack c)) t := by
  obtain ⟨after, hall | ⟨c₀, hb₀, hall⟩⟩ := (h.thread t).1
  · refine ⟨after ++ [c], .inl ?_⟩
    rw [ends_answered_self, hall]
    simp
  · refine ⟨after ++ [c], .inr ⟨c₀, hb₀, ?_⟩⟩
    rw [ends_answered_self, hall]
    simp

/-- Each step keeps it. -/
theorem Missing.step (h : P.Missing s₀ s) {l : Label Thread Call} (hs : P.step l s = some s') :
    P.Missing s₀ s' := by
  have hI := h.inv.step hs
  obtain ⟨t, c, hb, rfl⟩ | ⟨t, c, hb, hfound, rfl⟩ | ⟨t, c, hb, hlacks, rfl⟩ |
    ⟨t, c, hb, hflag, rfl⟩ := h.inv.step_cases hs
  · exact h.starts t c
  · exact h.ends hI h.flag (h.later_tried hb)
  · exact h.ends hI rfl (h.later_tried hb)
  · exact h.ends hI hflag (h.later_fellBack t s.flag c)

end Missing

/-- Once the variable is -1, the calls that begin fall back at once. -/
theorem later_of_run (hI : P.Inv s) (hflag : s.flag = -1) (ls : List (Label Thread Call))
    (hrun : P.system.run ls s = some s') : s'.flag = -1 ∧ ∀ t, P.Later s s' t := by
  have hmissing : P.Missing s s :=
    ⟨hI, hflag, fun t => ⟨⟨[], .inl (List.append_nil _).symm⟩, fun _ _ _ => ⟨rfl, rfl⟩⟩⟩
  have hlast := System.kept_of_run (fun _ _ _ h hs => h.step hs) ls hmissing hrun
  exact ⟨hlast.flag, fun t => (hlast.thread t).1⟩

end Invariant

end Probe

end GlibcPorts.Lib
