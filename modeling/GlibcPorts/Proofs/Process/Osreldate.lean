import GlibcPorts.Lib.Simulation
import GlibcPorts.Process.Clone

/-!
# `GlibcPorts.Proofs.Process.Osreldate`: the release date over a run

The two functions of `getosreldate.c` as a machine that answers calls. `kernelGetosreldate_cases`
and `getosreldate_cases` are the steps. What is settled after an answer is the variable it came
from, so `Machine.pairwise_of_run` gives how the answers of a run hang together: the kernel's date,
once known, stays known, and a program keeps its first number for good, also when that is the `-1`
of a failure.
-/

set_option autoImplicit false

namespace GlibcPorts.Process

open Lib

/-- A call, with what it meets. -/
inductive DateCall where
  | kernel (sysctl : Option (BitVec 32))
  | program (osversion sysctl : Option (BitVec 32))

/-- What `sysctl` stores in the call. -/
def DateCall.sysctl : DateCall → Option (BitVec 32)
  | .kernel sysctl => sysctl
  | .program _ sysctl => sysctl

/-- The two functions, over their variables. -/
def dateMachine : Machine DateCaches DateCall (BitVec 32) where
  step
    | .kernel sysctl, s => some (kernelGetosreldate sysctl s)
    | .program osversion sysctl, s => some (getosreldate osversion sysctl s)

/-- The kernel has this date, and `sysctl` stores no other. -/
def Tells (date : BitVec 32) (c : DateCall) : Prop := c.sysctl = none ∨ c.sysctl = some date

section Run

variable {date : BitVec 32} {calls : List DateCall}

/-- What a call of `__getosreldate` finds by itself: the number in `OSVERSION`, or without that the
kernel's date, or `-1` if `sysctl` fails. -/
def Found (date : BitVec 32) (osversion sysctl : Option (BitVec 32)) (r : BitVec 32) : Prop :=
  match osversion with
  | some number => r = number
  | none => r = date ∨ (r = -1 ∧ sysctl = none)

/-- A number that `__getosreldate` may have: one of the calls found it. -/
def Sourced (date : BitVec 32) (calls : List DateCall) (r : BitVec 32) : Prop :=
  ∃ osversion sysctl, .program osversion sysctl ∈ calls ∧ Found date osversion sysctl r

/-- The variables hold nothing else. -/
structure Known (date : BitVec 32) (calls : List DateCall) (s : DateCaches) : Prop where
  kernel : s.kernel = 0 ∨ s.kernel = date
  program : s.program = 0 ∨ Sourced date calls s.program

/-- `__kernel_getosreldate` answers with the date, or fails while it has none. -/
theorem kernelGetosreldate_cases (sysctl : Option (BitVec 32)) {s : DateCaches}
    (hs : Known date calls s) (hsysctl : sysctl = none ∨ sysctl = some date) :
    kernelGetosreldate sysctl s = (date, { s with kernel := date })
    ∨ (s.kernel = 0 ∧ sysctl = none ∧ kernelGetosreldate sysctl s = (-1, s)) := by
  unfold kernelGetosreldate
  by_cases hzero : s.kernel = 0
  · rw [if_pos hzero]
    rcases hsysctl with rfl | rfl
    · exact .inr ⟨hzero, rfl, rfl⟩
    · exact .inl rfl
  · have hdate := hs.kernel.resolve_left hzero
    rw [if_neg hzero]
    refine .inl ?_
    rw [← hdate]

/-- The program's variable is what was answered, and the kernel's is as it was or the date. -/
theorem getosreldate_cases (osversion sysctl : Option (BitVec 32)) {s : DateCaches}
    (hs : Known date calls s) (hsysctl : sysctl = none ∨ sysctl = some date)
    (hcall : .program osversion sysctl ∈ calls) :
    ∃ r kernel, getosreldate osversion sysctl s = (r, ⟨kernel, r⟩)
      ∧ (kernel = s.kernel ∨ kernel = date) ∧ Sourced date calls r
      ∧ (s.program ≠ 0 → r = s.program) := by
  unfold getosreldate
  by_cases hzero : s.program = 0
  · rw [if_pos hzero]
    cases osversion with
    | some r => exact ⟨r, s.kernel, rfl, .inl rfl, ⟨some r, sysctl, hcall, rfl⟩, absurd hzero⟩
    | none =>
        rcases kernelGetosreldate_cases sysctl hs hsysctl with heq | ⟨-, hnone, heq⟩
        · exact ⟨date, date, by rw [heq], .inr rfl, ⟨none, sysctl, hcall, .inl rfl⟩, absurd hzero⟩
        · exact ⟨-1, s.kernel, by rw [heq], .inl rfl, ⟨none, sysctl, hcall, .inr ⟨rfl, hnone⟩⟩,
            absurd hzero⟩
  · rw [if_neg hzero]
    exact ⟨s.program, s.kernel, rfl, .inl rfl, hs.program.resolve_left hzero, fun _ => rfl⟩

/-- What is settled by an answer: the variable that it came from. -/
def Settled (date : BitVec 32) (a : DateCall × BitVec 32) (s : DateCaches) : Prop :=
  match a.1 with
  | .kernel _ => a.2 = date → s.kernel = date
  | .program _ _ => a.2 ≠ 0 → s.program = a.2

/-- An answer that is there for good: the kernel's date from `__kernel_getosreldate`, and any
number but zero from `__getosreldate`. -/
def StaysFor (date : BitVec 32) (a b : DateCall × BitVec 32) : Prop :=
  match a.1, b.1 with
  | .kernel _, .kernel _ => a.2 = date → b.2 = date
  | .program _ _, .program _ _ => a.2 ≠ 0 → b.2 = a.2
  | _, _ => True

/-- What one answer may be. -/
def Answer (date : BitVec 32) (calls : List DateCall) (a : DateCall × BitVec 32) : Prop :=
  match a.1 with
  | .kernel sysctl => a.2 = date ∨ (a.2 = -1 ∧ sysctl = none)
  | .program _ _ => Sourced date calls a.2

/-- One call. -/
theorem dateMachine_step (hpos : 0 < date.toInt) {c : DateCall} {s s' : DateCaches}
    {r : BitVec 32} (hs : Known date calls s) (hc : Tells date c ∧ c ∈ calls)
    (hstep : dateMachine.step c s = some (r, s')) :
    Known date calls s' ∧ Answer date calls (c, r) ∧ Settled date (c, r) s'
      ∧ ∀ a, Settled date a s → Settled date a s' ∧ StaysFor date a (c, r) := by
  have hne : date ≠ 0 := by
    rintro rfl
    cases hpos
  have hfail : (-1 : BitVec 32) ≠ date := by
    rintro rfl
    cases hpos
  cases c with
  | kernel sysctl =>
      have heq : (r, s') = kernelGetosreldate sysctl s := (Option.some.inj hstep).symm
      rcases kernelGetosreldate_cases sysctl hs hc.1 with
        hdate | ⟨hzero, hnone, hdate⟩
      · rw [hdate] at heq
        cases heq
        refine ⟨⟨.inr rfl, hs.program⟩, .inl rfl, fun _ => rfl, fun a ha => ?_⟩
        obtain ⟨call, answer⟩ := a
        cases call with
        | kernel _ => exact ⟨fun _ => rfl, fun _ => rfl⟩
        | program _ _ => exact ⟨ha, trivial⟩
      · rw [hdate] at heq
        cases heq
        refine ⟨hs, .inr ⟨rfl, hnone⟩, fun h => absurd h hfail, fun a ha => ⟨ha, ?_⟩⟩
        obtain ⟨call, answer⟩ := a
        cases call with
        | kernel _ => exact fun h => absurd ((ha h).symm.trans hzero) hne
        | program _ _ => trivial
  | program osversion sysctl =>
      obtain ⟨r', kernel, hdate, hkernel, hsource, hsame⟩ :=
        getosreldate_cases osversion sysctl hs hc.1 hc.2
      have heq : (r, s') = getosreldate osversion sysctl s := (Option.some.inj hstep).symm
      rw [hdate] at heq
      cases heq
      refine ⟨⟨?_, .inr hsource⟩, hsource, fun _ => rfl, fun a ha => ?_⟩
      · rcases hkernel with rfl | rfl
        · exact hs.kernel
        · exact .inr rfl
      · obtain ⟨call, answer⟩ := a
        cases call with
        | kernel _ =>
            refine ⟨fun h => ?_, trivial⟩
            rcases hkernel with rfl | rfl
            · exact ha h
            · rfl
        | program _ _ =>
            have hkept : answer ≠ 0 → r = answer := fun h => by
              have hprogram := ha h
              rw [hsame (by rw [hprogram]; exact h), hprogram]
            exact ⟨hkept, hkept⟩

/-- Over any run on a kernel with a date: `__kernel_getosreldate` answers with the date, or with
`-1` when `sysctl` fails, and from the first date on always with the date. `__getosreldate` answers
with what one of its calls found, and from the first number but zero on always with this number,
which may be a failure. -/
theorem osreldate_settles (hpos : 0 < date.toInt) {answers : List (DateCall × BitVec 32)}
    {t : DateCaches} (hcalls : ∀ c ∈ calls, Tells date c)
    (hrun : dateMachine.run calls ⟨0, 0⟩ = some (answers, t)) :
    (∀ a ∈ answers, Answer date calls a) ∧ answers.Pairwise (StaysFor date) := by
  have hinit : Known date calls ⟨0, 0⟩ := ⟨.inl rfl, .inl rfl⟩
  have hok : ∀ c ∈ calls, Tells date c ∧ c ∈ calls := fun c hc => ⟨hcalls c hc, hc⟩
  constructor
  · refine (Machine.answers_of_run (I := Known date calls) (fun c s r s' hs hc hstep => ?_) hinit
      hok hrun).2
    have h := dateMachine_step hpos hs hc hstep
    exact ⟨h.1, h.2.1⟩
  · refine Machine.pairwise_of_run (I := Known date calls) (S := Settled date)
      (fun c s r s' hs hc hstep => ?_) (fun a c s r s' hs ha hc hstep => ?_) hinit hok hrun
    · have h := dateMachine_step hpos hs hc hstep
      exact ⟨h.1, h.2.2.1⟩
    · exact (dateMachine_step hpos hs hc hstep).2.2.2 a ha

/-- A program that asks while `sysctl` fails, and again when it does not. -/
theorem osreldate_settles_failed :
    [(DateCall.program none none, (-1 : BitVec 32)), (.kernel none, -1),
      (.kernel (some 802510), 802510), (.program none (some 802510), -1)].Pairwise
        (StaysFor 802510) := by
  have hcalls : ∀ c ∈ [DateCall.program none none, .kernel none, .kernel (some 802510),
      .program none (some 802510)], Tells 802510 c := by
    intro c hc
    simp only [List.mem_cons, List.not_mem_nil, or_false] at hc
    rcases hc with rfl | rfl | rfl | rfl
    · exact .inl rfl
    · exact .inl rfl
    · exact .inr rfl
    · exact .inr rfl
  exact (osreldate_settles (t := ⟨802510, -1⟩) (by decide) hcalls rfl).2

end Run

end GlibcPorts.Process
