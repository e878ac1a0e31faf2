import GlibcPorts.Lib.Transition
import GlibcPorts.Timer.Calls

/-!
# `GlibcPorts.Timer.Processes`: timer calls and forks of many processes

A process makes timer calls, one at a time, and forks. The child of a `fork` is a process of
its own from then on, and may fork again. A process number that is not in use has no
`Process`.
-/

set_option autoImplicit false

namespace GlibcPorts.Timer

open GlibcPorts.Lib (System)

/-- The processes by their numbers. -/
abbrev Processes := Nat → Option Process

/-- A call of a process, with its outcomes, or a `fork`. -/
inductive ProcessLabel where
  | create (p : Nat) (env : CreateEnv) (c : CreateArgs)
  | delete (p : Nat) (res : Except Errno Unit) (id : TimerT)
  | ktimerCall (p : Nat) (call : Ktimer) (res : Except Errno Int) (id : TimerT)
  | fork (p child : Nat)

/-- One call. `none` when there is no such process, or the outcomes are not possible. -/
def Processes.step : ProcessLabel → Processes → Option Processes
  | .create p env c, procs =>
      match procs p with
      | none => none
      | some proc =>
          if env.Possible proc then
            some (Function.update procs p (some (proc.timerCreate env c).2))
          else none
  | .delete p res id, procs =>
      match procs p with
      | none => none
      | some proc =>
          if proc.DeletePossible res id then
            (proc.timerDelete res id).map fun r => Function.update procs p (some r.2)
          else none
  | .ktimerCall p call res id, procs =>
      match procs p with
      | none => none
      | some proc => some (Function.update procs p (some (proc.ktimerCall call res id).2.2))
  | .fork p child, procs =>
      match procs p, procs child with
      | some proc, none => some (Function.update procs child (some proc.fork))
      | _, _ => none

/-- A process before its first timer call. -/
structure Process.Fresh (proc : Process) : Prop where
  noPosixTimers : proc.noPosixTimers = 0
  allTimers : ∀ i, proc.allTimers i = none
  activeTimerSigevThread : proc.activeTimerSigevThread = none
  helperOnce : proc.helperOnce = false
  helperTid : proc.helperTid = 0
  ktimers : proc.ktimers = []
  helper : proc.helper = none

/-- One process runs, and it has made no timer call. -/
def Processes.Initial (procs : Processes) : Prop :=
  ∃ p proc, procs = Function.update (fun _ => none) p (some proc) ∧ proc.Fresh

/-- All processes. -/
def processes : System Processes ProcessLabel where
  init := Processes.Initial
  step := Processes.step

end GlibcPorts.Timer
