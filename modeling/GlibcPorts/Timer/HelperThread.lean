import GlibcPorts.Lib.Transition
import GlibcPorts.Timer.Calls

/-!
# `GlibcPorts.Timer.HelperThread`: the life of the helper thread

Threads of many processes call `timer_create` for `SIGEV_THREAD` timers, processes fork, and
`SIGTIMER` signals reach the helper threads. A call is cut at the places where it looks at the
helper thread: `pthread_once`, the test of `__helper_tid`, the allocation, and
`ktimer_create`. The parts are those of `Process.timerCreate`, which a thread runs in this
order (`Process.createThread`); anything may happen in between.

The state has auxiliary parts: whether a `pthread_create` failed in the process and whether
its helper thread was cancelled, since the process was made, and what the calls did
(`registered`, `refused`).
-/

set_option autoImplicit false

namespace GlibcPorts.Timer

open GlibcPorts.Lib (System)

/-- Where a thread is in `timer_create`. -/
inductive HelperPc where
  | idle
  /-- Before `pthread_once`. -/
  | once (c : CreateArgs)
  /-- Before the test of `__helper_tid`. `started` is the outcome of the `pthread_create`
  that this call attempted, if it attempted one. -/
  | check (c : CreateArgs) (started : Option Bool)
  /-- Before `__kfreebsd_timer_alloc`. -/
  | alloc (c : CreateArgs)
  /-- Before `ktimer_create`. -/
  | register (newp : Addr)
deriving DecidableEq, Repr

/-- A kernel timer that was registered for a helper thread, with the helper thread that ran in
the process at that moment. -/
structure Registration where
  threadId : Lwpid
  running : Option Lwpid
deriving DecidableEq, Repr

/-- A process with the places of its threads. -/
structure HelperProcess where
  proc : Process
  pc : Nat → HelperPc
  /-- A `pthread_create` of `__start_helper_thread` failed in this process. -/
  startFailed : Bool
  /-- The helper thread of this process was cancelled. -/
  cancelled : Bool
  registered : List Registration
  /-- The calls that failed for lack of a helper thread: the outcome of the `pthread_create`
  that they attempted, if they did. -/
  refused : List (Option Bool)

/-- The process goes on after a step of the thread `t`, which is then at `pc`. -/
def HelperProcess.goto (hp : HelperProcess) (t : Nat) (pc : HelperPc) : HelperProcess :=
  { hp with pc := Function.update hp.pc t pc }

/-- The outcome of the `pthread_create` that a call of `pthread_once` attempts. -/
def HelperProcess.attempt (hp : HelperProcess) (pthreadCreate : Option Lwpid) : Option Bool :=
  if hp.proc.helperOnce then none else some pthreadCreate.isSome

/-- `pthread_once (&__helper_once, __start_helper_thread)`. -/
def HelperProcess.callOnce (hp : HelperProcess) (pthreadCreate : Option Lwpid) : HelperProcess :=
  { hp with
    proc := hp.proc.pthreadOnce pthreadCreate
    startFailed := hp.startFailed || hp.attempt pthreadCreate = some false }

/-- The child of a `fork`, in which only the forking thread runs. -/
def HelperProcess.fork (hp : HelperProcess) : HelperProcess where
  proc := hp.proc.fork
  pc := fun _ => .idle
  startFailed := false
  cancelled := false
  registered := []
  refused := []

/-- A step of the thread `t` of the process `p`, or an event of the process. -/
inductive HelperLabel where
  | call (p t : Nat) (clockGetres : Bool) (c : CreateArgs)
  | once (p t : Nat) (pthreadCreate : Option Lwpid)
  | check (p t : Nat)
  | alloc (p t : Nat) (malloc : Option (Addr × StructTimer))
  | register (p t : Nat) (res : Except Errno KernelTimerT)
  /-- A `SIGTIMER` with this `si_code` reaches the helper thread. -/
  | signal (p : Nat) (siCode : Int)
  | fork (p t child : Nat)

/-- The process in which a step happens. -/
def HelperLabel.process : HelperLabel → Nat
  | .call p _ _ _ | .once p _ _ | .check p _ | .alloc p _ _ | .register p _ _ | .signal p _
  | .fork p _ _ => p

/-- The step of one process. A `fork` changes nothing in the parent. -/
def HelperProcess.step (hp : HelperProcess) : HelperLabel → Option HelperProcess
  | .call _ t clockGetres c =>
      if hp.pc t = .idle ∧ wantsThread c.evp ∧ 0 ≤ hp.proc.noPosixTimers then
        let hp := { hp with proc := hp.proc.probe clockGetres }
        some (if 0 < hp.proc.noPosixTimers then hp.goto t (.once c) else hp)
      else none
  | .once _ t pthreadCreate =>
      match hp.pc t with
      | .once c =>
          if ∀ tid ∈ pthreadCreate, 0 < tid then
            some ((hp.callOnce pthreadCreate).goto t (.check c (hp.attempt pthreadCreate)))
          else none
      | _ => none
  | .check _ t =>
      match hp.pc t with
      | .check c started =>
          -- `EAGAIN`, for lack of a helper thread.
          if hp.proc.helperTid = 0 then
            some ({ hp with refused := started :: hp.refused }.goto t .idle)
          else some (hp.goto t (.alloc c))
      | _ => none
  | .alloc _ t malloc =>
      match hp.pc t with
      | .alloc c =>
          match hp.proc.timerAlloc malloc with
          | (.error _, proc) => some ({ hp with proc := proc }.goto t .idle)
          | (.ok newp, proc) =>
              some ({ hp with proc := proc.fillThread c newp }.goto t (.register newp))
      | _ => none
  | .register _ t res =>
      match hp.pc t with
      | .register newp =>
          let proc := (hp.proc.registerThread newp res).2
          match res with
          | .ok _ =>
              some ({ hp with
                proc := proc
                registered := ⟨(threadSigevent newp hp.proc.helperTid).sigevNotifyThreadId,
                  hp.proc.helper⟩ :: hp.registered }.goto t .idle)
          | .error _ => some ({ hp with proc := proc }.goto t .idle)
      | _ => none
  | .signal _ siCode =>
      -- Without a helper thread nobody waits for the signal.
      if hp.proc.helper = none then none
      else if siCode ≠ SI_TIMER ∧ (siCode = SI_LWP ∨ siCode = SI_USER) then
        some { hp with proc := { hp.proc with helper := none }, cancelled := true }
      else some hp
  | .fork _ t _ => if hp.pc t = .idle then some hp else none

/-- One step of one process. -/
def HelperProcess.stepAll (l : HelperLabel) (procs : Nat → Option HelperProcess) :
    Option (Nat → Option HelperProcess) :=
  match procs l.process with
  | none => none
  | some hp =>
      match hp.step l with
      | none => none
      | some hp' =>
          let procs := Function.update procs l.process (some hp')
          match l with
          | .fork _ _ child =>
              if procs child = none then some (Function.update procs child (some hp'.fork))
              else none
          | .call _ _ _ _ | .once _ _ _ | .check _ _ | .alloc _ _ _ | .register _ _ _
          | .signal _ _ => some procs

/-- A process before its first timer call. -/
structure HelperProcess.Fresh (hp : HelperProcess) : Prop where
  helperOnce : hp.proc.helperOnce = false
  helperTid : hp.proc.helperTid = 0
  helper : hp.proc.helper = none
  pc : ∀ t, hp.pc t = .idle
  startFailed : hp.startFailed = false
  cancelled : hp.cancelled = false
  registered : hp.registered = []
  refused : hp.refused = []

/-- All processes, with one at the start. -/
def helperProcesses : System (Nat → Option HelperProcess) HelperLabel where
  init procs := ∃ p hp, procs = Function.update (fun _ => none) p (some hp) ∧ hp.Fresh
  step := HelperProcess.stepAll

end GlibcPorts.Timer
