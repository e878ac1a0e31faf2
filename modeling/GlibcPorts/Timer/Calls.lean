import GlibcPorts.Timer.KernelPosixTimers
import Mathlib.Logic.Function.Basic

/-!
# `GlibcPorts.Timer.Calls`: the timer calls of one process, call by call

`Process.timerCreate`, `Process.timerDelete`, `Process.timerSettime`, `Process.timerGettime`
and `Process.timerGetoverrun` are whole calls of the C functions, as functions of the state of
the process. What a call does not decide by itself, the outcomes of `malloc`,
`pthread_create` and the system calls, comes in as an argument (`CreateEnv`).

A call that ends in the compatibility code of glibc returns what it passes to it. The
compatibility code itself is not modelled.

`Process.fork` is the child after `fork`: a copy of the memory, no kernel timer, no helper
thread, and the variables that `reset_helper_control` resets.
-/

set_option autoImplicit false

namespace GlibcPorts.Timer

/-- A process: the variables of the timer code, its memory, and what the kernel has of it. -/
structure Process where
  noPosixTimers : Int
  allTimers : AllTimers
  heap : Addr → StructTimer
  /-- The blocks that `malloc` returned and that were not freed. -/
  allocated : Addr → Bool
  activeTimerSigevThread : Option Addr
  /-- The initialisation that `__helper_once` controls was done. -/
  helperOnce : Bool
  helperTid : Lwpid
  /-- `reset_helper_control` is registered for the child of a `fork`. -/
  atfork : Bool
  /-- The kernel timers, with the events they were registered with. -/
  ktimers : List (KernelTimerT × Sigevent)
  /-- The running helper thread. -/
  helper : Option Lwpid

/-- What a call of `timer_create` returns. -/
inductive CreateResult where
  /-- Zero, with the id stored in `*timerid`. -/
  | ok (timerid : TimerT)
  /-- -1, with `errno` set. -/
  | error (errno : Errno)
  /-- What `compat_timer_create` returns for this clock and this event, and `timerid`. -/
  | compat (clockId : Int) (evp : Option Sigevent)
deriving DecidableEq, Repr

/-- What a call on a timer id returns. -/
inductive CallResult where
  | ok (res : Int)
  | error (errno : Errno)
  /-- What the compatibility function returns for the same arguments. -/
  | compat
deriving DecidableEq, Repr

/-- The outcomes that a call of `timer_create` meets, as far as it gets to them. -/
structure CreateEnv where
  /-- `clock_getres` succeeds. -/
  clockGetres : Bool
  /-- The thread that `pthread_create` starts in `__start_helper_thread`. -/
  pthreadCreate : Option Lwpid
  /-- The block that `malloc` returns, with the bytes in it. -/
  malloc : Option (Addr × StructTimer)
  ktimerCreate : Except Errno KernelTimerT

/-- The outcomes are possible: `malloc` returns a block that is not allocated, threads have
positive ids, and the id of a new kernel timer is not in use in the process. -/
def CreateEnv.Possible (env : CreateEnv) (proc : Process) : Prop :=
  (∀ block ∈ env.malloc, proc.allocated block.1 = false) ∧
    (∀ tid ∈ env.pthreadCreate, 0 < tid) ∧
    ∀ k ∈ env.ktimerCreate.toOption, k ∉ proc.ktimers.map Prod.fst

instance (env : CreateEnv) (proc : Process) : Decidable (env.Possible proc) :=
  inferInstanceAs (Decidable (_ ∧ _ ∧ _))

/-- The system calls on a kernel timer that the calls on a timer id make. -/
inductive Ktimer where
  | settime
  | gettime
  | getoverrun
deriving DecidableEq, Repr

namespace Process

variable (proc : Process)

/-- A store to the struct at `a`. -/
def store (a : Addr) (timer : StructTimer) : Process :=
  { proc with heap := Function.update proc.heap a timer }

/-- `__kfreebsd_timer_alloc`, with the block that `malloc` returns. -/
def timerAlloc (block : Option (Addr × StructTimer)) : Except Errno Addr × Process :=
  let proc := match block with
    | none => proc
    | some (timer, bytes) =>
        { proc.store timer bytes with allocated := Function.update proc.allocated timer true }
  match freeSlot proc.allTimers with
  | some i =>
      -- For a failed `malloc` the exchange stores `NULL` over `NULL`, and returns `NULL`.
      let proc := { proc with
        allTimers := Function.update proc.allTimers i (block.map Prod.fst) }
      match block with
      | some (timer, _) => (.ok timer, proc)
      | none => (.error ENOMEM, proc)
  | none => (.error EAGAIN, proc)

/-- `__kfreebsd_timer_free`. The index -1, for a struct that is not in the table, is no slot. -/
def timerFree (ptr : Addr) : Process :=
  { proc with
    allTimers := fun i =>
      if (i : Int) = kfreebsdTimerPtr2id proc.allTimers ptr then none else proc.allTimers i
    allocated := Function.update proc.allocated ptr false }

/-- `__start_helper_thread`, with the thread that `pthread_create` starts. -/
def startHelperThread (tid : Option Lwpid) : Process :=
  match tid with
  | some tid => { proc with helperTid := tid, helper := some tid, atfork := true }
  | none => { proc with atfork := true }

/-- `pthread_once (&__helper_once, __start_helper_thread)`. -/
def pthreadOnce (tid : Option Lwpid) : Process :=
  if proc.helperOnce then proc else { proc.startHelperThread tid with helperOnce := true }

/-- `reset_helper_control`. -/
def resetHelperControl : Process := { proc with helperOnce := false, helperTid := 0 }

/-- The child of a `fork`. -/
def fork : Process :=
  -- Only the forking thread exists in the child, and timers are not inherited.
  let child := { proc with ktimers := [], helper := none }
  if proc.atfork then child.resetHelperControl else child

/-- The probe of `timer_create` for a `SIGEV_THREAD` timer. -/
def probe (clockGetres : Bool) : Process :=
  if proc.noPosixTimers = 0 then { proc with noPosixTimers := if clockGetres then 1 else -1 }
  else proc

/-- The stores of the thread parameters to the new timer. -/
def fillThread (c : CreateArgs) (newp : Addr) : Process :=
  match c.evp with
  | none => proc
  | some ev => proc.store newp ((proc.heap newp).withThreadParams ev)

/-- `timer_create` from `ktimer_create` on, for a `SIGEV_THREAD` timer: on success the new
timer is pushed on the active list. -/
def registerThread (newp : Addr) (res : Except Errno KernelTimerT) : CreateResult × Process :=
  match res with
  | .ok k =>
      let proc := { proc with
        ktimers := (k, threadSigevent newp proc.helperTid) :: proc.ktimers }
      let proc := proc.store newp
        { proc.heap newp with ktimerid := k, next := proc.activeTimerSigevThread }
      let proc := { proc with activeTimerSigevThread := some newp }
      (.ok (kfreebsdTimerPtr2id proc.allTimers newp), proc)
  -- Also for `ENOSYS`: this branch has no way to the compatibility code.
  | .error e => (.error e, proc.timerFree newp)

/-- `timer_create` for a `SIGEV_THREAD` timer, when the kernel has the system calls. -/
def createThread (env : CreateEnv) (c : CreateArgs) : CreateResult × Process :=
  let proc := proc.pthreadOnce env.pthreadCreate
  if proc.helperTid = 0 then (.error EAGAIN, proc)
  else
    match proc.timerAlloc env.malloc with
    | (.error e, proc) => (.error e, proc)
    | (.ok newp, proc) => (proc.fillThread c newp).registerThread newp env.ktimerCreate

/-- `timer_create` for every other timer. From the allocation on, `evp` points to the local
event if it was `NULL`. -/
def createSignal (env : CreateEnv) (c : CreateArgs) : CreateResult × Process :=
  match proc.timerAlloc env.malloc with
  | (.error e, proc) => (.error e, proc)
  | (.ok newp, proc) =>
      let evp := c.evp.getD (defaultSigevent newp)
      match env.ktimerCreate with
      | .ok k =>
          let proc := { proc with noPosixTimers := 1, ktimers := (k, evp) :: proc.ktimers }
          let proc := proc.store newp
            { proc.heap newp with sigevNotify := evp.sigevNotify, ktimerid := k }
          (.ok (kfreebsdTimerPtr2id proc.allTimers newp), proc)
      | .error e =>
          -- The compatibility code gets `evp` as it is by now.
          if e = ENOSYS then
            (.compat c.clockId (some evp), { proc.timerFree newp with noPosixTimers := -1 })
          else (.error e, { proc with noPosixTimers := 1 }.timerFree newp)

/-- `timer_create`. -/
def timerCreate (env : CreateEnv) (c : CreateArgs) : CreateResult × Process :=
  if 0 ≤ proc.noPosixTimers then
    if wantsThread c.evp then
      let proc := proc.probe env.clockGetres
      if 0 < proc.noPosixTimers then proc.createThread env c
      else (.compat c.clockId c.evp, proc)
    else proc.createSignal env c
  else (.compat c.clockId c.evp, proc)

/-- The walk of `timer_delete` from `prevp` to the node before `kt`, and the memory after the
node is unlinked. `none` when the walk loads through `NULL` or does not end in `fuel` steps. -/
def unlinkWalk (heap : Addr → StructTimer) (kt : Addr) :
    Nat → Option Addr → Option (Addr → StructTimer)
  | 0, _ => none
  | fuel + 1, prevp =>
      match prevp with
      | none => none
      | some p =>
          match (heap p).next with
          | none => some heap
          | some q =>
              if q = kt then
                some (Function.update heap p { heap p with next := (heap kt).next })
              else unlinkWalk heap kt fuel (some q)

/-- The removal of `kt` from the active list. -/
def unlink (kt : Addr) : Option Process :=
  if proc.activeTimerSigevThread = some kt then
    some { proc with activeTimerSigevThread := (proc.heap kt).next }
  else
    (unlinkWalk proc.heap kt TIMER_MAX proc.activeTimerSigevThread).map fun heap =>
      { proc with heap := heap }

/-- `timer_delete` after a successful `ktimer_delete` on the timer `kt`. -/
def deleteTimer (kt : Addr) : Option Process :=
  let proc := { proc with
    ktimers := proc.ktimers.filter fun t => t.1 ≠ (proc.heap kt).ktimerid }
  let unlinked := if (proc.heap kt).sigevNotify = SIGEV_THREAD then proc.unlink kt else some proc
  unlinked.map fun proc => { proc with noPosixTimers := 1 }.timerFree kt

/-- `timer_delete`, with the outcome of `ktimer_delete`. `none` when the removal from the list
does not end. -/
def timerDelete (res : Except Errno Unit) (id : TimerT) : Option (CallResult × Process) :=
  if 0 ≤ proc.noPosixTimers then
    match kfreebsdTimerId2ptr proc.allTimers id with
    | none => some (.error EINVAL, proc)
    | some kt =>
        match res with
        | .ok () => (proc.deleteTimer kt).map fun proc => (.ok 0, proc)
        | .error e =>
            if e = ENOSYS then some (.compat, { proc with noPosixTimers := -1 })
            else some (.error e, { proc with noPosixTimers := 1 })
  else some (.compat, proc)

/-- `ktimer_delete` acts on the kernel timer of `id`, so it succeeds only if there is one. -/
def DeletePossible (res : Except Errno Unit) (id : TimerT) : Prop :=
  res = .ok () → ∀ kt ∈ kfreebsdTimerId2ptr proc.allTimers id,
    (proc.heap kt).ktimerid ∈ proc.ktimers.map Prod.fst

instance (res : Except Errno Unit) (id : TimerT) : Decidable (proc.DeletePossible res id) :=
  match res with
  | .ok () => decidable_of_iff (∀ kt ∈ kfreebsdTimerId2ptr proc.allTimers id,
      (proc.heap kt).ktimerid ∈ proc.ktimers.map Prod.fst) ⟨fun h _ => h, fun h => h rfl⟩
  | .error _ => .isTrue nofun

/-- The common body of the calls that only look a timer up: the system call that is made and
the kernel timer that it acts on, and what is returned for the outcome `res`. -/
def ktimerCall (call : Ktimer) (res : Except Errno Int) (id : TimerT) :
    Option (Ktimer × KernelTimerT) × CallResult × Process :=
  if 0 ≤ proc.noPosixTimers then
    match kfreebsdTimerId2ptr proc.allTimers id with
    | none => (none, .error EINVAL, proc)
    | some kt =>
        let syscall := some (call, (proc.heap kt).ktimerid)
        match res with
        | .ok r => (syscall, .ok r, { proc with noPosixTimers := 1 })
        | .error e =>
            if e = ENOSYS then (syscall, .compat, { proc with noPosixTimers := -1 })
            else (syscall, .error e, { proc with noPosixTimers := 1 })
  else (none, .compat, proc)

/-- `timer_settime`. -/
def timerSettime := proc.ktimerCall .settime

/-- `timer_gettime`. -/
def timerGettime := proc.ktimerCall .gettime

/-- `timer_getoverrun`. -/
def timerGetoverrun := proc.ktimerCall .getoverrun

end Process

/-- A process before its first timer call, with zeroed memory. -/
def freshProcess : Process where
  noPosixTimers := 0
  allTimers := fun _ => none
  heap := fun _ => ⟨0, 0, 0, 0, {}, none⟩
  allocated := fun _ => false
  activeTimerSigevThread := none
  helperOnce := false
  helperTid := 0
  atfork := false
  ktimers := []
  helper := none

end GlibcPorts.Timer
