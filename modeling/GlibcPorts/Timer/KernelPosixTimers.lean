import GlibcPorts.Errno

/-!
# `GlibcPorts.Timer.KernelPosixTimers`: the data of the POSIX timer code

The types, constants and table lookups of `kfreebsd/nptl/kernel-posix-timers.h`, and what it
uses of the headers it rests on. The `linuxthreads` copies of the timer code declare the same
ones.

A pointer is an `Option Addr`, with `none` for `NULL`, and memory is a function of the
address. `timer_t` and `kernel_timer_t` are `int`s. The members of the union in `struct
sigevent` are separate fields: no code reads one of them after it stored another.
-/

set_option autoImplicit false

namespace GlibcPorts.Timer

/-- The address of a `struct timer`. -/
abbrev Addr := Nat

/-- `sigval_t`, as the word that holds it. -/
abbrev Sigval := Nat

/-- A `void (*) (sigval_t)`. -/
abbrev ThrFunc := Nat

/-- `timer_t`: the index of the timer in the table. -/
abbrev TimerT := Int

/-- The id that the kernel gave the timer. -/
abbrev KernelTimerT := Int

/-- The id of a thread. -/
abbrev Lwpid := Int

/-- The size of the table. -/
def TIMER_MAX : Nat := 256

/-- `__all_timers`. Only the first `TIMER_MAX` slots exist. -/
abbrev AllTimers := Nat → Option Addr

/-- `__kfreebsd_timer_id2ptr`. -/
def kfreebsdTimerId2ptr (allTimers : AllTimers) (id : TimerT) : Option Addr :=
  if 0 ≤ id ∧ id < TIMER_MAX then allTimers id.toNat else none

/-- `__kfreebsd_timer_ptr2id`. -/
def kfreebsdTimerPtr2id (allTimers : AllTimers) (ptr : Addr) : TimerT :=
  match (List.range TIMER_MAX).find? fun i => allTimers i = some ptr with
  | some i => i
  | none => -1

/-- The slot that the loop of `__kfreebsd_timer_alloc` finds. -/
def freeSlot (allTimers : AllTimers) : Option Nat :=
  (List.range TIMER_MAX).find? fun i => allTimers i = none

/-- Notification by a signal. -/
def SIGEV_SIGNAL : Int := 1

/-- Notification by a call in a new thread. -/
def SIGEV_THREAD : Int := 2

/-- Notification by a signal to one thread. -/
def SIGEV_THREAD_ID : Int := 4

/-- The signal of a timer without a `struct sigevent`. -/
def SIGALRM : Int := 14
/-- `SIGCANCEL`, that is `PTHREAD_SIGBASE + 1`. -/
def SIGTIMER : Int := 33

/-- The signal was sent by a process. -/
def SI_USER : Int := 0x10001

/-- The signal is that of a timer. -/
def SI_TIMER : Int := 0x10003

/-- The signal was sent by a thread. -/
def SI_LWP : Int := 0x10007

/-- The attributes `timer_create` copies into a `pthread_attr_t`, and the detach state it
sets. -/
structure PthreadAttr where
  schedparam : Int := 0
  schedpolicy : Int := 0
  flags : Int := 0
  guardsize : Nat := 0
  stackaddr : Nat := 0
  stacksize : Nat := 0
  detached : Bool := false
deriving DecidableEq, Repr

/-- `struct sigevent`. -/
structure Sigevent where
  sigevNotify : Int
  sigevSigno : Int := 0
  sigevValue : Sigval := 0
  sigevNotifyThreadId : Lwpid := 0
  sigevNotifyFunction : ThrFunc := 0
  sigevNotifyAttributes : Option PthreadAttr := none
deriving DecidableEq, Repr

/-- `struct timer`. -/
structure StructTimer where
  sigevNotify : Int
  ktimerid : KernelTimerT
  thrfunc : ThrFunc
  sival : Sigval
  attr : PthreadAttr
  next : Option Addr
deriving DecidableEq, Repr

/-- The arguments of a call of `timer_create`, with `*evp` for `evp`. -/
structure CreateArgs where
  clockId : Int
  evp : Option Sigevent
deriving DecidableEq, Repr

/-- The test `evp == NULL || evp->sigev_notify != SIGEV_THREAD` is false: the program asks for
notification by a thread. -/
def wantsThread (evp : Option Sigevent) : Bool :=
  match evp with
  | none => false
  | some ev => ev.sigevNotify = SIGEV_THREAD

/-- The event of a `NULL` `evp`: the timer's own address as the value of a `SIGALRM`. -/
def defaultSigevent (newp : Addr) : Sigevent where
  sigevNotify := SIGEV_SIGNAL
  sigevSigno := SIGALRM
  sigevValue := newp

/-- The event registered for a `SIGEV_THREAD` timer: `SIGTIMER` to the helper thread, with the
timer's address as its value. -/
def threadSigevent (newp : Addr) (helperTid : Lwpid) : Sigevent where
  sigevNotify := SIGEV_THREAD_ID
  sigevSigno := SIGTIMER
  sigevValue := newp
  sigevNotifyThreadId := helperTid

/-- The attributes of the threads that a `SIGEV_THREAD` timer starts: the defaults of
`pthread_attr_init`, overwritten by the caller's where it gave some, and in any case
detached. -/
def threadAttr (oattr : Option PthreadAttr) : PthreadAttr :=
  { oattr.getD {} with detached := true }

/-- The parameters of the thread that the program provided, stored in the new timer. -/
def StructTimer.withThreadParams (timer : StructTimer) (ev : Sigevent) : StructTimer :=
  { timer with
    sival := ev.sigevValue
    thrfunc := ev.sigevNotifyFunction
    sigevNotify := SIGEV_THREAD
    attr := threadAttr ev.sigevNotifyAttributes }

end GlibcPorts.Timer
