import GlibcPorts.Lib.Simulation
import GlibcPorts.Timer.Calls

/-!
# `GlibcPorts.Timer.Service`: what the timer calls are for

A program that uses timers sees ids, and behind each id a timer of the kernel. `Service` is this
view: the kernel timer of each id in use, and the timers that the kernel has. `Service.Step` says
what the calls do to it. A new timer gets the least id that is not in use, and the kernel has one
timer more. A call on an id reaches the kernel timer of this id and no other: `timer_delete` leaves
the kernel without it. An id that is not in use is refused, and no call reaches the kernel. The
structs, their memory, the table and the active list do not occur.

`timerCalls` is the process as a machine that answers these calls, and `Process.service` the view
that a process gives.
-/

set_option autoImplicit false

namespace GlibcPorts.Timer

open GlibcPorts.Lib (Machine Spec)

/-- The calls of a process, each with the outcomes that it meets. -/
inductive TimerCall where
  | create (env : CreateEnv) (c : CreateArgs)
  | delete (res : Except Errno Unit) (id : TimerT)
  | ktimerCall (call : Ktimer) (res : Except Errno Int) (id : TimerT)

/-- What a call returns. Of a call that only looks a timer up, also the system call it made. -/
inductive TimerAnswer where
  | created (res : CreateResult)
  | deleted (res : CallResult)
  | called (syscall : Option (Ktimer × KernelTimerT)) (res : CallResult)

/-- The kernel has timers: no outcome says that it does not. -/
def TimerCall.Supported : TimerCall → Prop
  | .create env _ => env.clockGetres = true ∧ env.ktimerCreate ≠ .error ENOSYS
  | .delete res _ => res ≠ .error ENOSYS
  | .ktimerCall _ res _ => res ≠ .error ENOSYS

/-- The outcomes of the call are possible in the process. -/
def TimerCall.Possible (proc : Process) : TimerCall → Prop
  | .create env _ => env.Possible proc
  | .delete res id => proc.DeletePossible res id
  | .ktimerCall _ _ _ => True

/-- The process as a machine. A call is not possible when its outcomes are not, or when it does
not return. -/
def timerCalls : Machine Process TimerCall TimerAnswer where
  step
    | .create env c, proc =>
        if env.Possible proc then
          some (.created (proc.timerCreate env c).1, (proc.timerCreate env c).2)
        else none
    | .delete res id, proc =>
        if proc.DeletePossible res id then
          (proc.timerDelete res id).map fun (r, proc') => (.deleted r, proc')
        else none
    | .ktimerCall call res id, proc =>
        let (syscall, r, proc') := proc.ktimerCall call res id
        some (.called syscall r, proc')

/-- The kernel timers of the ids in use, and the timers that the kernel has. -/
@[ext] structure Service where
  timer : TimerT → Option KernelTimerT
  kernel : KernelTimerT → Prop

namespace Service

/-- No id is in use, and the kernel has no timer. -/
def empty : Service := ⟨fun _ => none, fun _ => False⟩

/-- The id `id` for the new kernel timer `k`. -/
def add (service : Service) (id : TimerT) (k : KernelTimerT) : Service :=
  ⟨Function.update service.timer id (some k), fun j => j = k ∨ service.kernel j⟩

/-- Without the id `id`, and without the kernel timer `k`. -/
def remove (service : Service) (id : TimerT) (k : KernelTimerT) : Service :=
  ⟨Function.update service.timer id none, fun j => service.kernel j ∧ j ≠ k⟩

/-- The least id that is not in use. -/
structure IsLeastFree (service : Service) (id : TimerT) : Prop where
  nonneg : 0 ≤ id
  lt : id < TIMER_MAX
  free : service.timer id = none
  used : ∀ j, 0 ≤ j → j < id → service.timer j ≠ none

/-- All ids are in use. -/
def Full (service : Service) : Prop :=
  ∀ j, 0 ≤ j → j < (TIMER_MAX : Int) → service.timer j ≠ none

/-- Why no timer was created. -/
inductive Refused (service : Service) (env : CreateEnv) (c : CreateArgs) : Errno → Prop
  /-- There is no helper thread. -/
  | helper : wantsThread c.evp = true → Refused service env c EAGAIN
  | full : service.Full → Refused service env c EAGAIN
  | memory : env.malloc = none → Refused service env c ENOMEM
  | kernel {e : Errno} : env.ktimerCreate = .error e → Refused service env c e

/-- What a call does to the ids and to the kernel, and what it returns. -/
inductive Step : Spec Service TimerCall TimerAnswer
  | created {service : Service} {env : CreateEnv} {c : CreateArgs} {id : TimerT}
      {k : KernelTimerT} (hid : service.IsLeastFree id) (hk : env.ktimerCreate = .ok k)
      (hnew : ¬ service.kernel k) :
      Step service (.create env c) (.created (.ok id)) (service.add id k)
  | refused {service : Service} {env : CreateEnv} {c : CreateArgs} {e : Errno}
      (he : service.Refused env c e) : Step service (.create env c) (.created (.error e)) service
  | deleted {service : Service} {id : TimerT} {k : KernelTimerT} (hid : service.timer id = some k)
      (hk : service.kernel k) :
      Step service (.delete (.ok ()) id) (.deleted (.ok 0)) (service.remove id k)
  | kept {service : Service} {id : TimerT} {e : Errno} (hid : service.timer id ≠ none) :
      Step service (.delete (.error e) id) (.deleted (.error e)) service
  | unknown {service : Service} {res : Except Errno Unit} {id : TimerT}
      (hid : service.timer id = none) :
      Step service (.delete res id) (.deleted (.error EINVAL)) service
  | called {service : Service} {call : Ktimer} {r : Int} {id : TimerT} {k : KernelTimerT}
      (hid : service.timer id = some k) (hk : service.kernel k) :
      Step service (.ktimerCall call (.ok r) id) (.called (some (call, k)) (.ok r)) service
  | failed {service : Service} {call : Ktimer} {e : Errno} {id : TimerT} {k : KernelTimerT}
      (hid : service.timer id = some k) (hk : service.kernel k) :
      Step service (.ktimerCall call (.error e) id) (.called (some (call, k)) (.error e)) service
  | invalid {service : Service} {call : Ktimer} {res : Except Errno Int} {id : TimerT}
      (hid : service.timer id = none) :
      Step service (.ktimerCall call res id) (.called none (.error EINVAL)) service

end Service

/-- The ids in use in a process, with their kernel timers. -/
def Process.owners (proc : Process) (id : TimerT) : Option KernelTimerT :=
  (kfreebsdTimerId2ptr proc.allTimers id).map fun kt => (proc.heap kt).ktimerid

/-- The service that a process gives. -/
def Process.service (proc : Process) : Service where
  timer := proc.owners
  kernel k := k ∈ proc.ktimers.map Prod.fst

theorem Process.service_timer (proc : Process) (id : TimerT) :
    proc.service.timer id = proc.owners id :=
  rfl

end GlibcPorts.Timer
