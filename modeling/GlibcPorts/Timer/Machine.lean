import GlibcPorts.Lib.Transition
import GlibcPorts.Timer.KernelPosixTimers

/-!
# `GlibcPorts.Timer.Machine`: timer calls of many threads, step by step

The threads of one process run `timer_create`, `timer_delete` and the calls that look a
timer up by its id, on a kernel that has the `ktimer` calls. The helper thread of
`timer_routines.c` takes `SIGTIMER` signals and starts the notification threads. Every
access to the state that threads share is a step of its own, and `step` takes one such step
of one actor, so a run is any interleaving.

`Pc` are the places in the code, each before one shared access. Stores to a `struct timer`
that only its creator can reach are one step. The steps of the functions are

* `__kfreebsd_timer_alloc`: `Pc.malloc` and `Pc.scan`, one compare-and-exchange a step;
* `__kfreebsd_timer_ptr2id`: `Pc.ptr2id`, one load a step;
* `__kfreebsd_timer_free`: `Pc.ptr2id`, then the store of `NULL` and the call of `free`;
* `timer_create`: from `Pc.createStart` to `Pc.ptr2idDone`;
* `timer_delete`: from `Pc.deleteLookup` to `Pc.free`;
* `timer_settime` and its siblings: `Pc.lookup` and `Pc.lookupDone`;
* `timer_helper_thread`: from `Pc.sigtimedwait` to `Pc.helperUnlock`.

A label carries what the step does not decide: the address `malloc` returns, the outcome of
a system call, the signal that arrives. `malloc` returns any address that is not allocated,
with any bytes in it.

The state has auxiliary parts that no step of the code reads. `owner` says who may use an
allocated struct, which is how the rules of use are stated: a program deletes an id only
after the `timer_create` that returned it has returned, and not again unless the delete
failed. `timerAt`
names the timer that lives at an address, since an address may be used again. `history`
records the ends of the critical sections of the active list, and `started` the notification
threads.
-/

set_option autoImplicit false

namespace GlibcPorts.Timer

open GlibcPorts.Lib (System)

/-- The threads of the program, and the helper thread. -/
inductive Actor where
  | thread (t : Nat)
  | helper
deriving DecidableEq, Repr

/-- A timer: the call of `timer_create` that made it, with the function and the value that
this call was given. -/
structure TimerInst where
  serial : Nat
  thrfunc : ThrFunc
  sival : Sigval
deriving DecidableEq, Repr

/-- The timer that a call makes. -/
def CreateArgs.inst (c : CreateArgs) (serial : Nat) : TimerInst where
  serial := serial
  thrfunc := (c.evp.map Sigevent.sigevNotifyFunction).getD 0
  sival := (c.evp.map Sigevent.sigevValue).getD 0

/-- Who may use the memory at an address. -/
inductive Owner where
  /-- Not allocated. -/
  | free
  /-- Used by one call that creates or deletes the timer. -/
  | held (act : Actor)
  /-- A timer that `timer_create` has returned as `id`, and that was not yet deleted. -/
  | live (id : TimerT)
  /-- Allocated, but no call will use it again: the block of a full table. -/
  | leaked
deriving DecidableEq, Repr

/-- A timer of the kernel: the event it was registered with, and whether it was registered for
the helper thread, with the timer it stands for. -/
structure KTimer where
  event : Sigevent
  toHelper : Bool
  inst : TimerInst
deriving DecidableEq, Repr

/-- A notification: one expiration of a kernel timer, with the address it carries. `seq`
tells the expirations apart and `inst` is the timer that generated it. -/
structure Note where
  seq : Nat
  ptr : Addr
  inst : TimerInst
deriving DecidableEq, Repr

/-- A queued `SIGTIMER` signal: a timer's notification, or a signal that was sent with some
other `si_code`. -/
inductive Signal where
  | timer (ktimerid : KernelTimerT) (note : Note)
  | other (siCode : Int)
deriving DecidableEq, Repr

/-- A thread started by the helper for a notification. -/
structure Started where
  note : Note
  thrfunc : ThrFunc
  sival : Sigval
deriving DecidableEq, Repr

/-- The end of a critical section that changes the active list. -/
inductive ListOp where
  | push (a : Addr)
  | unlink (a : Addr)
deriving DecidableEq, Repr

/-- The active list after the operations, which are given newest first. -/
def activeList : List ListOp → List Addr
  | [] => []
  | .push a :: ops => a :: activeList ops
  | .unlink a :: ops => (activeList ops).erase a

/-- What `__kfreebsd_timer_ptr2id` is called for: the id that `timer_create` returns, or the
slot that `__kfreebsd_timer_free` clears. -/
inductive IdUse where
  | create
  | free
deriving DecidableEq, Repr

/-- Where an actor is: before the shared access that the name says. -/
inductive Pc where
  | idle
  /-- `timer_create`: the test of `__no_posix_timers`. -/
  | createStart (c : CreateArgs)
  /-- The probe with `clock_getres`. -/
  | createProbe (c : CreateArgs)
  /-- `pthread_once` and the test of `__helper_tid`. -/
  | createHelper (c : CreateArgs)
  /-- `malloc (sizeof (struct timer))`. -/
  | malloc (c : CreateArgs)
  /-- The compare-and-exchange on slot `i`. -/
  | scan (c : CreateArgs) (timer : Option Addr) (i : Nat)
  /-- The stores of the thread parameters. -/
  | fill (c : CreateArgs) (newp : Addr)
  /-- The `ktimer_create` system call. -/
  | ktimerCreate (c : CreateArgs) (newp : Addr)
  /-- The stores of `sigev_notify` and `ktimerid`. -/
  | created (c : CreateArgs) (newp : Addr) (ktimerid : KernelTimerT)
  /-- The push on the active list: lock, link, set the head, unlock. -/
  | pushLock (newp : Addr)
  | pushNext (newp : Addr)
  | pushHead (newp : Addr)
  | pushUnlock (newp : Addr)
  /-- The load of slot `i`. -/
  | ptr2id (use : IdUse) (ptr : Addr) (i : Nat)
  /-- The use of the id found: `*timerid = id`, or `__all_timers[id] = NULL`. -/
  | ptr2idDone (use : IdUse) (ptr : Addr) (id : TimerT)
  /-- `free (ptr)`. -/
  | free (ptr : Addr)
  /-- `timer_delete`: the load in `__kfreebsd_timer_id2ptr`. `a` is the timer it is about. -/
  | deleteLookup (id : TimerT) (a : Addr)
  /-- The `ktimer_delete` system call. -/
  | ktimerDelete (id : TimerT) (kt : Addr)
  /-- The test of `kt->sigev_notify`. -/
  | deleted (kt : Addr)
  /-- The removal from the active list: lock, test the head, walk, unlock. -/
  | unlinkLock (kt : Addr)
  | unlinkHead (kt : Addr)
  | unlinkWalk (kt : Addr) (prevp : Option Addr)
  | unlinkUnlock (kt : Addr)
  /-- The store to `__no_posix_timers` before the memory is freed. -/
  | unlinked (kt : Addr)
  /-- `timer_settime`, `timer_gettime`, `timer_getoverrun`: the load in
  `__kfreebsd_timer_id2ptr`, and the system call on the timer found. -/
  | lookup (id : TimerT)
  | lookupDone (kt : Addr)
  /-- `timer_helper_thread`: `sigtimedwait`. -/
  | sigtimedwait
  /-- `pthread_mutex_lock`, with the notification taken from the queue. -/
  | helperLock (note : Note)
  /-- The search for the address, at `runp`. -/
  | helperSearch (note : Note) (runp : Option Addr)
  /-- The `malloc` of the thread's start data and the loads of `tk`'s fields. -/
  | helperFound (note : Note)
  /-- `pthread_create` with the start data. -/
  | helperStart (note : Note) (thrfunc : ThrFunc) (sival : Sigval)
  | helperUnlock
  /-- After `pthread_exit`. -/
  | helperExited
deriving DecidableEq, Repr

/-- A wrong store or load, which the code does not guard against. -/
inductive Fault where
  /-- A store to `__all_timers[-1]`. -/
  | indexMinusOne
  /-- A load through the `NULL` pointer `prevp`. -/
  | nullPrevp
deriving DecidableEq, Repr

/-- The shared state, the places of the actors, and the auxiliary parts. -/
structure State where
  noPosixTimers : Int
  allTimers : AllTimers
  heap : Addr → StructTimer
  activeTimerSigevThread : Option Addr
  lock : Option Actor
  helperTid : Lwpid
  ktimers : KernelTimerT → Option KTimer
  queue : List Signal
  pc : Actor → Pc
  fault : Option Fault
  owner : Addr → Owner
  timerAt : Addr → TimerInst
  serial : Nat
  seq : Nat
  history : List ListOp
  started : List Started

namespace State

/-- The actor goes to the place `p`. -/
def goto (s : State) (act : Actor) (p : Pc) : State := { s with pc := Function.update s.pc act p }

/-- The memory at `a` passes to `o`. -/
def setOwner (s : State) (a : Addr) (o : Owner) : State :=
  { s with owner := Function.update s.owner a o }

/-- A store to slot `i` of `__all_timers`. -/
def setSlot (s : State) (i : Nat) (p : Option Addr) : State :=
  { s with allTimers := Function.update s.allTimers i p }

/-- A store to the struct at `a`. -/
def store (s : State) (a : Addr) (timer : StructTimer) : State :=
  { s with heap := Function.update s.heap a timer }

/-- `a->next = p`. -/
def storeNext (s : State) (a : Addr) (p : Option Addr) : State :=
  s.store a { s.heap a with next := p }

/-- `__kfreebsd_timer_id2ptr`. -/
def id2ptr (s : State) (id : TimerT) : Option Addr := kfreebsdTimerId2ptr s.allTimers id

end State

/-- What a step does not decide by itself. -/
inductive Label where
  /-- A thread calls `timer_create`. -/
  | callCreate (t : Nat) (c : CreateArgs)
  /-- A thread calls `timer_delete` with the id of the live timer at `a`. -/
  | callDelete (t : Nat) (a : Addr)
  /-- A thread calls `timer_settime`, `timer_gettime` or `timer_getoverrun`. -/
  | callLookup (t : Nat) (id : TimerT)
  /-- `pthread_once` returns; `ok` when there is a helper thread. -/
  | helper (act : Actor) (ok : Bool)
  /-- `malloc` returns, with arbitrary bytes in the block. -/
  | malloc (act : Actor) (block : Option (Addr × StructTimer))
  /-- `ktimer_create` returns an id or an error. -/
  | ktimerCreate (act : Actor) (res : Except Errno KernelTimerT)
  /-- `ktimer_delete` returns zero or an error. -/
  | ktimerDelete (act : Actor) (res : Except Errno Unit)
  /-- `sigtimedwait` returns the signal at position `n` of the queue. -/
  | dequeue (act : Actor) (n : Nat)
  /-- The helper's `malloc` or `pthread_create` succeeds or fails. -/
  | start (act : Actor) (ok : Bool)
  /-- Any other step of an actor. -/
  | go (act : Actor)
  /-- The kernel timer `k` expires. -/
  | expire (k : KernelTimerT)
  /-- Somebody sends `SIGTIMER` to the helper. -/
  | send (siCode : Int)

/-- The event that `timer_create` passes to `ktimer_create`. -/
def createEvent (c : CreateArgs) (newp : Addr) (helperTid : Lwpid) : Sigevent :=
  if wantsThread c.evp then threadSigevent newp helperTid
  else c.evp.getD (defaultSigevent newp)

/-- The kernel timer that a successful `ktimer_create` registers. -/
def State.newKTimer (s : State) (c : CreateArgs) (newp : Addr) : KTimer where
  event := createEvent c newp s.helperTid
  toHelper := wantsThread c.evp
  inst := s.timerAt newp

/-- `__kfreebsd_timer_alloc` has returned `timer` to `timer_create`. -/
def allocReturn (c : CreateArgs) : Option Addr → Pc
  | none => .idle
  | some newp => if wantsThread c.evp then .fill c newp else .ktimerCreate c newp

/-- The steps that nothing but the state decides. `none` where the code blocks, or leaves the
modelled calls for the compatibility code. -/
def go (act : Actor) (s : State) : Pc → Option State
  | .createStart c =>
      -- A negative value sends the call to `compat_timer_create`.
      if 0 ≤ s.noPosixTimers then
        some (s.goto act (if wantsThread c.evp then .createProbe c else .malloc c))
      else none
  | .createProbe c =>
      -- `clock_getres` works on a kernel that has the `ktimer` calls.
      if s.noPosixTimers = 0 then some ({ s with noPosixTimers := 1 }.goto act (.createHelper c))
      else if 0 < s.noPosixTimers then some (s.goto act (.createHelper c))
      else none
  | .scan c timer i =>
      if i < TIMER_MAX then
        -- The block may be `NULL`: then the exchange finds an empty slot and leaves it empty.
        if s.allTimers i = none then some ((s.setSlot i timer).goto act (allocReturn c timer))
        else some (s.goto act (.scan c timer (i + 1)))
      else
        -- A full table: `__kfreebsd_timer_alloc` returns `NULL` without freeing the block.
        match timer with
        | none => some (s.goto act .idle)
        | some a => some ((s.setOwner a .leaked).goto act .idle)
  | .fill c newp =>
      some ((s.store newp (match c.evp with
        | none => s.heap newp
        | some ev => (s.heap newp).withThreadParams ev)).goto act (.ktimerCreate c newp))
  | .created c newp ktimerid =>
      some (({ s with noPosixTimers := 1 }.store newp
        { s.heap newp with
          sigevNotify := (c.evp.getD (defaultSigevent newp)).sigevNotify
          ktimerid := ktimerid }).goto act (.ptr2id .create newp 0))
  | .pushLock newp =>
      if s.lock = none then some ({ s with lock := some act }.goto act (.pushNext newp)) else none
  | .pushNext newp =>
      some ((s.storeNext newp s.activeTimerSigevThread).goto act (.pushHead newp))
  | .pushHead newp =>
      some ({ s with activeTimerSigevThread := some newp }.goto act (.pushUnlock newp))
  | .pushUnlock newp =>
      -- `*timerid` is stored after the push, so the id is looked up only here.
      some ({ s with lock := none, history := .push newp :: s.history }.goto act
        (.ptr2id .create newp 0))
  | .ptr2id use ptr i =>
      if i < TIMER_MAX then
        if s.allTimers i = some ptr then some (s.goto act (.ptr2idDone use ptr i))
        else some (s.goto act (.ptr2id use ptr (i + 1)))
      -- The loop ended without a match.
      else some (s.goto act (.ptr2idDone use ptr (-1)))
  | .ptr2idDone .create ptr id => some ((s.setOwner ptr (.live id)).goto act .idle)
  | .ptr2idDone .free ptr id =>
      if 0 ≤ id then some ((s.setSlot id.toNat none).goto act (.free ptr))
      else some ({ s with fault := some .indexMinusOne }.goto act (.free ptr))
  | .free ptr => some ((s.setOwner ptr .free).goto act .idle)
  | .deleteLookup id a =>
      match s.id2ptr id with
      -- `EINVAL`: the delete failed, and the program may try again.
      | none => some ((s.setOwner a (.live id)).goto act .idle)
      | some kt => some (s.goto act (.ktimerDelete id kt))
  | .deleted kt =>
      some (s.goto act
        (if (s.heap kt).sigevNotify = SIGEV_THREAD then .unlinkLock kt else .unlinked kt))
  | .unlinkLock kt =>
      if s.lock = none then some ({ s with lock := some act }.goto act (.unlinkHead kt)) else none
  | .unlinkHead kt =>
      if s.activeTimerSigevThread = some kt then
        some ({ s with activeTimerSigevThread := (s.heap kt).next }.goto act (.unlinkUnlock kt))
      else some (s.goto act (.unlinkWalk kt s.activeTimerSigevThread))
  | .unlinkWalk kt prevp =>
      match prevp with
      -- The loop loads `prevp->next` without a test of `prevp`.
      | none => some ({ s with fault := some .nullPrevp }.goto act (.unlinkUnlock kt))
      | some p =>
          match (s.heap p).next with
          -- The end of the list: `kt` is not in it, and nothing is unlinked.
          | none => some (s.goto act (.unlinkUnlock kt))
          | some q =>
              if q = kt then
                some ((s.storeNext p (s.heap kt).next).goto act (.unlinkUnlock kt))
              else some (s.goto act (.unlinkWalk kt (some q)))
  | .unlinkUnlock kt =>
      some ({ s with lock := none, history := .unlink kt :: s.history }.goto act (.unlinked kt))
  | .unlinked kt => some ({ s with noPosixTimers := 1 }.goto act (.ptr2id .free kt 0))
  | .lookup id =>
      match s.id2ptr id with
      | none => some (s.goto act .idle)
      | some kt => some (s.goto act (.lookupDone kt))
  | .lookupDone _ => some ({ s with noPosixTimers := 1 }.goto act .idle)
  | .helperLock note =>
      if s.lock = none then
        some ({ s with lock := some act }.goto act (.helperSearch note s.activeTimerSigevThread))
      else none
  | .helperSearch note runp =>
      match runp with
      | none => some (s.goto act .helperUnlock)
      | some r =>
          -- Only the addresses are compared.
          if r = note.ptr then some (s.goto act (.helperFound note))
          else some (s.goto act (.helperSearch note (s.heap r).next))
  | .helperUnlock => some ({ s with lock := none }.goto act .sigtimedwait)
  | .idle | .createHelper _ | .malloc _ | .ktimerCreate _ _ | .ktimerDelete _ _ | .sigtimedwait
  | .helperFound _ | .helperStart _ _ _ | .helperExited => none

/-- One step of one actor, or of the kernel. `none` where the label is not possible. -/
def step : Label → State → Option State
  | .callCreate t c, s =>
      if s.pc (.thread t) = .idle then some (s.goto (.thread t) (.createStart c)) else none
  | .callDelete t a, s =>
      match s.pc (.thread t), s.owner a with
      | .idle, .live id =>
          some ((s.setOwner a (.held (.thread t))).goto (.thread t) (.deleteLookup id a))
      | _, _ => none
  | .callLookup t id, s =>
      if s.pc (.thread t) = .idle then some (s.goto (.thread t) (.lookup id)) else none
  | .helper act ok, s =>
      match s.pc act with
      | .createHelper c => some (s.goto act (if ok then .malloc c else .idle))
      | _ => none
  | .malloc act block, s =>
      match s.pc act with
      | .malloc c =>
          match block with
          | none => some (s.goto act (.scan c none 0))
          | some (a, bytes) =>
              if s.owner a = .free then
                some ((({ s with
                  timerAt := Function.update s.timerAt a (c.inst s.serial)
                  serial := s.serial + 1 }.store a bytes).setOwner a (.held act)).goto act
                    (.scan c (some a) 0))
              else none
      | _ => none
  | .ktimerCreate act res, s =>
      match s.pc act with
      | .ktimerCreate c newp =>
          match res with
          | .ok k =>
              if s.ktimers k = none then
                let s := { s with ktimers := Function.update s.ktimers k (s.newKTimer c newp) }
                -- The kernel stores the id in `newp->ktimerid`, or in the local `ktimerid`.
                if wantsThread c.evp then
                  some ((s.store newp { s.heap newp with ktimerid := k }).goto act (.pushLock newp))
                else some (s.goto act (.created c newp k))
              else none
          | .error e =>
              -- `ENOSYS` does not come from a kernel that has the calls. Only the branch without
              -- a thread notes in `__no_posix_timers` that they exist.
              if e = ENOSYS then none
              else if wantsThread c.evp then some (s.goto act (.ptr2id .free newp 0))
              else some ({ s with noPosixTimers := 1 }.goto act (.ptr2id .free newp 0))
      | _ => none
  | .ktimerDelete act res, s =>
      match s.pc act with
      | .ktimerDelete id kt =>
          let k := (s.heap kt).ktimerid
          match res with
          | .ok () =>
              if s.ktimers k = none then none
              else
                -- Signals of the timer that were not yet dequeued are discarded.
                some ({ s with
                  ktimers := Function.update s.ktimers k none
                  queue := s.queue.filter fun sig =>
                    match sig with
                    | .timer k' _ => k' ≠ k
                    | .other _ => true }.goto act (.deleted kt))
          | .error e =>
              if e = ENOSYS then none
              else some (({ s with noPosixTimers := 1 }.setOwner kt (.live id)).goto act .idle)
      | _ => none
  | .dequeue act n, s =>
      match s.pc act with
      | .sigtimedwait =>
          match s.queue[n]? with
          | none => none
          | some (.timer _ note) =>
              some ({ s with queue := s.queue.eraseIdx n }.goto act (.helperLock note))
          -- `SI_LWP` and `SI_USER` end the thread; any other signal is ignored.
          | some (.other siCode) =>
              some ({ s with queue := s.queue.eraseIdx n }.goto act
                (if siCode = SI_LWP ∨ siCode = SI_USER then .helperExited else .sigtimedwait))
      | _ => none
  | .start act ok, s =>
      match s.pc act with
      | .helperFound note =>
          -- The fields are loaded under the lock, before `pthread_create`.
          some (s.goto act
            (if ok then .helperStart note (s.heap note.ptr).thrfunc (s.heap note.ptr).sival
            else .helperUnlock))
      | .helperStart note thrfunc sival =>
          some ((if ok then { s with started := ⟨note, thrfunc, sival⟩ :: s.started } else s).goto
            act .helperUnlock)
      | _ => none
  | .go act, s => go act s (s.pc act)
  | .expire k, s =>
      match s.ktimers k with
      | none => none
      | some kt =>
          -- The other timers send signals that the helper does not see.
          if kt.toHelper then
            some { s with
              queue := s.queue ++ [.timer k ⟨s.seq, kt.event.sigevValue, kt.inst⟩]
              seq := s.seq + 1 }
          else none
  | .send siCode, s =>
      if siCode = SI_TIMER then none else some { s with queue := s.queue ++ [.other siCode] }

/-- The process before its first timer call: no timer, no signal, an arbitrary heap. -/
structure Initial (s : State) : Prop where
  noPosixTimers : s.noPosixTimers = 0
  allTimers : ∀ i, s.allTimers i = none
  activeTimerSigevThread : s.activeTimerSigevThread = none
  lock : s.lock = none
  ktimers : ∀ k, s.ktimers k = none
  queue : s.queue = []
  thread : ∀ t, s.pc (.thread t) = .idle
  helper : s.pc .helper = .sigtimedwait
  fault : s.fault = none
  owner : ∀ a, s.owner a = .free
  history : s.history = []
  started : s.started = []

/-- The timer calls of all threads, with the helper thread and the kernel. -/
def machine : System State Label where
  init := Initial
  step := step

end GlibcPorts.Timer
