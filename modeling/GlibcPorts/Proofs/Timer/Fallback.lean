import GlibcPorts.Proofs.Timer.Calls

/-!
# `GlibcPorts.Proofs.Timer.Fallback`: `timer_create` without `ktimer_create`

A kernel that answers every `ktimer_create` with `ENOSYS` leaves the timers to the
compatibility code of glibc. That code is a parameter here (`Compat`), on an arbitrary type of
program states.

`fallback_iff`: a sequence of calls has exactly the effect of the compatibility code on the
arguments of the callers if and only if the first call has an event that does not ask for a
thread, and its `malloc` succeeds. From then on `__no_posix_timers` is -1. The other first
calls go wrong in different ways:

* a `NULL` event was overwritten by the local event when the call falls back;
* a `SIGEV_THREAD` timer is probed for with `clock_getres`, which works, so the call fails
  with the `ENOSYS` of `ktimer_create`.

`timerCreate_allTimers`: whatever the calls, the id table stays empty.
-/

set_option autoImplicit false

namespace GlibcPorts.Timer

/-- A `timer_t *`. -/
abbrev TimeridPtr := Nat

/-- `compat_timer_create` with what it returns, and the store of a timer id. -/
structure Compat (γ : Type) where
  create : Int → Option Sigevent → TimeridPtr → γ → Except Errno Unit × γ
  storeTimerid : TimeridPtr → TimerT → γ → γ

/-- The return value of a call of `timer_create` and its effect on the program. -/
def CreateResult.run {γ : Type} (compat : Compat γ) (timerid : TimeridPtr) :
    CreateResult → γ → Except Errno Unit × γ
  | .ok id, w => (.ok (), compat.storeTimerid timerid id w)
  | .error e, w => (.error e, w)
  | .compat clockId evp, w => compat.create clockId evp timerid w

/-- A call of `timer_create` on a kernel without `ktimer_create`. -/
structure FallbackCall where
  args : CreateArgs
  timerid : TimeridPtr
  pthreadCreate : Option Lwpid
  malloc : Option (Addr × StructTimer)

/-- The outcomes of the call: `clock_getres` works and `ktimer_create` does not exist. -/
def FallbackCall.env (call : FallbackCall) : CreateEnv where
  clockGetres := true
  pthreadCreate := call.pthreadCreate
  malloc := call.malloc
  ktimerCreate := .error ENOSYS

/-- Each call of the sequence has the effect and the return value of the compatibility code
on the caller's arguments, and leaves the id table empty. -/
def FallsBack {γ : Type} (compat : Compat γ) : Process → γ → List FallbackCall → Prop
  | _, _, [] => True
  | proc, w, call :: calls =>
      let r := proc.timerCreate call.env call.args
      r.1.run compat call.timerid w = compat.create call.args.clockId call.args.evp call.timerid w ∧
        (∀ i, r.2.allTimers i = none) ∧ FallsBack compat r.2 (r.1.run compat call.timerid w).2 calls

/-- The first call, if there is one, has an event that does not ask for a thread, and its
`malloc` succeeds. -/
def FirstCallSignals (calls : List FallbackCall) : Prop :=
  ∀ call ∈ calls.head?,
    call.args.evp ≠ none ∧ wantsThread call.args.evp = false ∧ call.malloc ≠ none

/-- No timer call has been made: it is not known whether the system calls exist. -/
structure Process.Unused (proc : Process) : Prop where
  noPosixTimers : proc.noPosixTimers = 0
  allTimers : ∀ i, proc.allTimers i = none

/-! ### The id table -/

section
variable {proc proc' : Process} {call : FallbackCall}

/-- An empty table is empty again after the allocation of a struct, stores to the memory, and
the release of the struct. -/
theorem Process.timerFree_allocated {a : Addr} {i : Nat} (hnone : ∀ j, proc.allTimers j = none)
    (hi : i < TIMER_MAX) (htable : proc'.allTimers = Function.update proc.allTimers i (some a)) :
    ∀ j, (proc'.timerFree a).allTimers j = none := by
  have hslot : proc'.allTimers i = some a := by
    rw [htable]
    exact Function.update_self i (some a) proc.allTimers
  have hother : ∀ j, j ≠ i → proc'.allTimers j = none := by
    intro j hj
    rw [htable, Function.update_of_ne hj]
    exact hnone j
  have huniq : ∀ j, proc'.allTimers j = some a → j = i := by
    intro j hj
    by_contra hne
    rw [hother j hne] at hj
    cases hj
  intro j
  rw [timerFree_eq hi hslot huniq]
  show Function.update proc'.allTimers i none j = none
  by_cases hj : j = i
  · subst hj
    exact Function.update_self _ _ _
  · rw [Function.update_of_ne hj]
    exact hother j hj

/-- A failed allocation leaves an empty table empty. -/
theorem Process.timerAlloc_error_table {block : Option (Addr × StructTimer)} {e : Errno}
    (hnone : ∀ j, proc.allTimers j = none) (h : proc.timerAlloc block = (.error e, proc')) :
    ∀ j, proc'.allTimers j = none := by
  rcases timerAlloc_error h with rfl | ⟨b, bytes, -, rfl⟩
  · exact hnone
  · exact hnone

/-- `timer_create` for a timer without a thread. -/
theorem createSignal_allTimers (hnone : ∀ i, proc.allTimers i = none) :
    ∀ i, (proc.createSignal call.env call.args).2.allTimers i = none := by
  unfold Process.createSignal
  split
  · next e proc' halloc => exact Process.timerAlloc_error_table hnone halloc
  · next newp proc' halloc =>
    obtain ⟨bytes, i, -, hi, -, rfl⟩ := Process.timerAlloc_ok halloc
    exact Process.timerFree_allocated hnone hi rfl

/-- `timer_create` for a `SIGEV_THREAD` timer. -/
theorem createThread_allTimers (hnone : ∀ i, proc.allTimers i = none) :
    ∀ i, (proc.createThread call.env call.args).2.allTimers i = none := by
  have honce : ∀ tid, (proc.pthreadOnce tid).allTimers = proc.allTimers := by
    intro tid
    unfold Process.pthreadOnce Process.startHelperThread
    split
    · rfl
    · cases tid <;> rfl
  unfold Process.createThread
  simp only
  split
  · rw [honce]
    exact hnone
  · split
    · next e proc' halloc =>
      refine Process.timerAlloc_error_table ?_ halloc
      rw [honce]
      exact hnone
    · next newp proc' halloc =>
      obtain ⟨bytes, i, -, hi, -, rfl⟩ := Process.timerAlloc_ok halloc
      refine Process.timerFree_allocated hnone hi ?_
      -- The stores of the thread parameters are not in the table.
      rw [← honce call.env.pthreadCreate]
      unfold Process.fillThread
      split <;> rfl

/-- Without `ktimer_create`, every call leaves the id table empty. -/
theorem timerCreate_allTimers (hnone : ∀ i, proc.allTimers i = none) :
    ∀ i, (proc.timerCreate call.env call.args).2.allTimers i = none := by
  have hprobe : ∀ ok, (proc.probe ok).allTimers = proc.allTimers := by
    intro ok
    unfold Process.probe
    split <;> rfl
  unfold Process.timerCreate
  split
  · split
    · simp only
      split
      · exact createThread_allTimers (by rw [hprobe]; exact hnone)
      · rw [hprobe]
        exact hnone
    · exact createSignal_allTimers hnone
  · exact hnone

/-! ### The effect of the calls -/

/-- Once the system calls are known not to exist, a call is the compatibility code. -/
theorem timerCreate_compat (h : proc.noPosixTimers = -1) (env : CreateEnv) (c : CreateArgs) :
    proc.timerCreate env c = (.compat c.clockId c.evp, proc) := by
  unfold Process.timerCreate
  rw [if_neg (by omega)]

/-- Once the system calls are known not to exist, every sequence falls back. -/
theorem fallsBack_of_compat {γ : Type} (compat : Compat γ) (h : proc.noPosixTimers = -1)
    (hnone : ∀ i, proc.allTimers i = none) (w : γ) (calls : List FallbackCall) :
    FallsBack compat proc w calls := by
  induction calls generalizing w with
  | nil => trivial
  | cons call calls ih =>
      simp only [FallsBack, timerCreate_compat h]
      exact ⟨rfl, hnone, ih _⟩

/-- An allocation in an empty table takes the first slot. -/
theorem timerAlloc_empty (hnone : ∀ i, proc.allTimers i = none) (a : Addr) (bytes : StructTimer) :
    proc.timerAlloc (some (a, bytes)) = (.ok a, proc.allocate a bytes 0) := by
  have hslot : freeSlot proc.allTimers = some 0 := by
    unfold freeSlot
    rw [show TIMER_MAX = 255 + 1 from rfl, List.range_succ_eq_map, List.find?_cons]
    simp [hnone]
  unfold Process.timerAlloc
  simp only [Process.store, hslot]
  rfl

/-- The first call, for a timer without a thread. -/
theorem timerCreate_eq_signal (hproc : proc.Unused) {env : CreateEnv} {c : CreateArgs}
    (hsignal : wantsThread c.evp = false) : proc.timerCreate env c = proc.createSignal env c := by
  have hposix : 0 ≤ proc.noPosixTimers := Int.le_of_eq hproc.noPosixTimers.symm
  unfold Process.timerCreate
  rw [if_pos hposix, hsignal, if_neg Bool.false_ne_true]

/-- The first call, for a timer with a thread: `clock_getres` works. -/
theorem timerCreate_eq_thread (hproc : proc.Unused) {c : CreateArgs} {env : CreateEnv}
    (hres : env.clockGetres = true) (hthread : wantsThread c.evp = true) :
    proc.timerCreate env c = (proc.probe true).createThread env c := by
  have hposix : 0 ≤ proc.noPosixTimers := Int.le_of_eq hproc.noPosixTimers.symm
  have hprobe : 0 < (proc.probe true).noPosixTimers := by
    unfold Process.probe
    rw [if_pos hproc.noPosixTimers]
    exact Int.one_pos
  unfold Process.timerCreate
  rw [if_pos hposix, if_pos hthread, hres]
  exact if_pos hprobe

/-- The first call, for a timer without a thread: it passes an event on, which is the local
one if the caller gave none, and it knows then that the system calls do not exist. -/
theorem timerCreate_signal (hproc : proc.Unused) {a : Addr} {bytes : StructTimer}
    (hmalloc : call.malloc = some (a, bytes)) (hsignal : wantsThread call.args.evp = false) :
    (proc.timerCreate call.env call.args).1 =
        .compat call.args.clockId (some (call.args.evp.getD (defaultSigevent a))) ∧
      (proc.timerCreate call.env call.args).2.noPosixTimers = -1 := by
  have halloc : proc.timerAlloc call.env.malloc = (.ok a, proc.allocate a bytes 0) := by
    rw [show call.env.malloc = some (a, bytes) from hmalloc]
    exact timerAlloc_empty hproc.allTimers a bytes
  rw [timerCreate_eq_signal hproc hsignal]
  unfold Process.createSignal
  rw [halloc]
  exact ⟨rfl, rfl⟩

/-- The first call, for a timer with a thread: it fails. -/
theorem timerCreate_thread (hproc : proc.Unused) (hthread : wantsThread call.args.evp = true) :
    ∃ e, (proc.timerCreate call.env call.args).1 = .error e := by
  rw [timerCreate_eq_thread hproc rfl hthread]
  unfold Process.createThread
  simp only
  split
  · exact ⟨EAGAIN, rfl⟩
  · split
    · next e _ _ => exact ⟨e, rfl⟩
    · exact ⟨ENOSYS, rfl⟩

/-- The first call, when `malloc` fails: it fails. -/
theorem timerCreate_noMemory (hproc : proc.Unused) (hmalloc : call.malloc = none)
    (hsignal : wantsThread call.args.evp = false) :
    ∃ e, (proc.timerCreate call.env call.args).1 = .error e := by
  rw [timerCreate_eq_signal hproc hsignal]
  unfold Process.createSignal
  split
  · next e _ _ => exact ⟨e, rfl⟩
  · next halloc =>
    obtain ⟨_, _, hblock, -⟩ := Process.timerAlloc_ok halloc
    exact absurd (hmalloc.symm.trans hblock) nofun

/-- A compatibility function that succeeds and keeps a record of its arguments. -/
def recorder : Compat (List (Int × Option Sigevent × TimeridPtr)) where
  create clockId evp timerid w := (.ok (), (clockId, evp, timerid) :: w)
  storeTimerid _ _ w := w

/-- A call that fails by itself does not have the effect of the recorder. -/
theorem recorder_ne_error {e : Errno} :
    (CreateResult.error e).run recorder call.timerid [] ≠
      recorder.create call.args.clockId call.args.evp call.timerid [] := by
  intro h
  cases congrArg Prod.fst h

/-- The calls of a process without earlier timer calls have exactly the effect of the
compatibility code, whatever that code does, if and only if the first call has an event that
does not ask for a thread, and gets its memory. -/
theorem fallback_iff (hproc : proc.Unused) (calls : List FallbackCall) :
    (∀ (γ : Type) (compat : Compat γ) (w : γ), FallsBack compat proc w calls) ↔
      FirstCallSignals calls := by
  constructor
  · intro h call hhead
    obtain ⟨rest, rfl⟩ : ∃ rest, calls = call :: rest := by
      cases calls with
      | nil => cases hhead
      | cons b rest =>
          cases hhead
          exact ⟨rest, rfl⟩
    -- The recorder tells the caller's arguments from any others.
    obtain ⟨hrun, -, -⟩ := h _ recorder []
    have hsignal : wantsThread call.args.evp = false := by
      by_contra hthread
      obtain ⟨e, he⟩ := timerCreate_thread hproc (Bool.not_eq_false _ ▸ hthread)
      rw [he] at hrun
      exact recorder_ne_error hrun
    have hmalloc : call.malloc ≠ none := by
      intro hnone
      obtain ⟨e, he⟩ := timerCreate_noMemory hproc hnone hsignal
      rw [he] at hrun
      exact recorder_ne_error hrun
    refine ⟨?_, hsignal, hmalloc⟩
    -- For a `NULL` event the local event is recorded.
    intro hnull
    obtain ⟨block, hblock⟩ := Option.ne_none_iff_exists'.mp hmalloc
    obtain ⟨a, bytes⟩ := block
    obtain ⟨hres, -⟩ := timerCreate_signal hproc hblock hsignal
    rw [hres, hnull] at hrun
    have hrecord := congrArg Prod.snd hrun
    simp [CreateResult.run, recorder] at hrecord
  · intro h γ compat w
    cases calls with
    | nil => trivial
    | cons call calls =>
        obtain ⟨hevp, hsignal, hmalloc⟩ := h call rfl
        obtain ⟨⟨a, bytes⟩, hblock⟩ := Option.ne_none_iff_exists'.mp hmalloc
        obtain ⟨ev, hev⟩ := Option.ne_none_iff_exists'.mp hevp
        -- The first call falls back and turns the system calls off for all that follow.
        obtain ⟨hres, hposix⟩ := timerCreate_signal hproc hblock hsignal
        have htable : ∀ i, (proc.timerCreate call.env call.args).2.allTimers i = none :=
          timerCreate_allTimers hproc.allTimers
        refine ⟨?_, htable, fallsBack_of_compat compat hposix htable _ calls⟩
        rw [hres, hev]
        rfl

theorem freshProcess_unused : freshProcess.Unused := ⟨rfl, fun _ => rfl⟩

end

/-- A `SIGEV_SIGNAL` timer first, then one without an event, then one with a thread: all three
calls fall back. -/
theorem fallback_iff_three_calls :
    FallsBack recorder freshProcess []
      [⟨⟨0, some ⟨SIGEV_SIGNAL, SIGALRM, 0, 0, 0, none⟩⟩, 8, none,
          some (7, ⟨0, 0, 0, 0, {}, none⟩)⟩,
        ⟨⟨0, none⟩, 16, none, some (9, ⟨0, 0, 0, 0, {}, none⟩)⟩,
        ⟨⟨0, some ⟨SIGEV_THREAD, 0, 0, 0, 100, none⟩⟩, 24, some 3, none⟩] := by
  refine (fallback_iff freshProcess_unused _).mpr (fun call hcall => ?_) _ recorder []
  cases hcall
  decide

/-- The first call is for a timer without an event. The compatibility code is called with the
local event. -/
theorem fallback_null_first :
    ¬ ∀ (proc : Process), proc.Unused → ∀ (calls : List FallbackCall) (γ : Type)
      (compat : Compat γ) (w : γ), FallsBack compat proc w calls := by
  intro h
  let call : FallbackCall := ⟨⟨0, none⟩, 8, none, some (7, ⟨0, 0, 0, 0, {}, none⟩)⟩
  obtain ⟨hrun, -, -⟩ := h freshProcess freshProcess_unused [call] _ recorder []
  have hres : (freshProcess.timerCreate call.env call.args).1 =
      .compat 0 (some (defaultSigevent 7)) :=
    (timerCreate_signal freshProcess_unused rfl rfl).1
  rw [hres] at hrun
  have hrecord := congrArg Prod.snd hrun
  simp [CreateResult.run, recorder, call] at hrecord

end GlibcPorts.Timer
