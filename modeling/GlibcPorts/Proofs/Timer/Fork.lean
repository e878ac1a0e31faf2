import GlibcPorts.Proofs.Timer.ProcessInvariant
import GlibcPorts.Proofs.Timer.Processes

/-!
# `GlibcPorts.Proofs.Timer.Fork`: the id table across `fork`

The child of a `fork` has a copy of the table and of the active list, but none of the kernel
timers. `reset_helper_control` resets the helper thread's variables in the child, and leaves
these entries as they are.

* `timersMatchKernel_of_reachable`: as long as only processes without timers fork, the table
  of every process matches its kernel timers (`TimersMatchKernel`).
* `fork_matches_iff`: the child of a process matches its kernel timers exactly when the table
  of the process is empty.
* `timersMatchKernel_fails`: a child whose first timer gets the number of a timer of the
  parent reaches that timer through two ids.
-/

set_option autoImplicit false

namespace GlibcPorts.Timer

open GlibcPorts.Lib (System Linked)
open GlibcPorts.Lib.System (ReachableVia)

/-- What is promised about the table of a process and its kernel timers. -/
structure TimersMatchKernel (proc : Process) : Prop where
  /-- An entry stands for a kernel timer of this process. -/
  kernel : ∀ i a, proc.allTimers i = some a →
    (proc.heap a).ktimerid ∈ proc.ktimers.map Prod.fst
  distinct : ∀ i j a b, proc.allTimers i = some a → proc.allTimers j = some b →
    (proc.heap a).ktimerid = (proc.heap b).ktimerid → i = j
  /-- The system call of `timer_settime`, `timer_gettime` and `timer_getoverrun` is not on the
  kernel timer of another id. -/
  settime : ∀ call res id k, (proc.ktimerCall call res id).1 = some (call, k) →
    ∀ id' kt, kfreebsdTimerId2ptr proc.allTimers id' = some kt → (proc.heap kt).ktimerid = k →
      id' = id
  /-- `timer_delete` deletes no kernel timer of another id. -/
  delete : ∀ res id r proc', proc.timerDelete res id = some (r, proc') →
    ∀ id' kt, id' ≠ id → kfreebsdTimerId2ptr proc.allTimers id' = some kt →
      (proc.heap kt).ktimerid ∈ proc'.ktimers.map Prod.fst
  /-- With fewer kernel timers than slots, there is a free slot. -/
  room : proc.ktimers.length < TIMER_MAX → freeSlot proc.allTimers ≠ none

section
variable {proc proc' : Process}

/-- Two ids that yield structs of one kernel timer are the same. -/
theorem ProcessInv.id_unique (h : ProcessInv proc) {id id' : TimerT} {kt kt' : Addr}
    (hid : kfreebsdTimerId2ptr proc.allTimers id = some kt)
    (hid' : kfreebsdTimerId2ptr proc.allTimers id' = some kt')
    (heq : (proc.heap kt').ktimerid = (proc.heap kt).ktimerid) : id' = id := by
  obtain ⟨i, -, rfl, hi⟩ := kfreebsdTimerId2ptr_eq_some hid
  obtain ⟨j, -, rfl, hj⟩ := kfreebsdTimerId2ptr_eq_some hid'
  rw [h.distinct j i kt' kt hj hi heq]

/-- `timer_delete` removes the kernel timer of its id at most. -/
theorem ProcessInv.timerDelete_ktimers (h : ProcessInv proc) {res : Except Errno Unit}
    {id : TimerT} {r : CallResult} (hdelete : proc.timerDelete res id = some (r, proc')) :
    proc'.ktimers = proc.ktimers ∨ ∃ kt, kfreebsdTimerId2ptr proc.allTimers id = some kt ∧
      proc'.ktimers = proc.ktimers.filter fun t => t.1 ≠ (proc.heap kt).ktimerid := by
  unfold Process.timerDelete at hdelete
  split at hdelete
  · split at hdelete
    · cases hdelete
      exact .inl rfl
    · next kt hid =>
      cases res with
      | ok u =>
          obtain ⟨i, -, -, hi⟩ := kfreebsdTimerId2ptr_eq_some hid
          obtain ⟨p, hp, -, hktimers⟩ := h.deleteTimer hi
          simp only [hp, Option.map_some] at hdelete
          cases hdelete
          exact .inr ⟨kt, hid, hktimers⟩
      | error e =>
          simp only at hdelete
          split at hdelete
          · cases hdelete
            exact .inl rfl
          · cases hdelete
            exact .inl rfl
  · cases hdelete
    exact .inl rfl

/-- A full table has as many kernel timers as slots. -/
theorem ProcessInv.room (h : ProcessInv proc) (hlt : proc.ktimers.length < TIMER_MAX) :
    freeSlot proc.allTimers ≠ none := by
  intro hfull
  have hslot := freeSlot_eq_none hfull
  -- The kernel timer of each slot: they are distinct, so there are `TIMER_MAX` of them.
  let f : Nat → KernelTimerT := fun i => (proc.heap ((proc.allTimers i).getD 0)).ktimerid
  have hget : ∀ i < TIMER_MAX, ∃ a, proc.allTimers i = some a ∧ f i = (proc.heap a).ktimerid := by
    intro i hi
    obtain ⟨a, ha⟩ := Option.ne_none_iff_exists'.mp (hslot i hi)
    exact ⟨a, ha, by simp only [f, ha, Option.getD_some]⟩
  have hnodup : ((List.range TIMER_MAX).map f).Nodup := by
    refine List.Nodup.map_on (fun i hi j hj heq => ?_) List.nodup_range
    obtain ⟨a, ha, hfa⟩ := hget i (List.mem_range.mp hi)
    obtain ⟨b, hb, hfb⟩ := hget j (List.mem_range.mp hj)
    exact h.distinct i j a b ha hb (hfa.symm.trans (heq.trans hfb))
  have hsub : (List.range TIMER_MAX).map f ⊆ proc.ktimers.map Prod.fst := by
    intro k hk
    obtain ⟨i, hi, rfl⟩ := List.mem_map.mp hk
    obtain ⟨a, ha, hfa⟩ := hget i (List.mem_range.mp hi)
    rw [hfa]
    exact h.kernel i a ha
  have hlen := (List.subperm_of_subset hnodup hsub).length_le
  rw [List.length_map, List.length_map, List.length_range] at hlen
  exact Nat.not_lt.mpr hlen hlt

/-- The invariant gives what is promised. -/
theorem ProcessInv.timersMatchKernel (h : ProcessInv proc) : TimersMatchKernel proc := by
  constructor
  case kernel => exact h.kernel
  case distinct => exact h.distinct
  case settime =>
    intro call res id k hcall id' kt' hid' hk
    unfold Process.ktimerCall at hcall
    split at hcall
    · split at hcall
      · cases hcall
      · next kt hid =>
        have hk' : (proc.heap kt).ktimerid = k := by
          cases res with
          | ok r =>
              cases hcall
              rfl
          | error e =>
              simp only at hcall
              split at hcall
              · cases hcall
                rfl
              · cases hcall
                rfl
        exact h.id_unique hid hid' (hk.trans hk'.symm)
    · cases hcall
  case delete =>
    intro res id r proc' hdelete id' kt' hne hid'
    obtain ⟨i, -, -, hi⟩ := kfreebsdTimerId2ptr_eq_some hid'
    have hmem := h.kernel i kt' hi
    rcases h.timerDelete_ktimers hdelete with heq | ⟨kt, hid, heq⟩
    · rw [heq]
      exact hmem
    · -- The kernel timer that is deleted is that of `id`, and two ids share none.
      rw [heq]
      obtain ⟨t, ht, htk⟩ := List.mem_map.mp hmem
      refine List.mem_map.mpr ⟨t, List.mem_filter.mpr ⟨ht, decide_eq_true fun h' => ?_⟩, htk⟩
      exact hne (h.id_unique hid hid' (htk.symm.trans h'))
  case room => exact h.room

/-- What the child of a `fork` has of the memory and of the kernel, whether or not
`reset_helper_control` is registered. -/
theorem Process.fork_eq (proc : Process) : ∃ once tid, proc.fork =
    { proc with ktimers := [], helper := none, helperOnce := once, helperTid := tid } := by
  unfold Process.fork Process.resetHelperControl
  simp only
  split
  · exact ⟨false, 0, rfl⟩
  · exact ⟨proc.helperOnce, proc.helperTid, rfl⟩

/-- The child has the table of its parent. -/
@[simp] theorem Process.fork_allTimers (proc : Process) : proc.fork.allTimers = proc.allTimers := by
  obtain ⟨once, tid, heq⟩ := proc.fork_eq
  rw [heq]

/-- The child has the memory of its parent. -/
@[simp] theorem Process.fork_heap (proc : Process) : proc.fork.heap = proc.heap := by
  obtain ⟨once, tid, heq⟩ := proc.fork_eq
  rw [heq]

/-- The child has the list of its parent. -/
@[simp] theorem Process.fork_activeTimerSigevThread (proc : Process) :
    proc.fork.activeTimerSigevThread = proc.activeTimerSigevThread := by
  obtain ⟨once, tid, heq⟩ := proc.fork_eq
  rw [heq]

/-- The child has no timers in the kernel. -/
@[simp] theorem Process.fork_ktimers (proc : Process) : proc.fork.ktimers = [] := by
  obtain ⟨once, tid, heq⟩ := proc.fork_eq
  rw [heq]

/-- The child of a process without timers has none. -/
theorem ProcessInv.fork (h : ProcessInv proc) (hempty : ∀ i, proc.allTimers i = none) :
    ProcessInv proc.fork := by
  have htable := proc.fork_allTimers
  have hnone : ∀ i a, proc.fork.allTimers i ≠ some a := by
    intro i a hi
    rw [htable, hempty i] at hi
    cases hi
  refine ⟨fun i a hi => absurd hi (hnone i a), fun i j a hi => absurd hi (hnone i a),
    fun i a hi => absurd hi (hnone i a), fun i a hi => absurd hi (hnone i a),
    fun i j a b hi => absurd hi (hnone i a), ?_⟩
  obtain ⟨l, hlinked, hmem⟩ := h.active
  refine ⟨l, ?_, fun a => ?_⟩
  · rw [proc.fork_heap, proc.fork_activeTimerSigevThread]
    exact hlinked
  · rw [hmem a, htable, proc.fork_heap]

end

/-! ### Runs -/

/-- If the step is a `fork`, the process that forks has no timer. -/
def ForksWithoutTimers : ProcessLabel → Processes → Prop
  | .fork p _, procs => ∀ proc ∈ procs p, ∀ i < TIMER_MAX, proc.allTimers i = none
  | .create _ _ _, _ | .delete _ _ _, _ | .ktimerCall _ _ _ _, _ => True

instance : ∀ l procs, Decidable (ForksWithoutTimers l procs)
  | .fork p _, procs =>
      inferInstanceAs (Decidable (∀ proc ∈ procs p, ∀ i < TIMER_MAX, proc.allTimers i = none))
  | .create _ _ _, _ | .delete _ _ _, _ | .ktimerCall _ _ _ _, _ => .isTrue trivial

/-- A new process has no timers. -/
theorem Process.Fresh.inv {proc : Process} (h : proc.Fresh) : ProcessInv proc where
  lt i a hi := by simp [h.allTimers i] at hi
  inj i j a hi := by simp [h.allTimers i] at hi
  allocated i a hi := by simp [h.allTimers i] at hi
  kernel i a hi := by simp [h.allTimers i] at hi
  distinct i j a b hi := by simp [h.allTimers i] at hi
  active := ⟨[], h.activeTimerSigevThread, fun a => by simp [h.allTimers]⟩

/-- All calls keep the invariant, and a `fork` without timers. -/
theorem processInv_kept : KeptByCalls ForksWithoutTimers ProcessInv where
  create _ _ _ h henv := h.timerCreate henv
  delete proc res id r proc' h hdelete := by
    obtain ⟨r', proc'', hdelete', hinv⟩ := h.timerDelete res id
    rw [hdelete] at hdelete'
    cases hdelete'
    exact hinv
  ktimerCall _ call res id h := h.ktimerCall call res id
  fork procs p child proc hok hp h := by
    -- The condition speaks of the slots; behind them the table is empty by the invariant.
    refine h.fork fun i => ?_
    by_contra hi
    obtain ⟨a, ha⟩ := Option.ne_none_iff_exists'.mp hi
    exact hi (hok proc hp i (h.lt i a ha))

/-- The invariant of every process in a run in which only processes without timers fork. -/
theorem reachable_processInv {procs : Processes}
    (h : processes.ReachableVia ForksWithoutTimers procs) :
    ∀ p proc, procs p = some proc → ProcessInv proc :=
  processInv_kept.forall_of_reachable (fun _ => Process.Fresh.inv) h

/-- As long as only processes without timers fork, the table of every process matches its
kernel timers. -/
theorem timersMatchKernel_of_reachable {procs : Processes}
    (h : processes.ReachableVia ForksWithoutTimers procs) {p : Nat} {proc : Process}
    (hp : procs p = some proc) : TimersMatchKernel proc :=
  (reachable_processInv h p proc hp).timersMatchKernel

/-- A process creates and deletes a timer, forks, and the child creates one. -/
theorem timersMatchKernel_of_reachable_child :
    ∃ procs proc, processes.ReachableVia ForksWithoutTimers procs ∧ procs 1 = some proc ∧
      proc.allTimers 0 = some 9 ∧ TimersMatchKernel proc := by
  let ls : List ProcessLabel := [.create 0 (createOk 7 3) ⟨0, none⟩, .delete 0 (.ok ()) 0,
    .fork 0 1, .create 1 (createOk 9 0) ⟨0, none⟩]
  have hvia : processes.Via ForksWithoutTimers ls oneProcess := by decide +kernel
  obtain ⟨procs, proc, hprocs, hp, htable⟩ := System.exists_of_run (S := processes) ls oneProcess
    (· 1) (fun proc => proc.allTimers 0 = some 9) (by decide +kernel)
  have hreach : processes.ReachableVia ForksWithoutTimers procs :=
    .of_runVia (.init oneProcess_initial) ls hvia hprocs
  exact ⟨procs, proc, hreach, hp, htable, timersMatchKernel_of_reachable hreach hp⟩

/-- A process with a timer forks, and the first timer of the child gets the same number from
the kernel: the child's ids 0 and 1 are the same kernel timer. -/
theorem timersMatchKernel_fails :
    ¬ ∀ procs, processes.Reachable procs → ∀ p proc, procs p = some proc →
      TimersMatchKernel proc := by
  intro h
  let ls : List ProcessLabel := [.create 0 (createOk 7 0) ⟨0, none⟩, .fork 0 1,
    .create 1 (createOk 9 0) ⟨0, none⟩]
  obtain ⟨procs, proc, hprocs, hp, h0, h1, heq⟩ := System.exists_of_run (S := processes) ls
    oneProcess (· 1) (fun proc => proc.allTimers 0 = some 7 ∧ proc.allTimers 1 = some 9 ∧
      (proc.heap 7).ktimerid = (proc.heap 9).ktimerid) (by decide +kernel)
  have hreach : processes.Reachable procs := .of_run (.init oneProcess_initial) ls hprocs
  exact absurd ((h procs hreach 1 proc hp).distinct 0 1 7 9 h0 h1 heq) (by decide)

/-- The condition is exact for the child of a `fork`. -/
theorem fork_matches_iff {proc : Process} (h : ProcessInv proc) :
    TimersMatchKernel proc.fork ↔ ∀ i, proc.allTimers i = none := by
  constructor
  · intro hchild i
    by_contra hi
    obtain ⟨a, ha⟩ := Option.ne_none_iff_exists'.mp hi
    -- The entry is in the child's table, and the child has no kernel timer at all.
    have hentry : proc.fork.allTimers i = some a := by
      rw [proc.fork_allTimers]
      exact ha
    have hk := hchild.kernel i a hentry
    rw [proc.fork_ktimers] at hk
    cases hk
  · exact fun hempty => (h.fork hempty).timersMatchKernel

end GlibcPorts.Timer
