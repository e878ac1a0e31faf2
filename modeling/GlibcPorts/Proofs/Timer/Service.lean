import GlibcPorts.Proofs.Timer.Create
import GlibcPorts.Proofs.Timer.Fork
import GlibcPorts.Timer.Service

/-!
# `GlibcPorts.Proofs.Timer.Service`: the timer calls do what they are for

* `owners_of_outcome` and `owners_hasBlock`: what `timer_create` does to the ids.
* `timerCreate_registers`: what it does to the timers of the kernel.
* `timerCreate_refused`: why it fails.
* `service_deleteTimer`: what `timer_delete` does to the ids and to the kernel.
* `call_refines`: one call is a step of `Service.Step`.
* `timerCalls_refine`: every sequence of calls is, from a process without timers on, and every call
  returns.
-/

set_option autoImplicit false

namespace GlibcPorts.Timer

open GlibcPorts.Lib (Machine Spec)

section Owners

variable {proc proc' p : Process} {a : Addr} {i : Nat} {id : TimerT}

/-- The id of a slot has the kernel timer of the struct in it. -/
theorem owners_natCast (hi : i < TIMER_MAX) :
    proc.owners (i : Int) = (proc.allTimers i).map fun kt => (proc.heap kt).ktimerid := by
  unfold Process.owners
  rw [kfreebsdTimerId2ptr_natCast hi]

/-- An id that is not in use. -/
theorem owners_eq_none : proc.owners id = none ↔ kfreebsdTimerId2ptr proc.allTimers id = none :=
  Option.map_eq_none_iff

/-- The ids depend on the table and on the structs in it. -/
theorem owners_congr (htable : proc'.allTimers = proc.allTimers)
    (hheap : ∀ i a, proc.allTimers i = some a → (proc'.heap a).ktimerid = (proc.heap a).ktimerid) :
    proc'.owners = proc.owners := by
  funext id
  unfold Process.owners
  rw [htable]
  cases hid : kfreebsdTimerId2ptr proc.allTimers id with
  | none => rfl
  | some kt =>
      obtain ⟨j, -, -, hj⟩ := kfreebsdTimerId2ptr_eq_some hid
      rw [Option.map_some, Option.map_some, hheap j kt hj]

/-- One slot changes, and the structs in the others keep their kernel timers. -/
theorem owners_of_update (hi : i < TIMER_MAX) {slot : Option Addr}
    (htable : proc'.allTimers = Function.update proc.allTimers i slot)
    (hheap : ∀ j b, proc.allTimers j = some b → j ≠ i →
      (proc'.heap b).ktimerid = (proc.heap b).ktimerid) :
    proc'.owners =
      Function.update proc.owners i (slot.map fun kt => (proc'.heap kt).ktimerid) := by
  funext id
  by_cases hid : id = (i : Int)
  · subst hid
    rw [Function.update_self, owners_natCast hi, htable, Function.update_self]
  · rw [Function.update_of_ne hid]
    unfold Process.owners kfreebsdTimerId2ptr
    split
    · next hrange =>
      have hne : id.toNat ≠ i := by
        rintro rfl
        exact hid (Int.toNat_of_nonneg hrange.1).symm
      rw [htable, Function.update_of_ne hne]
      cases hold : proc.allTimers id.toNat with
      | none => rfl
      | some b => rw [Option.map_some, Option.map_some, hheap _ b hold hne]
    · -- Numbers outside of the table are no ids.
      rfl

/-- The same timers have the same ids. -/
theorem owners_of_same (h : LiveTable proc) (hsame : proc.SameTimers proc') :
    proc'.owners = proc.owners :=
  owners_congr hsame.allTimers fun i a hi => by rw [hsame.heap a (h.allocated i a hi)]

/-- A call of `timer_create` that returns no id leaves all ids as they were. -/
theorem owners_of_outcome {env : CreateEnv} {c : CreateArgs} {res : CreateResult}
    (h : LiveTable proc) (henv : env.Possible proc) (houtcome : CreateOutcome proc env c res proc')
    (hres : ∀ id, res ≠ .ok id) : proc'.owners = proc.owners := by
  have hfree : ∀ {a bytes}, env.malloc = some (a, bytes) → proc.allocated a = false :=
    fun {a bytes} hmalloc => henv.1 (a, bytes) hmalloc
  cases houtcome with
  | idle _ _ hsame => exact owners_of_same h hsame
  | noMemory _ hsame => exact owners_of_same h hsame
  | full _ hmalloc _ hblock =>
      refine owners_congr hblock.allTimers fun j b hj => ?_
      rw [hblock.heap b (h.ne_of_free (hfree hmalloc) hj)]
  | undone hmalloc hslot _ _ hblock hactive hundo =>
      have hback := hblock.sameTimers_timerFree (hfree hmalloc) (h.not_mem (hfree hmalloc)) hslot
        hactive
      exact owners_of_same h (hback.trans hundo)
  | created => exact absurd rfl (hres _)

/-- The slot that is found is the first one that is free. -/
theorem freeSlot_isLeastFree (hslot : freeSlot proc.allTimers = some i) :
    proc.service.IsLeastFree i := by
  obtain ⟨hlt, hnone⟩ := freeSlot_eq_some hslot
  constructor
  case nonneg => exact Int.natCast_nonneg i
  case lt => exact Int.ofNat_lt.mpr hlt
  case free =>
    rw [Process.service_timer, owners_natCast hlt, hnone]
    rfl
  case used =>
    intro j h0 hji
    obtain ⟨n, rfl⟩ := Int.eq_ofNat_of_zero_le h0
    have hni : n < i := Int.ofNat_lt.mp hji
    rw [Process.service_timer, owners_natCast (Nat.lt_trans hni hlt)]
    intro hn
    -- The search passed the slot `n`.
    obtain ⟨-, -, hpassed⟩ := List.find?_range_eq_some.mp hslot
    have hslot' : proc.allTimers n = none := Option.map_eq_none_iff.mp hn
    simpa [hslot'] using hpassed n hni

/-- Without a free slot all ids are in use. -/
theorem full_of_freeSlot (hslot : freeSlot proc.allTimers = none) : proc.service.Full := by
  intro j h0 hj
  obtain ⟨n, rfl⟩ := Int.eq_ofNat_of_zero_le h0
  have hn : n < TIMER_MAX := Int.ofNat_lt.mp hj
  rw [Process.service_timer, owners_natCast hn]
  exact fun hnone => freeSlot_eq_none hslot n hn (Option.map_eq_none_iff.mp hnone)

end Owners

/-! ### Creating a timer -/

section Create

variable {proc proc' : Process} {env : CreateEnv} {c : CreateArgs} {a : Addr} {i : Nat}

/-- A failed allocation has one of two reasons. -/
theorem timerAlloc_error_refused {block : Option (Addr × StructTimer)} {e : Errno}
    (h : proc.timerAlloc block = (.error e, proc')) :
    block = none ∧ e = ENOMEM ∨ freeSlot proc.allTimers = none ∧ e = EAGAIN := by
  unfold Process.timerAlloc at h
  cases block with
  | none =>
      simp only at h
      split at h
      · cases h
        exact .inl ⟨rfl, rfl⟩
      · next hslot =>
        cases h
        exact .inr ⟨hslot, rfl⟩
  | some b =>
      obtain ⟨b, bytes⟩ := b
      simp only at h
      split at h
      · cases h
      · next hslot =>
        cases h
        exact .inr ⟨hslot, rfl⟩

/-- The helper thread's variables do not matter for the table. -/
theorem pthreadOnce_allTimers (proc : Process) (tid : Option Lwpid) :
    (proc.pthreadOnce tid).allTimers = proc.allTimers :=
  (proc.pthreadOnce_sameState tid).1.allTimers

/-- A call for a `SIGEV_THREAD` timer that fails has a reason, and does not fall back. -/
theorem createThread_refused (hc : wantsThread c.evp = true)
    (hres : ∀ id, (proc.createThread env c).1 ≠ .ok id) :
    ∃ e, (proc.createThread env c).1 = .error e ∧ proc.service.Refused env c e := by
  unfold Process.createThread at hres ⊢
  dsimp only at hres ⊢
  split
  · -- There is no helper thread.
    exact ⟨EAGAIN, rfl, .helper hc⟩
  · next hhelper =>
    rw [if_neg hhelper] at hres
    split
    · -- There is no block, or no slot for it.
      next e p halloc =>
      refine ⟨e, rfl, ?_⟩
      rcases timerAlloc_error_refused halloc with ⟨hmalloc, rfl⟩ | ⟨hslot, rfl⟩
      · exact .memory hmalloc
      · rw [pthreadOnce_allTimers] at hslot
        exact .full (full_of_freeSlot hslot)
    · next newp p halloc =>
      rw [halloc] at hres
      cases hk : env.ktimerCreate with
      | ok k =>
          rw [hk] at hres
          exact absurd rfl (hres _)
      | error e => exact ⟨e, rfl, .kernel hk⟩

/-- A call for another timer that fails has a reason, and does not fall back, unless the kernel
has no timers. -/
theorem createSignal_refused (hk : env.ktimerCreate ≠ .error ENOSYS)
    (hres : ∀ id, (proc.createSignal env c).1 ≠ .ok id) :
    ∃ e, (proc.createSignal env c).1 = .error e ∧ proc.service.Refused env c e := by
  unfold Process.createSignal at hres ⊢
  split
  · next e p halloc =>
    refine ⟨e, rfl, ?_⟩
    rcases timerAlloc_error_refused halloc with ⟨hmalloc, rfl⟩ | ⟨hslot, rfl⟩
    · exact .memory hmalloc
    · exact .full (full_of_freeSlot hslot)
  · next newp p halloc =>
    rw [halloc] at hres
    dsimp only at hres ⊢
    cases hkc : env.ktimerCreate with
    | ok k =>
        rw [hkc] at hres
        exact absurd rfl (hres _)
    | error e =>
        -- With `ENOSYS` the fallback would be next.
        have hne : e ≠ ENOSYS := by
          rintro rfl
          exact hk hkc
        refine ⟨e, ?_, .kernel hkc⟩
        simp only [if_neg hne]

/-- With a clock that works, the probe says that the kernel has timers. -/
theorem probe_pos (h : 0 ≤ proc.noPosixTimers) : 0 < (proc.probe true).noPosixTimers := by
  obtain ⟨n, hprobe, hn⟩ := proc.probe_eq true h
  rw [hprobe]
  exact hn.mpr (.inr rfl)

/-- The probe changes one variable, which the service does not depend on. -/
theorem service_probe (proc : Process) (clockGetres : Bool) :
    (proc.probe clockGetres).service = proc.service := by
  unfold Process.probe
  split <;> rfl

/-- A call that fails has a reason. -/
theorem timerCreate_refused (hposix : 0 ≤ proc.noPosixTimers) (hclock : env.clockGetres = true)
    (hk : env.ktimerCreate ≠ .error ENOSYS) (hres : ∀ id, (proc.timerCreate env c).1 ≠ .ok id) :
    ∃ e, (proc.timerCreate env c).1 = .error e ∧ proc.service.Refused env c e := by
  unfold Process.timerCreate at hres ⊢
  rw [if_pos hposix, hclock] at hres ⊢
  by_cases hc : wantsThread c.evp = true
  · simp only [if_pos hc, if_pos (probe_pos hposix)] at hres ⊢
    rw [← service_probe proc true]
    exact createThread_refused hc hres
  · rw [if_neg hc] at hres ⊢
    exact createSignal_refused hk hres

/-- What was stored in a struct. -/
theorem store_heap_self (proc : Process) (a : Addr) (timer : StructTimer) :
    (proc.store a timer).heap a = timer := by
  unfold Process.store
  exact Function.update_self (β := fun _ => StructTimer) a timer proc.heap

/-- The new `SIGEV_THREAD` timer stands for the new kernel timer. -/
theorem createThread_ktimerid {bytes : StructTimer} {id : TimerT}
    (hmalloc : env.malloc = some (a, bytes))
    (hok : proc.createThread env c = (.ok id, proc')) :
    ∃ k, env.ktimerCreate = .ok k ∧ (proc'.heap a).ktimerid = k := by
  unfold Process.createThread at hok
  dsimp only at hok
  split at hok
  · cases hok
  · split at hok
    · cases hok
    · next newp p halloc =>
      obtain ⟨_, _, hblock, -⟩ := Process.timerAlloc_ok halloc
      cases hmalloc.symm.trans hblock
      cases hk : env.ktimerCreate with
      | error e =>
          rw [hk] at hok
          cases hok
      | ok k =>
          rw [hk] at hok
          cases hok
          refine ⟨k, rfl, ?_⟩
          exact congrArg StructTimer.ktimerid (store_heap_self _ a _)

/-- The same of another timer. -/
theorem createSignal_ktimerid {bytes : StructTimer} {id : TimerT}
    (hmalloc : env.malloc = some (a, bytes))
    (hok : proc.createSignal env c = (.ok id, proc')) :
    ∃ k, env.ktimerCreate = .ok k ∧ (proc'.heap a).ktimerid = k := by
  unfold Process.createSignal at hok
  split at hok
  · cases hok
  · next newp p halloc =>
    obtain ⟨_, _, hblock, -⟩ := Process.timerAlloc_ok halloc
    cases hmalloc.symm.trans hblock
    dsimp only at hok
    cases hk : env.ktimerCreate with
    | error e =>
        rw [hk] at hok
        dsimp only at hok
        split at hok <;> cases hok
    | ok k =>
        rw [hk] at hok
        cases hok
        refine ⟨k, rfl, ?_⟩
        exact congrArg StructTimer.ktimerid (store_heap_self _ a _)

/-- The new struct has the kernel timer. -/
theorem timerCreate_ktimerid {bytes : StructTimer} {id : TimerT}
    (hmalloc : env.malloc = some (a, bytes))
    (hok : proc.timerCreate env c = (.ok id, proc')) :
    ∃ k, env.ktimerCreate = .ok k ∧ (proc'.heap a).ktimerid = k := by
  unfold Process.timerCreate at hok
  split at hok
  · split at hok
    · dsimp only at hok
      split at hok
      · exact createThread_ktimerid hmalloc hok
      · cases hok
    · exact createSignal_ktimerid hmalloc hok
  · cases hok

/-- A block in a new slot, with the timer of the kernel, is a new id. -/
theorem owners_hasBlock (h : LiveTable proc) (hfree : proc.allocated a = false)
    (hslot : freeSlot proc.allTimers = some i) (hblock : proc.HasBlock proc' a (some i)) :
    proc'.owners = Function.update proc.owners i (some (proc'.heap a).ktimerid) := by
  obtain ⟨hlt, -⟩ := freeSlot_eq_some hslot
  exact owners_of_update hlt hblock.allTimers fun j b hold _ => by
    rw [hblock.heap b (h.ne_of_free hfree hold)]

/-- The kernel has the timer that `ktimer_create` returned, if the call returns an id, and it has
the same timers as before if not. -/
def Registers (proc : Process) (env : CreateEnv) (res : CreateResult) (proc' : Process) : Prop :=
  (∃ id k, res = .ok id ∧ env.ktimerCreate = .ok k ∧
      proc'.ktimers.map Prod.fst = k :: proc.ktimers.map Prod.fst) ∨
    ((∀ id, res ≠ .ok id) ∧ proc'.ktimers = proc.ktimers)

/-- Allocating a struct makes no kernel timer. -/
theorem timerAlloc_ktimers {block : Option (Addr × StructTimer)} {r : Except Errno Addr}
    (h : proc.timerAlloc block = (r, proc')) : proc'.ktimers = proc.ktimers := by
  cases r with
  | ok a =>
      obtain ⟨_, _, -, -, -, rfl⟩ := Process.timerAlloc_ok h
      rfl
  | error e =>
      rcases Process.timerAlloc_error h with rfl | ⟨_, _, -, rfl⟩ <;> rfl

/-- A timer with a thread registers one kernel timer, or none if it fails. -/
theorem createThread_registers (proc : Process) (env : CreateEnv) (c : CreateArgs) :
    Registers proc env (proc.createThread env c).1 (proc.createThread env c).2 := by
  have honce : (proc.pthreadOnce env.pthreadCreate).ktimers = proc.ktimers :=
    (proc.pthreadOnce_sameState env.pthreadCreate).1.ktimers
  unfold Process.createThread
  dsimp only
  split
  · exact .inr ⟨nofun, honce⟩
  · split
    · next e p halloc => exact .inr ⟨nofun, (timerAlloc_ktimers halloc).trans honce⟩
    · next newp p halloc =>
      have hp := (timerAlloc_ktimers halloc).trans honce
      obtain ⟨timer, hfill⟩ := p.fillThread_eq c newp
      rw [hfill]
      cases hk : env.ktimerCreate with
      | ok k => exact .inl ⟨_, k, rfl, hk, by rw [← hp]; rfl⟩
      | error e => exact .inr ⟨nofun, hp⟩

/-- So does a timer with a signal. -/
theorem createSignal_registers (proc : Process) (env : CreateEnv) (c : CreateArgs) :
    Registers proc env (proc.createSignal env c).1 (proc.createSignal env c).2 := by
  unfold Process.createSignal
  split
  · next e p halloc => exact .inr ⟨nofun, timerAlloc_ktimers halloc⟩
  · next newp p halloc =>
    have hp := timerAlloc_ktimers halloc
    dsimp only
    cases hk : env.ktimerCreate with
    | ok k => exact .inl ⟨_, k, rfl, hk, by rw [← hp]; rfl⟩
    | error e =>
        dsimp only
        split
        · exact .inr ⟨nofun, hp⟩
        · exact .inr ⟨nofun, hp⟩

/-- What `timer_create` does to the timers of the kernel. -/
theorem timerCreate_registers (proc : Process) (env : CreateEnv) (c : CreateArgs) :
    Registers proc env (proc.timerCreate env c).1 (proc.timerCreate env c).2 := by
  have hprobe : (proc.probe env.clockGetres).ktimers = proc.ktimers := by
    unfold Process.probe
    split <;> rfl
  unfold Process.timerCreate
  split
  · split
    · dsimp only
      split
      · have hthread := createThread_registers (proc.probe env.clockGetres) env c
        rwa [Registers, hprobe] at hthread
      · exact .inr ⟨nofun, hprobe⟩
    · exact createSignal_registers proc env c
  · exact .inr ⟨nofun, rfl⟩

/-- `timer_create` as a step of the service. -/
theorem timerCreate_refines (h : LiveTable proc) (hposix : 0 ≤ proc.noPosixTimers)
    (henv : env.Possible proc) (hclock : env.clockGetres = true)
    (hk : env.ktimerCreate ≠ .error ENOSYS) :
    Service.Step proc.service (.create env c) (.created (proc.timerCreate env c).1)
      (proc.timerCreate env c).2.service := by
  have houtcome := proc.timerCreate_outcome env c
  rcases timerCreate_registers proc env c with ⟨id, k, hok, hkernel, hktimers⟩ | ⟨hres, hktimers⟩
  · have hpair : proc.timerCreate env c = (.ok id, (proc.timerCreate env c).2) := by
      rw [← hok]
    rw [hok] at houtcome ⊢
    generalize (proc.timerCreate env c).2 = proc' at *
    cases houtcome with
    | @created a bytes i _ ev _ hmalloc hslot hblock _ hevent =>
        have hfree : proc.allocated a = false := henv.1 (a, bytes) hmalloc
        have hnew : k ∉ proc.ktimers.map Prod.fst :=
          henv.2.2 k (by rw [hkernel]; rfl)
        obtain ⟨hlt, -⟩ := freeSlot_eq_some hslot
        obtain ⟨k', hk', hid⟩ := timerCreate_ktimerid hmalloc hpair
        cases hkernel.symm.trans hk'
        have hservice : proc'.service = proc.service.add i k := by
          ext j : 2
          · show proc'.owners j = Function.update proc.owners i (some k) j
            rw [owners_hasBlock h hfree hslot hblock, hid]
          · refine propext ?_
            show j ∈ proc'.ktimers.map Prod.fst ↔ j = k ∨ j ∈ proc.ktimers.map Prod.fst
            rw [hktimers, List.mem_cons]
        -- The id is the index of the slot that was found.
        rw [ptr2id_eq hlt ((hblock.slot_iff (h.not_mem hfree) i).mpr rfl) fun j hj =>
          (hblock.slot_iff (h.not_mem hfree) j).mp hj, hservice]
        exact .created (freeSlot_isLeastFree hslot) hkernel hnew
    | idle _ hres => exact absurd rfl (hres _)
    | undone _ _ _ hres => exact absurd rfl (hres _)
  · obtain ⟨e, he, hrefused⟩ := timerCreate_refused hposix hclock hk hres
    have hservice : (proc.timerCreate env c).2.service = proc.service := by
      unfold Process.service
      rw [owners_of_outcome h henv houtcome hres, hktimers]
    rw [hservice, he]
    exact .refused hrefused

/-! ### `__no_posix_timers` -/

/-- Starting the helper thread does not change what is known of the kernel. -/
theorem pthreadOnce_noPosixTimers (proc : Process) (tid : Option Lwpid) :
    (proc.pthreadOnce tid).noPosixTimers = proc.noPosixTimers := by
  unfold Process.pthreadOnce Process.startHelperThread
  split
  · rfl
  · cases tid <;> rfl

/-- Allocating a struct does not change it. -/
theorem timerAlloc_noPosixTimers {block : Option (Addr × StructTimer)} {r : Except Errno Addr}
    (h : proc.timerAlloc block = (r, proc')) : proc'.noPosixTimers = proc.noPosixTimers := by
  cases r with
  | ok a =>
      obtain ⟨_, _, -, -, -, rfl⟩ := Process.timerAlloc_ok h
      rfl
  | error e =>
      rcases Process.timerAlloc_error h with rfl | ⟨_, _, -, rfl⟩ <;> rfl

/-- Creating a timer with a thread does not change it. -/
theorem createThread_noPosixTimers (proc : Process) (env : CreateEnv) (c : CreateArgs) :
    (proc.createThread env c).2.noPosixTimers = proc.noPosixTimers := by
  unfold Process.createThread
  dsimp only
  split
  · exact pthreadOnce_noPosixTimers proc env.pthreadCreate
  · split
    · next e p halloc =>
      rw [timerAlloc_noPosixTimers halloc, pthreadOnce_noPosixTimers]
    · next newp p halloc =>
      obtain ⟨timer, hfill⟩ := p.fillThread_eq c newp
      rw [hfill]
      have hp : p.noPosixTimers = proc.noPosixTimers := by
        rw [timerAlloc_noPosixTimers halloc, pthreadOnce_noPosixTimers]
      cases env.ktimerCreate <;> exact hp

/-- A kernel with timers is not taken for one without. -/
theorem createSignal_noPosixTimers (hposix : 0 ≤ proc.noPosixTimers)
    (hk : env.ktimerCreate ≠ .error ENOSYS) : 0 ≤ (proc.createSignal env c).2.noPosixTimers := by
  unfold Process.createSignal
  split
  · next e p halloc =>
    rw [timerAlloc_noPosixTimers halloc]
    exact hposix
  · next newp p halloc =>
    dsimp only
    cases hkc : env.ktimerCreate with
    | ok k => exact Int.one_nonneg
    | error e =>
        have hne : e ≠ ENOSYS := by
          rintro rfl
          exact hk hkc
        simp only [if_neg hne]
        exact Int.one_nonneg

/-- The process goes on to know that the kernel has timers. -/
theorem timerCreate_nonneg (hposix : 0 ≤ proc.noPosixTimers) (hclock : env.clockGetres = true)
    (hk : env.ktimerCreate ≠ .error ENOSYS) : 0 ≤ (proc.timerCreate env c).2.noPosixTimers := by
  unfold Process.timerCreate
  rw [if_pos hposix, hclock]
  split
  · simp only [if_pos (probe_pos hposix)]
    rw [createThread_noPosixTimers]
    exact Int.le_of_lt (probe_pos hposix)
  · exact createSignal_noPosixTimers hposix hk

end Create

/-! ### The other calls -/

section Other

variable {proc proc' : Process} {id : TimerT}

/-- The walk to the node before `kt` changes no more than a link. -/
theorem unlinkWalk_ktimerid {heap heap' : Addr → StructTimer} {kt : Addr} {fuel : Nat}
    {prevp : Option Addr} (h : Process.unlinkWalk heap kt fuel prevp = some heap') (b : Addr) :
    (heap' b).ktimerid = (heap b).ktimerid := by
  induction fuel generalizing prevp with
  | zero => cases h
  | succ fuel ih =>
      unfold Process.unlinkWalk at h
      split at h
      · cases h
      · next p =>
        split at h
        · cases h
          rfl
        · split at h
          · cases h
            by_cases hb : b = p
            · subst hb
              rw [Function.update_self]
            · rw [Function.update_of_ne hb]
          · exact ih h

/-- Taking a struct off the list changes no id. -/
theorem unlink_ktimerid {kt : Addr} (h : proc.unlink kt = some proc') :
    proc'.allTimers = proc.allTimers ∧ ∀ b, (proc'.heap b).ktimerid = (proc.heap b).ktimerid := by
  unfold Process.unlink at h
  split at h
  · cases h
    exact ⟨rfl, fun _ => rfl⟩
  · obtain ⟨heap, hwalk, rfl⟩ := Option.map_eq_some_iff.mp h
    exact ⟨rfl, unlinkWalk_ktimerid hwalk⟩

/-- A deleted timer is freed. What happens before changes neither the table nor the kernel timers
that the structs stand for. -/
theorem deleteTimer_eq_some {kt : Addr} (h : proc.deleteTimer kt = some proc') :
    ∃ p : Process, p.allTimers = proc.allTimers ∧
      (∀ b, (p.heap b).ktimerid = (proc.heap b).ktimerid) ∧ p.noPosixTimers = 1 ∧
      proc' = p.timerFree kt := by
  unfold Process.deleteTimer at h
  obtain ⟨p, hp, rfl⟩ := Option.map_eq_some_iff.mp h
  suffices hsame : p.allTimers = proc.allTimers ∧
      ∀ b, (p.heap b).ktimerid = (proc.heap b).ktimerid from
    ⟨{ p with noPosixTimers := 1 }, hsame.1, hsame.2, rfl, rfl⟩
  dsimp only at hp
  split at hp
  · obtain ⟨htable, hheap⟩ := unlink_ktimerid hp
    exact ⟨htable, hheap⟩
  · cases hp
    exact ⟨rfl, fun _ => rfl⟩

/-- A deleted timer is an id less. -/
theorem owners_deleteTimer (h : ProcessInv proc) {i : Nat} {a : Addr}
    (hslot : proc.allTimers i = some a) (hdelete : proc.deleteTimer a = some proc') :
    proc'.owners = Function.update proc.owners i none ∧ proc'.noPosixTimers = 1 := by
  obtain ⟨p, htable, hheap, hposix, rfl⟩ := deleteTimer_eq_some hdelete
  have hi : i < TIMER_MAX := h.lt i a hslot
  rw [← htable] at hslot
  have huniq : ∀ j, p.allTimers j = some a → j = i := by
    rw [htable] at hslot ⊢
    exact fun j hj => h.inj j i a hj hslot
  have hfreed := Process.timerFree_eq hi hslot huniq
  have hempty : (p.timerFree a).allTimers = Function.update proc.allTimers i none := by
    rw [hfreed, ← htable]
  refine ⟨owners_of_update hi hempty fun j b _ _ => ?_, ?_⟩
  · rw [hfreed]
    exact hheap b
  · rw [hfreed]
    exact hposix

/-- A deleted timer is an id less, and its timer is gone from the kernel. -/
theorem service_deleteTimer (h : ProcessInv proc) {i : Nat} {a : Addr}
    (hslot : proc.allTimers i = some a) (hdelete : proc.deleteTimer a = some proc') :
    proc'.service = proc.service.remove i (proc.heap a).ktimerid := by
  obtain ⟨howners, -⟩ := owners_deleteTimer h hslot hdelete
  obtain ⟨p, hp, -, hktimers⟩ := h.deleteTimer hslot
  cases hdelete.symm.trans hp
  ext j : 2
  · exact congrFun howners j
  · refine propext ?_
    show j ∈ proc'.ktimers.map Prod.fst ↔
      j ∈ proc.ktimers.map Prod.fst ∧ j ≠ (proc.heap a).ktimerid
    simp only [hktimers, List.mem_map, List.mem_filter, decide_eq_true_iff]
    constructor
    · rintro ⟨t, ⟨ht, hne⟩, rfl⟩
      exact ⟨⟨t, ht, rfl⟩, hne⟩
    · rintro ⟨⟨t, ht, rfl⟩, hne⟩
      exact ⟨t, ⟨ht, hne⟩, rfl⟩

/-- The kernel has the timer of an id that is in use. -/
theorem kernel_of_id (h : ProcessInv proc) {kt : Addr}
    (hid : kfreebsdTimerId2ptr proc.allTimers id = some kt) :
    proc.service.timer id = some (proc.heap kt).ktimerid ∧
      proc.service.kernel (proc.heap kt).ktimerid := by
  obtain ⟨j, -, -, hj⟩ := kfreebsdTimerId2ptr_eq_some hid
  refine ⟨?_, h.kernel j kt hj⟩
  show (kfreebsdTimerId2ptr proc.allTimers id).map _ = _
  rw [hid, Option.map_some]

/-- `timer_delete` as a step of the service. -/
theorem timerDelete_refines (h : ProcessInv proc) (hposix : 0 ≤ proc.noPosixTimers)
    {res : Except Errno Unit} (hres : res ≠ .error ENOSYS) {r : CallResult}
    (hdelete : proc.timerDelete res id = some (r, proc')) :
    Service.Step proc.service (.delete res id) (.deleted r) proc'.service ∧
      0 ≤ proc'.noPosixTimers := by
  unfold Process.timerDelete at hdelete
  rw [if_pos hposix] at hdelete
  split at hdelete
  · next hid =>
    cases hdelete
    exact ⟨.unknown (owners_eq_none.mpr hid), hposix⟩
  · next kt hid =>
    obtain ⟨htimer, hkernel⟩ := kernel_of_id h hid
    cases res with
    | ok u =>
        obtain ⟨j, -, rfl, hj⟩ := kfreebsdTimerId2ptr_eq_some hid
        obtain ⟨p, hp, heq⟩ := Option.map_eq_some_iff.mp hdelete
        cases heq
        rw [service_deleteTimer h hj hp, (owners_deleteTimer h hj hp).2]
        exact ⟨.deleted htimer hkernel, Int.one_nonneg⟩
    | error e =>
        have hne : e ≠ ENOSYS := by
          rintro rfl
          exact hres rfl
        simp only [if_neg hne] at hdelete
        cases hdelete
        refine ⟨.kept ?_, Int.one_nonneg⟩
        rw [htimer]
        exact Option.some_ne_none _

/-- The calls that only look a timer up, as steps of the service. -/
theorem ktimerCall_refines (h : ProcessInv proc) (hposix : 0 ≤ proc.noPosixTimers) (call : Ktimer)
    {res : Except Errno Int} (hres : res ≠ .error ENOSYS) (id : TimerT) :
    Service.Step proc.service (.ktimerCall call res id)
        (.called (proc.ktimerCall call res id).1 (proc.ktimerCall call res id).2.1)
        (proc.ktimerCall call res id).2.2.service ∧
      0 ≤ (proc.ktimerCall call res id).2.2.noPosixTimers := by
  unfold Process.ktimerCall
  rw [if_pos hposix]
  split
  · next hid => exact ⟨.invalid (owners_eq_none.mpr hid), hposix⟩
  · next kt hid =>
    obtain ⟨htimer, hkernel⟩ := kernel_of_id h hid
    cases res with
    | ok r => exact ⟨.called htimer hkernel, Int.one_nonneg⟩
    | error e =>
        have hne : e ≠ ENOSYS := by
          rintro rfl
          exact hres rfl
        simp only [if_neg hne]
        exact ⟨.failed htimer hkernel, Int.one_nonneg⟩

end Other

/-! ### Sequences of calls -/

/-- What ties a process to the service. -/
structure Provides (proc : Process) (service : Service) : Prop where
  inv : ProcessInv proc
  nonneg : 0 ≤ proc.noPosixTimers
  service : proc.service = service

/-- One call is a step of the service. -/
theorem call_refines (call : TimerCall) (proc : Process) (service : Service) (answer : TimerAnswer)
    (proc' : Process) (h : Provides proc service) (hsupported : call.Supported)
    (hs : timerCalls.step call proc = some (answer, proc')) :
    ∃ service', Service.Step service call answer service' ∧ Provides proc' service' := by
  obtain ⟨hinv, hposix, rfl⟩ := h
  cases call with
  | create env c =>
      obtain ⟨hclock, hk⟩ := hsupported
      simp only [timerCalls] at hs
      split at hs
      · next henv =>
        cases hs
        exact ⟨_, timerCreate_refines hinv.live hposix henv hclock hk,
          hinv.timerCreate henv, timerCreate_nonneg hposix hclock hk, rfl⟩
      · cases hs
  | delete res id =>
      simp only [timerCalls] at hs
      split at hs
      · obtain ⟨⟨r, p⟩, hdelete, heq⟩ := Option.map_eq_some_iff.mp hs
        cases heq
        obtain ⟨hstep, hposix'⟩ := timerDelete_refines hinv hposix hsupported hdelete
        obtain ⟨r', p', hdelete', hinv'⟩ := hinv.timerDelete res id
        cases hdelete.symm.trans hdelete'
        exact ⟨_, hstep, hinv', hposix', rfl⟩
      · cases hs
  | ktimerCall call res id =>
      cases hs
      obtain ⟨hstep, hposix'⟩ := ktimerCall_refines hinv hposix call hsupported id
      exact ⟨_, hstep, hinv.ktimerCall call res id, hposix', rfl⟩

/-- Every call returns. -/
theorem call_returns {proc : Process} (h : ProcessInv proc) {call : TimerCall}
    (hpossible : call.Possible proc) : (timerCalls.step call proc).isSome := by
  cases call with
  | create env c =>
      simp only [timerCalls, if_pos (show env.Possible proc from hpossible), Option.isSome_some]
  | delete res id =>
      obtain ⟨r, proc', hdelete, -⟩ := h.timerDelete res id
      simp only [timerCalls, if_pos (show proc.DeletePossible res id from hpossible), hdelete,
        Option.map_some, Option.isSome_some]
  | ktimerCall call res id => rfl

/-- A process that has made no timer call provides the service without ids. -/
theorem Process.Fresh.provides {proc : Process} (h : proc.Fresh) :
    Provides proc Service.empty where
  inv := h.inv
  nonneg := Int.le_of_eq h.noPosixTimers.symm
  service := by
    ext id : 2
    · show (kfreebsdTimerId2ptr proc.allTimers id).map _ = none
      unfold kfreebsdTimerId2ptr
      split
      · rw [h.allTimers id.toNat]
        rfl
      · rfl
    · refine propext ?_
      show id ∈ proc.ktimers.map Prod.fst ↔ False
      rw [h.ktimers]
      exact List.mem_nil_iff id

/-- On a kernel with timers, every sequence of calls of a process does what the service says, to the
ids of the process and to its timers in the kernel, and every next call returns. -/
theorem timerCalls_refine {proc₀ : Process} (hfresh : proc₀.Fresh) {calls : List TimerCall}
    (hsupported : ∀ call ∈ calls, call.Supported) {answers : List (TimerCall × TimerAnswer)}
    {proc : Process} (hrun : timerCalls.run calls proc₀ = some (answers, proc)) :
    Spec.Follows Service.Step Service.empty answers proc.service ∧
      ∀ call : TimerCall, call.Possible proc → (timerCalls.step call proc).isSome := by
  have hstep : ∀ call proc service answer proc', Provides proc service → call.Supported →
      timerCalls.step call proc = some (answer, proc') →
      ∃ service', Service.Step service call answer service' ∧ Provides proc' service' := by
    intro call proc service answer proc' h hs hcall
    exact call_refines call proc service answer proc' h hs hcall
  obtain ⟨service, hfollows, hprovides⟩ :=
    Spec.follows_of_run hstep hfresh.provides hsupported hrun
  obtain ⟨hinv, -, rfl⟩ := hprovides
  exact ⟨hfollows, fun call hpossible => call_returns hinv hpossible⟩

/-- A timer is created and set, deleted, and set again. -/
def createSetDeleteSet : List TimerCall :=
  [.create (createOk 7 3) ⟨0, none⟩, .ktimerCall .settime (.ok 0) 0, .delete (.ok ()) 0,
    .ktimerCall .settime (.ok 0) 0]

/-- The second `timer_settime` is refused. -/
theorem timerCalls_refine_deleted :
    ∃ answers proc, timerCalls.run createSetDeleteSet freshProcess = some (answers, proc) ∧
      Spec.Follows Service.Step Service.empty answers proc.service := by
  have hsome : (timerCalls.run createSetDeleteSet freshProcess).isSome = true := by decide +kernel
  obtain ⟨⟨answers, proc⟩, hrun⟩ := Option.isSome_iff_exists.mp hsome
  refine ⟨answers, proc, hrun, (timerCalls_refine freshProcess_fresh ?_ hrun).1⟩
  simp [createSetDeleteSet, TimerCall.Supported, createOk]

end GlibcPorts.Timer
