import Mathlib.Data.List.Perm.Subperm
import GlibcPorts.Lib.LinkedList
import GlibcPorts.Proofs.Timer.LiveTable

/-!
# `GlibcPorts.Proofs.Timer.ProcessInvariant`: the invariant of the calls of one process

`ProcessInv` ties the id table, the active list and the kernel's timers of a process together:
the structs in the table stand for distinct kernel timers that exist, and the list has the
`SIGEV_THREAD` timers of the table. The part about the table alone is `LiveTable`. Every call
keeps the invariant (`ProcessInv.timerCreate`, `ProcessInv.timerDelete`, `ProcessInv.ktimerCall`),
and `timer_delete` returns.
-/

set_option autoImplicit false

namespace GlibcPorts.Timer

open GlibcPorts.Lib (Linked)

/-- The structs `l` are those of the table that are `SIGEV_THREAD` timers, and the list in
memory has them. -/
def Process.ActiveIs (proc : Process) (l : List Addr) : Prop :=
  Linked (fun a => (proc.heap a).next) proc.activeTimerSigevThread l ∧
    ∀ a, a ∈ l ↔ (∃ i, proc.allTimers i = some a) ∧ (proc.heap a).sigevNotify = SIGEV_THREAD

/-- What holds between the calls of a process. -/
structure ProcessInv (proc : Process) : Prop where
  lt : ∀ i a, proc.allTimers i = some a → i < TIMER_MAX
  inj : ∀ i j a, proc.allTimers i = some a → proc.allTimers j = some a → i = j
  allocated : ∀ i a, proc.allTimers i = some a → proc.allocated a = true
  kernel : ∀ i a, proc.allTimers i = some a →
    (proc.heap a).ktimerid ∈ proc.ktimers.map Prod.fst
  distinct : ∀ i j a b, proc.allTimers i = some a → proc.allTimers j = some b →
    (proc.heap a).ktimerid = (proc.heap b).ktimerid → i = j
  active : ∃ l, proc.ActiveIs l

namespace ProcessInv

variable {proc proc' : Process} {a : Addr} {i : Nat}

/-- Memory that is in no slot does not matter, nor do the variables of the helper thread. -/
theorem congr (h : ProcessInv proc) (htable : proc'.allTimers = proc.allTimers)
    (hktimers : proc'.ktimers = proc.ktimers)
    (hactive : proc'.activeTimerSigevThread = proc.activeTimerSigevThread)
    (halloc : ∀ i a, proc.allTimers i = some a → proc'.allocated a = true)
    (hheap : ∀ i a, proc.allTimers i = some a → proc'.heap a = proc.heap a) :
    ProcessInv proc' := by
  constructor
  case lt =>
    rw [htable]
    exact h.lt
  case inj =>
    rw [htable]
    exact h.inj
  case allocated =>
    rw [htable]
    exact halloc
  case kernel =>
    intro i a hi
    rw [htable] at hi
    rw [hheap i a hi, hktimers]
    exact h.kernel i a hi
  case distinct =>
    intro i j a b hi hj heq
    rw [htable] at hi hj
    rw [hheap i a hi, hheap j b hj] at heq
    exact h.distinct i j a b hi hj heq
  case active =>
    obtain ⟨l, hlinked, hmem⟩ := h.active
    refine ⟨l, ?_, fun a => ?_⟩
    · rw [hactive]
      refine hlinked.congr fun a ha => ?_
      obtain ⟨⟨i, hi⟩, -⟩ := (hmem a).mp ha
      rw [hheap i a hi]
    · rw [hmem a, htable]
      constructor
      · rintro ⟨⟨i, hi⟩, hn⟩
        exact ⟨⟨i, hi⟩, by rw [hheap i a hi, hn]⟩
      · rintro ⟨⟨i, hi⟩, hn⟩
        exact ⟨⟨i, hi⟩, by rw [← hheap i a hi, hn]⟩

theorem live (h : ProcessInv proc) : LiveTable proc := ⟨h.lt, h.inj, h.allocated⟩

/-- A struct of the table is not the block that `malloc` returns. -/
theorem ne_of_malloc (h : ProcessInv proc) (hfree : proc.allocated a = false) {j : Nat} {b : Addr}
    (hj : proc.allTimers j = some b) : b ≠ a := h.live.ne_of_free hfree hj

/-- A new timer: the struct `a` gets the empty slot `i` and stands for a new kernel timer. If
it is a `SIGEV_THREAD` timer it becomes the head of the list. -/
theorem addTimer (h : ProcessInv proc) (ev : Sigevent) (hi : i < TIMER_MAX)
    (hnone : proc.allTimers i = none)
    (hfree : proc.allocated a = false)
    (htable : proc'.allTimers = Function.update proc.allTimers i (some a))
    (hheap : ∀ b, b ≠ a → proc'.heap b = proc.heap b)
    (halloc : proc'.allocated = Function.update proc.allocated a true)
    (hnew : (proc'.heap a).ktimerid ∉ proc.ktimers.map Prod.fst)
    (hktimers : proc'.ktimers = ((proc'.heap a).ktimerid, ev) :: proc.ktimers)
    (hactive : (proc'.heap a).sigevNotify ≠ SIGEV_THREAD ∧
          proc'.activeTimerSigevThread = proc.activeTimerSigevThread ∨
        (proc'.heap a).sigevNotify = SIGEV_THREAD ∧
          (proc'.heap a).next = proc.activeTimerSigevThread ∧
          proc'.activeTimerSigevThread = some a) :
    ProcessInv proc' := by
  -- The new struct was in no slot, since it was not allocated.
  have hne : ∀ j b, proc.allTimers j = some b → b ≠ a := fun _ _ => h.ne_of_malloc hfree
  have hslot : ∀ j b, proc'.allTimers j = some b →
      j = i ∧ b = a ∨ j ≠ i ∧ proc.allTimers j = some b :=
    fun j b hj => slot_of_update_some (htable ▸ hj)
  have hlive : LiveTable proc' := h.live.addSlot hi hfree htable halloc
  have hold : ∀ j b, proc.allTimers j = some b → proc'.allTimers j = some b := by
    intro j b hj
    have hji : j ≠ i := by
      rintro rfl
      rw [hnone] at hj
      cases hj
    rw [htable, Function.update_of_ne hji]
    exact hj
  have hself : proc'.allTimers i = some a := by
    rw [htable]
    exact Function.update_self i (some a) proc.allTimers
  -- No struct of the table has the id of the new kernel timer.
  have hid : ∀ j b, proc.allTimers j = some b →
      (proc'.heap b).ktimerid ≠ (proc'.heap a).ktimerid := by
    intro j b hj heq
    rw [hheap b (hne j b hj)] at heq
    exact hnew (heq ▸ h.kernel j b hj)
  refine ⟨hlive.lt, hlive.inj, hlive.allocated, ?kernel, ?distinct, ?active⟩
  case kernel =>
    intro j b hj
    rw [hktimers, List.map_cons]
    rcases hslot j b hj with ⟨-, rfl⟩ | ⟨-, hj⟩
    · exact List.mem_cons_self
    · refine List.mem_cons_of_mem _ ?_
      rw [hheap b (hne j b hj)]
      exact h.kernel j b hj
  case distinct =>
    intro j k b c hj hk heq
    rcases hslot j b hj with ⟨rfl, rfl⟩ | ⟨-, hj⟩
    · rcases hslot k c hk with ⟨rfl, -⟩ | ⟨-, hk⟩
      · rfl
      · exact absurd heq.symm (hid k c hk)
    · rcases hslot k c hk with ⟨-, rfl⟩ | ⟨-, hk⟩
      · exact absurd heq (hid j b hj)
      · rw [hheap b (hne j b hj), hheap c (hne k c hk)] at heq
        exact h.distinct j k b c hj hk heq
  case active =>
    obtain ⟨l, hlinked, hmem⟩ := h.active
    -- The list has structs of the table, so the new one is not among them.
    have hal : a ∉ l := by
      intro ha
      obtain ⟨⟨j, hj⟩, -⟩ := (hmem a).mp ha
      exact hne j a hj rfl
    have hlinked' : Linked (fun b => (proc'.heap b).next) proc.activeTimerSigevThread l := by
      refine hlinked.congr fun b hb => ?_
      rw [hheap b]
      rintro rfl
      exact hal hb
    have hmem' : ∀ b, b ≠ a → (b ∈ l ↔
        (∃ j, proc'.allTimers j = some b) ∧ (proc'.heap b).sigevNotify = SIGEV_THREAD) := by
      intro b hb
      rw [hmem b, hheap b hb]
      refine and_congr_left fun _ => ⟨fun ⟨j, hj⟩ => ⟨j, hold j b hj⟩, fun ⟨j, hj⟩ => ?_⟩
      rcases hslot j b hj with ⟨-, rfl⟩ | ⟨-, hj⟩
      · exact absurd rfl hb
      · exact ⟨j, hj⟩
    rcases hactive with ⟨hn, hhead⟩ | ⟨hn, hnext, hhead⟩
    · refine ⟨l, ?_, fun b => ?_⟩
      · rw [hhead]
        exact hlinked'
      · by_cases hb : b = a
        · subst hb
          exact ⟨fun hb => absurd hb hal, fun hb => absurd hb.2 hn⟩
        · exact hmem' b hb
    · refine ⟨a :: l, ?_, fun b => ?_⟩
      · rw [hhead]
        exact hlinked'.push hnext
      · by_cases hb : b = a
        · subst hb
          exact ⟨fun _ => ⟨⟨i, hself⟩, hn⟩, fun _ => List.mem_cons_self⟩
        · rw [List.mem_cons, hmem' b hb]
          exact or_iff_right hb

/-- The struct `a` in the slot `i` is removed, with its kernel timer, and from the list if it is
a `SIGEV_THREAD` timer. -/
theorem removeTimer (h : ProcessInv proc) (hslot : proc.allTimers i = some a)
    (htable : proc'.allTimers = Function.update proc.allTimers i none)
    (halloc : ∀ b, b ≠ a → proc'.allocated b = proc.allocated b)
    (hfields : ∀ b, (proc'.heap b).ktimerid = (proc.heap b).ktimerid ∧
      (proc'.heap b).sigevNotify = (proc.heap b).sigevNotify)
    (hktimers : proc'.ktimers = proc.ktimers.filter fun t => t.1 ≠ (proc.heap a).ktimerid)
    (hactive : ∀ l, proc.ActiveIs l →
      Linked (fun b => (proc'.heap b).next) proc'.activeTimerSigevThread (l.erase a)) :
    ProcessInv proc' := by
  have hlive : LiveTable proc' := h.live.removeSlot hslot htable halloc
  have hstays : ∀ j b, proc'.allTimers j = some b ↔ proc.allTimers j = some b ∧ b ≠ a :=
    fun j b => h.live.slot_removed_iff hslot htable
  refine ⟨hlive.lt, hlive.inj, hlive.allocated, ?kernel, ?distinct, ?active⟩
  case kernel =>
    intro j b hj
    obtain ⟨hj, hb⟩ := (hstays j b).mp hj
    rw [(hfields b).1, hktimers]
    obtain ⟨t, ht, hid⟩ := List.mem_map.mp (h.kernel j b hj)
    refine List.mem_map.mpr ⟨t, List.mem_filter.mpr ⟨ht, ?_⟩, hid⟩
    -- Another struct stands for another kernel timer.
    refine decide_eq_true fun heq => hb ?_
    have hji := h.distinct j i b a hj hslot (hid.symm.trans heq)
    rw [hji, hslot] at hj
    exact (Option.some.inj hj).symm
  case distinct =>
    intro j k b c hj hk heq
    rw [(hfields b).1, (hfields c).1] at heq
    exact h.distinct j k b c ((hstays j b).mp hj).1 ((hstays k c).mp hk).1 heq
  case active =>
    obtain ⟨l, hl⟩ := h.active
    -- A list in memory has no node twice, so `erase` removes `a` for good.
    refine ⟨l.erase a, hactive l hl, fun b => ?_⟩
    rw [hl.1.nodup.mem_erase_iff, hl.2 b, (hfields b).2]
    constructor
    · rintro ⟨hb, ⟨j, hj⟩, hn⟩
      exact ⟨⟨j, (hstays j b).mpr ⟨hj, hb⟩⟩, hn⟩
    · rintro ⟨⟨j, hj⟩, hn⟩
      obtain ⟨hj, hb⟩ := (hstays j b).mp hj
      exact ⟨hb, ⟨j, hj⟩, hn⟩

/-! ### `timer_create` -/

/-- A failed allocation. -/
theorem timerAlloc_error {block : Option (Addr × StructTimer)} {e : Errno} (h : ProcessInv proc)
    (hfree : ∀ b ∈ block, proc.allocated b.1 = false)
    (halloc : proc.timerAlloc block = (.error e, proc')) : ProcessInv proc' := by
  rcases Process.timerAlloc_error halloc with rfl | ⟨b, bytes, hblock, rfl⟩
  · exact h
  · have hb : proc.allocated b = false := hfree (b, bytes) hblock
    refine h.congr rfl rfl rfl (fun i c hc => ?_) fun i c hc => ?_
    · show Function.update proc.allocated b true c = true
      rw [Function.update_of_ne (h.ne_of_malloc hb hc)]
      exact h.allocated i c hc
    · exact Function.update_of_ne (h.ne_of_malloc hb hc) _ _

/-- An allocation that is undone: the table is as before, and the memory of its structs too. -/
theorem timerFree (h : ProcessInv proc) (hi : i < TIMER_MAX) (hnone : proc.allTimers i = none)
    (hfree : proc.allocated a = false)
    (htable : proc'.allTimers = Function.update proc.allTimers i (some a))
    (hheap : ∀ b, b ≠ a → proc'.heap b = proc.heap b)
    (halloc : proc'.allocated = Function.update proc.allocated a true)
    (hktimers : proc'.ktimers = proc.ktimers)
    (hactive : proc'.activeTimerSigevThread = proc.activeTimerSigevThread) :
    ProcessInv (proc'.timerFree a) := by
  have hslot : proc'.allTimers i = some a := by
    rw [htable]
    exact Function.update_self i (some a) proc.allTimers
  have huniq : ∀ j, proc'.allTimers j = some a → j = i := by
    intro j hj
    by_contra hji
    rw [htable, Function.update_of_ne hji] at hj
    exact h.ne_of_malloc hfree hj rfl
  rw [Process.timerFree_eq hi hslot huniq]
  -- The slot is empty again, and the other structs were not touched.
  refine h.congr ?_ hktimers hactive (fun j b hj => ?_) fun j b hj => ?_
  · show Function.update proc'.allTimers i none = proc.allTimers
    rw [htable, Function.update_idem, ← hnone]
    exact Function.update_eq_self i proc.allTimers
  · show Function.update proc'.allocated a false b = true
    have hba := h.ne_of_malloc hfree hj
    rw [Function.update_of_ne hba, halloc, Function.update_of_ne hba]
    exact h.allocated j b hj
  · exact hheap b (h.ne_of_malloc hfree hj)

/-- The variables of the helper thread do not matter. -/
theorem pthreadOnce (h : ProcessInv proc) (tid : Option Lwpid) :
    ProcessInv (proc.pthreadOnce tid) ∧ (proc.pthreadOnce tid).allocated = proc.allocated ∧
      (proc.pthreadOnce tid).ktimers = proc.ktimers := by
  unfold Process.pthreadOnce Process.startHelperThread
  split
  · exact ⟨h, rfl, rfl⟩
  · cases tid with
    | none => exact ⟨h.congr rfl rfl rfl h.allocated fun _ _ _ => rfl, rfl, rfl⟩
    | some tid => exact ⟨h.congr rfl rfl rfl h.allocated fun _ _ _ => rfl, rfl, rfl⟩

/-- `timer_create` for a `SIGEV_THREAD` timer. -/
theorem createThread (h : ProcessInv proc) {env : CreateEnv} {c : CreateArgs}
    (henv : env.Possible proc) (hc : wantsThread c.evp = true) :
    ProcessInv (proc.createThread env c).2 := by
  obtain ⟨hmalloc, -, hnew⟩ := henv
  obtain ⟨h₁, halloc₁, hktimers₁⟩ := h.pthreadOnce env.pthreadCreate
  rw [← halloc₁] at hmalloc
  rw [← hktimers₁] at hnew
  unfold Process.createThread
  simp only
  -- From here on only the invariant of the process after `pthread_once` matters.
  generalize proc.pthreadOnce env.pthreadCreate = proc₁ at h₁ hmalloc hnew
  split
  · exact h₁
  · split
    · next e proc' halloc => exact h₁.timerAlloc_error hmalloc halloc
    · next newp proc' halloc =>
      obtain ⟨bytes, i, hblock, hi, hnone, rfl⟩ := Process.timerAlloc_ok halloc
      have hfree : proc₁.allocated newp = false := hmalloc (newp, bytes) hblock
      obtain ⟨ev, hev⟩ : ∃ ev, c.evp = some ev := by
        cases hevp : c.evp with
        | none => simp [hevp, wantsThread] at hc
        | some ev => exact ⟨ev, rfl⟩
      have hheap : ∀ (t t' : StructTimer) b, b ≠ newp → Function.update
          (Function.update proc₁.heap newp t) newp t' b = proc₁.heap b := by
        intro t t' b hb
        rw [Function.update_of_ne hb, Function.update_of_ne hb]
      simp only [Process.fillThread, hev]
      cases hres : env.ktimerCreate with
      | error e => exact h₁.timerFree hi hnone hfree rfl (hheap _ _) rfl rfl rfl
      | ok k =>
          rw [hres] at hnew
          refine h₁.addTimer (threadSigevent newp proc₁.helperTid) hi hnone hfree rfl ?_ rfl ?_ ?_
            (.inr ⟨?_, ?_, rfl⟩)
          · -- The allocation, the parameters and the push store to the new struct alone.
            intro b hb
            show Function.update (Function.update (Function.update proc₁.heap newp _) newp _) newp _
              b = proc₁.heap b
            rw [Function.update_of_ne hb]
            exact hheap _ _ b hb
          · simpa [Process.registerThread, Process.store] using hnew k rfl
          · simp [Process.registerThread, Process.store, Process.allocate]
          · simp [Process.registerThread, Process.store, StructTimer.withThreadParams]
          · simp [Process.registerThread, Process.store, Process.allocate]

/-- `timer_create` for every other timer. -/
theorem createSignal (h : ProcessInv proc) {env : CreateEnv} {c : CreateArgs}
    (henv : env.Possible proc) (hc : wantsThread c.evp = false) :
    ProcessInv (proc.createSignal env c).2 := by
  obtain ⟨hmalloc, -, hnew⟩ := henv
  unfold Process.createSignal
  split
  · next e proc' halloc => exact h.timerAlloc_error hmalloc halloc
  · next newp proc' halloc =>
    obtain ⟨bytes, i, hblock, hi, hnone, rfl⟩ := Process.timerAlloc_ok halloc
    have hfree : proc.allocated newp = false := hmalloc (newp, bytes) hblock
    have hheap : ∀ (t : StructTimer) b, b ≠ newp →
        Function.update proc.heap newp t b = proc.heap b :=
      fun t b hb => Function.update_of_ne hb _ _
    have hev : (c.evp.getD (defaultSigevent newp)).sigevNotify ≠ SIGEV_THREAD := by
      cases hevp : c.evp with
      | none => simp [defaultSigevent, SIGEV_SIGNAL, SIGEV_THREAD]
      | some ev => simpa [hevp, wantsThread] using hc
    cases hres : env.ktimerCreate with
    | error e =>
        have hinv : ProcessInv ((proc.allocate newp bytes i).timerFree newp) :=
          h.timerFree hi hnone hfree rfl (hheap bytes) rfl rfl rfl
        simp only
        split
        · exact hinv.congr rfl rfl rfl hinv.allocated fun _ _ _ => rfl
        · exact hinv.congr rfl rfl rfl hinv.allocated fun _ _ _ => rfl
    | ok k =>
        rw [hres] at hnew
        refine h.addTimer (c.evp.getD (defaultSigevent newp)) hi hnone hfree rfl ?_ rfl ?_ ?_
          (.inl ⟨?_, rfl⟩)
        · intro b hb
          show Function.update (Function.update proc.heap newp _) newp _ b = proc.heap b
          rw [Function.update_of_ne hb]
          exact hheap _ b hb
        · simpa [Process.store, Process.allocate] using hnew k rfl
        · simp [Process.store, Process.allocate]
        · simpa [Process.store, Process.allocate] using hev

/-- `timer_create`. -/
theorem timerCreate (h : ProcessInv proc) {env : CreateEnv} {c : CreateArgs}
    (henv : env.Possible proc) : ProcessInv (proc.timerCreate env c).2 := by
  have hprobe : ProcessInv (proc.probe env.clockGetres) ∧
      env.Possible (proc.probe env.clockGetres) := by
    unfold Process.probe
    split
    · exact ⟨h.congr rfl rfl rfl h.allocated fun _ _ _ => rfl, henv⟩
    · exact ⟨h, henv⟩
  unfold Process.timerCreate
  split
  · split
    · next hc =>
      simp only
      split
      · exact hprobe.1.createThread hprobe.2 hc
      · exact hprobe.1
    · next hc => exact h.createSignal henv (by simpa using hc)
  · exact h

/-! ### `timer_delete` and the other calls on an id -/

/-- The list has at most as many nodes as the table has slots. -/
theorem length_le (h : ProcessInv proc) {l : List Addr} (hl : proc.ActiveIs l) :
    l.length ≤ TIMER_MAX := by
  -- Each node is in a slot, and no node is there twice.
  have hsub : l ⊆ (List.range TIMER_MAX).filterMap proc.allTimers := by
    intro a ha
    obtain ⟨⟨i, hi⟩, -⟩ := (hl.2 a).mp ha
    exact List.mem_filterMap.mpr ⟨i, List.mem_range.mpr (h.lt i a hi), hi⟩
  calc l.length
    _ ≤ ((List.range TIMER_MAX).filterMap proc.allTimers).length :=
        (List.subperm_of_subset hl.1.nodup hsub).length_le
    _ ≤ (List.range TIMER_MAX).length := List.length_filterMap_le _ _
    _ = TIMER_MAX := List.length_range

/-- The walk that starts before the struct `kt` finds the node before it. -/
theorem unlinkWalk_eq {heap : Addr → StructTimer} {kt p : Addr} {l : List Addr} {fuel : Nat}
    (hlinked : Linked (fun a => (heap a).next) (some p) (p :: l)) (hkt : kt ∈ l)
    (hfuel : l.length ≤ fuel) :
    ∃ l₁ q l₂, p :: l = l₁ ++ q :: kt :: l₂ ∧ Process.unlinkWalk heap kt fuel (some p) =
      some (Function.update heap q { heap q with next := (heap kt).next }) := by
  induction l generalizing p fuel with
  | nil => cases hkt
  | cons q l ih =>
      obtain ⟨-, hq⟩ := hlinked
      cases fuel with
      | zero => simp at hfuel
      | succ fuel =>
          have hnext : (heap p).next = some q := hq.1
          by_cases hqk : q = kt
          · subst hqk
            refine ⟨[], p, l, rfl, ?_⟩
            simp [Process.unlinkWalk, hnext]
          · have hq : Linked (fun a => (heap a).next) (some q) (q :: l) := ⟨rfl, hq.2⟩
            have hkt' : kt ∈ l := (List.mem_cons.mp hkt).resolve_left fun h => hqk h.symm
            obtain ⟨l₁, r, l₂, heq, hwalk⟩ := ih hq hkt' (by simpa using hfuel)
            refine ⟨p :: l₁, r, l₂, by rw [heq]; rfl, ?_⟩
            simp only [Process.unlinkWalk, hnext, if_neg hqk]
            exact hwalk

/-- The removal of a node of the list returns. It changes `next` fields and the head only, and
leaves the list without the node. -/
theorem unlink_eq (h : ProcessInv proc) {l : List Addr} (hl : proc.ActiveIs l) (ha : a ∈ l) :
    ∃ heap head, proc.unlink a = some { proc with heap := heap, activeTimerSigevThread := head } ∧
      Linked (fun b => (heap b).next) head (l.erase a) ∧
      ∀ b, (heap b).ktimerid = (proc.heap b).ktimerid ∧
        (heap b).sigevNotify = (proc.heap b).sigevNotify := by
  have hlen := h.length_le hl
  obtain ⟨hlinked, -⟩ := hl
  unfold Process.unlink
  split
  · next hhead =>
    rw [hhead] at hlinked
    exact ⟨proc.heap, (proc.heap a).next, rfl, hlinked.unlink_head, fun _ => ⟨rfl, rfl⟩⟩
  · next hhead =>
    cases l with
    | nil => cases ha
    | cons p l =>
        -- The struct is behind the first node, so the walk ends in front of it.
        have hp : proc.activeTimerSigevThread = some p := hlinked.1
        have hal : a ∈ l := by
          refine (List.mem_cons.mp ha).resolve_left ?_
          rintro rfl
          exact hhead hp
        rw [hp] at hlinked ⊢
        obtain ⟨l₁, q, l₂, heq, hwalk⟩ :=
          unlinkWalk_eq hlinked hal (Nat.le_trans (Nat.le_succ _) hlen)
        rw [hwalk, ← hp]
        refine ⟨_, _, rfl, ?_, fun b => ?_⟩
        · rw [hp]
          rw [heq] at hlinked ⊢
          refine hlinked.unlink_after.congr fun b _ => ?_
          by_cases hb : b = q
          · subst hb
            simp
          · simp [hb]
        · by_cases hb : b = q
          · subst hb
            simp
          · simp [hb]

/-- `timer_delete` after a successful `ktimer_delete`, on a struct of the table: it returns,
and only this kernel timer is gone. -/
theorem deleteTimer (h : ProcessInv proc) (hslot : proc.allTimers i = some a) :
    ∃ proc', proc.deleteTimer a = some proc' ∧ ProcessInv proc' ∧
      proc'.ktimers = proc.ktimers.filter fun t => t.1 ≠ (proc.heap a).ktimerid := by
  have hi : i < TIMER_MAX := h.lt i a hslot
  have huniq : ∀ j, proc.allTimers j = some a → j = i := fun j hj => h.inj j i a hj hslot
  have htable : ∀ p : Process, p.allTimers = proc.allTimers →
      (p.timerFree a).allTimers = Function.update proc.allTimers i none := by
    intro p hp
    rw [← hp] at hslot huniq
    rw [Process.timerFree_eq hi hslot huniq, hp]
  obtain ⟨l, hl⟩ := h.active
  have hother : ∀ b, b ≠ a → Function.update proc.allocated a false b = proc.allocated b :=
    fun b hb => Function.update_of_ne hb _ _
  unfold Process.deleteTimer
  by_cases hn : (proc.heap a).sigevNotify = SIGEV_THREAD
  · have ha : a ∈ l := (hl.2 a).mpr ⟨⟨i, hslot⟩, hn⟩
    obtain ⟨heap, head, hunlink, hlinked, hfields⟩ := h.unlink_eq hl ha
    simp only [if_pos hn]
    -- The list does not depend on the kernel timers.
    have hunlink' : { proc with ktimers := proc.ktimers.filter fun t =>
        t.1 ≠ (proc.heap a).ktimerid }.unlink a = (proc.unlink a).map fun p => { p with
          ktimers := proc.ktimers.filter fun t => t.1 ≠ (proc.heap a).ktimerid } := by
      unfold Process.unlink
      split
      · rfl
      · rw [Option.map_map]
        rfl
    rw [hunlink', hunlink]
    refine ⟨_, rfl, h.removeTimer hslot (htable _ rfl) hother hfields rfl fun l' hl' => ?_, rfl⟩
    rw [hl'.1.unique hl.1]
    exact hlinked
  · have ha : a ∉ l := fun ha => hn ((hl.2 a).mp ha).2
    simp only [if_neg hn]
    refine ⟨_, rfl, h.removeTimer hslot (htable _ rfl) hother (fun _ => ⟨rfl, rfl⟩) rfl
      fun l' hl' => ?_, rfl⟩
    rw [hl'.1.unique hl.1, List.erase_of_not_mem ha]
    exact hl.1

/-- `timer_delete` returns, and keeps the invariant. -/
theorem timerDelete (h : ProcessInv proc) (res : Except Errno Unit) (id : TimerT) :
    ∃ r proc', proc.timerDelete res id = some (r, proc') ∧ ProcessInv proc' := by
  have hvar : ∀ n, ProcessInv { proc with noPosixTimers := n } :=
    fun n => h.congr rfl rfl rfl h.allocated fun _ _ _ => rfl
  unfold Process.timerDelete
  split
  · split
    · exact ⟨_, proc, rfl, h⟩
    · next kt hid =>
      cases res with
      | ok u =>
          obtain ⟨j, -, -, hj⟩ := kfreebsdTimerId2ptr_eq_some hid
          obtain ⟨proc', hdelete, hinv, -⟩ := h.deleteTimer hj
          exact ⟨.ok 0, proc', by simp only [hdelete, Option.map_some], hinv⟩
      | error e =>
          simp only
          split
          · exact ⟨_, _, rfl, hvar (-1)⟩
          · exact ⟨_, _, rfl, hvar 1⟩
  · exact ⟨_, proc, rfl, h⟩

/-- The calls that only look a timer up. -/
theorem ktimerCall (h : ProcessInv proc) (call : Ktimer) (res : Except Errno Int) (id : TimerT) :
    ProcessInv (proc.ktimerCall call res id).2.2 := by
  have hvar : ∀ n, ProcessInv { proc with noPosixTimers := n } :=
    fun n => h.congr rfl rfl rfl h.allocated fun _ _ _ => rfl
  unfold Process.ktimerCall
  split
  · split
    · exact h
    · cases res with
      | ok r => exact hvar 1
      | error e =>
          simp only
          split
          · exact hvar (-1)
          · exact hvar 1
  · exact h

end ProcessInv

end GlibcPorts.Timer
