import GlibcPorts.Proofs.Timer.LiveTable
import GlibcPorts.Proofs.Timer.Processes

/-!
# `GlibcPorts.Proofs.Timer.Create`: the outcomes of `timer_create`

`CreateOutcome` lists what a call of `timer_create` can come to, with what each case does to the
table, the active list and the allocated structs, and `timerCreate_outcome` says that there is no
other case. Two results about whole calls follow.

* `timerCreate_atomic_iff`: a call that does not create a timer leaves all of them as they were,
  unless the table is full. Then `__kfreebsd_timer_alloc` returns `NULL` and keeps the block that
  `malloc` gave it.
* `timerCreate_default_value_iff`: the event that stands for a `NULL` `evp` carries the address of
  the struct, and the id is the index of its slot. The value that the program gets is the id only
  if the two are the same number.

What they need of the state is `LiveTable`. It holds of every process in every run, whatever
processes fork (`reachable_liveTable`).
-/

set_option autoImplicit false

namespace GlibcPorts.Timer

/-- The table, the active list and the allocated structs are the same. -/
structure Process.SameTimers (proc proc' : Process) : Prop where
  allTimers : proc'.allTimers = proc.allTimers
  activeTimerSigevThread : proc'.activeTimerSigevThread = proc.activeTimerSigevThread
  allocated : proc'.allocated = proc.allocated
  heap : ∀ a, proc.allocated a = true → proc'.heap a = proc.heap a

/-- The processes differ in the variables of the helper thread and in `__no_posix_timers` at
most. -/
structure Process.SameState (proc proc' : Process) : Prop where
  allTimers : proc'.allTimers = proc.allTimers
  activeTimerSigevThread : proc'.activeTimerSigevThread = proc.activeTimerSigevThread
  allocated : proc'.allocated = proc.allocated
  heap : proc'.heap = proc.heap
  ktimers : proc'.ktimers = proc.ktimers

/-- The block `a` is allocated and in the slot `slot`, if there is one, and nothing else is
different. -/
structure Process.HasBlock (proc proc' : Process) (a : Addr) (slot : Option Nat) : Prop where
  allTimers : proc'.allTimers =
    slot.elim proc.allTimers fun i => Function.update proc.allTimers i (some a)
  allocated : proc'.allocated = Function.update proc.allocated a true
  heap : ∀ b, b ≠ a → proc'.heap b = proc.heap b

/-- There is a helper thread after `pthread_once`. -/
def Process.HelperUp (proc : Process) (env : CreateEnv) : Prop :=
  (if proc.helperOnce then proc.helperTid else env.pthreadCreate.getD proc.helperTid) ≠ 0

/-- The call gets to `__kfreebsd_timer_alloc`: the kernel has timers as far as the process knows,
and where the event is a thread the probe succeeds and there is a helper thread. -/
def Process.Allocates (proc : Process) (env : CreateEnv) (c : CreateArgs) : Prop :=
  0 ≤ proc.noPosixTimers ∧ (wantsThread c.evp = true →
    (0 < proc.noPosixTimers ∨ env.clockGetres = true) ∧ proc.HelperUp env)

/-- What a call of `timer_create` comes to. -/
inductive CreateOutcome (proc : Process) (env : CreateEnv) (c : CreateArgs) :
    CreateResult → Process → Prop
  /-- It does not get to the allocation. -/
  | idle {res : CreateResult} {proc' : Process} (halloc : ¬ proc.Allocates env c)
      (hres : ∀ id, res ≠ .ok id) (hsame : proc.SameTimers proc') :
      CreateOutcome proc env c res proc'
  /-- `malloc` fails. -/
  | noMemory {e : Errno} {proc' : Process} (hmalloc : env.malloc = none)
      (hsame : proc.SameTimers proc') : CreateOutcome proc env c (.error e) proc'
  /-- There is a block and no slot for it. -/
  | full {a : Addr} {bytes : StructTimer} {proc' : Process} (halloc : proc.Allocates env c)
      (hmalloc : env.malloc = some (a, bytes)) (hslot : freeSlot proc.allTimers = none)
      (hblock : proc.HasBlock proc' a none) : CreateOutcome proc env c (.error EAGAIN) proc'
  /-- The kernel creates no timer, and the block is freed. -/
  | undone {a : Addr} {bytes : StructTimer} {i : Nat} {e : Errno} {res : CreateResult}
      {p proc' : Process}
      (hmalloc : env.malloc = some (a, bytes)) (hslot : freeSlot proc.allTimers = some i)
      (hktimer : env.ktimerCreate = .error e) (hres : ∀ id, res ≠ .ok id)
      (hblock : proc.HasBlock p a (some i))
      (hactive : p.activeTimerSigevThread = proc.activeTimerSigevThread)
      (hfree : (p.timerFree a).SameTimers proc') : CreateOutcome proc env c res proc'
  /-- There is a new timer. -/
  | created {a : Addr} {bytes : StructTimer} {i : Nat} {k : KernelTimerT} {ev : Sigevent}
      {proc' : Process}
      (hmalloc : env.malloc = some (a, bytes)) (hslot : freeSlot proc.allTimers = some i)
      (hblock : proc.HasBlock proc' a (some i))
      (hktimers : proc'.ktimers = (k, ev) :: proc.ktimers)
      (hevent : wantsThread c.evp = false → ev = c.evp.getD (defaultSigevent a)) :
      CreateOutcome proc env c (.ok (kfreebsdTimerPtr2id proc'.allTimers a)) proc'

namespace Process

variable {proc proc' : Process} {a : Addr} {bytes : StructTimer} {i : Nat}

/-- Nothing changed. -/
theorem SameTimers.refl (proc : Process) : proc.SameTimers proc :=
  ⟨rfl, rfl, rfl, fun _ _ => rfl⟩

/-- One after the other. -/
theorem SameTimers.trans {p : Process} (h : proc.SameTimers proc') (h' : proc'.SameTimers p) :
    proc.SameTimers p :=
  ⟨h'.allTimers.trans h.allTimers, h'.activeTimerSigevThread.trans h.activeTimerSigevThread,
    h'.allocated.trans h.allocated, fun a ha =>
      (h'.heap a ((congrFun h.allocated a).trans ha)).trans (h.heap a ha)⟩

/-- Nothing changed. -/
theorem SameState.refl (proc : Process) : proc.SameState proc := ⟨rfl, rfl, rfl, rfl, rfl⟩

/-- One after the other. -/
theorem SameState.trans {p : Process} (h : proc.SameState proc') (h' : proc'.SameState p) :
    proc.SameState p :=
  ⟨h'.allTimers.trans h.allTimers, h'.activeTimerSigevThread.trans h.activeTimerSigevThread,
    h'.allocated.trans h.allocated, h'.heap.trans h.heap, h'.ktimers.trans h.ktimers⟩

/-- The same state has the same timers. -/
theorem SameState.sameTimers (h : proc.SameState proc') : proc.SameTimers proc' :=
  ⟨h.allTimers, h.activeTimerSigevThread, h.allocated, fun a _ => congrFun h.heap a⟩

/-- The probe decides only `__no_posix_timers`. -/
theorem probe_eq (proc : Process) (clockGetres : Bool) (h : 0 ≤ proc.noPosixTimers) :
    ∃ n, proc.probe clockGetres = { proc with noPosixTimers := n } ∧
      (0 < n ↔ 0 < proc.noPosixTimers ∨ clockGetres = true) := by
  unfold probe
  split
  · next hzero =>
    refine ⟨_, rfl, ?_⟩
    cases clockGetres <;> simp [hzero]
  · next hne => exact ⟨proc.noPosixTimers, rfl, by omega⟩

/-- The start of the helper thread leaves the timers alone. -/
theorem pthreadOnce_sameState (proc : Process) (tid : Option Lwpid) :
    proc.SameState (proc.pthreadOnce tid) ∧ (proc.pthreadOnce tid).helperTid =
      if proc.helperOnce then proc.helperTid else tid.getD proc.helperTid := by
  unfold pthreadOnce startHelperThread
  split
  · exact ⟨.refl proc, rfl⟩
  · cases tid with
    | none => exact ⟨⟨rfl, rfl, rfl, rfl, rfl⟩, rfl⟩
    | some tid => exact ⟨⟨rfl, rfl, rfl, rfl, rfl⟩, rfl⟩

/-- What the allocation comes to. -/
theorem timerAlloc_cases {p : Process} (h : proc.SameState p)
    (block : Option (Addr × StructTimer)) :
    (block = none ∧ ∃ e, p.timerAlloc block = (.error e, p)) ∨
      (∃ a bytes p', block = some (a, bytes) ∧ freeSlot proc.allTimers = none ∧
        p.timerAlloc block = (.error EAGAIN, p') ∧ proc.HasBlock p' a none) ∨
      ∃ a bytes i p', block = some (a, bytes) ∧ freeSlot proc.allTimers = some i ∧
        p.timerAlloc block = (.ok a, p') ∧ proc.HasBlock p' a (some i) ∧
        p'.activeTimerSigevThread = proc.activeTimerSigevThread ∧ p'.ktimers = proc.ktimers := by
  have hheap : ∀ a bytes b, b ≠ a → Function.update p.heap a bytes b = proc.heap b :=
    fun a bytes b hb => (Function.update_of_ne hb _ _).trans (congrFun h.heap b)
  have halloc : ∀ a, Function.update p.allocated a true = Function.update proc.allocated a true :=
    fun a => congrArg (Function.update · a true) h.allocated
  rw [← h.allTimers]
  cases block with
  | none =>
      refine .inl ⟨rfl, ?_⟩
      cases hslot : freeSlot p.allTimers with
      | none => exact ⟨EAGAIN, by simp only [timerAlloc, hslot]⟩
      | some i =>
          -- The slot had `NULL` before.
          obtain ⟨-, hnone⟩ := freeSlot_eq_some hslot
          have hupdate : Function.update p.allTimers i none = p.allTimers := by
            rw [← hnone]
            exact Function.update_eq_self i p.allTimers
          exact ⟨ENOMEM, by simp only [timerAlloc, hslot, Option.map_none, hupdate]⟩
  | some block =>
      obtain ⟨a, bytes⟩ := block
      right
      cases hslot : freeSlot p.allTimers with
      | none =>
          refine .inl ⟨a, bytes,
            { p.store a bytes with allocated := Function.update p.allocated a true }, rfl, rfl, ?_,
            h.allTimers, halloc a, hheap a bytes⟩
          simp only [timerAlloc, store, hslot]
      | some i =>
          refine .inr ⟨a, bytes, i, p.allocate a bytes i, rfl, rfl, ?_,
            ⟨?_, halloc a, hheap a bytes⟩, h.activeTimerSigevThread, h.ktimers⟩
          · simp only [timerAlloc, store, hslot]
            rfl
          · exact congrArg (Function.update · i (some a)) h.allTimers

/-- The stores to the new struct. -/
theorem HasBlock.store {slot : Option Nat} (h : proc.HasBlock proc' a slot) (timer : StructTimer) :
    proc.HasBlock (proc'.store a timer) a slot :=
  ⟨h.allTimers, h.allocated, fun b hb => (Function.update_of_ne hb _ _).trans (h.heap b hb)⟩

/-- A new block is in its slot and in no other. -/
theorem HasBlock.slot_iff (hblock : proc.HasBlock proc' a (some i))
    (hnew : ∀ j, proc.allTimers j ≠ some a) (j : Nat) : proc'.allTimers j = some a ↔ j = i := by
  have htable : proc'.allTimers = Function.update proc.allTimers i (some a) := hblock.allTimers
  rw [htable]
  by_cases hj : j = i
  · simp [hj]
  · rw [Function.update_of_ne hj]
    exact iff_of_false (hnew j) hj

/-- An allocation that is undone. -/
theorem HasBlock.sameTimers_timerFree (hblock : proc.HasBlock proc' a (some i))
    (hfree : proc.allocated a = false) (hnew : ∀ j, proc.allTimers j ≠ some a)
    (hslot : freeSlot proc.allTimers = some i)
    (hactive : proc'.activeTimerSigevThread = proc.activeTimerSigevThread) :
    proc.SameTimers (proc'.timerFree a) := by
  obtain ⟨hlt, hnone⟩ := freeSlot_eq_some hslot
  have htable : proc'.allTimers = Function.update proc.allTimers i (some a) := hblock.allTimers
  rw [timerFree_eq hlt ((hblock.slot_iff hnew i).mpr rfl) fun j hj =>
    (hblock.slot_iff hnew j).mp hj]
  refine ⟨?_, hactive, ?_, fun b hb => hblock.heap b ?_⟩
  · show Function.update proc'.allTimers i none = proc.allTimers
    rw [htable, Function.update_idem, ← hnone]
    exact Function.update_eq_self i proc.allTimers
  · show Function.update proc'.allocated a false = proc.allocated
    rw [hblock.allocated, Function.update_idem, ← hfree]
    exact Function.update_eq_self a proc.allocated
  · rintro rfl
    rw [hfree] at hb
    cases hb

/-- Filling the block for `SIGEV_THREAD` is a store to it. -/
theorem fillThread_eq (proc : Process) (c : CreateArgs) (a : Addr) :
    ∃ timer, proc.fillThread c a = proc.store a timer := by
  unfold fillThread
  cases c.evp with
  | none => exact ⟨proc.heap a, by rw [Process.store, Function.update_eq_self]⟩
  | some ev => exact ⟨_, rfl⟩

/-- The outcomes of the call for a `SIGEV_THREAD` timer, from the probe on. -/
theorem createThread_outcome {env : CreateEnv} {c : CreateArgs} {p : Process}
    (hc : wantsThread c.evp = true) (h : proc.SameState p)
    (hup : proc.Allocates env c ↔ p.HelperUp env) :
    CreateOutcome proc env c (p.createThread env c).1 (p.createThread env c).2 := by
  obtain ⟨honce, htid⟩ := p.pthreadOnce_sameState env.pthreadCreate
  have hsame : proc.SameState (p.pthreadOnce env.pthreadCreate) := h.trans honce
  unfold createThread
  dsimp only
  by_cases hzero : (p.pthreadOnce env.pthreadCreate).helperTid = 0
  · rw [if_pos hzero]
    refine .idle (fun halloc => ?_) (fun id h => by cases h) hsame.sameTimers
    exact hup.mp halloc (htid.symm.trans hzero)
  rw [if_neg hzero]
  have halloc : proc.Allocates env c := hup.mpr fun heq => hzero (htid.trans heq)
  rcases timerAlloc_cases hsame env.malloc with ⟨hmalloc, e, he⟩ |
    ⟨a, bytes, p', hmalloc, hslot, he, hblock⟩ |
    ⟨a, bytes, i, p', hmalloc, hslot, he, hblock, hactive, hktimers⟩
  · rw [he]
    exact .noMemory hmalloc hsame.sameTimers
  · rw [he]
    exact .full halloc hmalloc hslot hblock
  · rw [he]
    obtain ⟨timer, hfill⟩ := p'.fillThread_eq c a
    dsimp only
    rw [hfill]
    cases hk : env.ktimerCreate with
    | ok k =>
        refine .created hmalloc hslot ⟨hblock.allTimers, hblock.allocated, fun b hb => ?_⟩
          (congrArg ((k, threadSigevent a p'.helperTid) :: ·) hktimers) (fun h => ?_)
        · exact (Function.update_of_ne hb _ _).trans ((hblock.store timer).heap b hb)
        · rw [hc] at h
          cases h
    | error e =>
        exact .undone hmalloc hslot hk (fun id h => by cases h) (hblock.store timer) hactive
          (.refl _)

/-- The outcomes of the call for every other timer. -/
theorem createSignal_outcome {env : CreateEnv} {c : CreateArgs} (halloc : proc.Allocates env c) :
    CreateOutcome proc env c (proc.createSignal env c).1 (proc.createSignal env c).2 := by
  unfold createSignal
  rcases timerAlloc_cases (.refl proc) env.malloc with ⟨hmalloc, e, he⟩ |
    ⟨a, bytes, p', hmalloc, hslot, he, hblock⟩ |
    ⟨a, bytes, i, p', hmalloc, hslot, he, hblock, hactive, hktimers⟩
  · rw [he]
    exact .noMemory hmalloc (.refl proc)
  · rw [he]
    exact .full halloc hmalloc hslot hblock
  · rw [he]
    dsimp only
    cases hk : env.ktimerCreate with
    | ok k =>
        refine .created hmalloc hslot (HasBlock.store ?_ _) (congrArg (_ :: ·) hktimers)
          fun _ => rfl
        exact ⟨hblock.allTimers, hblock.allocated, hblock.heap⟩
    | error e =>
        dsimp only
        split
        · exact .undone hmalloc hslot hk (fun id h => by cases h) hblock hactive
            ⟨rfl, rfl, rfl, fun _ _ => rfl⟩
        · exact .undone hmalloc hslot hk (fun id h => by cases h) hblock hactive
            ⟨rfl, rfl, rfl, fun _ _ => rfl⟩

/-- The outcomes of `timer_create`. -/
theorem timerCreate_outcome (proc : Process) (env : CreateEnv) (c : CreateArgs) :
    CreateOutcome proc env c (proc.timerCreate env c).1 (proc.timerCreate env c).2 := by
  unfold timerCreate
  split
  · next hposix =>
    split
    · next hc =>
      obtain ⟨n, hprobe, hn⟩ := proc.probe_eq env.clockGetres hposix
      rw [hprobe]
      dsimp only
      split
      · next hpos =>
        refine createThread_outcome hc ⟨rfl, rfl, rfl, rfl, rfl⟩ ?_
        exact ⟨fun h => (h.2 hc).2, fun h => ⟨hposix, fun _ => ⟨hn.mp hpos, h⟩⟩⟩
      · next hneg =>
        refine .idle (fun h => hneg (hn.mpr (h.2 hc).1)) (fun id h => by cases h) ?_
        exact ⟨rfl, rfl, rfl, fun _ _ => rfl⟩
    · next hc => exact createSignal_outcome ⟨hposix, fun h => absurd h hc⟩
  · next hposix => exact .idle (fun h => hposix h.1) (fun id h => by cases h) (.refl proc)

end Process

/-! ### The table -/

namespace LiveTable

variable {proc proc' p : Process} {a : Addr} {i : Nat}

/-- It is about the timers only. -/
theorem of_same (h : LiveTable proc) (hsame : proc.SameTimers proc') : LiveTable proc' :=
  h.congr hsame.allTimers fun i a hi => by rw [hsame.allocated]; exact h.allocated i a hi

/-- A block that gets the first free slot. -/
theorem hasBlock (h : LiveTable proc) (hfree : proc.allocated a = false)
    (hslot : freeSlot proc.allTimers = some i) (hblock : proc.HasBlock p a (some i)) :
    LiveTable p :=
  h.addSlot (freeSlot_eq_some hslot).1 hfree hblock.allTimers hblock.allocated

/-- A call of `timer_create` keeps it. -/
theorem timerCreate (h : LiveTable proc) {env : CreateEnv} {c : CreateArgs}
    (henv : env.Possible proc) : LiveTable (proc.timerCreate env c).2 := by
  have hfree : ∀ {a bytes}, env.malloc = some (a, bytes) → proc.allocated a = false :=
    fun {a bytes} hmalloc => henv.1 (a, bytes) hmalloc
  have houtcome := proc.timerCreate_outcome env c
  generalize (proc.timerCreate env c).1 = res at houtcome
  generalize (proc.timerCreate env c).2 = proc' at houtcome
  cases houtcome with
  | idle _ _ hsame => exact h.of_same hsame
  | noMemory _ hsame => exact h.of_same hsame
  | @full a bytes _ _ hmalloc _ hblock =>
      refine h.congr hblock.allTimers fun i b hi => ?_
      rw [hblock.allocated, Function.update_of_ne (h.ne_of_free (hfree hmalloc) hi)]
      exact h.allocated i b hi
  | undone hmalloc hslot _ _ hblock _ hundo =>
      exact ((h.hasBlock (hfree hmalloc) hslot hblock).timerFree _).of_same hundo
  | created hmalloc hslot hblock => exact h.hasBlock (hfree hmalloc) hslot hblock

end LiveTable

/-- All calls and `fork` keep it. -/
theorem liveTable_kept : KeptByCalls (fun _ _ => True) LiveTable where
  create _ _ _ h henv := h.timerCreate henv
  delete _ _ _ _ _ h hdelete := h.timerDelete hdelete
  ktimerCall _ call res id h := h.ktimerCall call res id
  fork _ _ _ _ _ _ h := h.fork

/-- It holds at the start of a process. -/
theorem Process.Fresh.liveTable {proc : Process} (h : proc.Fresh) : LiveTable proc where
  lt i a hi := by simp [h.allTimers i] at hi
  inj i j a hi := by simp [h.allTimers i] at hi
  allocated i a hi := by simp [h.allTimers i] at hi

/-- The table of every process has allocated structs only, in every state reached. -/
theorem reachable_liveTable {procs : Processes} (h : processes.Reachable procs) :
    ∀ p proc, procs p = some proc → LiveTable proc :=
  liveTable_kept.forall_of_reachable (fun _ => Process.Fresh.liveTable) h

/-! ### A call that creates no timer -/

/-- The call leaks the block of `malloc`: it gets to the allocation, and the table is full. -/
def Process.Leaks (proc : Process) (env : CreateEnv) (c : CreateArgs) : Prop :=
  proc.Allocates env c ∧ env.malloc ≠ none ∧ ∀ i < TIMER_MAX, proc.allTimers i ≠ none

/-- The block that `malloc` returns is not in use: it is not allocated, and no slot has it. -/
def CreateEnv.NewBlock (env : CreateEnv) (proc : Process) : Prop :=
  ∀ block ∈ env.malloc, proc.allocated block.1 = false ∧ ∀ i, proc.allTimers i ≠ some block.1

/-- A call of `timer_create` that creates no timer, and so stores no id, leaves the timers as they
were exactly when it does not find the table full with a block in its hands. -/
theorem timerCreate_atomic_iff {proc : Process} {env : CreateEnv} (henv : env.NewBlock proc)
    (c : CreateArgs) :
    (∀ res proc', proc.timerCreate env c = (res, proc') → (∀ id, res ≠ .ok id) →
        proc.SameTimers proc') ↔
      ¬ proc.Leaks env c := by
  have hfree : ∀ {a bytes}, env.malloc = some (a, bytes) →
      proc.allocated a = false ∧ ∀ i, proc.allTimers i ≠ some a :=
    fun {a bytes} hmalloc => henv (a, bytes) hmalloc
  have houtcome := proc.timerCreate_outcome env c
  have heq : proc.timerCreate env c = ((proc.timerCreate env c).1, (proc.timerCreate env c).2) :=
    rfl
  generalize (proc.timerCreate env c).1 = res at houtcome heq
  generalize (proc.timerCreate env c).2 = proc' at houtcome heq
  have hcall : (∀ res proc', proc.timerCreate env c = (res, proc') → (∀ id, res ≠ .ok id) →
      proc.SameTimers proc') ↔ ((∀ id, res ≠ .ok id) → proc.SameTimers proc') := by
    rw [heq]
    refine ⟨fun h => h res proc' rfl, fun h res' proc'' h' => ?_⟩
    cases h'
    exact h
  rw [hcall]
  cases houtcome with
  | idle halloc _ hsame => exact iff_of_true (fun _ => hsame) fun h => halloc h.1
  | noMemory hmalloc hsame => exact iff_of_true (fun _ => hsame) fun h => h.2.1 hmalloc
  | @full a bytes _ halloc hmalloc hslot hblock =>
      refine iff_of_false (fun h => ?_) (not_not_intro ⟨halloc, ?_, freeSlot_eq_none hslot⟩)
      · -- The block is still allocated.
        have hsame := (h fun id h => by cases h).allocated
        have hleak := congrFun (hblock.allocated.symm.trans hsame) a
        rw [Function.update_self, (hfree hmalloc).1] at hleak
        cases hleak
      · rw [hmalloc]
        exact Option.some_ne_none _
  | undone hmalloc hslot _ _ hblock hactive hundo =>
      refine iff_of_true (fun _ => ?_) fun h => ?_
      · obtain ⟨hfree, hnew⟩ := hfree hmalloc
        exact (hblock.sameTimers_timerFree hfree hnew hslot hactive).trans hundo
      · obtain ⟨hlt, hnone⟩ := freeSlot_eq_some hslot
        exact h.2.2 _ hlt hnone
  | created _ hslot _ _ _ =>
      refine iff_of_true (fun h => absurd rfl (h _)) fun h => ?_
      obtain ⟨hlt, hnone⟩ := freeSlot_eq_some hslot
      exact h.2.2 _ hlt hnone

/-- The outcomes of a call that the kernel refuses with this `errno`. -/
def createRefused (a : Addr) (e : Errno) : CreateEnv where
  clockGetres := true
  pthreadCreate := some 1
  malloc := some (a, ⟨0, 0, 0, 0, {}, none⟩)
  ktimerCreate := .error e

/-- A process whose table is full. -/
def fullProcess : Process :=
  { freshProcess with
    allTimers := fun i => if i < TIMER_MAX then some i else none
    allocated := fun a => a < TIMER_MAX }

/-- The kernel refuses the first timer of a process. -/
theorem timerCreate_atomic_iff_refused :
    (∀ res proc', freshProcess.timerCreate (createRefused 7 EAGAIN) ⟨0, none⟩ = (res, proc') →
        (∀ id, res ≠ .ok id) → freshProcess.SameTimers proc') ↔
      ¬ freshProcess.Leaks (createRefused 7 EAGAIN) ⟨0, none⟩ :=
  timerCreate_atomic_iff (fun _ _ => ⟨rfl, fun _ h => by cases h⟩) ⟨0, none⟩

/-- With a full table the block of a failed call stays allocated. -/
theorem timerCreate_leaks_block :
    ¬ ∀ (proc : Process) (env : CreateEnv) (c : CreateArgs), env.NewBlock proc →
      env.ktimerCreate ≠ .error ENOSYS →
      ∀ e proc', proc.timerCreate env c = (.error e, proc') → proc.SameTimers proc' := by
  intro hatomic
  let call := fullProcess.timerCreate (createRefused 1000 EAGAIN) ⟨0, none⟩
  have hres : call.1 = .error EAGAIN := by decide +kernel
  have hleak : call.2.allocated 1000 = true := by decide +kernel
  have hnew : (createRefused 1000 EAGAIN).NewBlock fullProcess := by
    rintro block hblock
    cases hblock
    refine ⟨rfl, fun i hi => ?_⟩
    change (if i < TIMER_MAX then some i else none) = some 1000 at hi
    split at hi
    · next hlt =>
      cases hi
      exact absurd hlt (by decide)
    · cases hi
  have hsame := hatomic fullProcess (createRefused 1000 EAGAIN) ⟨0, none⟩ hnew
    (fun h => absurd (Except.error.inj h) (by decide)) EAGAIN call.2 (Prod.ext hres rfl)
  have halloc := congrFun hsame.allocated 1000
  rw [hleak] at halloc
  exact absurd halloc (by decide)

/-! ### The event of a `NULL` `evp` -/

/-- The `timer_t` that a program takes from the value of a signal: the low bits of the word. -/
def timerTOfSigval (value : Sigval) : TimerT := (BitVec.ofNat 32 value).toInt

/-- A timer that is created with a `NULL` `evp` is identified by the value of its signal exactly
when the address of its struct, as a `timer_t`, is the index of the first free slot. -/
theorem timerCreate_default_value_iff {procs : Processes} (hreach : processes.Reachable procs)
    {n : Nat} {proc : Process} (hproc : procs n = some proc) {env : CreateEnv}
    (henv : env.Possible proc) {c : CreateArgs} (hevp : c.evp = none) {id : TimerT}
    {proc' : Process} (hok : proc.timerCreate env c = (.ok id, proc')) :
    ∃ k ev a bytes i, proc'.ktimers = (k, ev) :: proc.ktimers ∧ env.malloc = some (a, bytes) ∧
      freeSlot proc.allTimers = some i ∧
      ((timerTOfSigval ev.sigevValue = id ∧
          kfreebsdTimerId2ptr proc'.allTimers (timerTOfSigval ev.sigevValue) = some a) ↔
        timerTOfSigval a = (i : Int)) := by
  have htable := reachable_liveTable hreach n proc hproc
  have houtcome := proc.timerCreate_outcome env c
  rw [hok] at houtcome
  dsimp only at houtcome
  generalize hres : CreateResult.ok id = res at houtcome
  cases houtcome with
  | idle _ hne _ => exact absurd hres.symm (hne id)
  | noMemory _ _ => cases hres
  | full _ _ _ _ => cases hres
  | undone _ _ _ hne _ _ _ => exact absurd hres.symm (hne id)
  | @created a bytes i k ev _ hmalloc hslot hblock hktimers hevent =>
      have hfree : proc.allocated a = false := henv.1 (a, bytes) hmalloc
      have hev : ev = defaultSigevent a := by
        rw [hevent (by rw [hevp]; rfl), hevp]
        rfl
      obtain ⟨hlt, -⟩ := freeSlot_eq_some hslot
      have hnew := htable.not_mem hfree
      have hin := (hblock.slot_iff hnew i).mpr rfl
      have hid : id = (i : Int) := by
        cases hres
        exact ptr2id_eq hlt hin fun j hj => (hblock.slot_iff hnew j).mp hj
      have hvalue : ev.sigevValue = a := by rw [hev]; rfl
      refine ⟨k, ev, a, bytes, i, hktimers, hmalloc, hslot, ?_⟩
      rw [hvalue, hid]
      refine ⟨fun h => h.1, fun h => ⟨h, ?_⟩⟩
      rw [h, kfreebsdTimerId2ptr_natCast hlt]
      exact hin

/-- The first timer of a process. -/
theorem timerCreate_default_value_iff_first :
    ∃ id proc', freshProcess.timerCreate (createOk 7 3) ⟨0, none⟩ = (.ok id, proc') ∧
      ∃ k ev a bytes i, proc'.ktimers = (k, ev) :: freshProcess.ktimers ∧
        (createOk 7 3).malloc = some (a, bytes) ∧ freeSlot freshProcess.allTimers = some i ∧
        ((timerTOfSigval ev.sigevValue = id ∧
            kfreebsdTimerId2ptr proc'.allTimers (timerTOfSigval ev.sigevValue) = some a) ↔
          timerTOfSigval a = (i : Int)) :=
  ⟨_, _, rfl, timerCreate_default_value_iff (c := ⟨0, none⟩) (n := 0) (.init oneProcess_initial)
    rfl (by decide) rfl rfl⟩

/-- The first timer has the id 0, and its signal carries the address of its struct. -/
theorem timerCreate_default_value_ne_id :
    ¬ ∀ procs, processes.Reachable procs → ∀ n proc, procs n = some proc →
      ∀ env : CreateEnv, env.Possible proc → ∀ clockId id proc',
        proc.timerCreate env ⟨clockId, none⟩ = (.ok id, proc') →
        ∃ k ev, proc'.ktimers = (k, ev) :: proc.ktimers ∧ timerTOfSigval ev.sigevValue = id := by
  intro hvalue
  obtain ⟨k, ev, hktimers, hid⟩ := hvalue oneProcess (.init oneProcess_initial) 0 freshProcess rfl
    (createOk 7 3) (by decide) 0 0 _ rfl
  cases hktimers
  exact absurd hid (by decide)

end GlibcPorts.Timer
