import GlibcPorts.Proofs.Timer.Invariant

/-!
# `GlibcPorts.Proofs.Timer.Updates`: what the updates of the shared state keep

`Keeps act s s'` says that the update from `s` to `s'` keeps the shared invariant, and that
no other actor than `act` notices it. There is one lemma for each kind of update that the
code makes: the owner of a struct (`Keeps.setOwner`), a slot of the table (`Keeps.setSlot`),
a struct that is not on the active list (`Keeps.store`), and the active list, which an actor
changes while it has the lock (`Keeps.acquire`, `Keeps.storeNext`, `Keeps.setHead`,
`Keeps.release`, `Keeps.push`, `Keeps.unlink`).
-/

set_option autoImplicit false

namespace GlibcPorts.Timer

open GlibcPorts.Lib (Linked)

/-- What an actor holds is no other actor's. -/
theorem eq_of_held {act : Actor} {s : State} {a : Addr} (ho : s.owner a = .held act) (i : Actor)
    (hi : s.owner a = .held i) : i = act := by
  rw [ho] at hi
  exact (Owner.held.inj hi).symm

/-- Only one actor has the lock. -/
theorem lock_ne {act i : Actor} {s : State} (hlock : s.lock = some act) (hi : i ≠ act) :
    s.lock ≠ some i := by
  rw [hlock]
  exact fun h => hi (Option.some.inj h).symm

/-- The update keeps the shared invariant, and what each actor but `act` has to itself. -/
structure Keeps (act : Actor) (s s' : State) : Prop where
  inv : Inv s'
  frame : ∀ i, i ≠ act → Frame i s s'

namespace Keeps

variable {act : Actor} {s s' s'' : State} {a : Addr}

/-- Parts of the state that the invariant does not speak of do not matter. -/
theorem of_eq (hI : Inv s) (hposix : 0 ≤ s'.noPosixTimers) (hfault : s'.fault = s.fault)
    (htable : s'.allTimers = s.allTimers) (howner : s'.owner = s.owner) (hheap : s'.heap = s.heap)
    (hhead : s'.activeTimerSigevThread = s.activeTimerSigevThread) (hlock : s'.lock = s.lock)
    (hhist : s'.history = s.history) : Keeps act s s' := by
  -- With equal parts the two states differ in nothing that `Inv` and `Frame` read.
  cases s
  cases s'
  cases hfault
  cases htable
  cases howner
  cases hheap
  cases hhead
  cases hlock
  cases hhist
  constructor
  · exact ⟨hposix, hI.fault, hI.inj, hI.lt, hI.owned, hI.live, hI.listed, hI.nodup, hI.list⟩
  · intro i _
    exact ⟨fun _ h => h, fun _ _ _ => Iff.rfl, fun _ _ => rfl, fun _ _ => Iff.rfl, fun h => h,
      fun _ => rfl, fun _ => rfl, fun _ _ _ => rfl⟩

/-- The place of an actor does not matter. -/
theorem goto (hI : Inv s) (act' : Actor) (p : Pc) : Keeps act s (s.goto act' p) :=
  of_eq hI hI.posix rfl rfl rfl rfl rfl rfl rfl

/-- A call of the kernel that exists is noted. -/
theorem posix (hI : Inv s) : Keeps act s { s with noPosixTimers := 1 } :=
  of_eq hI (by simp) rfl rfl rfl rfl rfl rfl rfl

theorem trans (h : Keeps act s s') (h' : Keeps act s' s'') : Keeps act s s'' := by
  refine ⟨h'.inv, fun i hi => ?_⟩
  have f := h.frame i hi
  have f' := h'.frame i hi
  constructor
  case owner => exact fun a ha => f'.owner a (f.owner a ha)
  case slot => exact fun a ha j => (f'.slot a (f.owner a ha) j).trans (f.slot a ha j)
  case notify => exact fun a ha => (f'.notify a (f.owner a ha)).trans (f.notify a ha)
  case listed => exact fun a ha => (f'.listed a (f.owner a ha)).trans (f.listed a ha)
  case lock => exact fun hl => f'.lock (f.lock hl)
  case head => exact fun hl => (f'.head (f.lock hl)).trans (f.head hl)
  case history => exact fun hl => (f'.history (f.lock hl)).trans (f.history hl)
  case next =>
    intro hl a ha
    -- The node is still the actor's or on the list after the first step.
    have ha' : s'.owner a = .held i ∨ Listed s' a := by
      rcases ha with ha | ha
      · exact .inl (f.owner a ha)
      · refine .inr ?_
        unfold Listed
        rw [f.history hl]
        exact ha
    exact (f'.next (f.lock hl) a ha').trans (f.next hl a ha)

/-! ### Memory and table -/

/-- The owner of a struct changes. A struct that is given back is in neither the table nor
the list, and a struct that becomes a timer of the program is at its id. -/
theorem setOwner (hI : Inv s) {o : Owner} (hheld : ∀ i, s.owner a = .held i → i = act)
    (hlive : ∀ id, o = .live id → s.id2ptr id = some a ∧ ListedIffThread s a)
    (hfree : o = .free → Unslotted s a ∧ ¬ Listed s a) : Keeps act s (s.setOwner a o) := by
  have hne : ∀ b, b ≠ a → (s.setOwner a o).owner b = s.owner b :=
    fun b hb => Function.update_of_ne hb _ _
  have hself : (s.setOwner a o).owner a = o := Function.update_self _ _ _
  constructor
  case inv =>
    refine ⟨hI.posix, hI.fault, hI.inj, hI.lt, ?_, ?_, ?_, hI.nodup, hI.list⟩
    · intro i b hb
      by_cases hba : b = a
      · subst hba
        rw [hself]
        exact fun ho => (hfree ho).1 i hb
      · rw [hne b hba]
        exact hI.owned i b hb
    · intro b id hb
      by_cases hba : b = a
      · subst hba
        rw [hself] at hb
        exact hlive id hb
      · rw [hne b hba] at hb
        exact hI.live b id hb
    · intro b hb
      refine ⟨?_, (hI.listed b hb).2⟩
      by_cases hba : b = a
      · subst hba
        rw [hself]
        exact fun ho => (hfree ho).2 hb
      · rw [hne b hba]
        exact (hI.listed b hb).1
  case frame =>
    intro i hi
    refine ⟨?_, fun _ _ _ => Iff.rfl, fun _ _ => rfl, fun _ _ => Iff.rfl, fun h => h,
      fun _ => rfl, fun _ => rfl, fun _ _ _ => rfl⟩
    intro b hb
    rw [hne b]
    · exact hb
    · rintro rfl
      exact hi (hheld i hb)

/-- A store to slot `i`, which is empty or has a struct of the actor. The struct that is
stored is the actor's and not yet in the table. -/
theorem setSlot (hI : Inv s) {i : Nat} {p : Option Addr} (hi : i < TIMER_MAX)
    (hold : ∀ b, s.allTimers i = some b → s.owner b = .held act)
    (hnew : ∀ b, p = some b → s.owner b = .held act ∧ Unslotted s b) :
    Keeps act s (s.setSlot i p) := by
  have hne : ∀ j, j ≠ i → (s.setSlot i p).allTimers j = s.allTimers j :=
    fun j hj => Function.update_of_ne hj _ _
  have hself : (s.setSlot i p).allTimers i = p := Function.update_self _ _ _
  -- A slot of a struct that is not the actor's does not change.
  have hother : ∀ b, s.owner b ≠ .held act → ∀ j,
      (s.setSlot i p).allTimers j = some b ↔ s.allTimers j = some b := by
    intro b hb j
    by_cases hj : j = i
    · subst hj
      rw [hself]
      exact ⟨fun h => absurd (hnew b h).1 hb, fun h => absurd (hold b h) hb⟩
    · rw [hne j hj]
  constructor
  case inv =>
    refine ⟨hI.posix, hI.fault, ?_, ?_, ?_, ?_, hI.listed, hI.nodup, hI.list⟩
    · -- The struct stored in slot `i` was in no slot, so no slot has it a second time.
      intro j k b hj hk
      by_cases hji : j = i <;> by_cases hki : k = i
      · rw [hji, hki]
      · subst hji
        rw [hself] at hj
        rw [hne k hki] at hk
        exact absurd hk ((hnew b hj).2 k)
      · subst hki
        rw [hself] at hk
        rw [hne j hji] at hj
        exact absurd hj ((hnew b hk).2 j)
      · rw [hne j hji] at hj
        rw [hne k hki] at hk
        exact hI.inj j k b hj hk
    · intro j b hj
      by_cases hji : j = i
      · rw [hji]
        exact hi
      · rw [hne j hji] at hj
        exact hI.lt j b hj
    · intro j b hj
      by_cases hji : j = i
      · subst hji
        rw [hself] at hj
        show s.owner b ≠ .free
        rw [(hnew b hj).1]
        simp
      · rw [hne j hji] at hj
        exact hI.owned j b hj
    · intro b id hb
      change s.owner b = .live id at hb
      obtain ⟨hid, hlist⟩ := hI.live b id hb
      obtain ⟨j, hj, rfl, hjb⟩ := id2ptr_eq_some hid
      refine ⟨?_, hlist⟩
      rw [id2ptr_natCast _ hj]
      exact (hother b (by rw [hb]; simp) j).mpr hjb
  case frame =>
    intro k hk
    refine ⟨fun _ h => h, ?_, fun _ _ => rfl, fun _ _ => Iff.rfl, fun h => h, fun _ => rfl,
      fun _ => rfl, fun _ _ _ => rfl⟩
    intro b hb j
    refine hother b ?_ j
    rw [hb]
    simpa using hk

/-- A store to a struct that is not on the active list, and that is the actor's or not yet
allocated. -/
theorem store (hI : Inv s) {timer : StructTimer} (hl : ¬ Listed s a)
    (ho : s.owner a = .held act ∨ s.owner a = .free) : Keeps act s (s.store a timer) := by
  have hne : ∀ b, b ≠ a → (s.store a timer).heap b = s.heap b :=
    fun b hb => Function.update_of_ne hb _ _
  have hlisted : ∀ b, Listed s b → (s.store a timer).heap b = s.heap b := by
    intro b hb
    refine hne b ?_
    rintro rfl
    exact hl hb
  -- So neither a live timer nor another actor's struct is written to.
  have howner : ∀ b, s.owner b ≠ .held act → s.owner b ≠ .free →
      (s.store a timer).heap b = s.heap b := by
    intro b hb hb'
    refine hne b ?_
    rintro rfl
    exact ho.elim hb hb'
  constructor
  case inv =>
    refine ⟨hI.posix, hI.fault, hI.inj, hI.lt, hI.owned, ?_, ?_, hI.nodup, ?_⟩
    · intro b id hb
      change s.owner b = .live id at hb
      refine ⟨(hI.live b id hb).1, ?_⟩
      unfold ListedIffThread
      rw [howner b (by rw [hb]; simp) (by rw [hb]; simp)]
      exact (hI.live b id hb).2
    · intro b hb
      rw [hlisted b hb]
      exact hI.listed b hb
    · intro hlock
      exact (hI.list hlock).congr fun b hb => by rw [hlisted b hb]
  case frame =>
    intro i hi
    have hheld : ∀ b, s.owner b = .held i → (s.store a timer).heap b = s.heap b := by
      intro b hb
      exact howner b (by rw [hb]; simpa using hi) (by rw [hb]; simp)
    refine ⟨fun _ h => h, fun _ _ _ => Iff.rfl, ?_, fun _ _ => Iff.rfl, fun h => h, fun _ => rfl,
      fun _ => rfl, ?_⟩
    · intro b hb
      rw [hheld b hb]
    · intro _ b hb
      rcases hb with hb | hb
      · rw [hheld b hb]
      · rw [hlisted b hb]

/-! ### The active list -/

/-- The actor takes the lock. -/
theorem acquire (hI : Inv s) (hlock : s.lock = none) : Keeps act s { s with lock := some act } := by
  constructor
  case inv =>
    exact ⟨hI.posix, hI.fault, hI.inj, hI.lt, hI.owned, hI.live, hI.listed, hI.nodup, nofun⟩
  case frame =>
    intro i _
    -- No other actor had the lock, so none relies on it.
    have hno : s.lock ≠ some i := by simp [hlock]
    exact ⟨fun _ h => h, fun _ _ _ => Iff.rfl, fun _ _ => rfl, fun _ _ => Iff.rfl,
      fun h => absurd h hno, fun _ => rfl, fun _ => rfl, fun _ _ _ => rfl⟩

/-- The actor that has the lock sets the head of the list. -/
theorem setHead (hI : Inv s) (hlock : s.lock = some act) (p : Option Addr) :
    Keeps act s { s with activeTimerSigevThread := p } := by
  constructor
  case inv =>
    refine ⟨hI.posix, hI.fault, hI.inj, hI.lt, hI.owned, hI.live, hI.listed, hI.nodup, ?_⟩
    exact fun h => absurd (hlock.symm.trans h) (by simp)
  case frame =>
    intro i hi
    have hno : s.lock ≠ some i := lock_ne hlock hi
    exact ⟨fun _ h => h, fun _ _ _ => Iff.rfl, fun _ _ => rfl, fun _ _ => Iff.rfl, fun h => h,
      fun h => absurd h hno, fun _ => rfl, fun _ _ _ => rfl⟩

/-- The actor that has the lock sets the `next` of a node. -/
theorem storeNext (hI : Inv s) (hlock : s.lock = some act) (p : Option Addr) :
    Keeps act s (s.storeNext a p) := by
  -- Only `next` changes, and only an actor that has the lock speaks of `next`.
  have hnotify : ∀ b, ((s.storeNext a p).heap b).sigevNotify = (s.heap b).sigevNotify := by
    intro b
    show (Function.update s.heap a _ b).sigevNotify = _
    rw [Function.update_apply]
    split
    · next h => rw [h]
    · rfl
  constructor
  case inv =>
    refine ⟨hI.posix, hI.fault, hI.inj, hI.lt, hI.owned, ?_, ?_, hI.nodup, ?_⟩
    · intro b id hb
      refine ⟨(hI.live b id hb).1, ?_⟩
      unfold ListedIffThread
      rw [hnotify]
      exact (hI.live b id hb).2
    · intro b hb
      rw [hnotify]
      exact hI.listed b hb
    · exact fun h => absurd (hlock.symm.trans h) (by simp)
  case frame =>
    intro i hi
    have hno : s.lock ≠ some i := lock_ne hlock hi
    exact ⟨fun _ h => h, fun _ _ _ => Iff.rfl, fun b _ => hnotify b, fun _ _ => Iff.rfl,
      fun h => h, fun _ => rfl, fun _ => rfl, fun h => absurd h hno⟩

/-- The actor releases the lock without a change of the list. -/
theorem release (hI : Inv s) (hsec : InSection s act) : Keeps act s { s with lock := none } := by
  constructor
  case inv =>
    exact ⟨hI.posix, hI.fault, hI.inj, hI.lt, hI.owned, hI.live, hI.listed, hI.nodup,
      fun _ => hsec.2⟩
  case frame =>
    intro i hi
    have hno : s.lock ≠ some i := lock_ne hsec.1 hi
    exact ⟨fun _ h => h, fun _ _ _ => Iff.rfl, fun _ _ => rfl, fun _ _ => Iff.rfl,
      fun h => absurd h hno, fun _ => rfl, fun _ => rfl, fun _ _ _ => rfl⟩

/-- The release of the lock after `a` was pushed. -/
theorem push (hI : Inv s) (ha : s.owner a = .held act) (hl : ¬ Listed s a)
    (hthread : (s.heap a).sigevNotify = SIGEV_THREAD) (hlock : s.lock = some act)
    (hlist : ListAt s (a :: activeList s.history)) :
    Keeps act s { s with lock := none, history := .push a :: s.history } := by
  -- Only whether `a` is listed changes, and `a` is neither live nor another actor's.
  have hother : ∀ b, b ≠ a → (b ∈ a :: activeList s.history ↔ Listed s b) := by
    intro b hb
    simp [Listed, hb]
  constructor
  case inv =>
    refine ⟨hI.posix, hI.fault, hI.inj, hI.lt, hI.owned, ?_, ?_, ?_, fun _ => hlist⟩
    · intro b id hb
      change s.owner b = .live id at hb
      obtain ⟨hid, hlist⟩ := hI.live b id hb
      have hba : b ≠ a := by
        rintro rfl
        simp [ha] at hb
      exact ⟨hid, (hother b hba).trans hlist⟩
    · intro b hb
      by_cases hba : b = a
      · subst hba
        refine ⟨?_, hthread⟩
        show s.owner b ≠ .free
        rw [ha]
        simp
      · exact hI.listed b ((hother b hba).mp hb)
    · exact List.nodup_cons.mpr ⟨hl, hI.nodup⟩
  case frame =>
    intro i hi
    have hno : s.lock ≠ some i := lock_ne hlock hi
    refine ⟨fun _ h => h, fun _ _ _ => Iff.rfl, fun _ _ => rfl, ?_, fun h => absurd h hno,
      fun h => absurd h hno, fun h => absurd h hno, fun h => absurd h hno⟩
    intro b hb
    refine hother b ?_
    rintro rfl
    exact hi (eq_of_held ha i hb)

/-- The release of the lock after `a` was unlinked. -/
theorem unlink (hI : Inv s) (ha : s.owner a = .held act) (hlock : s.lock = some act)
    (hlist : ListAt s ((activeList s.history).erase a)) :
    Keeps act s { s with lock := none, history := .unlink a :: s.history } := by
  have hother : ∀ b, b ≠ a → (b ∈ (activeList s.history).erase a ↔ Listed s b) :=
    fun b hb => List.mem_erase_of_ne hb
  constructor
  case inv =>
    refine ⟨hI.posix, hI.fault, hI.inj, hI.lt, hI.owned, ?_, ?_, hI.nodup.erase a,
      fun _ => hlist⟩
    · intro b id hb
      change s.owner b = .live id at hb
      obtain ⟨hid, hlist⟩ := hI.live b id hb
      have hba : b ≠ a := by
        rintro rfl
        simp [ha] at hb
      exact ⟨hid, (hother b hba).trans hlist⟩
    · intro b hb
      exact hI.listed b (List.mem_of_mem_erase hb)
  case frame =>
    intro i hi
    have hno : s.lock ≠ some i := lock_ne hlock hi
    refine ⟨fun _ h => h, fun _ _ _ => Iff.rfl, fun _ _ => rfl, ?_, fun h => absurd h hno,
      fun h => absurd h hno, fun h => absurd h hno, fun h => absurd h hno⟩
    intro b hb
    refine hother b ?_
    rintro rfl
    exact hi (eq_of_held ha i hb)

end Keeps

end GlibcPorts.Timer
