import GlibcPorts.Proofs.Rtld.MrlockSafety

/-!
# `GlibcPorts.Proofs.Rtld.MrlockWakeup`: no wake-up is lost

A reader that releases the lock wakes the sleepers only when it was the last one and `WWAIT`
was set, and the writer wakes them only when `RWAIT` was set. A reader's exchange drops
`RWAIT`, so a set bit is no permanent record of a sleeper. `WakeInv` is what makes this
enough: a reader sleeps only under `RWAIT` together with `WRITER` or `WWAIT`, the writer
only under `WWAIT` with a reader counted, or else a thread has released the lock and its
wake-all is still to come (`PendingWake`).

The two bits a sleeping reader needs cannot go away silently: an exchange of a reader needs
`WRITER` and `WWAIT` clear, the writer's exchange trades `WWAIT` for `WRITER` and keeps
`RWAIT`, and the fetch-and-add that clears `WRITER` sees `RWAIT`.

The invariant does not need a bound on the number of readers: past `2 ^ 29` readers the count
wraps, and it then still is zero exactly when the last counted reader leaves.
-/

set_option autoImplicit false

namespace GlibcPorts.Rtld

variable {ι : Type*}

/-- Some thread has done its releasing fetch-and-add and still has its wake-all to do. -/
def PendingWake (s : State ι) : Prop :=
  (∃ i, s.reader i = .futexWake) ∨ s.writer = .futexWake

/-- What a sleeping reader needs of the lock word. -/
def ReaderBlocked (f : Fields) : Prop :=
  f.rwait = true ∧ (f.writer = true ∨ f.wwait = true)

/-- What a sleeping writer needs of the lock word. -/
def WriterBlocked (f : Fields) : Prop :=
  f.wwait = true ∧ f.count ≠ 0

/-- Each sleeper is either blocked by the lock word or about to be woken. -/
structure WakeInv (s : State ι) : Prop where
  reader : ∀ i, s.reader i = .asleep → ReaderBlocked (fields s.iv) ∨ PendingWake s
  writer : s.writer = .asleep → WriterBlocked (fields s.iv) ∨ PendingWake s

/-! ### One step -/

/-- A reader that tests is awake. -/
theorem readerTest_ne_asleep (tries : Nat) (oldval : Word) : readerTest tries oldval ≠ .asleep := by
  unfold readerTest
  split <;> [skip; split <;> [skip; split]] <;> simp

/-- A writer that tests is awake. -/
theorem writerTest_ne_asleep (tries : Nat) (oldval : Word) : writerTest tries oldval ≠ .asleep := by
  unfold writerTest
  split <;> [skip; split] <;> simp

/-- A reader's step wakes the sleepers exactly at its wake-all. -/
theorem readerMove_wake {iv : Word} {pc : ReaderPc} {m : Move ReaderPc}
    (h : readerMove iv pc = some m) : m.wake = true ↔ pc = .futexWake := by
  cases pc with
  | exchange tries oldval =>
      simp only [readerMove] at h
      split at h <;> cases h <;> simp
  | asleep => cases h
  | idle | load _ | orRwait _ | futexWait _ | holds | futexWake =>
      cases h
      simp

/-- A writer's step wakes the sleepers exactly at its wake-all. -/
theorem writerMove_wake {iv : Word} {pc : WriterPc} {m : Move WriterPc}
    (h : writerMove iv pc = some m) : m.wake = true ↔ pc = .futexWake := by
  cases pc with
  | exchange tries oldval =>
      simp only [writerMove] at h
      split at h <;> cases h <;> simp
  | asleep => cases h
  | idle | load _ | orWwait _ | futexWait _ | holds | futexWake =>
      cases h
      simp

/-- A reader falls asleep only on a word that blocks it. -/
theorem readerMove_asleep {iv : Word} {pc : ReaderPc} {m : Move ReaderPc}
    (h : readerMove iv pc = some m) (hok : pc.Ok) (hasleep : m.pc = .asleep) :
    ReaderBlocked (fields m.iv) := by
  cases pc with
  | futexWait oldval =>
      cases h
      simp only at hasleep
      split at hasleep
      · -- The kernel found the word equal to the snapshot, which blocks the reader.
        rename_i heq
        subst heq
        exact ⟨hok.2, hok.1⟩
      · cases hasleep
  | load tries =>
      cases h
      exact absurd hasleep (readerTest_ne_asleep _ _)
  | exchange tries oldval =>
      simp only [readerMove] at h
      split at h <;> cases h
      · cases hasleep
      · exact absurd hasleep (readerTest_ne_asleep _ _)
  | holds =>
      cases h
      simp only at hasleep
      split at hasleep <;> cases hasleep
  | asleep => cases h
  | idle | orRwait _ | futexWake =>
      cases h
      cases hasleep

/-- The writer falls asleep only on a word that blocks it. -/
theorem writerMove_asleep {iv : Word} {pc : WriterPc} {m : Move WriterPc}
    (h : writerMove iv pc = some m) (hok : pc.Ok) (hasleep : m.pc = .asleep) :
    WriterBlocked (fields m.iv) := by
  cases pc with
  | futexWait oldval =>
      cases h
      simp only at hasleep
      split at hasleep
      · rename_i heq
        subst heq
        exact ⟨hok.2, hok.1⟩
      · cases hasleep
  | load tries =>
      cases h
      exact absurd hasleep (writerTest_ne_asleep _ _)
  | exchange tries oldval =>
      simp only [writerMove] at h
      split at h <;> cases h
      · cases hasleep
      · exact absurd hasleep (writerTest_ne_asleep _ _)
  | holds =>
      cases h
      simp only at hasleep
      split at hasleep <;> cases hasleep
  | asleep => cases h
  | idle | orWwait _ | futexWake =>
      cases h
      cases hasleep

/-- A reader's step leaves every sleeping reader blocked. -/
theorem readerMove_readerBlocked {iv : Word} {pc : ReaderPc} {m : Move ReaderPc}
    (h : readerMove iv pc = some m) (hok : pc.Ok) (hb : ReaderBlocked (fields iv)) :
    ReaderBlocked (fields m.iv) := by
  cases pc with
  | exchange tries oldval =>
      simp only [readerMove] at h
      split at h <;> cases h
      · -- The exchange needs `WRITER` and `WWAIT` clear.
        rename_i heq
        subst heq
        simp [ReaderBlocked, hok.1, hok.2] at hb
      · exact hb
  | orRwait oldval =>
      cases h
      rw [fields_or_rwait]
      exact ⟨rfl, hb.2⟩
  | holds =>
      cases h
      rw [fields_sub_inc]
      exact ⟨hb.1, hb.2⟩
  | asleep => cases h
  | idle | load _ | futexWait _ | futexWake =>
      cases h
      exact hb

/-- A reader's step leaves the sleeping writer blocked, or wakes it next. -/
theorem readerMove_writerBlocked {iv : Word} {pc : ReaderPc} {m : Move ReaderPc}
    (h : readerMove iv pc = some m) (hok : pc.Ok) (hb : WriterBlocked (fields iv)) :
    WriterBlocked (fields m.iv) ∨ m.pc = .futexWake := by
  cases pc with
  | exchange tries oldval =>
      simp only [readerMove] at h
      split at h <;> cases h
      · -- A reader does not take the lock while `WWAIT` is set.
        rename_i heq
        subst heq
        simp [WriterBlocked, hok.2] at hb
      · exact Or.inl hb
  | orRwait oldval =>
      cases h
      rw [fields_or_rwait]
      exact Or.inl hb
  | holds =>
      cases h
      by_cases hone : (fields iv).count = 1
      · -- The last reader: its test sees `WWAIT`.
        exact Or.inr (if_pos ((and_last_eq_iff iv).mpr ⟨hone, hb.1⟩))
      · -- Other readers are still counted, so the writer stays blocked.
        rw [fields_sub_inc]
        have hlt := count_lt iv
        have hpos := hb.2
        refine Or.inl ⟨hb.1, ?_⟩
        show ((fields iv).count + (2 ^ 29 - 1)) % 2 ^ 29 ≠ 0
        omega
  | asleep => cases h
  | idle | load _ | futexWait _ | futexWake =>
      cases h
      exact Or.inl hb

/-- A writer's step leaves every sleeping reader blocked, or wakes it next. -/
theorem writerMove_readerBlocked {iv : Word} {pc : WriterPc} {m : Move WriterPc}
    (h : writerMove iv pc = some m) (hb : ReaderBlocked (fields iv)) :
    ReaderBlocked (fields m.iv) ∨ m.pc = .futexWake := by
  cases pc with
  | exchange tries oldval =>
      simp only [writerMove] at h
      split at h <;> cases h
      · -- `WWAIT` goes, `WRITER` comes, `RWAIT` stays.
        rename_i heq
        subst heq
        rw [fields_exchange_change]
        exact Or.inl ⟨hb.1, Or.inl rfl⟩
      · exact Or.inl hb
  | orWwait oldval =>
      cases h
      rw [fields_or_wwait]
      exact Or.inl ⟨hb.1, Or.inr rfl⟩
  | holds =>
      cases h
      -- The fetch-and-add returns the word with `RWAIT`, so the wake-all comes next.
      refine Or.inr (if_pos ?_)
      rw [Ne, and_rwait_eq_zero_iff, hb.1]
      simp
  | asleep => cases h
  | idle | load _ | futexWait _ | futexWake =>
      cases h
      exact Or.inl hb

/-! ### The run -/

/-- A reader that was woken is awake. -/
@[simp] theorem ReaderPc.awake_ne_asleep (pc : ReaderPc) : pc.awake ≠ .asleep := by
  cases pc <;> simp [ReaderPc.awake]

/-- A writer that was woken is awake. -/
@[simp] theorem WriterPc.awake_ne_asleep (pc : WriterPc) : pc.awake ≠ .asleep := by
  cases pc <;> simp [WriterPc.awake]

/-- After a wake-all nobody sleeps. -/
theorem wakeAll_wakeInv (s : State ι) : WakeInv s.wakeAll where
  reader i hi := absurd hi (s.reader i).awake_ne_asleep
  writer hw := absurd hw s.writer.awake_ne_asleep

/-- A step of the reader `i` that is not its wake-all keeps a pending wake. -/
theorem PendingWake.update_reader [DecidableEq ι] {s : State ι} (h : PendingWake s) {i : ι}
    (hi : s.reader i ≠ .futexWake) (w : Word) (pc : ReaderPc) :
    PendingWake { s with iv := w, reader := Function.update s.reader i pc } := by
  rcases h with ⟨j, hj⟩ | hw
  · have hne : j ≠ i := fun he => hi (he ▸ hj)
    exact Or.inl ⟨j, by simpa [Function.update_of_ne hne] using hj⟩
  · exact Or.inr hw

/-- A step of the writer that is not its wake-all keeps a pending wake. -/
theorem PendingWake.update_writer {s : State ι} (h : PendingWake s) (hw : s.writer ≠ .futexWake)
    (w : Word) (pc : WriterPc) : PendingWake { s with iv := w, writer := pc } :=
  h.imp id fun hc => absurd hc hw

section
variable [Fintype ι] [DecidableEq ι]

/-- Each step keeps every sleeper blocked or about to be woken. -/
theorem step_wakeInv {l : Label ι} {s s' : State ι} (hI : Inv s) (h : WakeInv s)
    (hs : step l s = some s') : WakeInv s' := by
  rcases step_cases hs with ⟨i, m, rfl, hm, rfl⟩ | ⟨m, rfl, hm, rfl⟩ | ⟨i, rfl, rfl⟩ | ⟨rfl, rfl⟩
  · -- A reader moves.
    cases hwake : m.wake with
    | true => exact wakeAll_wakeInv _
    | false =>
        have hne : s.reader i ≠ .futexWake := by
          intro hc
          rw [(readerMove_wake hm).mpr hc] at hwake
          cases hwake
        refine ⟨fun j hj => ?_, fun hw => ?_⟩
        · -- Either this reader falls asleep now, or the sleeper is another one.
          by_cases hji : j = i
          · subst hji
            exact Or.inl (readerMove_asleep hm (hI.readerOk j) (by simpa [State.wakeIf] using hj))
          · have hj' : s.reader j = .asleep := by
              simpa [State.wakeIf, Function.update_of_ne hji] using hj
            exact (h.reader j hj').imp (readerMove_readerBlocked hm (hI.readerOk i))
              fun hp => hp.update_reader hne _ _
        · rcases h.writer hw with hb | hp
          · refine (readerMove_writerBlocked hm (hI.readerOk i) hb).imp id fun hpc => ?_
            exact Or.inl ⟨i, by simpa [State.wakeIf] using hpc⟩
          · exact Or.inr (hp.update_reader hne _ _)
  · -- The writer moves.
    cases hwake : m.wake with
    | true => exact wakeAll_wakeInv _
    | false =>
        have hne : s.writer ≠ .futexWake := fun hc => by simp [(writerMove_wake hm).mpr hc] at hwake
        refine ⟨fun j hj => ?_, fun hw => Or.inl (writerMove_asleep hm hI.writerOk hw)⟩
        rcases h.reader j hj with hb | hp
        · exact (writerMove_readerBlocked hm hb).imp id fun hpc => Or.inr hpc
        · exact Or.inr (hp.update_writer hne _ _)
  · -- A reader's wait is interrupted: nothing but its own place changes.
    have hpend : PendingWake s →
        PendingWake { s with reader := Function.update s.reader i (s.reader i).awake } := by
      rintro (⟨j, hj⟩ | hw)
      · refine Or.inl ⟨j, ?_⟩
        by_cases hji : j = i
        · subst hji
          simp [hj, ReaderPc.awake]
        · simpa [Function.update_of_ne hji] using hj
      · exact Or.inr hw
    refine ⟨fun j hj => ?_, fun hw => (h.writer hw).imp id hpend⟩
    by_cases hji : j = i
    · subst hji
      simp at hj
    · exact (h.reader j (by simpa [Function.update_of_ne hji] using hj)).imp id hpend
  · -- The writer's wait is interrupted.
    refine ⟨fun j hj => (h.reader j hj).imp id ?_, fun hw => absurd hw s.writer.awake_ne_asleep⟩
    exact Or.imp id fun hw => by simp [hw, WriterPc.awake]

/-- Every sleeper of a reachable state is blocked or about to be woken. -/
theorem reachable_wakeInv {s : State ι} (h : (mrlock ι).Reachable s) : WakeInv s := by
  refine (h.invariant (I := fun s => Inv s ∧ WakeInv s) ?_ ?_).2
  · rintro s (rfl : s = initial ι)
    exact ⟨initial_inv, by simp [initial], by simp [initial]⟩
  · rintro l s s' ⟨hI, hW⟩ - hs
    exact ⟨step_inv hI hs, step_wakeInv hI hW hs⟩

end

/-- Some thread sleeps while every other thread is outside the lock's code: no thread is in a
critical section, inside an operation or about to wake the sleepers. -/
def Stranded (s : State ι) : Prop :=
  ((∃ i, s.reader i = .asleep) ∨ s.writer = .asleep) ∧
    (∀ i, s.reader i = .idle ∨ s.reader i = .asleep) ∧ (s.writer = .idle ∨ s.writer = .asleep)

/-- **No lost wake-up.** For any number of readers and every interleaving of the atomic
steps, in every reachable state: a reader sleeps only while `RWAIT` is set together with
`WRITER` or `WWAIT`, or a wake-all is pending; the writer sleeps only while `WWAIT` is set and
the reader count is not zero, or a wake-all is pending; `WWAIT` is set only while the writer
is inside its change loop or asleep in it; and no state is stranded. -/
theorem rtldMrlock_no_lost_wakeup [Fintype ι] [DecidableEq ι] {s : State ι}
    (h : (mrlock ι).Reachable s) :
    (∀ i, s.reader i = .asleep →
        (s.iv &&& RTLD_MRLOCK_RWAIT ≠ 0 ∧
          s.iv &&& (RTLD_MRLOCK_WRITER ||| RTLD_MRLOCK_WWAIT) ≠ 0) ∨ PendingWake s) ∧
      (s.writer = .asleep →
        (s.iv &&& RTLD_MRLOCK_WWAIT ≠ 0 ∧ s.iv &&& RTLD_MRLOCK_RBITS ≠ 0) ∨ PendingWake s) ∧
      (s.iv &&& RTLD_MRLOCK_WWAIT ≠ 0 → s.writer.Changing) ∧
      ¬ Stranded s := by
  have hI := reachable_inv h
  have hW := reachable_wakeInv h
  refine ⟨fun i hi => (hW.reader i hi).imp (fun hb => ?_) id,
    fun hw => (hW.writer hw).imp (fun hb => ?_) id, fun hset => ?_, ?_⟩
  · rw [Ne, and_rwait_eq_zero_iff, Ne, and_blocked_eq_zero_iff, hb.1]
    rcases hb.2 with hb | hb <;> simp [hb]
  · rw [Ne, and_wwait_eq_zero_iff, Ne, and_rbits_eq_zero_iff, hb.1]
    exact ⟨by simp, hb.2⟩
  · rw [Ne, and_wwait_eq_zero_iff] at hset
    exact hI.wwait (by simpa using hset)
  · rintro ⟨hsleeper, hreaders, hwriter⟩
    have hpend : ¬ PendingWake s := by
      rintro (⟨i, hi⟩ | hw)
      · rcases hreaders i with hr | hr <;> rw [hi] at hr <;> cases hr
      · rcases hwriter with hr | hr <;> rw [hw] at hr <;> cases hr
    have hnobody : (fields s.iv).count = 0 := by
      have hempty : holders s = ∅ := by
        refine Finset.filter_eq_empty_iff.mpr fun i _ hi => ?_
        rcases hreaders i with hr | hr <;> rw [hi] at hr <;> cases hr
      rw [hI.count, hempty]
      rfl
    -- A sleeping writer needs a counted reader; a sleeping reader needs a writer.
    have hnoWriter : s.writer ≠ .asleep := fun hw => by
      rcases hW.writer hw with hb | hp
      · exact hb.2 hnobody
      · exact hpend hp
    have hidle : s.writer = .idle := hwriter.resolve_right hnoWriter
    obtain ⟨i, hi⟩ := hsleeper.resolve_right hnoWriter
    rcases hW.reader i hi with ⟨-, hb | hb⟩ | hp
    · -- `WRITER` is set only while the writer holds the lock.
      rw [hI.writer, hidle] at hb
      simp at hb
    · -- `WWAIT` is set only while the writer is in its change loop.
      have hchanging := hI.wwait hb
      rw [hidle] at hchanging
      exact hchanging
    · exact hpend hp

/-- The theorem at work: a reader holds the lock and the writer has gone to sleep. -/
theorem rtldMrlock_no_lost_wakeup_asleep :
    ∃ s, (mrlock (Fin 1)).run (List.replicate 3 (.reader 0) ++ List.replicate 8 .writer)
          (initial (Fin 1)) = some s ∧ s.writer = .asleep ∧
      ((s.iv &&& RTLD_MRLOCK_WWAIT ≠ 0 ∧ s.iv &&& RTLD_MRLOCK_RBITS ≠ 0) ∨ PendingWake s) ∧
      ¬ Stranded s := by
  have hrun : (mrlock (Fin 1)).run (List.replicate 3 (.reader 0) ++ List.replicate 8 .writer)
      (initial (Fin 1)) = some _ := rfl
  obtain ⟨-, hwriter, -, hstranded⟩ := rtldMrlock_no_lost_wakeup (.of_run (.init rfl) _ hrun)
  exact ⟨_, hrun, rfl, hwriter rfl, hstranded⟩

end GlibcPorts.Rtld
