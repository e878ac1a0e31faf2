import GlibcPorts.Proofs.Rtld.Fields
import Mathlib.Data.Finset.Card

/-!
# `GlibcPorts.Proofs.Rtld.MrlockSafety`: what the lock word counts

`readerEffect` and `writerEffect` say what each atomic step means to do to the fields of the
lock word. `readerMove_effect` and `writerMove_effect` show that the bit operations of the
code do exactly this, so nothing carries into or borrows from a neighbouring field.

`Inv` is the inductive invariant. Its local part (`ReaderPc.Ok`, `WriterPc.Ok`) keeps what
the tests found in the snapshot `oldval`, however stale it is: an exchange only succeeds on
a word equal to the snapshot, so the word then passes the same test. `step_inv` is the step
lemma, `reachable_inv` the run lemma, and `rtldMrlock_safe` the main theorem, for any number
of readers below `2 ^ 28`.
-/

set_option autoImplicit false

namespace GlibcPorts.Rtld

variable {ι : Type*}

/-! ### The steps on the fields -/

/-- What the next step of a reader means to do to the fields. -/
def readerEffect (iv : Word) : ReaderPc → Fields → Option Fields
  | .exchange _ oldval => if iv = oldval then Fields.addReader else some
  | .orRwait _ => fun f => some { f with rwait := true }
  | .holds => Fields.subReader
  | .idle | .load _ | .futexWait _ | .asleep | .futexWake => some

/-- What the next step of the writer means to do to the fields. -/
def writerEffect (iv : Word) : WriterPc → Fields → Option Fields
  | .exchange _ oldval => if iv = oldval then Fields.setWriter else some
  | .orWwait _ => fun f => some { f with wwait := true }
  | .holds => Fields.clearWriter
  | .idle | .load _ | .futexWait _ | .asleep | .futexWake => some

/-- What the tests of `__rtld_mrlock_lock` found in the reader's snapshot. -/
def ReaderPc.Ok : ReaderPc → Prop
  | .exchange _ oldval => (fields oldval).writer = false ∧ (fields oldval).wwait = false
  | .orRwait oldval => (fields oldval).writer = true ∨ (fields oldval).wwait = true
  | .futexWait oldval =>
      ((fields oldval).writer = true ∨ (fields oldval).wwait = true) ∧ (fields oldval).rwait = true
  | _ => True

/-- What the tests of `__rtld_mrlock_change` found in the writer's snapshot. -/
def WriterPc.Ok : WriterPc → Prop
  | .exchange _ oldval => (fields oldval).count = 0
  | .orWwait oldval => (fields oldval).count ≠ 0
  | .futexWait oldval => (fields oldval).count ≠ 0 ∧ (fields oldval).wwait = true
  | _ => True

/-- The writer is inside the loop of `__rtld_mrlock_change`. -/
def WriterPc.Changing : WriterPc → Prop
  | .load _ | .exchange _ _ | .orWwait _ | .futexWait _ | .asleep => True
  | _ => False

/-- A reader that tests the word stands where it may. -/
theorem readerTest_ok (tries : Nat) (oldval : Word) : (readerTest tries oldval).Ok := by
  have hblocked := and_blocked_eq_zero_iff oldval
  have hrwait := and_rwait_eq_zero_iff oldval
  unfold readerTest
  split
  · exact hblocked.mp ‹_›
  · -- The test failed, so one of the two flags is set in the snapshot.
    rename_i hne
    have hor : (fields oldval).writer = true ∨ (fields oldval).wwait = true := by
      rw [hblocked] at hne
      revert hne
      cases (fields oldval).writer <;> cases (fields oldval).wwait <;> simp
    split
    · trivial
    · split
      · exact hor
      · rename_i hr
        rw [hrwait] at hr
        exact ⟨hor, by simpa using hr⟩

/-- So does a writer. -/
theorem writerTest_ok (tries : Nat) (oldval : Word) : (writerTest tries oldval).Ok := by
  have hrbits := and_rbits_eq_zero_iff oldval
  unfold writerTest
  split
  · exact hrbits.mp ‹_›
  · rename_i hne
    rw [hrbits] at hne
    split
    · trivial
    · exact hne

/-- A test does not take the lock. -/
theorem readerTest_ne_holds (tries : Nat) (oldval : Word) : readerTest tries oldval ≠ .holds := by
  unfold readerTest
  split <;> [skip; split <;> [skip; split]] <;> simp

/-- A writer that tests the word is about to change it. -/
theorem writerTest_changing (tries : Nat) (oldval : Word) :
    (writerTest tries oldval).Changing := by
  unfold writerTest
  split <;> [skip; split] <;> trivial

/-- A reader's step keeps what its tests found. -/
theorem readerMove_ok {iv : Word} {pc : ReaderPc} {m : Move ReaderPc}
    (h : readerMove iv pc = some m) (hok : pc.Ok) : m.pc.Ok := by
  cases pc with
  | idle => cases h; trivial
  | load tries => cases h; exact readerTest_ok tries iv
  | exchange tries oldval =>
      simp only [readerMove] at h
      split at h <;> cases h
      · trivial
      · exact readerTest_ok tries iv
  | orRwait oldval =>
      cases h
      simpa [ReaderPc.Ok, fields_or_rwait] using hok
  | futexWait oldval =>
      cases h
      simp only
      split <;> trivial
  | asleep => cases h
  | holds =>
      cases h
      simp only
      split <;> trivial
  | futexWake => cases h; trivial

/-- A writer's step keeps what its tests found. -/
theorem writerMove_ok {iv : Word} {pc : WriterPc} {m : Move WriterPc}
    (h : writerMove iv pc = some m) (hok : pc.Ok) : m.pc.Ok := by
  cases pc with
  | idle => cases h; trivial
  | load tries => cases h; exact writerTest_ok tries iv
  | exchange tries oldval =>
      simp only [writerMove] at h
      split at h <;> cases h
      · trivial
      · exact writerTest_ok tries iv
  | orWwait oldval =>
      cases h
      simpa [WriterPc.Ok, fields_or_wwait] using hok
  | futexWait oldval =>
      cases h
      simp only
      split <;> trivial
  | asleep => cases h
  | holds =>
      cases h
      simp only
      split <;> trivial
  | futexWake => cases h; trivial

/-- The bit operations of a reader's step compute its effect on the fields. -/
theorem readerMove_effect {iv : Word} {pc : ReaderPc} {m : Move ReaderPc}
    (h : readerMove iv pc = some m) (hok : pc.Ok)
    (hroom : pc ≠ .holds → (fields iv).count < Fields.maxCount)
    (hheld : pc = .holds → 0 < (fields iv).count) :
    readerEffect iv pc (fields iv) = some (fields m.iv) := by
  cases pc with
  | exchange tries oldval =>
      simp only [readerMove] at h
      split at h <;> obtain rfl := Option.some.inj h
      · -- The word equals the snapshot, so what the test found is true of the word.
        rename_i heq
        subst heq
        have hlt := hroom (by simp)
        have hcount : ((fields iv).count + 1) % 2 ^ 29 = (fields iv).count + 1 :=
          Nat.mod_eq_of_lt (by unfold Fields.maxCount at hlt; omega)
        rw [fields_exchange_lock, hcount]
        simp [readerEffect, Fields.addReader, hlt, hok.1, hok.2]
      · rename_i hne
        simp [readerEffect, hne]
  | orRwait oldval =>
      obtain rfl := Option.some.inj h
      simp [readerEffect, fields_or_rwait]
  | holds =>
      obtain rfl := Option.some.inj h
      -- The reader is counted, so the subtraction does not borrow from the flags.
      have hpos := hheld rfl
      have hcount : ((fields iv).count + (2 ^ 29 - 1)) % 2 ^ 29 = (fields iv).count - 1 := by
        have hlt := count_lt iv
        omega
      rw [fields_sub_inc, hcount]
      simp [readerEffect, Fields.subReader, hpos]
  | asleep => cases h
  | idle | load tries | futexWait oldval | futexWake =>
      obtain rfl := Option.some.inj h
      rfl

/-- The bit operations of a writer's step compute its effect on the fields. -/
theorem writerMove_effect {iv : Word} {pc : WriterPc} {m : Move WriterPc}
    (h : writerMove iv pc = some m) (hok : pc.Ok)
    (hwriter : (fields iv).writer = decide (pc = .holds)) :
    writerEffect iv pc (fields iv) = some (fields m.iv) := by
  cases pc with
  | exchange tries oldval =>
      simp only [writerMove] at h
      split at h <;> obtain rfl := Option.some.inj h
      · rename_i heq
        subst heq
        have hcount : (fields iv).count = 0 := hok
        have hfree : (fields iv).writer = false := by simpa using hwriter
        simp [writerEffect, Fields.setWriter, hcount, hfree, fields_exchange_change]
      · rename_i hne
        simp [writerEffect, hne]
  | orWwait oldval =>
      obtain rfl := Option.some.inj h
      simp [writerEffect, fields_or_wwait]
  | holds =>
      obtain rfl := Option.some.inj h
      have hset : (fields iv).writer = true := by simpa using hwriter
      simp [writerEffect, Fields.clearWriter, hset, fields_sub_writer iv hset]
  | asleep => cases h
  | idle | load tries | futexWait oldval | futexWake =>
      obtain rfl := Option.some.inj h
      rfl

/-! ### The invariant -/

/-- The readers that hold the lock. -/
def holders [Fintype ι] (s : State ι) : Finset ι :=
  Finset.univ.filter fun i => s.reader i = .holds

/-- What holds in every reachable state, for any number of readers: the fields of the lock
word say who holds the lock, the count modulo its width, and `WWAIT` is only set while the
writer is inside the loop of its change. -/
structure Inv [Fintype ι] (s : State ι) : Prop where
  readerOk : ∀ i, (s.reader i).Ok
  writerOk : s.writer.Ok
  count : (fields s.iv).count = (holders s).card % 2 ^ 29
  writer : (fields s.iv).writer = decide (s.writer = .holds)
  wwait : (fields s.iv).wwait = true → s.writer.Changing

/-- What one step is: a move of a reader or of the writer, which may wake the sleepers, or
an interrupted wait. -/
theorem step_cases [DecidableEq ι] {l : Label ι} {s s' : State ι} (h : step l s = some s') :
    (∃ i m, l = .reader i ∧ readerMove s.iv (s.reader i) = some m ∧
      s' = State.wakeIf m.wake
        { s with iv := m.iv, reader := Function.update s.reader i m.pc }) ∨
    (∃ m, l = .writer ∧ writerMove s.iv s.writer = some m ∧
      s' = State.wakeIf m.wake { s with iv := m.iv, writer := m.pc }) ∨
    (∃ i, l = .interruptReader i ∧
      s' = { s with reader := Function.update s.reader i (s.reader i).awake }) ∨
    (l = .interruptWriter ∧ s' = { s with writer := s.writer.awake }) := by
  cases l with
  | reader i =>
      obtain ⟨m, hm, rfl⟩ := Option.map_eq_some_iff.mp h
      exact Or.inl ⟨i, m, rfl, hm, rfl⟩
  | writer =>
      obtain ⟨m, hm, rfl⟩ := Option.map_eq_some_iff.mp h
      exact Or.inr (Or.inl ⟨m, rfl, hm, rfl⟩)
  | interruptReader i =>
      simp only [step, Option.ite_none_right_eq_some, Option.some.injEq] at h
      exact Or.inr (Or.inr (Or.inl ⟨i, rfl, h.2.symm⟩))
  | interruptWriter =>
      simp only [step, Option.ite_none_right_eq_some, Option.some.injEq] at h
      exact Or.inr (Or.inr (Or.inr ⟨rfl, h.2.symm⟩))

/-- Waking a reader does not give it the lock. -/
@[simp] theorem ReaderPc.awake_eq_holds (pc : ReaderPc) : pc.awake = .holds ↔ pc = .holds := by
  cases pc <;> simp [ReaderPc.awake]

/-- Nor a writer. -/
@[simp] theorem WriterPc.awake_eq_holds (pc : WriterPc) : pc.awake = .holds ↔ pc = .holds := by
  cases pc <;> simp [WriterPc.awake]

/-- A reader that was woken stands where it may. -/
theorem ReaderPc.Ok.awake {pc : ReaderPc} (h : pc.Ok) : pc.awake.Ok := by
  cases pc <;> exact h

/-- So does a writer. -/
theorem WriterPc.Ok.awake {pc : WriterPc} (h : pc.Ok) : pc.awake.Ok := by
  cases pc <;> exact h

/-- A writer that was woken is about to change the word. -/
theorem WriterPc.Changing.awake {pc : WriterPc} (h : pc.Changing) : pc.awake.Changing := by
  cases pc <;> exact h

/-- Waking threads does not change the word. -/
@[simp] theorem wakeIf_iv (wake : Bool) (s : State ι) : (State.wakeIf wake s).iv = s.iv := by
  cases wake <;> rfl

/-- Nor who holds the lock. -/
@[simp] theorem holders_wakeIf [Fintype ι] (wake : Bool) (s : State ι) :
    holders (State.wakeIf wake s) = holders s := by
  cases wake
  · rfl
  · ext i
    simp [holders, State.wakeIf, State.wakeAll]

/-- Waking the sleepers keeps the invariant. -/
theorem Inv.wakeIf [Fintype ι] {s : State ι} (h : Inv s) (wake : Bool) :
    Inv (State.wakeIf wake s) := by
  cases wake with
  | false => exact h
  | true =>
      exact
        { readerOk := fun i => (h.readerOk i).awake
          writerOk := h.writerOk.awake
          count := by rw [holders_wakeIf]; exact h.count
          writer := by simpa [State.wakeIf, State.wakeAll] using h.writer
          wwait := fun hw => (h.wwait hw).awake }

/-- Moving one reader changes the number of holders by that reader alone. -/
theorem card_holders_update [Fintype ι] [DecidableEq ι] (s : State ι) (w : Word) (i : ι)
    (pc : ReaderPc) :
    (holders { s with iv := w, reader := Function.update s.reader i pc }).card
        + (if s.reader i = .holds then 1 else 0)
      = (holders s).card + (if pc = .holds then 1 else 0) := by
  -- Count the reader `i` and the others apart: the update does not touch the others.
  have hrest : ∀ r : ι → ReaderPc, (Finset.univ.filter fun j => r j = .holds).card
      = (if r i = .holds then 1 else 0)
        + ((Finset.univ.erase i).filter fun j => r j = .holds).card := by
    intro r
    rw [← Finset.insert_erase (Finset.mem_univ i), Finset.filter_insert]
    split
    · rw [Finset.card_insert_of_notMem (by simp)]
      simp [Nat.add_comm]
    · simp
  have hsame : ((Finset.univ.erase i).filter fun j => Function.update s.reader i pc j = .holds)
      = ((Finset.univ.erase i).filter fun j => s.reader j = .holds) := by
    refine Finset.filter_congr fun j hj => ?_
    rw [Function.update_of_ne (Finset.ne_of_mem_erase hj)]
  simp only [holders]
  rw [hrest (Function.update s.reader i pc), hrest s.reader, hsame, Function.update_self]
  omega

/-- A reader's step on the fields: the count follows whether the reader holds the lock, the
writer's flags stay, and a reader takes the lock only when both are clear. -/
theorem readerMove_fields {iv : Word} {pc : ReaderPc} {m : Move ReaderPc}
    (h : readerMove iv pc = some m) (hok : pc.Ok) :
    ((fields m.iv).count + (if pc = .holds then 1 else 0)) % 2 ^ 29
        = ((fields iv).count + (if m.pc = .holds then 1 else 0)) % 2 ^ 29 ∧
      (fields m.iv).writer = (fields iv).writer ∧
      (fields m.iv).wwait = (fields iv).wwait ∧
      (m.pc = .holds → (fields iv).writer = false ∧ (fields iv).wwait = false) := by
  cases pc with
  | idle | futexWake =>
      cases h
      simp
  | load tries =>
      cases h
      simp [readerTest_ne_holds]
  | exchange tries oldval =>
      simp only [readerMove] at h
      split at h <;> cases h
      · rename_i heq
        subst heq
        rw [fields_exchange_lock]
        exact ⟨by simp, hok.1.symm, hok.2.symm, fun _ => hok⟩
      · simp [readerTest_ne_holds]
  | orRwait oldval =>
      cases h
      simp [fields_or_rwait]
  | futexWait oldval =>
      cases h
      have hne : (if iv = oldval then ReaderPc.asleep else .load 0) ≠ .holds := by
        split <;> simp
      simp [hne]
  | asleep => cases h
  | holds =>
      cases h
      have hne : (if iv &&& (RTLD_MRLOCK_RBITS ||| RTLD_MRLOCK_WWAIT)
          = RTLD_MRLOCK_INC ||| RTLD_MRLOCK_WWAIT then ReaderPc.futexWake else .idle) ≠ .holds := by
        split <;> simp
      rw [fields_sub_inc]
      refine ⟨?_, rfl, rfl, fun hc => absurd hc hne⟩
      -- Modulo the width the count goes back by one, whatever it was.
      rw [if_pos rfl, if_neg hne]
      have hlt := count_lt iv
      show (((fields iv).count + (2 ^ 29 - 1)) % 2 ^ 29 + 1) % 2 ^ 29 =
        ((fields iv).count + 0) % 2 ^ 29
      omega

/-- A writer's step on the fields: the count stays, `WRITER` follows whether the writer holds
the lock, it takes the lock only when the count is zero, and `WWAIT` is set only inside the
loop of the change. -/
theorem writerMove_fields {iv : Word} {pc : WriterPc} {m : Move WriterPc}
    (h : writerMove iv pc = some m) (hok : pc.Ok)
    (hwriter : (fields iv).writer = decide (pc = .holds))
    (hwwait : (fields iv).wwait = true → pc.Changing) :
    (fields m.iv).count = (fields iv).count ∧
      (fields m.iv).writer = decide (m.pc = .holds) ∧
      (m.pc = .holds → (fields iv).count = 0) ∧
      ((fields m.iv).wwait = true → m.pc.Changing) := by
  have hholds : ∀ tries oldval, writerTest tries oldval ≠ .holds := fun tries oldval hc => by
    have hchanging := writerTest_changing tries oldval
    rw [hc] at hchanging
    exact hchanging
  cases pc with
  | idle =>
      cases h
      exact ⟨rfl, by simpa using hwriter, by simp, fun _ => trivial⟩
  | load tries =>
      cases h
      exact ⟨rfl, by simpa [hholds] using hwriter, by simp [hholds],
        fun _ => writerTest_changing tries iv⟩
  | exchange tries oldval =>
      simp only [writerMove] at h
      split at h <;> cases h
      · rename_i heq
        subst heq
        have hcount : (fields iv).count = 0 := hok
        rw [fields_exchange_change]
        exact ⟨hcount.symm, by simp, fun _ => hcount, by simp⟩
      · exact ⟨rfl, by simpa [hholds] using hwriter, by simp [hholds],
          fun _ => writerTest_changing tries iv⟩
  | orWwait oldval =>
      cases h
      rw [fields_or_wwait]
      exact ⟨rfl, by simpa using hwriter, by simp, fun _ => trivial⟩
  | futexWait oldval =>
      cases h
      refine ⟨rfl, ?_⟩
      simp only
      split <;> exact ⟨by simpa using hwriter, by simp, fun _ => trivial⟩
  | asleep => cases h
  | holds =>
      cases h
      -- The writer holds the lock, so it is not in its change loop and `WWAIT` is clear.
      have hclear : (fields iv).wwait ≠ true := fun hw => hwwait hw
      rw [fields_sub_writer iv (by simpa using hwriter)]
      refine ⟨rfl, ?_⟩
      simp only
      split <;> exact ⟨by simp, by simp, fun hw => absurd hw hclear⟩
  | futexWake =>
      cases h
      exact ⟨rfl, by simpa using hwriter, by simp, fun hw => absurd (hwwait hw) id⟩

/-- Nobody holds the lock at first. -/
theorem initial_inv [Fintype ι] : Inv (initial ι) := by
  have hiv : fields (initial ι).iv = ⟨0, false, false, false⟩ :=
    show fields 0 = _ by decide
  have hempty : holders (initial ι) = ∅ := by simp [holders, initial]
  exact
    { readerOk := fun _ => trivial
      writerOk := trivial
      count := by rw [hiv, hempty]; simp
      writer := by rw [hiv]; simp [initial]
      wwait := by simp [hiv] }

section
variable [Fintype ι] [DecidableEq ι]

/-- Each step keeps the invariant. -/
theorem step_inv {l : Label ι} {s s' : State ι} (h : Inv s) (hs : step l s = some s') :
    Inv s' := by
  rcases step_cases hs with ⟨i, m, rfl, hm, rfl⟩ | ⟨m, rfl, hm, rfl⟩ | ⟨i, rfl, rfl⟩ | ⟨rfl, rfl⟩
  · -- A reader moves.
    obtain ⟨hcount, hwriter, hwwait, -⟩ := readerMove_fields hm (h.readerOk i)
    refine Inv.wakeIf ?_ m.wake
    have hholders := card_holders_update s m.iv i m.pc
    refine ⟨fun j => ?_, h.writerOk, ?_, hwriter.trans h.writer, fun hw => h.wwait (hwwait ▸ hw)⟩
    · by_cases hj : j = i
      · subst hj
        simpa using readerMove_ok hm (h.readerOk j)
      · simpa [Function.update_of_ne hj] using h.readerOk j
    · -- Both the count and the number of holders move by the reader `i` alone.
      rw [h.count] at hcount
      show (fields m.iv).count = _
      have hlt := count_lt m.iv
      omega
  · -- The writer moves.
    obtain ⟨hcount, hwriter, -, hwwait⟩ := writerMove_fields hm h.writerOk h.writer h.wwait
    refine Inv.wakeIf ?_ m.wake
    exact
      { readerOk := h.readerOk
        writerOk := writerMove_ok hm h.writerOk
        count := hcount.trans h.count
        writer := hwriter
        wwait := hwwait }
  · -- A reader's wait is interrupted.
    have hholders := card_holders_update s s.iv i (s.reader i).awake
    simp only [ReaderPc.awake_eq_holds] at hholders
    refine ⟨fun j => ?_, h.writerOk, h.count.trans (by congr 1; omega), h.writer, h.wwait⟩
    by_cases hj : j = i
    · subst hj
      simpa using (h.readerOk j).awake
    · simpa [Function.update_of_ne hj] using h.readerOk j
  · -- The writer's wait is interrupted.
    exact
      { readerOk := h.readerOk
        writerOk := h.writerOk.awake
        count := h.count
        writer := by simpa using h.writer
        wwait := fun hw => (h.wwait hw).awake }

/-- The invariant holds in every reachable state. -/
theorem reachable_inv {s : State ι} (h : (mrlock ι).Reachable s) : Inv s :=
  h.invariant (fun s (hinit : s = initial ι) => hinit ▸ initial_inv)
    fun _ _ _ hI _ hs => step_inv hI hs

end

/-! ### Below `2 ^ 28` readers

The count then never reaches its width, so it is the number of holders. -/

section
variable [Fintype ι] (hcard : Fintype.card ι < 2 ^ 28)
include hcard

/-- The count is the number of holders. -/
theorem Inv.count_eq {s : State ι} (h : Inv s) : (fields s.iv).count = (holders s).card := by
  have hle := Finset.card_le_univ (holders s)
  rw [h.count, Nat.mod_eq_of_lt (by omega)]

/-- There is room for the reader `i` while it does not hold the lock. -/
theorem Inv.count_lt {s : State ι} (h : Inv s) {i : ι} (hi : s.reader i ≠ .holds) :
    (fields s.iv).count < Fields.maxCount := by
  have hsub : (holders s).card < Fintype.card ι :=
    Finset.card_lt_univ_of_notMem (x := i) (by simpa [holders] using hi)
  rw [h.count_eq hcard, Fields.maxCount]
  omega

/-- The reader `i` is counted while it holds the lock. -/
theorem Inv.count_pos {s : State ι} (h : Inv s) {i : ι} (hi : s.reader i = .holds) :
    0 < (fields s.iv).count := by
  rw [h.count_eq hcard]
  exact Finset.card_pos.mpr ⟨i, by simpa [holders] using hi⟩

/-- No reader holds the lock while the writer does. -/
theorem reachable_excl [DecidableEq ι] {s : State ι} (h : (mrlock ι).Reachable s) :
    s.writer = .holds → (holders s).card = 0 := by
  refine (h.invariant (I := fun s => Inv s ∧ (s.writer = .holds → (holders s).card = 0))
    (fun s (hinit : s = initial ι) => hinit ▸ ⟨initial_inv, by simp [initial]⟩) ?_).2
  rintro l s s' ⟨hI, hexcl⟩ - hs
  refine ⟨step_inv hI hs, ?_⟩
  rcases step_cases hs with ⟨i, m, rfl, hm, rfl⟩ | ⟨m, rfl, hm, rfl⟩ | ⟨i, rfl, rfl⟩ | ⟨rfl, rfl⟩
  · -- The writer holds the lock, so this reader neither takes nor holds it.
    intro hw
    have hw' : s.writer = .holds := by
      cases hwake : m.wake <;> simpa [State.wakeIf, State.wakeAll, hwake] using hw
    obtain ⟨-, -, -, htake⟩ := readerMove_fields hm (hI.readerOk i)
    have hset : (fields s.iv).writer = true := by rw [hI.writer, hw']; simp
    have hnot : m.pc ≠ .holds := fun hc => by simp [(htake hc).1] at hset
    have hholders := card_holders_update s m.iv i m.pc
    have hzero := hexcl hw'
    simp only [hnot, if_false] at hholders
    rw [holders_wakeIf]
    omega
  · -- The writer takes the lock only when the count is zero.
    intro hw
    have hw' : m.pc = .holds := by
      cases hwake : m.wake <;> simpa [State.wakeIf, State.wakeAll, hwake] using hw
    obtain ⟨-, -, htake, -⟩ := writerMove_fields hm hI.writerOk hI.writer hI.wwait
    rw [holders_wakeIf]
    exact (hI.count_eq hcard).symm.trans (htake hw')
  · -- A sleeper does not hold the lock, before or after it is woken.
    intro hw
    have hholders := card_holders_update s s.iv i (s.reader i).awake
    simp only [ReaderPc.awake_eq_holds] at hholders
    have hzero := hexcl hw
    omega
  · intro hw
    exact hexcl (by simpa using hw)

end

/-- The step `l` from `s` to `s'` does to each field of the lock word what the code means it
to do, and nothing carries into or borrows from another field: the intended update is
defined, and its result is the new word's fields. -/
def NoCarry (s s' : State ι) : Label ι → Prop
  | .reader i => readerEffect s.iv (s.reader i) (fields s.iv) = some (fields s'.iv)
  | .writer => writerEffect s.iv s.writer (fields s.iv) = some (fields s'.iv)
  | .interruptReader _ | .interruptWriter => s'.iv = s.iv

/-- Each step of a reachable state updates the fields without a carry or a borrow. -/
theorem step_noCarry [Fintype ι] [DecidableEq ι] (hcard : Fintype.card ι < 2 ^ 28) {l : Label ι}
    {s s' : State ι} (h : Inv s) (hs : step l s = some s') : NoCarry s s' l := by
  rcases step_cases hs with ⟨i, m, rfl, hm, rfl⟩ | ⟨m, rfl, hm, rfl⟩ | ⟨i, rfl, rfl⟩ | ⟨rfl, rfl⟩
  · simpa [NoCarry] using
      readerMove_effect hm (h.readerOk i) (h.count_lt hcard) (h.count_pos hcard)
  · simpa [NoCarry] using writerMove_effect hm h.writerOk h.writer
  · rfl
  · rfl

/-- **Safety of the multi-reader lock.** For fewer than `2 ^ 28` readers and every
interleaving of the atomic steps, in every reachable state: the bits above the low three are
8 times the number of readers that hold the lock; `WRITER` is set exactly while the writer
holds it; no reader holds it then; and no step carries into or borrows from another field. -/
theorem rtldMrlock_safe [Fintype ι] [DecidableEq ι] (hcard : Fintype.card ι < 2 ^ 28)
    {s : State ι} (h : (mrlock ι).Reachable s) :
    (s.iv &&& RTLD_MRLOCK_RBITS).toNat = 8 * (holders s).card ∧
      (s.iv &&& RTLD_MRLOCK_WRITER ≠ 0 ↔ s.writer = .holds) ∧
      (s.writer = .holds → ∀ i, s.reader i ≠ .holds) ∧
      ∀ l s', (mrlock ι).step l s = some s' → NoCarry s s' l := by
  have hI := reachable_inv h
  refine ⟨?_, ?_, fun hw i hi => ?_, fun l s' hs => step_noCarry hcard hI hs⟩
  · rw [toNat_and_rbits, hI.count_eq hcard]
  · rw [Ne, and_writer_eq_zero_iff, hI.writer]
    simp
  · have hempty := Finset.card_eq_zero.mp (reachable_excl hcard h hw)
    have hmem : i ∈ holders s := by simpa [holders] using hi
    simp [hempty] at hmem

/-- The theorem at work: two readers, one of which has taken the lock. -/
theorem rtldMrlock_safe_one_reader :
    ∃ s, (mrlock (Fin 2)).run [.reader 0, .reader 0, .reader 0] (initial (Fin 2)) = some s ∧
      s.reader 0 = .holds ∧ (s.iv &&& RTLD_MRLOCK_RBITS).toNat = 8 * (holders s).card ∧
      (s.writer = .holds → ∀ i, s.reader i ≠ .holds) := by
  refine ⟨_, rfl, rfl, ?_⟩
  obtain ⟨hcount, -, hexcl, -⟩ :=
    rtldMrlock_safe (ι := Fin 2) (by decide)
      (.of_run (.init rfl) [.reader 0, .reader 0, .reader 0] rfl)
  exact ⟨hcount, hexcl⟩

end GlibcPorts.Rtld
