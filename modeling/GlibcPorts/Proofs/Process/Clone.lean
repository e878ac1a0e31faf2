import GlibcPorts.Process.Clone
import Mathlib.Tactic.IntervalCases

/-!
# `GlibcPorts.Proofs.Process.Clone`: the translation keeps what the flags ask for

The flags for `rfork` are put together from parts on bits of their own. `getLsbD_rforkFlags` is the
word bit by bit, and each field of `forked` reads off its bit from there. The number of the signal
has eight bits on a new kernel (`forked_newSignal`) and seven on an old one (`forked_oldSignal`).
`clone_spec` puts this together: which calls are refused, and when the child is the one asked for.
-/

set_option autoImplicit false

namespace GlibcPorts.Process

/-! ### Bits -/

/-- A flag has one bit. -/
theorem getLsbD_oneShift {k : Nat} (hk : k < 32) (i : Nat) :
    ((1 : BitVec 32) <<< k).getLsbD i = decide (i = k) := by
  rw [show (1 : BitVec 32) <<< k = BitVec.twoPow 32 k from (BitVec.twoPow_eq 32 k).symm,
    BitVec.getLsbD_twoPow, decide_eq_true hk, Bool.true_and]
  exact decide_eq_decide.mpr eq_comm

/-- It is set if this bit is. -/
theorem isSet_oneShift_iff {k : Nat} (hk : k < 32) (flags : BitVec 32) :
    isSet flags ((1 : BitVec 32) <<< k) ↔ flags.getLsbD k := by
  constructor
  · intro hne
    by_contra hbit
    refine hne (BitVec.eq_of_getLsbD_eq fun i _ => ?_)
    rw [BitVec.getLsbD_and, getLsbD_oneShift hk]
    by_cases hi : i = k
    · rw [hi, Bool.eq_false_iff.mpr hbit]
      simp
    · simp [hi]
  · intro hbit heq
    have hk' := congrArg (fun x : BitVec 32 => x.getLsbD k) heq
    simp only [BitVec.getLsbD_and, getLsbD_oneShift hk, hbit] at hk'
    simp at hk'

/-- The result of `__clone`, with its conditions as truth values. -/
def rforkFlags (vm files sighand vfork : Bool) (signal : BitVec 32) : BitVec 32 :=
  RFPROC ||| signal ||| (if vm then RFMEM else 0) ||| (if files then 0 else RFFDG)
    ||| (if sighand then RFSIGSHARE ||| RFTHREAD else 0) ||| (if vfork then RFPPWAIT else 0)

/-- The result bit by bit. -/
theorem getLsbD_rforkFlags (vm files sighand vfork : Bool) (signal : BitVec 32) (i : Nat) :
    (rforkFlags vm files sighand vfork signal).getLsbD i =
      (decide (i = 4) || signal.getLsbD i || (vm && decide (i = 5)) || (!files && decide (i = 2))
        || (sighand && (decide (i = 14) || decide (i = 13))) || (vfork && decide (i = 31))) := by
  have hbit : ∀ {k}, k < 32 → ((1 : BitVec 32) <<< k).getLsbD i = decide (i = k) :=
    fun hk => getLsbD_oneShift hk i
  have hproc : RFPROC.getLsbD i = decide (i = 4) := hbit (by decide)
  have hmem : RFMEM.getLsbD i = decide (i = 5) := hbit (by decide)
  have hfdg : RFFDG.getLsbD i = decide (i = 2) := hbit (by decide)
  have hshare : RFSIGSHARE.getLsbD i = decide (i = 14) := hbit (by decide)
  have hthread : RFTHREAD.getLsbD i = decide (i = 13) := hbit (by decide)
  have hwait : RFPPWAIT.getLsbD i = decide (i = 31) := hbit (by decide)
  cases vm <;> cases files <;> cases sighand <;> cases vfork <;>
    simp [rforkFlags, hproc, hmem, hfdg, hshare, hthread, hwait]

/-! ### The number of the signal -/

/-- The mask of the low bits. -/
theorem getLsbD_mask {k : Nat} (hk : k ≤ 32) (i : Nat) :
    (BitVec.ofNat 32 (2 ^ k - 1)).getLsbD i = decide (i < k) := by
  rw [BitVec.getLsbD_ofNat, Nat.testBit_two_pow_sub_one]
  by_cases hi : i < k
  · simp [hi, Nat.lt_of_lt_of_le hi hk]
  · simp [hi]

/-- A number cut out of flags, bit by bit. -/
theorem getLsbD_cut {shift k : Nat} (hk : shift + k ≤ 32) (flags : BitVec 32) (i : Nat) :
    (flags.sshiftRight shift &&& BitVec.ofNat 32 (2 ^ k - 1)).getLsbD i
      = (decide (i < k) && flags.getLsbD (shift + i)) := by
  rw [BitVec.getLsbD_and, getLsbD_mask (by omega), BitVec.getLsbD_sshiftRight]
  by_cases hi : i < k
  · have hlt : shift + i < 32 := by omega
    have hi32 : ¬ 32 ≤ i := by omega
    simp [hi, hlt, hi32]
  · simp [hi]

/-- The signal of a new kernel, bit by bit. -/
theorem getLsbD_RFTSIGNUM (flags : BitVec 32) (i : Nat) :
    (RFTSIGNUM flags).getLsbD i = (decide (i < 8) && flags.getLsbD (20 + i)) := by
  have hmask : RFTSIGMASK = BitVec.ofNat 32 (2 ^ 8 - 1) := rfl
  rw [RFTSIGNUM, hmask, RFTSIGSHIFT, getLsbD_cut (by decide)]

/-- The signal of an old one. -/
theorem getLsbD_RFTHPNSIGNUM (flags : BitVec 32) (i : Nat) :
    (RFTHPNSIGNUM flags).getLsbD i = (decide (i < 7) && flags.getLsbD (24 + i)) := by
  have hmask : RFTHPNMASK = BitVec.ofNat 32 (2 ^ 7 - 1) := rfl
  rw [RFTHPNSIGNUM, hmask, RFTHPNSHIFT, getLsbD_cut (by decide)]

/-- Bits for the signal only. -/
def ForSignal (signal : BitVec 32) : Prop :=
  ∀ i, signal.getLsbD i → i = 16 ∨ (19 ≤ i ∧ i ≤ 30)

/-- The other bits are those of the other parts. -/
theorem isSet_rforkFlags_iff (vm files sighand vfork : Bool) {signal : BitVec 32}
    (h : ForSignal signal) {k : Nat} (hk : k < 32) (hother : k ≠ 16 ∧ ¬ (19 ≤ k ∧ k ≤ 30)) :
    isSet (rforkFlags vm files sighand vfork signal) ((1 : BitVec 32) <<< k) ↔
      k = 4 ∨ (vm = true ∧ k = 5) ∨ (files = false ∧ k = 2)
        ∨ (sighand = true ∧ (k = 14 ∨ k = 13)) ∨ (vfork = true ∧ k = 31) := by
  have hsignal : signal.getLsbD k = false :=
    Bool.eq_false_iff.mpr fun hbit => (h k hbit).elim hother.1 hother.2
  rw [isSet_oneShift_iff hk, getLsbD_rforkFlags, hsignal]
  simp [or_assoc]

/-- The bits for the signal are its own. -/
theorem getLsbD_rforkFlags_signal (vm files sighand vfork : Bool) (signal : BitVec 32) {i : Nat}
    (hi : i = 16 ∨ (19 ≤ i ∧ i ≤ 30)) :
    (rforkFlags vm files sighand vfork signal).getLsbD i = signal.getLsbD i := by
  have hne : i ≠ 2 ∧ i ≠ 4 ∧ i ≠ 5 ∧ i ≠ 13 ∧ i ≠ 14 ∧ i ≠ 31 := by omega
  obtain ⟨h2, h4, h5, h13, h14, h31⟩ := hne
  simp [getLsbD_rforkFlags, h2, h4, h5, h13, h14, h31]

/-- The other parts do not disturb the signal. -/
theorem exitSignal_rforkFlags (vm files sighand vfork : Bool) (signal : BitVec 32) :
    (forked (rforkFlags vm files sighand vfork signal)).exitSignal =
      (forked signal).exitSignal := by
  have hsame : ∀ i, i = 16 ∨ (19 ≤ i ∧ i ≤ 30) →
      (rforkFlags vm files sighand vfork signal).getLsbD i = signal.getLsbD i :=
    fun _ hi => getLsbD_rforkFlags_signal vm files sighand vfork signal hi
  have hnum : RFTSIGNUM (rforkFlags vm files sighand vfork signal) = RFTSIGNUM signal := by
    refine BitVec.eq_of_getLsbD_eq fun i _ => ?_
    rw [getLsbD_RFTSIGNUM, getLsbD_RFTSIGNUM]
    by_cases hi : i < 8
    · rw [hsame (20 + i) (by omega)]
    · simp [hi]
  have hthpn : RFTHPNSIGNUM (rforkFlags vm files sighand vfork signal) = RFTHPNSIGNUM signal := by
    refine BitVec.eq_of_getLsbD_eq fun i _ => ?_
    rw [getLsbD_RFTHPNSIGNUM, getLsbD_RFTHPNSIGNUM]
    by_cases hi : i < 7
    · rw [hsame (24 + i) (by omega)]
    · simp [hi]
  -- The two flags that say where the number is are bits of the signal.
  have hkind : ∀ {k}, k < 32 → k = 16 ∨ (19 ≤ k ∧ k ≤ 30) →
      (isSet (rforkFlags vm files sighand vfork signal) ((1 : BitVec 32) <<< k)
        ↔ isSet signal ((1 : BitVec 32) <<< k)) := fun hk hi => by
    rw [isSet_oneShift_iff hk, isSet_oneShift_iff hk, hsame _ hi]
  rw [forked, forked, hnum, hthpn]
  exact if_congr (hkind (by decide) (by decide)) rfl
    (if_congr (hkind (by decide) (by decide)) rfl rfl)

/-- The parts do not disturb each other. -/
theorem forked_rforkFlags (vm files sighand vfork : Bool) {signal : BitVec 32}
    (h : ForSignal signal) :
    forked (rforkFlags vm files sighand vfork signal) =
      { memory := vm, files := if files then .shared else .copied, handlers := sighand
        threadGroup := sighand, parentWaits := vfork, detached := false, stopped := false
        highPid := false, unimplemented := false, exitSignal := (forked signal).exitSignal } := by
  have hpart : ∀ {k}, k < 32 → k ≠ 16 ∧ ¬ (19 ≤ k ∧ k ≤ 30) →
      (isSet (rforkFlags vm files sighand vfork signal) ((1 : BitVec 32) <<< k) ↔ _) :=
    isSet_rforkFlags_iff vm files sighand vfork h
  -- No part has any of these bits.
  have hclear : ∀ k ∈ [0, 1, 3, 6, 10, 11, 12, 17, 18],
      ¬ isSet (rforkFlags vm files sighand vfork signal) ((1 : BitVec 32) <<< k) := by
    intro k hk
    have hplace : k < 32 ∧ (k ≠ 16 ∧ ¬ (19 ≤ k ∧ k ≤ 30)) ∧
        k ≠ 2 ∧ k ≠ 4 ∧ k ≠ 5 ∧ k ≠ 13 ∧ k ≠ 14 ∧ k ≠ 31 := by
      revert k
      decide
    obtain ⟨hlt, hother, h2, h4, h5, h13, h14, h31⟩ := hplace
    rw [hpart hlt hother]
    simp [h2, h4, h5, h13, h14, h31]
  have hfdg : isSet (rforkFlags vm files sighand vfork signal) RFFDG ↔ files = false :=
    (hpart (k := 2) (by decide) (by decide)).trans (by simp)
  have hfield : ∀ {p : Prop} {b : Bool} [Decidable p], (p ↔ b = true) → decide p = b := fun hp =>
    Bool.eq_iff_iff.mpr (decide_eq_true_iff.trans hp)
  show Child.mk _ _ _ _ _ _ _ _ _ _ = Child.mk _ _ _ _ _ _ _ _ _ _
  congr 1
  · exact hfield ((hpart (k := 5) (by decide) (by decide)).trans (by simp))
  · refine (if_neg (hclear 12 (by decide))).trans ?_
    cases files with
    | false => exact if_pos (hfdg.mpr rfl)
    | true => exact if_neg (mt hfdg.mp (by decide))
  · exact hfield ((hpart (k := 14) (by decide) (by decide)).trans (by simp))
  · exact hfield ((hpart (k := 13) (by decide) (by decide)).trans (by simp))
  · exact hfield ((hpart (k := 31) (by decide) (by decide)).trans (by simp))
  · exact decide_eq_false (hclear 6 (by decide))
  · exact decide_eq_false (hclear 17 (by decide))
  · exact decide_eq_false (hclear 18 (by decide))
  · refine decide_eq_false ?_
    rintro (h | h | h | h | h)
    · exact hclear 0 (by decide) h
    · exact hclear 1 (by decide) h
    · exact hclear 3 (by decide) h
    · exact hclear 10 (by decide) h
    · exact hclear 11 (by decide) h
  · exact exitSignal_rforkFlags vm files sighand vfork signal

/-- A number of `k` bits behind a flag that says it is there, and cut out again. -/
theorem cut_signal {kind shift k : Nat} (hkind : kind < shift) (hk : shift + k ≤ 32)
    {signal : BitVec 32} (h : ∀ i, signal.getLsbD i → i < k) :
    (∀ i, (((1 : BitVec 32) <<< kind) ||| (signal <<< shift)).getLsbD i →
      i = kind ∨ (shift ≤ i ∧ i < shift + k))
    ∧ isSet (((1 : BitVec 32) <<< kind) ||| (signal <<< shift)) ((1 : BitVec 32) <<< kind)
    ∧ (((1 : BitVec 32) <<< kind) ||| (signal <<< shift)).sshiftRight shift
      &&& BitVec.ofNat 32 (2 ^ k - 1) = signal := by
  -- The flag and the number have bits of their own.
  have hbit : ∀ i, (((1 : BitVec 32) <<< kind) ||| (signal <<< shift)).getLsbD i
      = (decide (i = kind)
        || (decide (i < 32) && !decide (i < shift) && signal.getLsbD (i - shift))) := fun i => by
    rw [BitVec.getLsbD_or, getLsbD_oneShift (by omega), BitVec.getLsbD_shiftLeft]
  refine ⟨fun i hi => ?_, ?_, BitVec.eq_of_getLsbD_eq fun i hi => ?_⟩
  · rw [hbit] at hi
    simp only [Bool.or_eq_true, Bool.and_eq_true, Bool.not_eq_true', decide_eq_true_eq,
      decide_eq_false_iff_not] at hi
    rcases hi with rfl | ⟨⟨-, hge⟩, hsig⟩
    · exact .inl rfl
    · have hlt := h _ hsig
      exact .inr (by omega)
  · rw [isSet_oneShift_iff (by omega), hbit, decide_eq_true rfl, Bool.true_or]
  · rw [getLsbD_cut hk, hbit]
    by_cases hik : i < k
    · have hne : shift + i ≠ kind := by omega
      have hlt : shift + i < 32 := by omega
      simp [hik, hne, hlt]
    · have hfalse : signal.getLsbD i = false := Bool.eq_false_iff.mpr fun hb => hik (h i hb)
      simp [hik, hfalse]

/-- Eight bits of a signal, for a new kernel. -/
theorem forked_newSignal {signal : BitVec 32} (h : ∀ i, signal.getLsbD i → i < 8) :
    ForSignal (RFTSIGZMB ||| RFTSIGFLAGS signal)
      ∧ (forked (RFTSIGZMB ||| RFTSIGFLAGS signal)).exitSignal = signal := by
  obtain ⟨hbits, hset, hcut⟩ := cut_signal (by decide : 19 < 20) (by decide) h
  constructor
  · intro i hi
    have := hbits i hi
    exact .inr (by omega)
  · exact (if_pos hset).trans hcut

/-- Seven bits of it, for an old one. -/
theorem forked_oldSignal {signal : BitVec 32} (h : ∀ i, signal.getLsbD i → i < 7) :
    ForSignal (RFLINUXTHPN ||| (signal <<< RFTHPNSHIFT))
      ∧ (forked (RFLINUXTHPN ||| (signal <<< RFTHPNSHIFT))).exitSignal = signal := by
  obtain ⟨hbits, hset, hcut⟩ := cut_signal (by decide : 16 < 24) (by decide) h
  have hzmb : ¬ isSet (RFLINUXTHPN ||| (signal <<< RFTHPNSHIFT)) RFTSIGZMB := by
    show ¬ isSet _ ((1 : BitVec 32) <<< (19 : Nat))
    rw [isSet_oneShift_iff (by decide)]
    intro hbit
    have := hbits 19 hbit
    omega
  constructor
  · intro i hi
    have := hbits i hi
    omega
  · exact (if_neg hzmb).trans ((if_pos hset).trans hcut)

/-! ### The translation -/

/-- The low eight bits of the flags. -/
theorem getLsbD_CSIGNAL (flags : BitVec 32) (i : Nat) :
    (flags &&& CSIGNAL).getLsbD i = (flags.getLsbD i && decide (i < 8)) := by
  have hmask : CSIGNAL = BitVec.ofNat 32 (2 ^ 8 - 1) := rfl
  rw [BitVec.getLsbD_and, hmask, getLsbD_mask (by decide)]

/-- No bit outside of a mask. -/
theorem not_isSet_compl_iff {k : Nat} (hk : k ≤ 32) (flags : BitVec 32) :
    ¬ isSet flags (~~~BitVec.ofNat 32 (2 ^ k - 1)) ↔ ∀ i, flags.getLsbD i → i < k := by
  rw [isSet, not_not]
  constructor
  · intro heq i hi
    have hlt := BitVec.lt_of_getLsbD hi
    have hbit := congrArg (fun x : BitVec 32 => x.getLsbD i) heq
    simp only [BitVec.getLsbD_and, BitVec.getLsbD_not, getLsbD_mask hk, hi] at hbit
    simpa [hlt] using hbit
  · intro h
    refine BitVec.eq_of_getLsbD_eq fun i hi => ?_
    rw [BitVec.getLsbD_and, BitVec.getLsbD_not, getLsbD_mask hk]
    cases hbit : flags.getLsbD i with
    | false => simp
    | true => simp [h i hbit]

/-- The calls that fail. The last reason is one of old kernels. -/
def Refused (fn child_stack : Bool) (flags osreldate : BitVec 32) : Prop :=
  ¬ fn ∨ ¬ child_stack ∨ isSet flags (~~~supportedFlags)
    ∨ (osreldate.toInt < 802510 ∧ isSet (flags &&& CSIGNAL) (~~~RFTHPNMASK))

/-- The child that a call leads to. An old kernel has no way to ask for no signal. -/
def given (flags osreldate : BitVec 32) : Child :=
  { asked flags with
    exitSignal :=
      if osreldate.toInt < 802510 ∧ flags &&& CSIGNAL = 0 then SIGCHLD else flags &&& CSIGNAL }

/-- The flags for the signal are refused, or stand for the signal of `given`. -/
theorem signalFlags_spec (flags osreldate : BitVec 32) :
    (signalFlags flags osreldate = .error EINVAL
      ∧ osreldate.toInt < 802510 ∧ isSet (flags &&& CSIGNAL) (~~~RFTHPNMASK))
    ∨ ∃ signal, signalFlags flags osreldate = .ok signal
      ∧ ¬ (osreldate.toInt < 802510 ∧ isSet (flags &&& CSIGNAL) (~~~RFTHPNMASK))
      ∧ ForSignal signal ∧ (forked signal).exitSignal = (given flags osreldate).exitSignal := by
  have hbyte : ∀ i, (flags &&& CSIGNAL).getLsbD i → i < 8 := fun i hi => by
    rw [getLsbD_CSIGNAL] at hi
    simpa using (Bool.and_eq_true_iff.mp hi).2
  have hnew : ¬ isSet (flags &&& CSIGNAL) (~~~RFTSIGMASK) :=
    (not_isSet_compl_iff (by decide : 8 ≤ 32) _).mpr hbyte
  have hchild : ∀ i, SIGCHLD.getLsbD i → i < 7 :=
    (not_isSet_compl_iff (by decide : 7 ≤ 32) _).mp (by decide)
  unfold signalFlags given
  by_cases hsame : flags &&& CSIGNAL = SIGCHLD
  · rw [if_pos hsame, hsame]
    have hzero : SIGCHLD ≠ 0 := by decide
    refine .inr ⟨0, rfl, fun h => absurd h.2 (by decide), fun i hi => ?_, ?_⟩
    · simp at hi
    · rw [if_neg fun h => hzero h.2]
      rfl
  · rw [if_neg hsame]
    -- An old kernel has seven bits for the number, and takes zero for `SIGCHLD`.
    by_cases hold : osreldate.toInt < 802510
    · rw [if_neg (by omega)]
      by_cases hwide : isSet (flags &&& CSIGNAL) (~~~RFTHPNMASK)
      · rw [if_pos hwide]
        exact .inl ⟨rfl, hold, hwide⟩
      · rw [if_neg hwide]
        by_cases hzero : flags &&& CSIGNAL = 0
        · rw [if_pos hzero, if_pos ⟨hold, hzero⟩]
          obtain ⟨hbits, hsignal⟩ := forked_oldSignal hchild
          exact .inr ⟨_, rfl, fun h => hwide h.2, hbits, hsignal⟩
        · rw [if_neg hzero, if_neg fun h => hzero h.2]
          obtain ⟨hbits, hsignal⟩ :=
            forked_oldSignal ((not_isSet_compl_iff (by decide : 7 ≤ 32) _).mp hwide)
          exact .inr ⟨_, rfl, fun h => hwide h.2, hbits, hsignal⟩
    · rw [if_pos (by omega), if_neg hnew, if_neg fun h => hold h.1]
      obtain ⟨hbits, hsignal⟩ := forked_newSignal hbyte
      exact .inr ⟨_, rfl, fun h => hold h.1, hbits, hsignal⟩

/-- `__clone` fails with `EINVAL` for the reasons of `Refused` and no other. Otherwise `rfork` is
asked for a new process that shares what the flags of `clone` ask for and ends with the signal of
`given`. -/
theorem clone_spec (fn child_stack : Bool) (flags osreldate : BitVec 32) :
    (clone fn child_stack flags osreldate = .error EINVAL
      ∧ Refused fn child_stack flags osreldate)
    ∨ ∃ rfork_flags, clone fn child_stack flags osreldate = .ok rfork_flags
      ∧ ¬ Refused fn child_stack flags osreldate ∧ isSet rfork_flags RFPROC
      ∧ forked rfork_flags = given flags osreldate := by
  unfold clone Refused
  by_cases hnull : ¬ fn ∨ ¬ child_stack
  · refine .inl ⟨?_, hnull.imp_right .inl⟩
    rw [if_pos hnull]
    rfl
  · obtain ⟨hfn, hstack⟩ := not_or.mp hnull
    rw [if_neg hnull]
    by_cases hflags : isSet flags (~~~supportedFlags)
    · refine .inl ⟨?_, .inr (.inr (.inl hflags))⟩
      rw [if_pos hflags]
      rfl
    · rw [if_neg hflags]
      rcases signalFlags_spec flags osreldate with ⟨herror, hold, hwide⟩ |
        ⟨signal, hsignal, hok, hbits, hnumber⟩
      · refine .inl ⟨?_, .inr (.inr (.inr ⟨hold, hwide⟩))⟩
        rw [herror]
        rfl
      · refine .inr ⟨rforkFlags (isSet flags CLONE_VM) (isSet flags CLONE_FILES)
          (isSet flags CLONE_SIGHAND) (isSet flags CLONE_VFORK) signal, ?_, ?_, ?_, ?_⟩
        · rw [hsignal]
          simp only [rforkFlags, decide_eq_true_eq]
          rfl
        · exact not_or.mpr ⟨hfn, not_or.mpr ⟨hstack, not_or.mpr ⟨hflags, hok⟩⟩⟩
        · -- It is always a process.
          refine (isSet_oneShift_iff (k := 4) (by decide) _).mpr ?_
          rw [getLsbD_rforkFlags]
          rfl
        · rw [forked_rforkFlags _ _ _ _ hbits, hnumber]
          simp only [decide_eq_true_eq]
          rfl

end GlibcPorts.Process
