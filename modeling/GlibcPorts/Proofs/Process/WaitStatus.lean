import GlibcPorts.Process.WaitStatus

/-!
# `GlibcPorts.Proofs.Process.WaitStatus`: a status and its event

`toNat_statusOf_exited` and the three lemmas after it are the four kinds of status as numbers, and
the lemmas on the macros beside their definitions do the rest. `report_statusOf_seen` is the round
trip from an event. It loses `continued`, which reads as a death by signal 19, and the deaths by the
last two signals: the seven bits of `__WTERMSIG` mark a stop for 127, and an exit for 128.
`statusOf_report` is the other round trip, on the tidy words.

`unionWait_terminated` and `unionWait_stopped` compare the bit fields with the macros, in both byte
orders at once by `BitFields.highFirst_reverse`.
-/

set_option autoImplicit false

namespace GlibcPorts.Process

open Lib

/-! ### The statuses as numbers -/

/-- An exit code in the second byte. -/
theorem toNat_statusOf_exited (code : BitVec 8) :
    (statusOf (.exited code)).toNat = 256 * code.toNat := by
  have hcode := code.isLt
  show ((code.setWidth 32 <<< 8) ||| 0#32).toNat = _
  rw [BitVec.or_zero, BitVec.toNat_shiftLeft, BitVec.toNat_setWidth, Nat.shiftLeft_eq]
  omega

/-- A signal of seven bits, and the core flag above it. -/
theorem toNat_statusOf_signaled (sig : TermSignal) (core : Bool) (hsig : sig.val.toNat < 128) :
    (statusOf (.signaled sig core)).toNat = sig.val.toNat + 128 * core.toNat := by
  have hor : sig.val.toNat ||| 2 ^ 7 * 1 = sig.val.toNat + 2 ^ 7 * 1 := by
    rw [Nat.or_comm, ← Nat.two_pow_add_eq_or_of_lt hsig, Nat.add_comm]
  have hset : (sig.val.setWidth 32).toNat = sig.val.toNat := by
    rw [BitVec.toNat_setWidth]
    omega
  have hzero : W_EXITCODE 0 (sig.val.setWidth 32) = sig.val.setWidth 32 := by
    show (0#32 <<< 8) ||| _ = _
    rw [BitVec.zero_shiftLeft, BitVec.zero_or]
  cases core with
  | false =>
      show (W_EXITCODE 0 (sig.val.setWidth 32) ||| 0#32).toNat = _
      rw [hzero, BitVec.or_zero, hset]
      rfl
  | true =>
      show (W_EXITCODE 0 (sig.val.setWidth 32) ||| 0x80#32).toNat = _
      rw [hzero, BitVec.toNat_or, hset]
      exact hor

/-- The signal that a stop has in the second byte. -/
theorem toNat_statusOf_stopped (sig : BitVec 8) :
    (statusOf (.stopped sig)).toNat = 256 * sig.toNat + 127 := by
  have hsig := sig.isLt
  have hshift : (sig.setWidth 32 <<< 8).toNat = 2 ^ 8 * sig.toNat := by
    rw [BitVec.toNat_shiftLeft, BitVec.toNat_setWidth, Nat.shiftLeft_eq]
    omega
  show ((sig.setWidth 32 <<< 8) ||| 0x7f#32).toNat = _
  rw [BitVec.toNat_or, hshift]
  exact (Nat.two_pow_add_eq_or_of_lt (i := 8) (by decide) sig.toNat).symm

/-! ### The round trips -/

/-- The event that a caller sees. The status of `continued` is the one of a death by signal 19, and
the last two signals leave no bits that say so. -/
def seen : ChildEvent → ChildEvent
  | .continued => .signaled ⟨19, by decide⟩ false
  | .signaled sig core =>
      if sig.val = 127 then .stopped 0 else if sig.val = 128 then .exited 0
      else .signaled sig core
  | event => event

/-- What a caller sees when the low seven bits are clear. -/
theorem report_exited {status : BitVec 32} (h : status.toNat % 128 = 0) :
    report status = some (.exited ((WEXITSTATUS status).setWidth 8)) :=
  if_pos ((WIFEXITED_iff status).mpr h)

/-- What a caller sees of any other status. -/
theorem report_signaled {status : BitVec 32} (hzero : status.toNat % 128 ≠ 0)
    (hstop : status.toNat % 128 ≠ 127) :
    report status = some (.signaled
      (termSignal status ((WIFSIGNALED_iff status).mpr ⟨hzero, hstop⟩))
      (decide (WCOREDUMP status ≠ 0))) := by
  rw [report, if_neg (mt (WIFEXITED_iff status).mp hzero),
    dif_pos ((WIFSIGNALED_iff status).mpr ⟨hzero, hstop⟩)]

/-- What a caller sees when they are set. -/
theorem report_stopped {status : BitVec 32} (h : status.toNat % 128 = 127) :
    report status = some (.stopped ((WSTOPSIG status).setWidth 8)) := by
  have hexit : ¬ WIFEXITED status := by
    rw [WIFEXITED_iff, h]
    decide
  have hsignal : ¬ WIFSIGNALED status := by
    rw [WIFSIGNALED_iff, h]
    exact fun hne => hne.2 rfl
  rw [report, if_neg hexit, dif_neg hsignal, if_pos ((WIFSTOPPED_iff status).mpr h)]

/-- A signal number read from a status. -/
theorem toNat_termSignal (status : BitVec 32) (h : WIFSIGNALED status) :
    (termSignal status h).val.toNat = status.toNat % 128 := by
  show ((WTERMSIG status).setWidth 8).toNat = _
  rw [BitVec.toNat_setWidth, toNat_WTERMSIG]
  omega

/-- An exit code, or a signal of a stop, read from a status. -/
theorem toNat_exitCode (status : BitVec 32) :
    ((WEXITSTATUS status).setWidth 8).toNat = status.toNat / 256 % 256 := by
  rw [BitVec.toNat_setWidth, toNat_WEXITSTATUS, Nat.mod_mod]

/-- No core flag. -/
theorem WCOREDUMP_eq_zero_iff (status : BitVec 32) :
    WCOREDUMP status = 0 ↔ status.toNat / 128 % 2 = 0 := by
  rw [← BitVec.toNat_inj, toNat_WCOREDUMP]
  show _ = 0 ↔ _
  omega

/-- No exit code. -/
theorem WEXITSTATUS_eq_zero_iff (status : BitVec 32) :
    WEXITSTATUS status = 0 ↔ status.toNat / 256 % 256 = 0 := by
  rw [← BitVec.toNat_inj, toNat_WEXITSTATUS]
  rfl

/-- A death by any signal but the last two comes back. -/
theorem report_statusOf_signaled (sig : TermSignal) (core : Bool) (hlt : sig.val.toNat < 127) :
    report (statusOf (.signaled sig core)) = some (.signaled sig core) := by
  have hstatus := toNat_statusOf_signaled sig core (by omega)
  have hcore := core.toNat_le
  have hpos := sig.property.1
  have hlow : (statusOf (.signaled sig core)).toNat % 128 = sig.val.toNat := by omega
  rw [report_signaled (by omega) (by omega)]
  congr 2
  · apply Subtype.ext
    apply BitVec.eq_of_toNat_eq
    rw [toNat_termSignal, hlow]
  · have hdump := WCOREDUMP_eq_zero_iff (statusOf (.signaled sig core))
    cases core with
    | false =>
        simp only [Bool.toNat_false] at hstatus
        exact decide_eq_false (not_not_intro (hdump.mpr (by omega)))
    | true =>
        simp only [Bool.toNat_true] at hstatus
        exact decide_eq_true (mt hdump.mp (by omega))

/-- The last two signals fill the seven bits, and leave them clear. -/
theorem report_statusOf_last :
    ∀ core, report (statusOf (.signaled ⟨127, by decide⟩ core)) = some (.stopped 0) ∧
      report (statusOf (.signaled ⟨128, by decide⟩ core)) = some (.exited 0) := by
  decide

/-- From an event to its status and back. -/
theorem report_statusOf_seen (event : ChildEvent) :
    report (statusOf event) = some (seen event) := by
  cases event with
  | exited code =>
      have hcode := code.isLt
      have hstatus := toNat_statusOf_exited code
      rw [report_exited (by omega)]
      congr 2
      apply BitVec.eq_of_toNat_eq
      rw [toNat_exitCode]
      omega
  | signaled sig core =>
      obtain ⟨sig, hpos, hlt⟩ := sig
      -- The last two signals are those that the macros read otherwise.
      by_cases hstop : sig = 127
      · subst hstop
        exact (report_statusOf_last core).1
      · by_cases hexit : sig = 128
        · subst hexit
          exact (report_statusOf_last core).2
        · have hne : sig.toNat ≠ 127 := fun h => hstop (BitVec.eq_of_toNat_eq h)
          have hne' : sig.toNat ≠ 128 := fun h => hexit (BitVec.eq_of_toNat_eq h)
          unfold NSIG at hlt
          rw [report_statusOf_signaled _ core (by show sig.toNat < 127; omega), seen,
            if_neg hstop, if_neg hexit]
  | stopped sig =>
      have hsig := sig.isLt
      have hstatus := toNat_statusOf_stopped sig
      rw [report_stopped (by omega)]
      congr 2
      apply BitVec.eq_of_toNat_eq
      show ((WEXITSTATUS _).setWidth 8).toNat = _
      rw [toNat_exitCode]
      omega
  | continued => exact report_statusOf_signaled ⟨19, by decide⟩ false (by decide)

/-- The event that the macros cannot show: a continue, or a death by one of the last two signals. -/
def Hidden : ChildEvent → Prop
  | .continued => True
  | .signaled sig _ => 127 ≤ sig.val.toNat
  | _ => False

/-- They show every other event. -/
theorem seen_eq_iff (event : ChildEvent) : seen event = event ↔ ¬ Hidden event := by
  cases event with
  | exited code => simp [seen, Hidden]
  | stopped sig => simp [seen, Hidden]
  | continued => simp [seen, Hidden]
  | signaled sig core =>
      obtain ⟨sig, hpos, hlt⟩ := sig
      unfold NSIG at hlt
      have hstop : sig = 127 ↔ sig.toNat = 127 := BitVec.toNat_inj.symm
      have hexit : sig = 128 ↔ sig.toNat = 128 := BitVec.toNat_inj.symm
      simp only [seen, Hidden, hstop, hexit]
      split
      · exact iff_of_false nofun (by omega)
      · split
        · exact iff_of_false nofun (by omega)
        · exact iff_of_true rfl (by omega)

/-- The tidy statuses as numbers. -/
theorem tidy_iff (status : BitVec 32) :
    Tidy status ↔ status.toNat < 2 ^ 16
      ∧ (status.toNat % 128 = 0 ∨ status.toNat % 128 = 127 → status.toNat / 128 % 2 = 0)
      ∧ (status.toNat % 128 ≠ 0 ∧ status.toNat % 128 ≠ 127 → status.toNat / 256 % 256 = 0) := by
  rw [Tidy, WIFEXITED_iff, WIFSTOPPED_iff, WIFSIGNALED_iff, WCOREDUMP_eq_zero_iff,
    WEXITSTATUS_eq_zero_iff]

/-- From a status to its event and back. -/
theorem statusOf_report {status : BitVec 32} {event : ChildEvent}
    (h : report status = some event) : statusOf event = status ↔ Tidy status := by
  have hlt : status.toNat < 2 ^ 32 := status.isLt
  rw [tidy_iff, ← BitVec.toNat_inj]
  -- The low seven bits say what the status is.
  by_cases hzero : status.toNat % 128 = 0
  · rw [report_exited hzero] at h
    cases h
    rw [toNat_statusOf_exited, toNat_exitCode]
    omega
  · by_cases hstop : status.toNat % 128 = 127
    · rw [report_stopped hstop] at h
      cases h
      rw [toNat_statusOf_stopped, WSTOPSIG, toNat_exitCode]
      omega
    · rw [report_signaled hzero hstop] at h
      cases h
      have hcore : (decide (WCOREDUMP status ≠ 0)).toNat = status.toNat / 128 % 2 := by
        have hdump := WCOREDUMP_eq_zero_iff status
        by_cases hbit : status.toNat / 128 % 2 = 0
        · rw [decide_eq_false (not_not_intro (hdump.mpr hbit)), hbit]
          rfl
        · rw [decide_eq_true (mt hdump.mp hbit)]
          exact (by omega : 1 = status.toNat / 128 % 2)
      have hsig := toNat_termSignal status ((WIFSIGNALED_iff status).mpr ⟨hzero, hstop⟩)
      rw [toNat_statusOf_signaled _ _ (by omega), hsig, hcore]
      omega

/-! ### The bit fields -/

/-- The big endian struct, declared in reverse, has the fields of the little endian one. -/
theorem bitFields_big (layout : List (Option WaitField × Nat)) (status : BitVec 32)
    (h : (layout.map Prod.snd).sum = 32) :
    bitFields .big layout.reverse status = (bitFields .little layout status).reverse := by
  have hvalues := BitFields.highFirst_reverse (layout.map Prod.snd) status.toNat
  rw [h] at hvalues
  have hlength : (layout.map Prod.fst).length
      = (BitFields.lowFirst (layout.map Prod.snd) status.toNat).length := by
    rw [BitFields.length_lowFirst, List.length_map, List.length_map]
  show (layout.reverse.map Prod.fst).zip
    (BitFields.highFirst (layout.reverse.map Prod.snd) 32 status.toNat) = _
  rw [List.map_reverse, List.map_reverse, hvalues]
  exact (List.reverse_zipWith hlength).symm

/-- The value of every bit field, in both byte orders. -/
theorem unionWait_eq (order : ByteOrder) (status : BitVec 32) (field : WaitField) :
    unionWait order status field = some (match field with
      | .termsig => status.toNat % 128
      | .coredump => status.toNat / 128 % 2
      | .retcode => status.toNat / 256 % 256
      | .stopval => status.toNat % 256
      | .stopsig => status.toNat / 256 % 256) := by
  have hterminated : bitFields .little (waitTerminated .little) status
      = [(some .termsig, status.toNat % 128), (some .coredump, status.toNat / 128 % 2),
        (some .retcode, status.toNat / 128 / 2 % 256),
        (none, status.toNat / 128 / 2 / 256 % 65536)] := rfl
  have hstopped : bitFields .little (waitStopped .little) status
      = [(some .stopval, status.toNat % 256), (some .stopsig, status.toNat / 256 % 256),
        (none, status.toNat / 256 / 256 % 65536)] := rfl
  have hbyte : status.toNat / 128 / 2 = status.toNat / 256 := Nat.div_div_eq_div_mul _ _ _
  rw [hbyte] at hterminated
  cases order with
  | little =>
      rw [unionWait, hterminated, hstopped]
      cases field <;> rfl
  | big =>
      have hfirst := bitFields_big (waitTerminated .little) status rfl
      have hsecond := bitFields_big (waitStopped .little) status rfl
      rw [hterminated] at hfirst
      rw [hstopped] at hsecond
      show List.lookup (some field) (bitFields .big (waitTerminated .little).reverse status
        ++ bitFields .big (waitStopped .little).reverse status) = _
      rw [hfirst, hsecond]
      cases field <;> rfl

/-! ### All views of a status -/

/-- The three kinds of status leave out no word and share none, an event comes back from its
status as what is `seen` of it, unchanged unless it is `Hidden`, a word comes back from its event
when it is tidy,
`__WIFCONTINUED` holds of two events, and the bit fields agree with the macros in both byte
orders, where `w_stopval` also wants the core flag clear. -/
theorem waitStatus_roundTrip :
    (∀ status, (WIFEXITED status ∧ ¬ WIFSIGNALED status ∧ ¬ WIFSTOPPED status)
      ∨ (¬ WIFEXITED status ∧ WIFSIGNALED status ∧ ¬ WIFSTOPPED status)
      ∨ (¬ WIFEXITED status ∧ ¬ WIFSIGNALED status ∧ WIFSTOPPED status))
    ∧ (∀ event, report (statusOf event) = some (seen event) ∧ (seen event = event ↔ ¬ Hidden event))
    ∧ (∀ status, ∃ event, report status = some event ∧ (statusOf event = status ↔ Tidy status))
    ∧ (∀ event, WIFCONTINUED (statusOf event)
      ↔ event = .continued ∨ event = .signaled ⟨19, by decide⟩ false)
    ∧ ∀ order status,
      unionWait order status .termsig = some (WTERMSIG status).toNat
      ∧ unionWait order status .coredump = some (if WCOREDUMP status = 0 then 0 else 1)
      ∧ unionWait order status .retcode = some (WEXITSTATUS status).toNat
      ∧ unionWait order status .stopsig = some (WSTOPSIG status).toNat
      ∧ (unionWait order status .stopval = some 0x7f
        ↔ WIFSTOPPED status ∧ WCOREDUMP status = 0) := by
  refine ⟨fun status => ?_, fun event => ⟨report_statusOf_seen event, seen_eq_iff event⟩,
    fun status => ?_, fun event => ?_, fun order status => ?_⟩
  · rw [WIFEXITED_iff, WIFSIGNALED_iff, WIFSTOPPED_iff]
    omega
  · by_cases hzero : status.toNat % 128 = 0
    · exact ⟨_, report_exited hzero, statusOf_report (report_exited hzero)⟩
    · by_cases hstop : status.toNat % 128 = 127
      · exact ⟨_, report_stopped hstop, statusOf_report (report_stopped hstop)⟩
      · exact ⟨_, report_signaled hzero hstop, statusOf_report (report_signaled hzero hstop)⟩
  · constructor
    · intro h
      have hsame : some (seen event) = some (.signaled ⟨19, by decide⟩ false) := by
        rw [← report_statusOf_seen, h]
        exact report_statusOf_seen .continued
      cases event with
      | continued => exact .inl rfl
      | exited _ => cases hsame
      | stopped _ => cases hsame
      | signaled sig core =>
          rw [seen] at hsame
          split at hsame
          · cases hsame
          · split at hsame
            · cases hsame
            · exact .inr (Option.some.inj hsame)
    · rintro (rfl | rfl) <;> rfl
  · have hdump := WCOREDUMP_eq_zero_iff status
    simp only [unionWait_eq, toNat_WTERMSIG, toNat_WEXITSTATUS, WSTOPSIG, WIFSTOPPED_iff,
      true_and]
    constructor
    · by_cases hbit : status.toNat / 128 % 2 = 0
      · rw [if_pos (hdump.mpr hbit), hbit]
      · rw [if_neg (mt hdump.mp hbit)]
        exact congrArg some (by omega)
    · rw [hdump, Option.some.injEq]
      omega

end GlibcPorts.Process
