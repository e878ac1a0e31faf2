import GlibcPorts.BitSets.Signals

/-!
# `GlibcPorts.Proofs.BitSets.Signals`: a `sigset_t` is a set of signals

* `signals_injective`: a `sigset_t` has no bits but those of its signals.
* `sigaddset_isSome_iff` and its siblings: the word of a signal is there for the numbers from 1 to
  128 and for no others.
* `signals_sigaddset` and its siblings: the sets after each call.
* `sigsetCalls_refine`: the same for every sequence of calls.
-/

set_option autoImplicit false

namespace GlibcPorts.BitSets

open Lib

/-! ### The word and the bit of a signal -/

section Signal

variable {sig : Int}

/-- The shift is a division by 32. -/
theorem sigword_eq (sig : Int) : sigword sig = (sig - 1) / 32 := by
  rw [sigword, Int.shiftRight_eq_div_pow]
  rfl

/-- The words that a set has are those of the signals from 1 to 128. -/
theorem sigword_mem_iff : (0 ≤ sigword sig ∧ sigword sig < 4) ↔ 1 ≤ sig ∧ sig ≤ 128 := by
  rw [sigword_eq]
  omega

/-- The index of the word of a signal. -/
theorem toNat_sigword (h : 1 ≤ sig) : (sigword sig).toNat = (sig - 1).toNat / 32 := by
  rw [sigword_eq]
  omega

/-- The bit of a signal in its word. -/
theorem sigmask_eq (h : 1 ≤ sig) : sigmask sig = bitOf 32 (sig - 1).toNat := by
  have htmod : ((sig - 1).tmod 32).toNat = (sig - 1).toNat % 32 := by
    rw [Int.tmod_eq_emod_of_nonneg (by omega)]
    omega
  rw [sigmask, htmod, bitOf]

end Signal

/-! ### The sets after each function -/

section Sets

variable {set left right : SigSet} {sig : Int}

/-- A signal is in the set exactly when its bit is. -/
theorem mem_signals {set : SigSet} {sig : Int} :
    sig ∈ set.signals ↔ 1 ≤ sig ∧ hasBit set.sigbits (sig - 1).toNat = true := Iff.rfl

/-- A set has signals up to 128 only. -/
theorem le_of_mem_signals (h : sig ∈ set.signals) : sig ≤ 128 := by
  by_contra hgt
  obtain ⟨-, hbit⟩ := h
  rw [hasBit_of_le (by rw [set.length_sigbits]; omega)] at hbit
  cases hbit

/-- A `sigset_t` has no bits but those of its signals. -/
theorem signals_injective (h : left.signals = right.signals) : left = right := by
  have hbits : left.sigbits = right.sigbits := by
    apply eq_of_hasBit (by decide) (by rw [left.length_sigbits, right.length_sigbits])
    intro j
    have hj := Set.ext_iff.mp h (j + 1 : Int)
    rw [mem_signals, mem_signals, show ((j + 1 : Int) - 1).toNat = j by omega] at hj
    have hpos : (1 : Int) ≤ j + 1 := by omega
    simp only [hpos, true_and] at hj
    exact Bool.eq_iff_iff.mpr hj
  cases left
  cases right
  cases hbits
  rfl

/-- `__sigemptyset` has no signals. -/
theorem signals_sigemptyset : sigemptyset.signals = ∅ := by
  ext sig
  have hzero := fun hj => hasBit_replicate (0 : BitVec 32) 4 (j := (sig - 1).toNat) hj
  rw [mem_signals, Set.mem_empty_iff_false, iff_false]
  rintro ⟨hpos, hbit⟩
  have hle : sig ≤ 128 := le_of_mem_signals (mem_signals.mpr ⟨hpos, hbit⟩)
  rw [show sigemptyset.sigbits = List.replicate 4 0 from rfl, hzero (by omega)] at hbit
  simp at hbit

/-- `__sigfillset` has all of them. -/
theorem signals_sigfillset : sigfillset.signals = {sig | 1 ≤ sig ∧ sig ≤ 128} := by
  ext sig
  have hones := fun hj => hasBit_replicate (~~~ (0 : BitVec 32)) 4 (j := (sig - 1).toNat) hj
  constructor
  · intro h
    exact ⟨h.1, le_of_mem_signals h⟩
  · rintro ⟨hpos, hle⟩
    refine ⟨hpos, ?_⟩
    rw [show sigfillset.sigbits = List.replicate 4 (~~~ 0) from rfl, hones (by omega),
      BitVec.getLsbD_not]
    simp [Nat.mod_lt]

/-- `__sigisemptyset` looks at all words. -/
theorem sigisemptyset_iff : sigisemptyset set = true ↔ set.signals = ∅ := by
  constructor
  · intro h
    have hbits : set.sigbits = List.replicate 4 0 := by
      apply List.eq_replicate_iff.mpr
      refine ⟨set.length_sigbits, ?_⟩
      intro word hword
      exact eq_of_beq (List.all_eq_true.mp h word hword)
    have hset : set = sigemptyset := by
      cases set
      cases hbits
      rfl
    rw [hset, signals_sigemptyset]
  · intro h
    have hset := signals_injective (h.trans signals_sigemptyset.symm)
    rw [hset]
    rfl

/-- An operation on the words, on the signals. -/
theorem hasBit_sigbits_zipWith (left right : SigSet) {f : BitVec 32 → BitVec 32 → BitVec 32}
    {g : Bool → Bool → Bool}
    (hf : ∀ x y j, j < 32 → (f x y).getLsbD j = g (x.getLsbD j) (y.getLsbD j))
    (hg : g false false = false) (j : Nat) :
    hasBit (List.zipWith f left.sigbits right.sigbits) j =
      g (hasBit left.sigbits j) (hasBit right.sigbits j) := by
  have hleft := left.length_sigbits
  have hright := right.length_sigbits
  by_cases hj : j < 4 * 32
  · exact hasBit_zipWith hf (hleft.trans hright.symm) (by rwa [hleft])
  · have hlen : (List.zipWith f left.sigbits right.sigbits).length = 4 := by
      rw [List.length_zipWith, hleft, hright, Nat.min_self]
    rw [hasBit_of_le (by omega), hasBit_of_le (by omega), hasBit_of_le (by omega), hg]

/-- `__sigandset` is the intersection. -/
theorem signals_sigandset :
    (sigandset left right).signals = left.signals ∩ right.signals := by
  ext sig
  have hbit := hasBit_sigbits_zipWith left right (f := (· &&& ·)) (g := and)
    (fun x y j _ => BitVec.getLsbD_and) rfl (sig - 1).toNat
  rw [Set.mem_inter_iff, mem_signals, mem_signals, mem_signals, sigandset, hbit, Bool.and_eq_true]
  tauto

/-- `__sigorset` is the union. -/
theorem signals_sigorset :
    (sigorset left right).signals = left.signals ∪ right.signals := by
  ext sig
  have hbit := hasBit_sigbits_zipWith left right (f := (· ||| ·)) (g := or)
    (fun x y j _ => BitVec.getLsbD_or) rfl (sig - 1).toNat
  rw [Set.mem_union, mem_signals, mem_signals, mem_signals, sigorset, hbit, Bool.or_eq_true]
  tauto

/-- The word of a signal that a set can have. -/
theorem word_sigword (h : 1 ≤ sig ∧ sig ≤ 128) :
    set.word (sigword sig) = some (set.sigbits[(sig - 1).toNat / 32]?.getD 0) := by
  have hlen := set.length_sigbits
  have hindex : (sig - 1).toNat / 32 < set.sigbits.length := by omega
  rw [SigSet.word, if_pos (sigword_mem_iff.mpr h).1, toNat_sigword h.1,
    List.getElem?_eq_getElem hindex]
  rfl

/-- The word of a number that is no signal is outside the set. -/
theorem word_eq_none (h : ¬ (1 ≤ sig ∧ sig ≤ 128)) : set.word (sigword sig) = none := by
  have hlen := set.length_sigbits
  have hword := mt sigword_mem_iff.mp h
  unfold SigSet.word
  split
  · exact List.getElem?_eq_none (by omega)
  · rfl

/-- The word of a signal is there for the signals from 1 to 128 only. -/
theorem sigismember_isSome_iff : (sigismember set sig).isSome ↔ 1 ≤ sig ∧ sig ≤ 128 := by
  by_cases h : 1 ≤ sig ∧ sig ≤ 128
  · simp [sigismember, word_sigword h, h]
  · simp [sigismember, word_eq_none h, h]

/-- `__sigismember` returns whether the signal is in the set. -/
theorem mem_of_sigismember {b : Bool} (h : sigismember set sig = some b) :
    b = true ↔ sig ∈ set.signals := by
  have hsig := sigismember_isSome_iff.mp (Option.isSome_iff_exists.mpr ⟨b, h⟩)
  rw [sigismember, word_sigword hsig, sigmask_eq hsig.1] at h
  cases h
  rw [decide_eq_true_iff, and_bitOf_ne_zero (by decide), mem_signals]
  exact (and_iff_right hsig.1).symm

/-- A store to the word of a number stays in the set exactly when it is a signal. -/
theorem update_isSome_iff {f : BitVec 32 → BitVec 32} :
    (set.update (sigword sig) f).isSome ↔ 1 ≤ sig ∧ sig ≤ 128 := by
  rw [← sigword_mem_iff, SigSet.update]
  split <;> simp_all

/-- The words after an update. -/
theorem sigbits_of_update {f : BitVec 32 → BitVec 32} {set' : SigSet}
    (h : set.update (sigword sig) f = some set') :
    (1 ≤ sig ∧ sig ≤ 128) ∧ set'.sigbits = set.sigbits.modify ((sig - 1).toNat / 32) f := by
  have hsig := update_isSome_iff.mp (Option.isSome_iff_exists.mpr ⟨set', h⟩)
  rw [SigSet.update, if_pos (sigword_mem_iff.mpr hsig)] at h
  cases h
  refine ⟨hsig, ?_⟩
  show set.sigbits.modify (sigword sig).toNat f = _
  rw [toNat_sigword hsig.1]

/-- `__sigaddset` inserts the signal. -/
theorem signals_sigaddset {set' : SigSet} (h : sigaddset set sig = some set') :
    set'.signals = insert sig set.signals := by
  obtain ⟨hsig, hbits⟩ := sigbits_of_update h
  have hindex : (sig - 1).toNat / 32 < set.sigbits.length := by
    rw [set.length_sigbits]
    omega
  rw [sigmask_eq hsig.1] at hbits
  ext other
  have hpos : other = sig → 1 ≤ other := by omega
  have hsame : 1 ≤ other → ((other - 1).toNat = (sig - 1).toNat ↔ other = sig) := by omega
  rw [Set.mem_insert_iff, mem_signals, mem_signals, hbits, hasBit_set hindex (by decide),
    Bool.or_eq_true, decide_eq_true_iff]
  tauto

/-- `__sigdelset` removes it. -/
theorem signals_sigdelset {set' : SigSet} (h : sigdelset set sig = some set') :
    set'.signals = set.signals \ {sig} := by
  obtain ⟨hsig, hbits⟩ := sigbits_of_update h
  have hindex : (sig - 1).toNat / 32 < set.sigbits.length := by
    rw [set.length_sigbits]
    omega
  rw [sigmask_eq hsig.1] at hbits
  ext other
  have hsame : 1 ≤ other → ((other - 1).toNat = (sig - 1).toNat ↔ other = sig) := by omega
  rw [Set.mem_sdiff_singleton, mem_signals, mem_signals, hbits, hasBit_clear hindex (by decide),
    Bool.and_eq_true, Bool.not_eq_true', decide_eq_false_iff_not]
  tauto

/-- The first word has the bits of an old mask. -/
theorem hasBit_first (ws : List (BitVec 32)) {j : Nat} (hj : j < 32) :
    hasBit ws j = (ws[0]?.getD 0).getLsbD j := by
  rw [hasBit, Nat.div_eq_of_lt hj, Nat.mod_eq_of_lt hj]

/-- `sigset_set_old_mask` makes the set of the signals of the mask. -/
theorem signals_sigsetSetOldMask (mask : BitVec 32) :
    (sigsetSetOldMask mask).signals = oldMaskSignals mask := by
  ext sig
  show 1 ≤ sig ∧ hasBit [mask, 0, 0, 0] (sig - 1).toNat = true ↔
    1 ≤ sig ∧ sig ≤ 32 ∧ mask.getLsbD (sig - 1).toNat = true
  by_cases hle : sig ≤ 32
  · rw [hasBit_first _ (by omega)]
    simp [hle]
  · have hzero : hasBit [mask, 0, 0, 0] (sig - 1).toNat = false := by
      have hindex : (sig - 1).toNat / 32 ≠ 0 := by omega
      obtain ⟨k, hk⟩ := Nat.exists_eq_succ_of_ne_zero hindex
      rw [hasBit, hk, Nat.succ_eq_add_one, List.getElem?_cons_succ,
        show [(0 : BitVec 32), 0, 0] = List.replicate 3 0 from rfl, List.getElem?_replicate]
      split <;> simp
    rw [hzero]
    simp [hle]

/-- `sigset_get_old_mask` keeps the first 32 signals. -/
theorem oldMaskSignals_get (set : SigSet) :
    oldMaskSignals (sigsetGetOldMask set) = {sig ∈ set.signals | sig ≤ 32} := by
  ext sig
  show 1 ≤ sig ∧ sig ≤ 32 ∧ (set.sigbits[0]?.getD 0).getLsbD (sig - 1).toNat = true ↔
    (1 ≤ sig ∧ hasBit set.sigbits (sig - 1).toNat = true) ∧ sig ≤ 32
  by_cases hle : sig ≤ 32
  · rw [hasBit_first _ (by omega)]
    tauto
  · tauto

end Sets

/-! ### Sequences of calls -/

section Calls

variable {Var : Type} [DecidableEq Var]

/-- The signals in all sets. -/
def allSignals (sets : Var → SigSet) : Var → Set Int := fun v => (sets v).signals

/-- Changing one set changes its signals only. -/
@[simp] theorem allSignals_update (sets : Var → SigSet) (v : Var) (set : SigSet) :
    allSignals (Function.update sets v set) = Function.update (allSignals sets) v set.signals := by
  funext u
  by_cases h : u = v
  · subst h
    simp [allSignals]
  · simp [allSignals, h]

/-- A call stays inside its sets exactly when its signal is one of theirs. -/
theorem sigsetCalls_step_isSome_iff (call : SigCall Var) (sets : Var → SigSet) :
    (sigsetCalls.step call sets).isSome ↔ call.InRange := by
  cases call with
  | sigismember v sig =>
      show ((sigismember (sets v) sig).map _).isSome ↔ 1 ≤ sig ∧ sig ≤ 128
      rw [Option.isSome_map, sigismember_isSome_iff]
  | sigaddset v sig =>
      show (((sets v).update (sigword sig) _).map _).isSome ↔ 1 ≤ sig ∧ sig ≤ 128
      rw [Option.isSome_map, update_isSome_iff]
  | sigdelset v sig =>
      show (((sets v).update (sigword sig) _).map _).isSome ↔ 1 ≤ sig ∧ sig ≤ 128
      rw [Option.isSome_map, update_isSome_iff]
  | _ => simp [sigsetCalls, SigCall.InRange]

/-- What one call does to the signals in the sets. -/
theorem sigsetCalls_step {call : SigCall Var} {sets sets' : Var → SigSet} {r : SigResult}
    (h : sigsetCalls.step call sets = some (r, sets')) :
    SigSpec (allSignals sets) call r (allSignals sets') := by
  cases call with
  | sigemptyset v =>
      cases h
      rw [allSignals_update, signals_sigemptyset]
      exact .sigemptyset
  | sigfillset v =>
      cases h
      rw [allSignals_update, signals_sigfillset]
      exact .sigfillset
  | sigisemptyset v =>
      cases h
      exact .sigisemptyset sigisemptyset_iff
  | sigandset d left right =>
      cases h
      rw [allSignals_update, signals_sigandset]
      exact .sigandset
  | sigorset d left right =>
      cases h
      rw [allSignals_update, signals_sigorset]
      exact .sigorset
  -- Here and below the call returned, so the number was one of a signal.
  | sigismember v sig =>
      obtain ⟨b, hb, heq⟩ := Option.map_eq_some_iff.mp h
      cases heq
      exact .sigismember (mem_of_sigismember hb)
  | sigaddset v sig =>
      obtain ⟨set, hset, heq⟩ := Option.map_eq_some_iff.mp h
      cases heq
      rw [allSignals_update, signals_sigaddset hset]
      exact .sigaddset
  | sigdelset v sig =>
      obtain ⟨set, hset, heq⟩ := Option.map_eq_some_iff.mp h
      cases heq
      rw [allSignals_update, signals_sigdelset hset]
      exact .sigdelset
  | setOldMask v mask =>
      cases h
      rw [allSignals_update, signals_sigsetSetOldMask]
      exact .setOldMask
  | getOldMask v =>
      cases h
      exact .getOldMask (oldMaskSignals_get (sets v))

/-- Every sequence of calls on any number of sets, also with one set as operand and destination,
does to the signals in them what it says. It stays inside the sets exactly when the signals in the
calls are from 1 to 128, and a set is given by its signals. -/
theorem sigsetCalls_refine (calls : List (SigCall Var)) (sets : Var → SigSet) :
    ((sigsetCalls.run calls sets).isSome ↔ ∀ call ∈ calls, call.InRange) ∧
      (∀ answers sets', sigsetCalls.run calls sets = some (answers, sets') →
        Spec.Follows SigSpec (allSignals sets) answers (allSignals sets')) ∧
      ∀ sets' : Var → SigSet, allSignals sets = allSignals sets' → sets = sets' := by
  have hstep : ∀ (call : SigCall Var) sets abstract r sets', allSignals sets = abstract → True →
      sigsetCalls.step call sets = some (r, sets') →
      ∃ abstract', SigSpec abstract call r abstract' ∧ allSignals sets' = abstract' := by
    intro call sets abstract r sets' habs _ h
    exact ⟨_, habs ▸ sigsetCalls_step h, rfl⟩
  refine ⟨Machine.isSome_run_iff fun call sets => sigsetCalls_step_isSome_iff call sets, ?_, ?_⟩
  · intro answers sets' hrun
    obtain ⟨abstract, hfollows, rfl⟩ :=
      Spec.follows_of_run hstep (rfl : allSignals sets = _) (fun _ _ => trivial) hrun
    exact hfollows
  · intro sets' h
    funext v
    exact signals_injective (congrFun h v)

end Calls

end GlibcPorts.BitSets
