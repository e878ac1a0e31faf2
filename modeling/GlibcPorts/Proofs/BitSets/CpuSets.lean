import GlibcPorts.BitSets.CpuSets
import GlibcPorts.Lib.Alignment

/-!
# `GlibcPorts.Proofs.BitSets.CpuSets`: sizes for which the macros are right

The macros test the number of a CPU against the bytes of the set, and then use the whole word that
it is in. The loop of `__CPU_OP_S` goes over whole words only. So the last bytes of a set whose
size is no multiple of a word are not handled as the others are.

* `cpuWord_eq_some_iff`, `testBit_of_setCpuWord`: the words of a set and its bits.
* `cpuOp_spec`: what the loop leaves, also when its destination is an operand.
* `cpuSetCalls_step`: what each macro does to a set of a good size.
* `cpuSets_refine_iff`: the sizes for which all is right.
-/

set_option autoImplicit false

namespace GlibcPorts.BitSets

open Lib

/-! ### Words -/

section Words

variable {abi : Abi} {set set' : List UInt8} {i j : Nat} {word : BitVec abi.longBits}

/-- The bits of a word. -/
theorem longBits_eq (abi : Abi) : abi.longBits = 8 * sizeofCpuMask abi := by cases abi <;> rfl

/-- The bits of some words, by the bytes of them. -/
theorem mul_longBits (abi : Abi) (k : Nat) :
    k * abi.longBits = 8 * (k * sizeofCpuMask abi) := by
  rw [longBits_eq, Nat.mul_left_comm]

/-- `__NCPUBITS` counts them. -/
theorem NCPUBITS_eq (abi : Abi) : NCPUBITS abi = abi.longBits := (longBits_eq abi).symm

/-- A word has bits. -/
theorem longBits_pos (abi : Abi) : 0 < abi.longBits := by cases abi <;> decide

/-- The bit of a CPU in its word. -/
theorem cpuMask_eq (cpu : BitVec abi.longBits) :
    cpuMask abi cpu = bitOf abi.longBits cpu.toNat := by
  rw [cpuMask, NCPUBITS_eq, bitOf]

/-- A word is there when all of its bytes are. -/
theorem cpuWord_isSome_iff :
    (cpuWord abi set i).isSome ↔ sizeofCpuMask abi * i + sizeofCpuMask abi ≤ set.length := by
  rw [cpuWord, Option.isSome_map, readBytes]
  split <;> simp_all

/-- The bits of a word are bits of the set. -/
theorem getLsbD_of_cpuWord (h : cpuWord abi set i = some word) (hj : j < abi.longBits) :
    word.getLsbD j = (leNat set).testBit (abi.longBits * i + j) := by
  obtain ⟨bs, hbs, rfl⟩ := Option.map_eq_some_iff.mp h
  have hbits := longBits_eq abi
  have hread := testBit_of_readBytes hbs (j := j) (by omega)
  rw [← Nat.mul_assoc, ← hbits] at hread
  rw [← hread, ← BitVec.testBit_toNat, BitVec.toNat_ofNat, Nat.testBit_mod_two_pow]
  simp [hj]

/-- A word is stored exactly when it is inside. -/
theorem setCpuWord_isSome_iff :
    (setCpuWord abi set i word).isSome ↔
      sizeofCpuMask abi * i + sizeofCpuMask abi ≤ set.length := by
  rw [setCpuWord, CString.writeAt, length_leBytes]
  split <;> simp_all

/-- A store does not change the size. -/
theorem length_of_setCpuWord (h : setCpuWord abi set i word = some set') :
    set'.length = set.length :=
  CString.length_of_writeAt h

/-- The bits after a store of a word. -/
theorem testBit_of_setCpuWord (h : setCpuWord abi set i word = some set') (j : Nat) :
    (leNat set').testBit j =
      if j / abi.longBits = i then word.getLsbD (j % abi.longBits) else (leNat set).testBit j := by
  have hbits := longBits_eq abi
  have hpos := longBits_pos abi
  have hstore := testBit_of_writeAt h j
  have hlt : word.toNat < 256 ^ sizeofCpuMask abi := by
    rw [pow_256, ← hbits]
    exact word.isLt
  have hsplit := Nat.div_add_mod j abi.longBits
  have hmod := Nat.mod_lt j hpos
  rw [length_leBytes, leNat_leBytes_of_lt hlt, ← Nat.mul_assoc, ← hbits, Nat.mul_add,
    ← Nat.mul_assoc, ← hbits] at hstore
  rw [hstore, BitVec.testBit_toNat]
  by_cases hword : j / abi.longBits = i
  · rw [hword] at hsplit
    rw [if_pos (by omega), if_pos hword]
    congr 1
    omega
  · have hout : ¬ (abi.longBits * i ≤ j ∧ j < abi.longBits * i + abi.longBits) := by
      rintro ⟨hle, hlt'⟩
      apply hword
      apply Nat.div_eq_of_lt_le
      · rwa [Nat.mul_comm]
      · rwa [Nat.succ_mul, Nat.mul_comm]
    rw [if_neg hout, if_neg hword]

/-- A word read, changed and written. -/
theorem changeWord_spec (f : BitVec abi.longBits → BitVec abi.longBits)
    (hroom : sizeofCpuMask abi * i + sizeofCpuMask abi ≤ set.length) :
    ∃ word set', cpuWord abi set i = some word ∧ setCpuWord abi set i (f word) = some set' ∧
      set'.length = set.length ∧
      (∀ j, j / abi.longBits = i → word.getLsbD (j % abi.longBits) = (leNat set).testBit j) ∧
      ∀ j, (leNat set').testBit j =
        if j / abi.longBits = i then (f word).getLsbD (j % abi.longBits)
        else (leNat set).testBit j := by
  obtain ⟨word, hword⟩ := Option.isSome_iff_exists.mp (cpuWord_isSome_iff.mpr hroom)
  obtain ⟨set', hset'⟩ : ∃ set', setCpuWord abi set i (f word) = some set' :=
    Option.isSome_iff_exists.mp (setCpuWord_isSome_iff.mpr hroom)
  refine ⟨word, set', hword, hset', length_of_setCpuWord hset', ?_, testBit_of_setCpuWord hset'⟩
  intro j hj
  have hbit := getLsbD_of_cpuWord hword (Nat.mod_lt j (longBits_pos abi))
  rwa [← hj, Nat.div_add_mod] at hbit

end Words

/-! ### One CPU -/

section Cpu

variable {abi : Abi} {setsize cpu : BitVec abi.longBits} {set : List UInt8}

/-- The sizes that are whole words and whose bits can be counted in a `size_t`. -/
structure GoodSize (abi : Abi) (setsize : BitVec abi.longBits) : Prop where
  whole : sizeofCpuMask abi ∣ setsize.toNat
  counted : 8 * setsize.toNat < 2 ^ abi.longBits

/-- The test that the macros make. -/
theorem lt_iff_of_counted (hcounted : 8 * setsize.toNat < 2 ^ abi.longBits) :
    cpu < 8 * setsize ↔ cpu.toNat < 8 * setsize.toNat := by
  have height : (8 : BitVec abi.longBits).toNat = 8 := by cases abi <;> rfl
  rw [BitVec.lt_def, BitVec.toNat_mul, height, Nat.mod_eq_of_lt hcounted]

variable (hgood : GoodSize abi setsize) (hlen : setsize.toNat ≤ set.length)

include hgood hlen in
/-- The word of a CPU that passes the test is inside the set. -/
theorem GoodSize.room (hcpu : cpu.toNat < 8 * setsize.toNat) :
    sizeofCpuMask abi * cpuElt abi cpu + sizeofCpuMask abi ≤ set.length := by
  obtain ⟨k, hk⟩ := hgood.whole
  have hpos := longBits_pos abi
  have hbits := longBits_eq abi
  have hmul : k * abi.longBits = 8 * (sizeofCpuMask abi * k) := by
    rw [hbits, Nat.mul_comm k, Nat.mul_assoc]
  have helt : cpuElt abi cpu < k := by
    rwa [cpuElt, NCPUBITS_eq, Nat.div_lt_iff_lt_mul hpos, hmul, ← hk]
  have hword := Nat.mul_le_mul_left (sizeofCpuMask abi) (show cpuElt abi cpu + 1 ≤ k from helt)
  rw [Nat.mul_add, Nat.mul_one, ← hk] at hword
  omega

/-- The index of the word of a CPU. -/
theorem cpuElt_eq (cpu : BitVec abi.longBits) : cpuElt abi cpu = cpu.toNat / abi.longBits := by
  rw [cpuElt, NCPUBITS_eq]

include hgood hlen in
/-- `__CPU_SET_S` inserts a CPU that the size has room for, and no other. -/
theorem cpuSet_spec (cpu : BitVec abi.longBits) :
    ∃ set', cpuSet abi setsize cpu set = some set' ∧ set'.length = set.length ∧
      cpus setsize.toNat set' =
        insert cpu.toNat (cpus setsize.toNat set) ∩ {c | c < 8 * setsize.toNat} := by
  by_cases hcpu : cpu.toNat < 8 * setsize.toNat
  · obtain ⟨word, set', hword, hset', hlength, hbits, hstored⟩ :=
      changeWord_spec (· ||| cpuMask abi cpu) (hgood.room hlen hcpu)
    refine ⟨set', ?_, hlength, ?_⟩
    · rw [cpuSet, if_pos ((lt_iff_of_counted hgood.counted).mpr hcpu), hword]
      exact hset'
    · ext j
      show j < 8 * setsize.toNat ∧ (leNat set').testBit j = true ↔
        (j = cpu.toNat ∨ j < 8 * setsize.toNat ∧ (leNat set).testBit j = true) ∧
          j < 8 * setsize.toNat
      have hsame := eq_iff_div_mod j cpu.toNat abi.longBits
      rw [hstored, cpuElt_eq]
      split
      · next hj =>
        rw [BitVec.getLsbD_or, hbits j (hj.trans (cpuElt_eq cpu).symm), cpuMask_eq,
          getLsbD_bitOf (longBits_pos abi), Bool.or_eq_true, decide_eq_true_iff]
        tauto
      · tauto
  · -- A number that is too large changes nothing.
    refine ⟨set, if_neg (mt (lt_iff_of_counted hgood.counted).mp hcpu), rfl, ?_⟩
    ext j
    show j < 8 * setsize.toNat ∧ (leNat set).testBit j = true ↔
      (j = cpu.toNat ∨ j < 8 * setsize.toNat ∧ (leNat set).testBit j = true) ∧
        j < 8 * setsize.toNat
    have hne : j < 8 * setsize.toNat → j ≠ cpu.toNat := by omega
    tauto

include hgood hlen in
/-- `__CPU_CLR_S` removes the CPU. -/
theorem cpuClr_spec (cpu : BitVec abi.longBits) :
    ∃ set', cpuClr abi setsize cpu set = some set' ∧ set'.length = set.length ∧
      cpus setsize.toNat set' = cpus setsize.toNat set \ {cpu.toNat} := by
  by_cases hcpu : cpu.toNat < 8 * setsize.toNat
  · obtain ⟨word, set', hword, hset', hlength, hbits, hstored⟩ :=
      changeWord_spec (· &&& ~~~ cpuMask abi cpu) (hgood.room hlen hcpu)
    refine ⟨set', ?_, hlength, ?_⟩
    · rw [cpuClr, if_pos ((lt_iff_of_counted hgood.counted).mpr hcpu), hword]
      exact hset'
    · ext j
      show j < 8 * setsize.toNat ∧ (leNat set').testBit j = true ↔
        (j < 8 * setsize.toNat ∧ (leNat set).testBit j = true) ∧ ¬ j = cpu.toNat
      have hsame := eq_iff_div_mod j cpu.toNat abi.longBits
      have hmod := Nat.mod_lt j (longBits_pos abi)
      rw [hstored, cpuElt_eq]
      split
      · next hj =>
        rw [BitVec.getLsbD_and, BitVec.getLsbD_not, hbits j (hj.trans (cpuElt_eq cpu).symm),
          cpuMask_eq, getLsbD_bitOf (longBits_pos abi), Bool.and_eq_true, Bool.and_eq_true,
          decide_eq_true_iff, Bool.not_eq_true', decide_eq_false_iff_not]
        tauto
      · tauto
  · -- A number that is too large is not in the set.
    refine ⟨set, if_neg (mt (lt_iff_of_counted hgood.counted).mp hcpu), rfl, ?_⟩
    ext j
    show j < 8 * setsize.toNat ∧ (leNat set).testBit j = true ↔
      (j < 8 * setsize.toNat ∧ (leNat set).testBit j = true) ∧ ¬ j = cpu.toNat
    have hne : j < 8 * setsize.toNat → j ≠ cpu.toNat := by omega
    tauto

include hgood hlen in
/-- `__CPU_ISSET_S` tells whether the CPU is in the set. -/
theorem cpuIsset_spec (cpu : BitVec abi.longBits) :
    ∃ b, cpuIsset abi setsize cpu set = some b ∧
      (b = true ↔ cpu.toNat ∈ cpus setsize.toNat set) := by
  by_cases hcpu : cpu.toNat < 8 * setsize.toNat
  · obtain ⟨word, -, hword, -, -, hbits, -⟩ := changeWord_spec id (hgood.room hlen hcpu)
    refine ⟨decide (word &&& cpuMask abi cpu ≠ 0), ?_, ?_⟩
    · rw [cpuIsset, if_pos ((lt_iff_of_counted hgood.counted).mpr hcpu), hword, Option.map_some]
    · rw [decide_eq_true_iff, cpuMask_eq, and_bitOf_ne_zero (longBits_pos abi),
        hbits _ (cpuElt_eq cpu).symm]
      exact (and_iff_right hcpu).symm
  · refine ⟨false, if_neg (mt (lt_iff_of_counted hgood.counted).mp hcpu), ?_⟩
    have hnot : cpu.toNat ∉ cpus setsize.toNat set := fun h => hcpu h.1
    simp [hnot]

end Cpu

/-! ### Whole sets -/

section Whole

variable {abi : Abi} {setsize : BitVec abi.longBits} {set set1 set2 : List UInt8}

/-- `__CPU_ZERO_S` leaves no CPU. -/
theorem cpuZero_spec (hlen : setsize.toNat ≤ set.length) :
    ∃ set', cpuZero abi setsize set = some set' ∧ set'.length = set.length ∧
      cpus setsize.toNat set' = ∅ := by
  have hroom : 0 + (List.replicate setsize.toNat (0 : UInt8)).length ≤ set.length := by
    rwa [List.length_replicate, Nat.zero_add]
  obtain ⟨set', hset'⟩ : ∃ set', cpuZero abi setsize set = some set' :=
    ⟨_, CString.writeAt_of_le hroom⟩
  refine ⟨set', hset', CString.length_of_writeAt hset', ?_⟩
  ext j
  rw [Set.mem_empty_iff_false, iff_false]
  rintro ⟨hj, hbit⟩
  rw [testBit_of_writeAt hset', List.length_replicate, if_pos (by omega),
    leNat_replicate_zero] at hbit
  simp at hbit

/-- `__CPU_EQUAL_S` compares the sets. -/
theorem cpuEqual_spec (h1 : setsize.toNat ≤ set1.length) (h2 : setsize.toNat ≤ set2.length) :
    ∃ b, cpuEqual abi setsize set1 set2 = some b ∧
      (b = true ↔ cpus setsize.toNat set1 = cpus setsize.toNat set2) := by
  have hread : ∀ set : List UInt8, setsize.toNat ≤ set.length →
      ∃ bytes, readBytes set 0 setsize.toNat = some bytes :=
    fun set h => ⟨_, if_pos (by rwa [Nat.zero_add])⟩
  obtain ⟨bytes1, hbytes1⟩ := hread set1 h1
  obtain ⟨bytes2, hbytes2⟩ := hread set2 h2
  have hbit1 := fun j hj => testBit_of_readBytes hbytes1 (j := j) hj
  have hbit2 := fun j hj => testBit_of_readBytes hbytes2 (j := j) hj
  simp only [Nat.mul_zero, Nat.zero_add] at hbit1 hbit2
  refine ⟨bytes1 == bytes2, by rw [cpuEqual, hbytes1, hbytes2]; rfl, ?_⟩
  rw [beq_iff_eq]
  constructor
  · rintro rfl
    ext j
    show j < 8 * setsize.toNat ∧ (leNat set1).testBit j = true ↔
      j < 8 * setsize.toNat ∧ (leNat set2).testBit j = true
    apply and_congr_right
    intro hj
    rw [← hbit1 j hj, hbit2 j hj]
  · intro hsets
    have hlen1 := length_of_readBytes hbytes1
    have hlen2 := length_of_readBytes hbytes2
    -- Equal sets have equal bits, and so equal bytes.
    apply eq_of_testBit (hlen1.trans hlen2.symm)
    intro j hj
    rw [hlen1] at hj
    have hj' : j < 8 * setsize.toNat ∧ (leNat set1).testBit j = true ↔
        j < 8 * setsize.toNat ∧ (leNat set2).testBit j = true := Set.ext_iff.mp hsets j
    simp only [hj, true_and] at hj'
    rw [hbit1 j hj, hbit2 j hj]
    exact Bool.eq_iff_iff.mpr hj'

/-- What the operation does to words is what it does to their bits. -/
theorem CpuOp.getLsbD_onWords (op : CpuOp) {w : Nat} (x y : BitVec w) (j : Nat) :
    (op.onWords x y).getLsbD j = op.onBits (x.getLsbD j) (y.getLsbD j) := by
  cases op with
  | and => exact BitVec.getLsbD_and
  | or => exact BitVec.getLsbD_or
  | xor => exact BitVec.getLsbD_xor

variable {Var : Type} [DecidableEq Var]

/-- What the loop leaves after `k` words. -/
theorem cpuOp_words (op : CpuOp) (d u v : Var) (k : Nat) (sets : Var → List UInt8)
    (hroom : ∀ x, sizeofCpuMask abi * k ≤ (sets x).length) :
    ∃ sets', (List.range k).foldlM (cpuOpTurn abi op d u v) sets = some sets' ∧
      (∀ x, (sets' x).length = (sets x).length) ∧ (∀ x, x ≠ d → sets' x = sets x) ∧
      ∀ j, (leNat (sets' d)).testBit j =
        if j / abi.longBits < k then
          op.onBits ((leNat (sets u)).testBit j) ((leNat (sets v)).testBit j)
        else (leNat (sets d)).testBit j := by
  induction k with
  | zero => exact ⟨sets, rfl, fun _ => rfl, fun _ _ => rfl, fun j => by simp⟩
  | succ k ih =>
      have hsize : sizeofCpuMask abi * k + sizeofCpuMask abi = sizeofCpuMask abi * (k + 1) := rfl
      obtain ⟨sets', hfold, hlength, hother, hbits⟩ := ih fun x => by
        have := hroom x
        omega
      have hroom' : ∀ x, sizeofCpuMask abi * k + sizeofCpuMask abi ≤ (sets' x).length := by
        intro x
        rw [hlength, hsize]
        exact hroom x
      -- The words from the `k`th on are still the first ones, in the destination too.
      have hrest : ∀ x j, j / abi.longBits = k →
          (leNat (sets' x)).testBit j = (leNat (sets x)).testBit j := by
        intro x j hj
        by_cases hx : x = d
        · rw [hx, hbits, if_neg (by omega)]
        · rw [hother x hx]
      obtain ⟨word1, -, hword1, -, -, hbits1, -⟩ := changeWord_spec id (hroom' u)
      obtain ⟨word2, -, hword2, -, -, hbits2, -⟩ := changeWord_spec id (hroom' v)
      obtain ⟨-, set, -, hset, hsetlen, -, hstored⟩ :=
        changeWord_spec (fun _ => op.onWords word1 word2) (hroom' d)
      have hturn : cpuOpTurn abi op d u v sets' k = some (Function.update sets' d set) := by
        have hstore : setCpuWord abi (sets' d) k (op.onWords word1 word2) = some set := hset
        rw [cpuOpTurn, hword1, hword2]
        show (setCpuWord abi (sets' d) k (op.onWords word1 word2)).bind _ = _
        rw [hstore]
        rfl
      refine ⟨Function.update sets' d set, ?_, ?_, ?_, ?_⟩
      · rw [List.range_succ, List.foldlM_append, hfold]
        show (cpuOpTurn abi op d u v sets' k).bind _ = _
        rw [hturn]
        rfl
      · intro x
        by_cases hx : x = d
        · rw [hx, Function.update_self, hsetlen, hlength]
        · rw [Function.update_of_ne hx, hlength]
      · intro x hx
        rw [Function.update_of_ne hx, hother x hx]
      · intro j
        rw [Function.update_self, hstored]
        by_cases hj : j / abi.longBits = k
        · rw [if_pos hj, if_pos (by omega), CpuOp.getLsbD_onWords, hbits1 j hj, hbits2 j hj,
            hrest u j hj, hrest v j hj]
        · rw [if_neg hj, hbits]
          by_cases hlt : j / abi.longBits < k
          · rw [if_pos hlt, if_pos (by omega)]
          · rw [if_neg hlt, if_neg (by omega)]

/-- What it does to sets is what it does to their bits. -/
theorem mem_onSets (op : CpuOp) (size : Nat) (set1 set2 : List UInt8) (j : Nat) :
    j ∈ op.onSets (cpus size set1) (cpus size set2) ↔
      j < 8 * size ∧ op.onBits ((leNat set1).testBit j) ((leNat set2).testBit j) = true := by
  have h1 : j ∈ cpus size set1 ↔ j < 8 * size ∧ (leNat set1).testBit j = true := Iff.rfl
  have h2 : j ∈ cpus size set2 ↔ j < 8 * size ∧ (leNat set2).testBit j = true := Iff.rfl
  cases op with
  | and => rw [CpuOp.onSets, CpuOp.onBits, Set.mem_inter_iff, h1, h2, Bool.and_eq_true]; tauto
  | or => rw [CpuOp.onSets, CpuOp.onBits, Set.mem_union, h1, h2, Bool.or_eq_true]; tauto
  | xor =>
      rw [CpuOp.onSets, CpuOp.onBits, Set.mem_union, Set.mem_sdiff, Set.mem_sdiff, h1, h2]
      cases (leNat set1).testBit j <;> cases (leNat set2).testBit j <;> simp

/-- The operation on sets of a good size. -/
theorem cpuOp_spec (hgood : GoodSize abi setsize) (op : CpuOp) (d u v : Var)
    {sets : Var → List UInt8} (hlen : ∀ x, setsize.toNat ≤ (sets x).length) :
    ∃ sets', cpuOp abi setsize op d u v sets = some sets' ∧
      (∀ x, (sets' x).length = (sets x).length) ∧ (∀ x, x ≠ d → sets' x = sets x) ∧
      cpus setsize.toNat (sets' d) =
        op.onSets (cpus setsize.toNat (sets u)) (cpus setsize.toNat (sets v)) := by
  have hwhole := Nat.mul_div_cancel' hgood.whole
  obtain ⟨sets', hop, hlength, hother, hbit⟩ :=
    cpuOp_words op d u v (setsize.toNat / sizeofCpuMask abi) sets
      fun x => by rw [hwhole]; exact hlen x
  refine ⟨sets', hop, hlength, hother, ?_⟩
  ext j
  rw [mem_onSets]
  apply and_congr_right
  intro hj
  have hindex : j / abi.longBits < setsize.toNat / sizeofCpuMask abi := by
    rwa [Nat.div_lt_iff_lt_mul (longBits_pos abi), mul_longBits,
      Nat.div_mul_cancel hgood.whole]
  rw [hbit, if_pos hindex]

end Whole

/-! ### Sequences of macros -/

section Calls

variable {Var : Type} [DecidableEq Var] {abi : Abi} {setsize : BitVec abi.longBits}

/-- The CPUs in all sets. -/
def allCpus (size : Nat) (sets : Var → List UInt8) : Var → Set Nat := fun v => cpus size (sets v)

/-- Changing one set changes its CPUs only. -/
theorem allCpus_update (size : Nat) (sets : Var → List UInt8) (v : Var) (set : List UInt8) :
    allCpus size (Function.update sets v set) =
      Function.update (allCpus size sets) v (cpus size set) := by
  funext u
  by_cases h : u = v
  · subst h
    simp [allCpus]
  · simp [allCpus, h]

/-- All sets keep their size. -/
theorem length_update {sets : Var → List UInt8} {room : Nat} (h : ∀ v, (sets v).length = room)
    (v : Var) {set : List UInt8} (hset : set.length = (sets v).length) (u : Var) :
    (Function.update sets v set u).length = room := by
  by_cases hu : u = v
  · rw [hu, Function.update_self, hset, h]
  · rw [Function.update_of_ne hu, h]

/-- What a macro does to sets of a good size. -/
theorem cpuSetCalls_step (hgood : GoodSize abi setsize) {room : Nat} (hroom : setsize.toNat ≤ room)
    (call : CpuCall abi Var) {sets : Var → List UInt8} (hsets : ∀ v, (sets v).length = room) :
    ∃ r sets', (cpuSetCalls abi setsize).step call sets = some (r, sets') ∧
      (∀ v, (sets' v).length = room) ∧
      CpuSpec abi setsize.toNat (allCpus setsize.toNat sets) call r
        (allCpus setsize.toNat sets') := by
  have hlen : ∀ v, setsize.toNat ≤ (sets v).length := fun v => by rw [hsets]; exact hroom
  cases call with
  | zero v =>
      obtain ⟨set', h, hlength, hcpus⟩ := cpuZero_spec (hlen v)
      refine ⟨none, Function.update sets v set', congrArg (Option.map _) h,
        length_update hsets v hlength, ?_⟩
      rw [allCpus_update, hcpus]
      exact .zero
  | set cpu v =>
      obtain ⟨set', h, hlength, hcpus⟩ := cpuSet_spec hgood (hlen v) cpu
      refine ⟨none, Function.update sets v set', congrArg (Option.map _) h,
        length_update hsets v hlength, ?_⟩
      rw [allCpus_update, hcpus]
      exact .set
  | clr cpu v =>
      obtain ⟨set', h, hlength, hcpus⟩ := cpuClr_spec hgood (hlen v) cpu
      refine ⟨none, Function.update sets v set', congrArg (Option.map _) h,
        length_update hsets v hlength, ?_⟩
      rw [allCpus_update, hcpus]
      exact .clr
  | isset cpu v =>
      obtain ⟨b, h, hb⟩ := cpuIsset_spec hgood (hlen v) cpu
      exact ⟨some b, sets, congrArg (Option.map _) h, hsets, .isset hb⟩
  | equal u v =>
      obtain ⟨b, h, hb⟩ := cpuEqual_spec (hlen u) (hlen v)
      exact ⟨some b, sets, congrArg (Option.map _) h, hsets, .equal hb⟩
  -- The destination may be one of the operands.
  | op op d u v =>
      obtain ⟨sets', h, hlength, hother, hcpus⟩ := cpuOp_spec hgood op d u v hlen
      have hsets' : allCpus setsize.toNat sets' = Function.update (allCpus setsize.toNat sets) d
          (op.onSets (cpus setsize.toNat (sets u)) (cpus setsize.toNat (sets v))) := by
        funext x
        by_cases hx : x = d
        · rw [hx, Function.update_self, allCpus, hcpus]
        · rw [Function.update_of_ne hx, allCpus, hother x hx, allCpus]
      refine ⟨none, sets', congrArg (Option.map _) h, fun x => (hlength x).trans (hsets x), ?_⟩
      rw [hsets']
      exact .op

/-- Every sequence of macros on sets of a good size. -/
theorem cpuSetCalls_run (hgood : GoodSize abi setsize) {room : Nat} (hroom : setsize.toNat ≤ room)
    (calls : List (CpuCall abi Var)) {sets : Var → List UInt8}
    (hsets : ∀ v, (sets v).length = room) :
    ∃ answers sets', (cpuSetCalls abi setsize).run calls sets = some (answers, sets') ∧
      Spec.Follows (CpuSpec abi setsize.toNat) (allCpus setsize.toNat sets) answers
        (allCpus setsize.toNat sets') := by
  induction calls generalizing sets with
  | nil => exact ⟨[], sets, rfl, rfl⟩
  | cons call calls ih =>
      obtain ⟨r, sets', hstep, hsets', hspec⟩ := cpuSetCalls_step hgood hroom call hsets
      obtain ⟨answers, sets'', hrun, hfollows⟩ := ih hsets'
      refine ⟨(call, r) :: answers, sets'', ?_, _, hspec, hfollows⟩
      rw [Machine.run, hstep, Option.bind_some]
      show ((cpuSetCalls abi setsize).run calls sets').map _ = _
      rw [hrun]
      rfl

/-- The bits of `n` bytes that are all ones. -/
theorem testBit_ones {n j : Nat} (hj : j < 8 * n) :
    (leNat (leBytes n (2 ^ (8 * n) - 1))).testBit j = true := by
  have hpos := Nat.two_pow_pos (8 * n)
  rw [leNat_leBytes_of_lt (by rw [pow_256]; omega), Nat.testBit_two_pow_sub_one]
  exact decide_eq_true hj

/-- Where the bits of a set cannot be counted in a `size_t`, a CPU that the set has room for is
never put in. -/
theorem counted_of_refines [Inhabited Var] {extra : Nat}
    (h : ∀ (sets : Var → List UInt8), (∀ v, (sets v).length = setsize.toNat + extra) →
      ∀ calls, ∃ answers sets', (cpuSetCalls abi setsize).run calls sets = some (answers, sets') ∧
        Spec.Follows (CpuSpec abi setsize.toNat) (allCpus setsize.toNat sets) answers
          (allCpus setsize.toNat sets')) :
    8 * setsize.toNat < 2 ^ abi.longBits := by
  by_contra hwrap
  obtain ⟨answers, sets', hrun, hfollows⟩ :=
    h (fun _ => List.replicate (setsize.toNat + extra) 0) (fun _ => List.length_replicate)
      [.set (8 * setsize) default, .isset (8 * setsize) default]
  -- The macros compare with the product that wrapped around.
  have hnot : ¬ 8 * setsize < 8 * setsize := BitVec.lt_irrefl _
  obtain ⟨r, s, rest, hset, hrest, rfl⟩ := Machine.run_cons_eq_some hrun
  obtain ⟨r', s', rest', hisset, -, rfl⟩ := Machine.run_cons_eq_some hrest
  simp only [cpuSetCalls, cpuSet, if_neg hnot, Option.map_some] at hset
  cases hset
  simp only [cpuSetCalls, cpuIsset, if_neg hnot, Option.map_some] at hisset
  cases hisset
  obtain ⟨a, hset, b, hisset, -⟩ := hfollows
  cases hset
  cases hisset with
  | isset hmem =>
      have hlt := (8 * setsize).isLt
      have hin : (8 * setsize).toNat < 8 * setsize.toNat := by omega
      rw [Function.update_self] at hmem
      exact Bool.noConfusion (hmem.mpr ⟨Set.mem_insert _ _, hin⟩)

/-- Where the last bytes of a set are no whole word, an operation leaves them. -/
theorem whole_of_refines [Inhabited Var] {extra : Nat}
    (hcounted : 8 * setsize.toNat < 2 ^ abi.longBits)
    (h : ∀ (sets : Var → List UInt8), (∀ v, (sets v).length = setsize.toNat + extra) →
      ∀ calls, ∃ answers sets', (cpuSetCalls abi setsize).run calls sets = some (answers, sets') ∧
        Spec.Follows (CpuSpec abi setsize.toNat) (allCpus setsize.toNat sets) answers
          (allCpus setsize.toNat sets')) :
    sizeofCpuMask abi ∣ setsize.toNat := by
  by_contra hpart
  have hpos : 0 < setsize.toNat := by
    apply Nat.pos_of_ne_zero
    intro hzero
    exact hpart (hzero ▸ Nat.dvd_zero _)
  -- The last CPU of a set with all CPUs, before and after the set is combined with itself.
  obtain ⟨cpu, hcpu⟩ : ∃ cpu : BitVec abi.longBits, cpu.toNat = 8 * setsize.toNat - 1 :=
    ⟨BitVec.ofNat _ (8 * setsize.toNat - 1), by
      rw [BitVec.toNat_ofNat, Nat.mod_eq_of_lt (by omega)]⟩
  have hword : ¬ cpu.toNat / abi.longBits < setsize.toNat / sizeofCpuMask abi := by
    have hle := Nat.div_mul_le_self setsize.toNat (sizeofCpuMask abi)
    have hne : setsize.toNat / sizeofCpuMask abi * sizeofCpuMask abi ≠ setsize.toNat :=
      fun heq => hpart ⟨_, heq.symm.trans (Nat.mul_comm _ _)⟩
    rw [Nat.div_lt_iff_lt_mul (longBits_pos abi), mul_longBits, hcpu]
    omega
  have hroom : ∀ x : Var, sizeofCpuMask abi * (setsize.toNat / sizeofCpuMask abi) ≤
      ((fun _ : Var => leBytes (setsize.toNat + extra)
        (2 ^ (8 * (setsize.toNat + extra)) - 1)) x).length := by
    intro x
    have hle := Nat.mul_div_le setsize.toNat (sizeofCpuMask abi)
    rw [length_leBytes]
    omega
  obtain ⟨ones, hop, -, -, hbits⟩ := cpuOp_words .xor default default default _ _ hroom
  have hones : (leNat (ones default)).testBit cpu.toNat = true := by
    rw [hbits, if_neg hword]
    exact testBit_ones (by omega)
  obtain ⟨answers, sets', hrun, hfollows⟩ :=
    h (fun _ => leBytes (setsize.toNat + extra) (2 ^ (8 * (setsize.toNat + extra)) - 1))
      (fun _ => length_leBytes _ _) [.op .xor default default default, .isset cpu default]
  obtain ⟨r, s, rest, hxor, hrest, rfl⟩ := Machine.run_cons_eq_some hrun
  obtain ⟨r', s', rest', hisset, -, rfl⟩ := Machine.run_cons_eq_some hrest
  simp only [cpuSetCalls, cpuOp, hop, Option.map_some] at hxor
  cases hxor
  obtain ⟨b, hb, heq⟩ := Option.map_eq_some_iff.mp hisset
  cases heq
  rw [cpuIsset, if_pos ((lt_iff_of_counted hcounted).mpr (by omega))] at hb
  obtain ⟨word, hread, rfl⟩ := Option.map_eq_some_iff.mp hb
  obtain ⟨a, hxor, c, hisset, -⟩ := hfollows
  cases hxor
  cases hisset with
  | isset hmem =>
      have hbit := getLsbD_of_cpuWord hread (Nat.mod_lt cpu.toNat (longBits_pos abi))
      rw [cpuElt_eq, Nat.div_add_mod, hones] at hbit
      rw [Function.update_self, decide_eq_true_iff, cpuMask_eq,
        and_bitOf_ne_zero (longBits_pos abi)] at hmem
      have hempty := hmem.mp hbit
      rw [CpuOp.onSets, sdiff_self, Set.union_self] at hempty
      exact hempty

/-- `__CPU_ALLOC_SIZE` when its sum does not wrap around. -/
theorem toNat_cpuAllocSize {count : BitVec abi.longBits}
    (hcount : count.toNat + (NCPUBITS abi - 1) < 2 ^ abi.longBits) :
    (cpuAllocSize abi count).toNat =
      (count.toNat + (NCPUBITS abi - 1)) / NCPUBITS abi * sizeofCpuMask abi := by
  have hpos : 0 < NCPUBITS abi := by cases abi <;> decide
  have hlt : NCPUBITS abi < 2 ^ abi.longBits := by cases abi <;> decide
  have hdiv := toNat_divUp hpos hlt hcount
  have hmask : (BitVec.ofNat abi.longBits (sizeofCpuMask abi)).toNat = sizeofCpuMask abi := by
    cases abi <;> rfl
  have hle : sizeofCpuMask abi ≤ NCPUBITS abi := Nat.le_mul_of_pos_left _ (by decide)
  have hbytes := Nat.mul_le_mul_left ((count.toNat + (NCPUBITS abi - 1)) / NCPUBITS abi) hle
  have hround := Nat.div_mul_le_self (count.toNat + (NCPUBITS abi - 1)) (NCPUBITS abi)
  rw [cpuAllocSize, BitVec.toNat_mul, hdiv, hmask, Nat.mod_eq_of_lt (by omega)]

/-- It is then a good size, with room for the CPUs. -/
theorem cpuAllocSize_good {count : BitVec abi.longBits}
    (hcount : count.toNat + (NCPUBITS abi - 1) < 2 ^ abi.longBits) :
    GoodSize abi (cpuAllocSize abi count) ∧ count.toNat ≤ 8 * (cpuAllocSize abi count).toNat := by
  have hsize := toNat_cpuAllocSize hcount
  have hpos := longBits_pos abi
  have hbytes := mul_longBits abi ((count.toNat + (NCPUBITS abi - 1)) / NCPUBITS abi)
  have hdiv := Nat.div_add_mod (count.toNat + (NCPUBITS abi - 1)) abi.longBits
  have hmod := Nat.mod_lt (count.toNat + (NCPUBITS abi - 1)) hpos
  rw [Nat.mul_comm, ← hsize] at hbytes
  rw [NCPUBITS_eq] at hcount hdiv hmod hbytes hsize
  refine ⟨⟨hsize ▸ Nat.dvd_mul_left _ _, ?_⟩, ?_⟩ <;> omega

/-- The macros do to every number of sets of a size, in every order and with room behind the sets
or without, what they say, exactly when the size is in whole words and its bits can be counted in a
`size_t`. The sizes of `__CPU_ALLOC_SIZE` are such ones, and have room for the CPUs asked for, when
its sum does not wrap around. -/
theorem cpuSets_refine_iff [Inhabited Var] (abi : Abi) (setsize : BitVec abi.longBits)
    (extra : Nat) :
    ((∀ (sets : Var → List UInt8), (∀ v, (sets v).length = setsize.toNat + extra) →
      ∀ calls, ∃ answers sets', (cpuSetCalls abi setsize).run calls sets = some (answers, sets') ∧
        Spec.Follows (CpuSpec abi setsize.toNat) (allCpus setsize.toNat sets) answers
          (allCpus setsize.toNat sets')) ↔
      sizeofCpuMask abi ∣ setsize.toNat ∧ 8 * setsize.toNat < 2 ^ abi.longBits) ∧
    ∀ count : BitVec abi.longBits, count.toNat + (NCPUBITS abi - 1) < 2 ^ abi.longBits →
      GoodSize abi (cpuAllocSize abi count) ∧
        count.toNat ≤ 8 * (cpuAllocSize abi count).toNat := by
  refine ⟨⟨?_, ?_⟩, fun count => cpuAllocSize_good⟩
  · intro h
    have hcounted := counted_of_refines h
    exact ⟨whole_of_refines hcounted h, hcounted⟩
  · rintro ⟨hwhole, hcounted⟩ sets hsets calls
    exact cpuSetCalls_run ⟨hwhole, hcounted⟩ (Nat.le_add_right _ _) calls hsets

end Calls

end GlibcPorts.BitSets
