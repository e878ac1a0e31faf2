import GlibcPorts.Mount.Statfsconv

/-!
# `GlibcPorts.Proofs.Mount.Conversion`: what the conversions keep

`Statfs.Faithful` and `Statvfs.Faithful` say what a program may rely on: each unsigned counter is
the smaller of the kernel's value and the largest of its type, counts that are ordered in the
kernel's record are still ordered, and the names are strings that the kernel's names start with.
`FaithfulConversions` says so of all four conversions, and that the variants of each structure
agree where a value fits both.

The counters are always as they should be (`toNat_minUlong`). The order and the names are not
(`faithfulConversions_iff`): `f_bavail` and `f_ffree` have a sign in the kernel's record, and a
negative one becomes a large number, and `memcpy` cuts the names of mounts without a NUL.
-/

set_option autoImplicit false

namespace GlibcPorts.Mount

open Lib

/-! ### What a program may rely on -/

/-- An unsigned counter of the kernel, and the member that it became. -/
structure Counter where
  kernel : Nat
  width : Nat
  member : BitVec width

/-- The member is the kernel's value, or the largest value that it can have. -/
def Counter.Clamped (c : Counter) : Prop := c.member.toNat = min c.kernel (2 ^ c.width - 1)

/-- If the count `part` is at most the count `whole`, then so are their members. -/
def KeepsOrder (part whole : BitVec 64) {w : Nat} (part' whole' : BitVec w) : Prop :=
  part.toInt ≤ whole.toNat → part'.toNat ≤ whole'.toNat

/-- The member holds a string that the kernel's starts with. -/
def NameKept {m n : Nat} (kernel : ByteField m) (member : ByteField n) : Prop :=
  0 ∈ member.bytes ∧ member.str.chars <+: kernel.str.chars

instance {part whole : BitVec 64} {w : Nat} {part' whole' : BitVec w} :
    Decidable (KeepsOrder part whole part' whole') :=
  inferInstanceAs (Decidable (_ → _))

/-- Members for the same value of the kernel are the same number if it fits both. -/
def AgreeIfFits (kernel : Int) {v w : Nat} (a : BitVec v) (b : BitVec w) : Prop :=
  0 ≤ kernel → kernel < 2 ^ v → kernel < 2 ^ w → a.toNat = b.toNat

section Faithful

variable {abi : Abi} {v w : Nat} (pk : StatfsFbsd5)

/-- The counters of a record, each with its source. -/
def Statfs.counters (s : Statfs abi w) : List Counter :=
  [⟨pk.fBsize.toNat, _, s.fBsize⟩, ⟨pk.fIosize.toNat, _, s.fIosize⟩,
    ⟨pk.fBlocks.toNat, _, s.fBlocks⟩, ⟨pk.fBfree.toNat, _, s.fBfree⟩,
    ⟨pk.fFiles.toNat, _, s.fFiles⟩, ⟨pk.fSyncwrites.toNat, _, s.fSyncwrites⟩,
    ⟨pk.fAsyncwrites.toNat, _, s.fAsyncwrites⟩, ⟨pk.fSyncreads.toNat, _, s.fSyncreads⟩,
    ⟨pk.fAsyncreads.toNat, _, s.fAsyncreads⟩, ⟨pk.fNamemax.toNat, _, s.fNamemax⟩]

/-- The counters of a record, each with its source. -/
def Statvfs.counters (s : Statvfs abi w) : List Counter :=
  [⟨pk.fBsize.toNat, _, s.fBsize⟩, ⟨pk.fBsize.toNat, _, s.fFrsize⟩,
    ⟨pk.fBlocks.toNat, _, s.fBlocks⟩, ⟨pk.fBfree.toNat, _, s.fBfree⟩,
    ⟨pk.fFiles.toNat, _, s.fFiles⟩, ⟨pk.fNamemax.toNat, _, s.fNamemax⟩]

/-- A record says what the kernel said. -/
structure Statfs.Faithful (s : Statfs abi w) : Prop where
  clamped : ∀ c ∈ s.counters pk, c.Clamped
  blocks : KeepsOrder pk.fBavail pk.fBfree s.fBavail s.fBfree
  files : KeepsOrder pk.fFfree pk.fFiles s.fFfree s.fFiles
  fstypename : NameKept pk.fFstypename s.fFstypename
  mntonname : NameKept pk.fMntonname s.fMntonname
  mntfromname : NameKept pk.fMntfromname s.fMntfromname

/-- A record says what the kernel said. -/
structure Statvfs.Faithful (s : Statvfs abi w) : Prop where
  clamped : ∀ c ∈ s.counters pk, c.Clamped
  blocks : KeepsOrder pk.fBavail pk.fBfree s.fBavail s.fBfree
  files : KeepsOrder pk.fFfree pk.fFiles s.fFfree s.fFiles

/-- The members of a variant where the other variant has its own. -/
def Statfs.withCountsOf (s : Statfs abi v) (s' : Statfs abi w) : Statfs abi w :=
  { s with fBlocks := s'.fBlocks, fBfree := s'.fBfree, fBavail := s'.fBavail,
           fFiles := s'.fFiles, fFfree := s'.fFfree }

@[inherit_doc Statfs.withCountsOf]
def Statvfs.withCountsOf (s : Statvfs abi v) (s' : Statvfs abi w) : Statvfs abi w :=
  { s with fBlocks := s'.fBlocks, fBfree := s'.fBfree, fBavail := s'.fBavail,
           fFiles := s'.fFiles, fFfree := s'.fFfree, fFavail := s'.fFavail }

/-- Two variants for one record of the kernel are the same but for counts that do not fit. -/
structure Statfs.Agree (s : Statfs abi v) (s' : Statfs abi w) : Prop where
  blocks : AgreeIfFits pk.fBlocks.toNat s.fBlocks s'.fBlocks
  bfree : AgreeIfFits pk.fBfree.toNat s.fBfree s'.fBfree
  bavail : AgreeIfFits pk.fBavail.toInt s.fBavail s'.fBavail
  files : AgreeIfFits pk.fFiles.toNat s.fFiles s'.fFiles
  ffree : AgreeIfFits pk.fFfree.toInt s.fFfree s'.fFfree
  others : s.withCountsOf s' = s'

@[inherit_doc Statfs.Agree]
structure Statvfs.Agree (s : Statvfs abi v) (s' : Statvfs abi w) : Prop where
  blocks : AgreeIfFits pk.fBlocks.toNat s.fBlocks s'.fBlocks
  bfree : AgreeIfFits pk.fBfree.toNat s.fBfree s'.fBfree
  bavail : AgreeIfFits pk.fBavail.toInt s.fBavail s'.fBavail
  files : AgreeIfFits pk.fFiles.toNat s.fFiles s'.fFiles
  ffree : AgreeIfFits pk.fFfree.toInt s.fFfree s'.fFfree
  favail : AgreeIfFits pk.fFfree.toInt s.fFavail s'.fFavail
  others : s.withCountsOf s' = s'

end Faithful

/-- The names in the kernel's record are strings. -/
def StatfsFbsd5.Named (pk : StatfsFbsd5) : Prop :=
  0 ∈ pk.fFstypename.bytes ∧ 0 ∈ pk.fMntfromname.bytes ∧ 0 ∈ pk.fMntonname.bytes

instance (pk : StatfsFbsd5) : Decidable pk.Named := inferInstanceAs (Decidable (_ ∧ _))

/-- The four conversions of one record. -/
structure FaithfulConversions (abi : Abi) (pk : StatfsFbsd5) : Prop where
  statfs : (statfs5ToStatfs abi pk).Faithful pk
  statfs64 : (statfs5ToStatfs64 abi pk).Faithful pk
  statvfs : (statfs5ToStatvfs abi pk).Faithful pk
  statvfs64 : (statfs5ToStatvfs64 abi pk).Faithful pk
  statfsAgree : (statfs5ToStatfs abi pk).Agree pk (statfs5ToStatfs64 abi pk)
  statvfsAgree : (statfs5ToStatvfs abi pk).Agree pk (statfs5ToStatvfs64 abi pk)

/-! ### Counts -/

section Counts

variable {abi : Abi} {x part whole : BitVec 64}

/-- The number cut to an `unsigned long`. -/
theorem toNat_minUlong (abi : Abi) (x : BitVec 64) :
    ((minUlong abi x).setWidth abi.longBits).toNat = min x.toNat (2 ^ abi.longBits - 1) := by
  have hx := x.isLt
  cases abi with
  | ilp32 =>
      show ((if x.ult 0xFFFFFFFF#64 then x else 0xFFFFFFFF#64).setWidth 32).toNat =
        min x.toNat 0xFFFFFFFF
      rw [BitVec.toNat_setWidth]
      split_ifs with hlt <;> simp only [BitVec.ult_iff_toNat_lt, BitVec.toNat_ofNat] at hlt ⊢ <;>
        omega
  | lp64 =>
      show ((if x.ult 0xFFFFFFFFFFFFFFFF#64 then x else 0xFFFFFFFFFFFFFFFF#64).setWidth 64).toNat =
        min x.toNat 0xFFFFFFFFFFFFFFFF
      rw [BitVec.toNat_setWidth]
      split_ifs with hlt <;> simp only [BitVec.ult_iff_toNat_lt, BitVec.toNat_ofNat] at hlt ⊢ <;>
        omega

/-- A number without the sign bit. -/
theorem toInt_of_nonneg (h : 0 ≤ x.toInt) : x.toInt = x.toNat := by
  rw [BitVec.toInt_eq_toNat_cond] at h ⊢
  split_ifs at h ⊢ with hlt
  · rfl
  · omega

/-- A number with the sign bit. -/
theorem toInt_of_neg (h : x.toInt < 0) : x.toInt + 2 ^ 64 = x.toNat := by
  rw [BitVec.toInt_eq_toNat_cond] at h ⊢
  split_ifs at h ⊢ <;> omega

/-- A negative count is only cut to the width of an `unsigned long`. -/
theorem toNat_minUlongSigned_of_neg (abi : Abi) (h : x.toInt < 0) :
    ((minUlongSigned abi x).setWidth abi.longBits).toNat = x.toNat % 2 ^ abi.longBits := by
  cases abi with
  | ilp32 =>
      -- `MIN` compares as signed numbers, and a negative one is the smaller.
      have hlt : x.slt (ulongMax64 .ilp32) = true := by
        have hmax : 0 ≤ (ulongMax64 .ilp32).toInt := by decide
        rw [BitVec.slt_iff_toInt_lt]
        exact Int.lt_of_lt_of_le h hmax
      rw [minUlongSigned, if_pos hlt, BitVec.toNat_setWidth]
  | lp64 =>
      -- `MIN` compares without a sign, and nothing is above the bound.
      have hfull : ((minUlong .lp64 x).setWidth 64).toNat = min x.toNat (2 ^ 64 - 1) :=
        toNat_minUlong .lp64 x
      have hx := x.isLt
      show ((minUlong .lp64 x).setWidth 64).toNat = x.toNat % 2 ^ 64
      rw [hfull]
      omega

/-- A count that is not negative becomes what an unsigned one would. -/
theorem toNat_minUlongSigned_of_nonneg (abi : Abi) (h : 0 ≤ x.toInt) :
    ((minUlongSigned abi x).setWidth abi.longBits).toNat =
      min x.toNat (2 ^ abi.longBits - 1) := by
  rw [← toNat_minUlong]
  cases abi with
  | ilp32 =>
      -- Neither operand is negative, so the sign makes no difference.
      have hsame : x.slt (ulongMax64 .ilp32) = x.ult (ulongMax64 .ilp32) := by
        have hx := toInt_of_nonneg h
        have hmax : (ulongMax64 .ilp32).toInt = (ulongMax64 .ilp32).toNat := by decide
        rw [Bool.eq_iff_iff, BitVec.slt_iff_toInt_lt, BitVec.ult_iff_toNat_lt, hx, hmax]
        exact Int.ofNat_lt
      rw [minUlongSigned, minUlong, hsame]
  | lp64 => rfl

/-- A negative count, read without its sign, is not more than the count that it is part of. -/
def NegativeCovered (part whole : BitVec 64) : Prop :=
  part.toInt < 0 → part.toInt + 2 ^ 64 ≤ whole.toNat

instance : Decidable (NegativeCovered part whole) :=
  inferInstanceAs (Decidable (_ → _))

/-- A conversion that changes nothing. -/
theorem keepsOrder_wide_iff : KeepsOrder part whole part whole ↔ NegativeCovered part whole := by
  unfold KeepsOrder NegativeCovered
  by_cases hneg : part.toInt < 0
  · have hpart := toInt_of_neg hneg
    have hle : part.toInt ≤ whole.toNat := by omega
    simp only [hneg, hle, true_imp_iff, hpart, Int.ofNat_le]
  · have hpart := toInt_of_nonneg (Int.not_lt.mp hneg)
    have hsigned : part.toInt ≤ whole.toNat → part.toNat ≤ whole.toNat := by
      rw [hpart]
      exact Int.ofNat_le.mp
    exact iff_of_true hsigned fun hlt => absurd hlt hneg

/-- What holds without the cut to an `unsigned long` holds behind it. -/
theorem keepsOrder_narrow (abi : Abi) (h : NegativeCovered part whole) :
    KeepsOrder part whole ((minUlongSigned abi part).setWidth abi.longBits)
      ((minUlong abi whole).setWidth abi.longBits) := by
  intro hle
  rw [toNat_minUlong]
  -- A negative part is only cut, and one that is not is clamped as the whole is.
  by_cases hneg : part.toInt < 0
  · have hwhole := h hneg
    have hpart := toInt_of_neg hneg
    have hcut : part.toNat % 2 ^ abi.longBits ≤ 2 ^ abi.longBits - 1 :=
      Nat.le_sub_one_of_lt (Nat.mod_lt _ (Nat.two_pow_pos _))
    rw [toNat_minUlongSigned_of_neg abi hneg]
    apply Nat.le_min.mpr
    exact ⟨(Nat.mod_le _ _).trans (by omega), hcut⟩
  · have hnonneg := Int.not_lt.mp hneg
    have hpart := toInt_of_nonneg hnonneg
    rw [toNat_minUlongSigned_of_nonneg abi hnonneg]
    have hnat : part.toNat ≤ whole.toNat := by omega
    omega

/-- An unsigned count that fits is not changed. -/
theorem agreeIfFits_unsigned (abi : Abi) (x : BitVec 64) :
    AgreeIfFits x.toNat ((minUlong abi x).setWidth abi.longBits) x := by
  intro _ hfits _
  have hlt : x.toNat < 2 ^ abi.longBits := by exact_mod_cast hfits
  rw [toNat_minUlong]
  omega

/-- A signed counter, cut and not. -/
theorem agreeIfFits_signed (abi : Abi) (x : BitVec 64) :
    AgreeIfFits x.toInt ((minUlongSigned abi x).setWidth abi.longBits) x := by
  intro hnonneg hfits _
  have hx := toInt_of_nonneg hnonneg
  have hlt : x.toNat < 2 ^ abi.longBits := by
    rw [hx] at hfits
    exact_mod_cast hfits
  rw [toNat_minUlongSigned_of_nonneg abi hnonneg]
  omega

/-- The number cut to an `unsigned short`. -/
theorem toNat_minUshrt (x : BitVec 32) :
    ((minUshrt x).setWidth 16).toNat = min x.toNat (2 ^ 16 - 1) := by
  show ((if x.ult 65535#32 then x else 65535#32).setWidth 16).toNat = min x.toNat 65535
  rw [BitVec.toNat_setWidth]
  split_ifs with hlt <;> simp only [BitVec.ult_iff_toNat_lt, BitVec.toNat_ofNat] at hlt ⊢ <;>
    omega

/-- What the kernel keeps in 32 bits fits an `unsigned long`. -/
theorem toNat_setWidth_long (abi : Abi) (x : BitVec 32) :
    (x.setWidth abi.longBits).toNat = min x.toNat (2 ^ abi.longBits - 1) := by
  have hx := x.isLt
  have hwidth : 2 ^ 32 ≤ 2 ^ abi.longBits := by cases abi <;> decide
  rw [BitVec.toNat_setWidth, Nat.mod_eq_of_lt (by omega)]
  omega

/-- Every count of 64 bits fits 64 bits. -/
theorem toNat_eq_min (x : BitVec 64) : x.toNat = min x.toNat (2 ^ 64 - 1) := by
  have hx := x.isLt
  omega

end Counts

/-! ### Names -/

section Names

variable {m k : Nat}

/-- A name is kept exactly when it ends in the bytes that are copied. -/
theorem nameKept_firstBytes_iff {f : ByteField m} (h : k ≤ m) :
    NameKept f (firstBytes f k h) ↔ f.str.strlen < k := by
  have hstr : (firstBytes f k h).str = CString.cut f.bytes k := rfl
  have hnul := (firstBytes f k h).strlen_str_lt_iff
  rw [hstr, CString.strlen_cut] at hnul
  unfold NameKept
  rw [← hnul, hstr, CString.chars_cut]
  have hprefix : (CString.upToNul f.bytes).chars.take k <+: f.str.chars := List.take_prefix _ _
  rw [and_iff_left hprefix]
  show min k f.str.strlen < k ↔ f.str.strlen < k
  omega

end Names

/-! ### The conversions -/

section Conversions

variable {abi : Abi} {pk : StatfsFbsd5} {w : Nat} {blocks bfree bavail files ffree : BitVec w}

/-- The part of the conversions that the variants share is right for the sizes and the counts of
reads and writes, so only the counts of blocks and files and the names are left. -/
theorem faithful_statfsWith (hname : 0 ∈ pk.fFstypename.bytes)
    (hblocks : blocks.toNat = min pk.fBlocks.toNat (2 ^ w - 1))
    (hbfree : bfree.toNat = min pk.fBfree.toNat (2 ^ w - 1))
    (hfiles : files.toNat = min pk.fFiles.toNat (2 ^ w - 1))
    (hbavail : KeepsOrder pk.fBavail pk.fBfree bavail bfree)
    (hffree : KeepsOrder pk.fFfree pk.fFiles ffree files)
    (honname : pk.fMntonname.str.strlen < 80) (hfromname : pk.fMntfromname.str.strlen < 80) :
    (statfsWith abi pk blocks bfree bavail files ffree).Faithful pk where
  clamped := by
    intro c hc
    simp only [Statfs.counters, List.mem_cons, List.not_mem_nil, or_false] at hc
    -- One case for each counter, in the order of the list.
    obtain rfl | rfl | rfl | rfl | rfl | rfl | rfl | rfl | rfl | rfl := hc
    case inr.inr.inl => exact hblocks
    case inr.inr.inr.inl => exact hbfree
    case inr.inr.inr.inr.inl => exact hfiles
    case inr.inr.inr.inr.inr.inr.inr.inr.inr => exact toNat_minUshrt _
    all_goals exact toNat_minUlong abi _
  blocks := hbavail
  files := hffree
  fstypename :=
    (nameKept_firstBytes_iff (by decide)).mpr ((ByteField.strlen_str_lt_iff _).mpr hname)
  mntonname := (nameKept_firstBytes_iff (by decide)).mpr honname
  mntfromname := (nameKept_firstBytes_iff (by decide)).mpr hfromname

/-- The record that both conversions fill. -/
theorem faithful_statvfsWith (hblocks : blocks.toNat = min pk.fBlocks.toNat (2 ^ w - 1))
    (hbfree : bfree.toNat = min pk.fBfree.toNat (2 ^ w - 1))
    (hfiles : files.toNat = min pk.fFiles.toNat (2 ^ w - 1))
    (hbavail : KeepsOrder pk.fBavail pk.fBfree bavail bfree)
    (hffree : KeepsOrder pk.fFfree pk.fFiles ffree files) :
    (statvfsWith abi pk blocks bfree bavail files ffree).Faithful pk where
  clamped := by
    intro c hc
    simp only [Statvfs.counters, List.mem_cons, List.not_mem_nil, or_false] at hc
    -- One case for each counter, in the order of the list.
    obtain rfl | rfl | rfl | rfl | rfl | rfl := hc
    case inr.inr.inl => exact hblocks
    case inr.inr.inr.inl => exact hbfree
    case inr.inr.inr.inr.inl => exact hfiles
    case inr.inr.inr.inr.inr => exact toNat_setWidth_long abi _
    all_goals exact toNat_minUlong abi _
  blocks := hbavail
  files := hffree

/-- The two records of `statfs`. -/
theorem agree_statfs (abi : Abi) (pk : StatfsFbsd5) :
    (statfs5ToStatfs abi pk).Agree pk (statfs5ToStatfs64 abi pk) where
  blocks := agreeIfFits_unsigned abi _
  bfree := agreeIfFits_unsigned abi _
  bavail := agreeIfFits_signed abi _
  files := agreeIfFits_unsigned abi _
  ffree := agreeIfFits_signed abi _
  others := rfl

/-- The two records of `statvfs`. -/
theorem agree_statvfs (abi : Abi) (pk : StatfsFbsd5) :
    (statfs5ToStatvfs abi pk).Agree pk (statfs5ToStatvfs64 abi pk) where
  blocks := agreeIfFits_unsigned abi _
  bfree := agreeIfFits_unsigned abi _
  bavail := agreeIfFits_signed abi _
  files := agreeIfFits_unsigned abi _
  ffree := agreeIfFits_signed abi _
  favail := agreeIfFits_signed abi _
  others := rfl

end Conversions

/-- The conversions are faithful exactly when no negative count looks larger than what it is part
of, and the names of the mount have a NUL among the bytes that are copied. -/
theorem faithfulConversions_iff (abi : Abi) (pk : StatfsFbsd5)
    (hnamed : pk.Named) :
    FaithfulConversions abi pk ↔
      NegativeCovered pk.fBavail pk.fBfree ∧ NegativeCovered pk.fFfree pk.fFiles ∧
        pk.fMntonname.str.strlen < 80 ∧ pk.fMntfromname.str.strlen < 80 := by
  constructor
  · intro h
    -- `struct statfs64` has the counts as they are, so its order decides.
    have hblocks := keepsOrder_wide_iff.mp h.statfs64.blocks
    have hfiles := keepsOrder_wide_iff.mp h.statfs64.files
    have honname := (nameKept_firstBytes_iff (by decide)).mp h.statfs64.mntonname
    have hfromname := (nameKept_firstBytes_iff (by decide)).mp h.statfs64.mntfromname
    exact ⟨hblocks, hfiles, honname, hfromname⟩
  · rintro ⟨hblocks, hfiles, honname, hfromname⟩
    have hwide := keepsOrder_wide_iff.mpr hblocks
    have hwide' := keepsOrder_wide_iff.mpr hfiles
    have hnarrow := keepsOrder_narrow abi hblocks
    have hnarrow' := keepsOrder_narrow abi hfiles
    exact
      { statfs := faithful_statfsWith hnamed.1 (toNat_minUlong abi _) (toNat_minUlong abi _)
          (toNat_minUlong abi _) hnarrow hnarrow' honname hfromname
        statfs64 := faithful_statfsWith hnamed.1 (toNat_eq_min _) (toNat_eq_min _)
          (toNat_eq_min _) hwide hwide' honname hfromname
        statvfs := faithful_statvfsWith (toNat_minUlong abi _) (toNat_minUlong abi _)
          (toNat_minUlong abi _) hnarrow hnarrow'
        statvfs64 := faithful_statvfsWith (toNat_eq_min _) (toNat_eq_min _) (toNat_eq_min _)
          hwide hwide'
        statfsAgree := agree_statfs abi pk
        statvfsAgree := agree_statvfs abi pk }

/-- The record of a file system with 100 blocks, of which `bavail` are available to users, that
is mounted on the directory `mntonname`. -/
def ufsRecord (bavail : BitVec 64) (mntonname : ByteField MNAMELEN) : StatfsFbsd5 where
  fVersion := 0x20030518
  fType := 0
  fFlags := MNT_RDONLY
  fBsize := 2048
  fIosize := 16384
  fBlocks := 100
  fBfree := 8
  fBavail := bavail
  fFiles := 1000
  fFfree := 400
  fSyncwrites := 0
  fAsyncwrites := 0
  fSyncreads := 1
  fAsyncreads := 0
  fNamemax := 255
  fOwner := 0
  fFsid := ⟨1, 2⟩
  fFstypename := ⟨[117, 102, 115] ++ List.replicate 13 0, by decide⟩
  fMntfromname := (ByteField.zero _).strncpy (literal "/dev/ad0s1a") 88 (by decide)
  fMntonname := mntonname

/-- The directory `/`. -/
def rootName : ByteField MNAMELEN := ⟨47 :: List.replicate 87 0, by decide⟩

/-- A path of 80 bytes. -/
def longName : ByteField MNAMELEN := ⟨List.replicate 80 47 ++ List.replicate 8 0, by decide⟩

/-- The root file system of a 32-bit machine. -/
theorem faithfulConversions_root : FaithfulConversions .ilp32 (ufsRecord 5 rootName) :=
  (faithfulConversions_iff .ilp32 (ufsRecord 5 rootName) (by decide)).mpr
    ⟨by decide, by decide, by decide, by decide⟩

/-- A file system whose reserve is in use has -1 blocks available, which a program sees as more
than the free ones. A directory with a long name has no NUL in its name. -/
theorem conversions_not_faithful :
    ((ufsRecord (-1) rootName).Named ∧ ∀ abi, ¬ FaithfulConversions abi (ufsRecord (-1) rootName)) ∧
      (ufsRecord 5 longName).Named ∧ ∀ abi, ¬ FaithfulConversions abi (ufsRecord 5 longName) := by
  have hcount : ¬ KeepsOrder (-1) 8 (-1 : BitVec 64) 8 := by decide
  have hname : 0 ∉ longName.bytes.take 80 := by decide
  exact ⟨⟨by decide, fun abi h => hcount h.statfs64.blocks⟩, by decide,
    fun abi h => hname h.statfs64.mntonname.1⟩

end GlibcPorts.Mount
