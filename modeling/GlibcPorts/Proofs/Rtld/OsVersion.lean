import GlibcPorts.Lib.ByteOrder
import GlibcPorts.Rtld.OsVersion

/-!
# `GlibcPorts.Proofs.Rtld.OsVersion`: when versions compare as release dates do

`toNat_dlDiscoverOsversion` is the version of a release date as a number, and `version_le_iff` how
two of them compare: by the release, and in one release by the last three digits modulo 200. So a
kernel with more than 200 steps in its release is taken for an older one (`takenFor`).
`startAndLoad_iff` names the kernels for which every decision is still the one that the release
dates suggest.
-/

set_option autoImplicit false

namespace GlibcPorts.Rtld

/-- The version of a release date, as a number. -/
def version (release : Nat) : Nat :=
  release / 100000 * 65536 + release % 100000 / 1000 * 256 + release % 200

/-- A release date whose parts fit in the bytes of a version. -/
structure IsRelease (release : Nat) : Prop where
  major_pos : 100000 ≤ release
  major_lt : release < 25600000
  step_lt : release % 1000 < 200

/-- The release is the major number and two digits. -/
theorem release_eq (r : Nat) :
    r / 1000 = 100 * (r / 100000) + r % 100000 / 1000 ∧ r % 100000 / 1000 < 100 := by
  omega

/-- Versions compare by the release, and then by what is left of the last three digits. -/
theorem version_le_iff (q r : Nat) :
    version q ≤ version r ↔ q / 1000 < r / 1000 ∨ (q / 1000 = r / 1000 ∧ q % 200 ≤ r % 200) := by
  obtain ⟨hq, hqminor⟩ := release_eq q
  obtain ⟨hr, hrminor⟩ := release_eq r
  have hqstep := Nat.mod_lt q (by decide : 0 < 200)
  have hrstep := Nat.mod_lt r (by decide : 0 < 200)
  rw [version, version, hq, hr]
  generalize q / 100000 = qmajor at *
  generalize r / 100000 = rmajor at *
  generalize q % 100000 / 1000 = qminor at *
  generalize r % 100000 / 1000 = rminor at *
  omega

section Words

variable {x y : BitVec 32}

/-- A quotient of numbers that are not negative. -/
theorem toNat_sdiv (hx : x.msb = false) (hy : y.msb = false) :
    (x.sdiv y).toNat = x.toNat / y.toNat := by
  rw [BitVec.sdiv_eq, hx, hy]
  exact BitVec.toNat_udiv

/-- A remainder of such numbers. -/
theorem toNat_srem (hx : x.msb = false) (hy : y.msb = false) :
    (x.srem y).toNat = x.toNat % y.toNat := by
  rw [BitVec.srem_eq, hx, hy]
  exact BitVec.toNat_umod

/-- A number below the sign bit. -/
theorem msb_of_lt (hx : x.toNat < 2 ^ 31) : x.msb = false := by
  rw [BitVec.msb_eq_false_iff_two_mul_lt]
  omega

end Words

/-- A version is not larger than its release. -/
theorem version_lt {r : Nat} (h : r < 2 ^ 31) : version r < 2 ^ 31 := by
  unfold version
  omega

/-- The version as the code computes it. -/
theorem toNat_dlDiscoverOsversion {r : Nat} (h : r < 2 ^ 31) :
    (dlDiscoverOsversion (some (BitVec.ofNat 32 r))).toNat = version r := by
  have hr : (BitVec.ofNat 32 r).toNat = r := by
    rw [BitVec.toNat_ofNat]
    omega
  have hmsb := msb_of_lt (hr.symm ▸ h)
  have hmajor : ((BitVec.ofNat 32 r).sdiv 100000).toNat = r / 100000 := by
    rw [toNat_sdiv hmsb rfl, hr]
    rfl
  have hrest : ((BitVec.ofNat 32 r).srem 100000).toNat = r % 100000 := by
    rw [toNat_srem hmsb rfl, hr]
    rfl
  have hminor : (((BitVec.ofNat 32 r).srem 100000).sdiv 1000).toNat = r % 100000 / 1000 := by
    rw [toNat_sdiv (msb_of_lt (by omega)) rfl, hrest]
    rfl
  have hstep : ((BitVec.ofNat 32 r).srem 200).toNat = r % 200 := by
    rw [toNat_srem hmsb rfl, hr]
    rfl
  -- The three parts have bits of their own.
  have hhigh : ((BitVec.ofNat 32 r).sdiv 100000 <<< 16).toNat = 2 ^ 16 * (r / 100000) := by
    rw [BitVec.toNat_shiftLeft, hmajor, Nat.shiftLeft_eq]
    omega
  have hlow : (((BitVec.ofNat 32 r).srem 100000).sdiv 1000 <<< 8).toNat
      = 2 ^ 8 * (r % 100000 / 1000) := by
    rw [BitVec.toNat_shiftLeft, hminor, Nat.shiftLeft_eq]
    omega
  rw [dlDiscoverOsversion, BitVec.toNat_or, BitVec.toNat_or, hhigh, hlow, hstep,
    Lib.or_eq_add ⟨_, rfl⟩ (by omega : 2 ^ 8 * (r % 100000 / 1000) < 2 ^ 16),
    Lib.or_eq_add (k := 8) ⟨2 ^ 8 * (r / 100000) + r % 100000 / 1000, by omega⟩ (by omega), version]
  omega

/-- The version that the kernel is asked for. -/
theorem toInt_dlDiscoverOsversion {r : Nat} (h : r < 2 ^ 31) :
    (dlDiscoverOsversion (some (BitVec.ofNat 32 r))).toInt = version r := by
  have hlt := version_lt h
  have hversion := toNat_dlDiscoverOsversion h
  rw [BitVec.toInt_eq_toNat_of_lt (by omega), hversion]

/-! ### Notes -/

/-- The note of a library that is built for a release. -/
def noteFor (r : Nat) : AbiNote :=
  ⟨BitVec.ofNat 32 (r / 100000), BitVec.ofNat 32 (r % 100000 / 1000), BitVec.ofNat 32 (r % 1000)⟩

/-- A number of one byte. -/
theorem toNat_and_byte {n : Nat} (h : n < 256) : (BitVec.ofNat 32 n &&& 0xff).toNat = n := by
  rw [BitVec.toNat_and, BitVec.toNat_ofNat, Nat.mod_eq_of_lt (by omega)]
  show n &&& 2 ^ 8 - 1 = n
  rw [Nat.and_two_pow_sub_one_eq_mod, Nat.mod_eq_of_lt h]

/-- The version that a note stands for. -/
theorem toNat_osversion {r : Nat} (h : IsRelease r) : (noteFor r).osversion.toNat = version r := by
  obtain ⟨-, hlt, hstep⟩ := h
  have hmajor := toNat_and_byte (n := r / 100000) (by omega)
  have hminor := toNat_and_byte (n := r % 100000 / 1000) (by omega)
  have hsub := toNat_and_byte (n := r % 1000) (by omega)
  have hbig : (65536 : BitVec 32).toNat = 65536 := rfl
  have hsmall : (256 : BitVec 32).toNat = 256 := rfl
  rw [AbiNote.osversion, noteFor, BitVec.toNat_add, BitVec.toNat_add, BitVec.toNat_mul,
    BitVec.toNat_mul, hmajor, hminor, hsub, hbig, hsmall, version]
  omega

/-! ### The start of a program -/

/-- The decisions that the release dates suggest: the program starts on a kernel that is not older
than it needs, and loads a library that is not newer than the kernel and than the version it is
told to assume. -/
def byReleaseDate (required : Nat) (assumed : Option Nat) (kernel library : Nat) :
    Except OsFatal Bool :=
  if kernel < required then .error .kernelTooOld
  else .ok (decide (library ≤ kernel ∧ ∀ a ∈ assumed, library ≤ a))

/-- The version of a release date, or zero. -/
def versionWord (release : Option Nat) : BitVec 32 := BitVec.ofNat 32 (release.elim 0 version)

/-- A release has a version. -/
theorem version_pos {r : Nat} (h : 100000 ≤ r) : 0 < version r := by
  unfold version
  omega

/-- The version as the word that is stored. -/
theorem toNat_versionWord {r : Nat} (h : r < 2 ^ 31) :
    (versionWord (some r)).toNat = version r := by
  have hlt := version_lt h
  rw [versionWord, Option.elim_some, BitVec.toNat_ofNat]
  omega

/-- It is not taken for a missing one. -/
theorem versionWord_ne_zero {r : Nat} (h : 100000 ≤ r) (hlt : r < 2 ^ 31) :
    versionWord (some r) ≠ 0 := by
  intro heq
  have hpos := version_pos h
  rw [← toNat_versionWord hlt, heq] at hpos
  exact Nat.lt_irrefl 0 hpos

/-- The version that is kept is the lesser one. -/
theorem kept_version {v : Nat} {assumed : Option Nat} {word : BitVec 32} (hpos : 100000 ≤ v)
    (hword : word.toNat = version v) (hassumed : ∀ a ∈ assumed, IsRelease a) (note : AbiNote) :
    loadable (if versionWord assumed = 0 ∨ word.toNat < (versionWord assumed).toNat then word
      else versionWord assumed) note
      = decide (note.osversion.toNat ≤ version v
        ∧ ∀ a ∈ assumed, note.osversion.toNat ≤ version a) := by
  have hword0 : word ≠ 0 := by
    rintro rfl
    have hzero : version v = 0 := hword.symm
    have := version_pos hpos
    omega
  unfold loadable
  cases assumed with
  | none =>
      rw [if_pos (.inl rfl), hword]
      exact decide_eq_decide.mpr
        ⟨fun h => ⟨Nat.le_of_not_lt fun hlt => h ⟨hword0, hlt⟩, fun a ha => nomatch ha⟩,
          fun h hnew => Nat.not_lt.mpr h.1 hnew.2⟩
  | some a =>
      obtain ⟨ha, halt, -⟩ := hassumed a rfl
      have hnat := toNat_versionWord (by omega : a < 2 ^ 31)
      have ha0 := versionWord_ne_zero ha (by omega)
      rw [hword, hnat]
      -- What is kept is the smaller of the two versions.
      have hkept : ∀ {kept : BitVec 32}, kept ≠ 0 → kept.toNat = min (version v) (version a) →
          (¬ (kept ≠ 0 ∧ kept.toNat < note.osversion.toNat) ↔
            note.osversion.toNat ≤ version v
              ∧ ∀ b ∈ some a, note.osversion.toNat ≤ version b) := by
        intro kept hne hmin
        simp only [hmin, Option.mem_some_iff, forall_eq']
        exact ⟨fun h => by have := Nat.le_of_not_lt fun hlt => h ⟨hne, hlt⟩; omega,
          fun h hnew => by have := hnew.2; omega⟩
      split
      · rename_i hless
        have hless := hless.resolve_left ha0
        exact decide_eq_decide.mpr (hkept hword0 (by omega))
      · rename_i hless
        have hless := not_or.mp hless
        exact decide_eq_decide.mpr (hkept ha0 (by omega))

/-- The comparisons, by the versions. -/
theorem startAndLoad_eq {q r v : Nat} {assumed : Option Nat} (hq : IsRelease q) (hr : IsRelease r)
    (hpos : 100000 ≤ v) (hv : v < 25600000) (hassumed : ∀ a ∈ assumed, IsRelease a) :
    startAndLoad (versionWord (some q)) (versionWord assumed) (some (BitVec.ofNat 32 v))
      (noteFor r) =
      if version v < version q then .error .kernelTooOld
      else .ok (decide (version r ≤ version v ∧ ∀ a ∈ assumed, version r ≤ version a)) := by
  have hword := toNat_dlDiscoverOsversion (by omega : v < 2 ^ 31)
  have hint := toInt_dlDiscoverOsversion (by omega : v < 2 ^ 31)
  have hqlt : q < 2 ^ 31 := Nat.lt_trans hq.major_lt (by decide)
  have hqnat := toNat_versionWord hqlt
  have hqint : (versionWord (some q)).toInt = version q := by
    have hlt := version_lt hqlt
    rw [BitVec.toInt_eq_toNat_of_lt (by omega), hqnat]
  have hqpos := version_pos hq.major_pos
  rw [startAndLoad, dlSysdepOscheck, hint, hqint, if_pos (by omega)]
  by_cases hold : version v < version q
  · rw [if_pos (by omega), if_pos hold]
    rfl
  · rw [if_neg (by omega), if_neg hold]
    show Except.ok (loadable _ _) = _
    rw [kept_version hpos hword hassumed, toNat_osversion hr]

/-- Among the releases, versions compare with the one of `v` as the numbers do, if the step of `v`
is below 200 or is taken for 199. -/
theorem version_le_iff_of_step {q v : Nat} (hq : q % 1000 < 200)
    (hv : v % 1000 < 200 ∨ v % 200 = 199) : version q ≤ version v ↔ q ≤ v := by
  rw [version_le_iff]
  omega

/-- The release date of the kernel that a kernel is taken for. -/
def takenFor (v : Nat) : Nat := v / 1000 * 1000 + v % 200

/-- Which kernels are taken for older ones. -/
theorem takenFor_lt_iff (v : Nat) : takenFor v < v ↔ 200 ≤ v % 1000 := by
  unfold takenFor
  omega

/-- The version does not tell the two kernels apart. -/
theorem version_takenFor (v : Nat) : version (takenFor v) = version v := by
  unfold version takenFor
  omega

/-- Every decision is the one by release dates for the kernel that this one is taken for. -/
theorem startAndLoad_eq_takenFor {q r v : Nat} {assumed : Option Nat} (hq : IsRelease q)
    (hr : IsRelease r) (hpos : 100000 ≤ v) (hv : v < 25600000)
    (hassumed : ∀ a ∈ assumed, IsRelease a) :
    startAndLoad (versionWord (some q)) (versionWord assumed) (some (BitVec.ofNat 32 v))
      (noteFor r) = byReleaseDate q assumed (takenFor v) r := by
  have hstep : takenFor v % 1000 < 200 ∨ takenFor v % 200 = 199 := by
    unfold takenFor
    omega
  -- Versions compare as dates do, when the steps are those of a release.
  have hle : ∀ {n}, n % 1000 < 200 → (version n ≤ version v ↔ n ≤ takenFor v) := by
    intro n hn
    rw [← version_takenFor v, version_le_iff_of_step hn hstep]
  have hkernel : version v < version q ↔ takenFor v < q := by
    rw [← Nat.not_le, ← Nat.not_le, hle hq.step_lt]
  have hloads : (version r ≤ version v ∧ ∀ a ∈ assumed, version r ≤ version a)
      ↔ r ≤ takenFor v ∧ ∀ a ∈ assumed, r ≤ a := by
    rw [hle hr.step_lt]
    exact and_congr_right fun _ => forall₂_congr fun a ha =>
      version_le_iff_of_step hr.step_lt (.inl (hassumed a ha).step_lt)
  rw [startAndLoad_eq hq hr hpos hv hassumed, byReleaseDate]
  by_cases hold : takenFor v < q
  · rw [if_pos hold, if_pos (hkernel.mpr hold)]
  · rw [if_neg hold, if_neg (mt hkernel.mp hold), decide_eq_decide.mpr hloads]

/-- Among the releases, a kernel that is taken for an older one compares as itself only at the end
of its release. -/
theorem byReleaseDate_takenFor_iff {v : Nat} (hpos : 100000 ≤ v) (hlt : v < 25600000) :
    (∀ q r assumed, IsRelease q → IsRelease r → (∀ a ∈ assumed, IsRelease a) →
      byReleaseDate q assumed (takenFor v) r = byReleaseDate q assumed v r) ↔
      v % 1000 < 200 ∨ v % 200 = 199 := by
  unfold takenFor
  constructor
  · intro h
    by_contra hstep
    -- A library for the step 199 of the release of `v`, on a kernel that has passed it.
    have hr : IsRelease (v / 1000 * 1000 + 199) := ⟨by omega, by omega, by omega⟩
    have hq : IsRelease 100000 := ⟨by decide, by decide, by decide⟩
    have hsame := h 100000 _ none hq hr nofun
    rw [byReleaseDate, byReleaseDate, if_neg (by omega), if_neg (by omega)] at hsame
    have hload := decide_eq_decide.mp (Except.ok.inj hsame)
    have hle := (hload.mpr ⟨by omega, nofun⟩).1
    omega
  · intro hstep q r assumed hq hr hassumed
    have hqstep := hq.step_lt
    have hrstep := hr.step_lt
    have hkernel : v / 1000 * 1000 + v % 200 < q ↔ v < q := by omega
    have hlibrary : r ≤ v / 1000 * 1000 + v % 200 ↔ r ≤ v := by omega
    simp only [byReleaseDate, hkernel, hlibrary]

/-- On a kernel with the release date `v`, every decision is the one by release dates exactly if
the last three digits of `v` are below 200, or are 199 modulo 200. On any kernel it is the one for
`takenFor v`, which is older when the last three digits are not below 200. -/
theorem startAndLoad_iff (v : Nat) (hpos : 100000 ≤ v) (hlt : v < 25600000) :
    ((∀ q r assumed, IsRelease q → IsRelease r → (∀ a ∈ assumed, IsRelease a) →
      startAndLoad (versionWord (some q)) (versionWord assumed) (some (BitVec.ofNat 32 v))
        (noteFor r) = byReleaseDate q assumed v r) ↔ v % 1000 < 200 ∨ v % 200 = 199)
    ∧ (∀ q r assumed, IsRelease q → IsRelease r → (∀ a ∈ assumed, IsRelease a) →
      startAndLoad (versionWord (some q)) (versionWord assumed) (some (BitVec.ofNat 32 v))
        (noteFor r) = byReleaseDate q assumed (takenFor v) r)
    ∧ (takenFor v < v ↔ 200 ≤ v % 1000) := by
  refine ⟨?_, fun q r assumed hq hr hassumed =>
    startAndLoad_eq_takenFor hq hr hpos hlt hassumed, takenFor_lt_iff v⟩
  rw [← byReleaseDate_takenFor_iff hpos hlt]
  refine forall₃_congr fun q r assumed => forall₃_congr fun hq hr hassumed => ?_
  rw [startAndLoad_eq_takenFor hq hr hpos hlt hassumed]

/-- The release 8.2 with the date 802510, which is behind the step 199. -/
theorem startAndLoad_iff_passed :
    ¬ ∀ q r assumed, IsRelease q → IsRelease r → (∀ a ∈ assumed, IsRelease a) →
      startAndLoad (versionWord (some q)) (versionWord assumed) (some (BitVec.ofNat 32 802510))
        (noteFor r) = byReleaseDate q assumed 802510 r := by
  rw [(startAndLoad_iff 802510 (by decide) (by decide)).1]
  decide

end GlibcPorts.Rtld
