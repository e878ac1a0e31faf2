import GlibcPorts.Proofs.AtEmulation.SinglePath

/-!
# `GlibcPorts.Proofs.AtEmulation.TwoPaths`: `linkat` and `renameat`

What `linkat` and `renameat` should do without the system calls: the two sides mean what they
mean alone (`resolve`), and the call is made when both have a meaning, else the function fails
with the error of a side that has none (`Admits`).

The code tests both descriptors for `< 0` as soon as one of the two paths is relative to its
descriptor. The test is right for that path, but it also hits a descriptor that its own path
does not use, and `AT_FDCWD` is negative: `twoPaths_independent_iff` says when the code does
what it should, and `twoPaths_relative_and_cwd` is the ordinary call that fails.
-/

set_option autoImplicit false

namespace GlibcPorts.AtEmulation

open Lib

variable {H : Headers} {k : Kernel}

/-- `r` is a result for two sides that mean `r₁` and `r₂`: both paths, or the error of a side. -/
def Admits (r₁ r₂ : Except Errno CString) : Except Errno (CString × CString) → Prop
  | .ok paths => r₁ = .ok paths.1 ∧ r₂ = .ok paths.2
  | .error errno => r₁ = .error errno ∨ r₂ = .error errno

/-- The function does what its two sides mean, each of them alone. -/
def Independent (k : Kernel) (table : List (KinfoFile H)) (f : TwoPaths) (fromfd : Int)
    (fromPath : CString) (tofd : Int) (toPath : CString) : Prop :=
  ∃ r, Admits (resolve (descriptors table) fromfd fromPath)
      (resolve (descriptors table) tofd toPath) r ∧
    f.run H k (-1) fromfd fromPath tofd toPath = ⟨.ofResolution k f.plainCall r, -1⟩

/-- The test of the descriptors does no harm: no path is relative to its descriptor, or no
descriptor is negative, or a path is relative to a descriptor that is closed. -/
def GuardFits (table : List (KinfoFile H)) (fromfd : Int) (fromPath : CString) (tofd : Int)
    (toPath : CString) : Prop :=
  (usesFd fromfd fromPath = false ∧ usesFd tofd toPath = false) ∨
    (0 ≤ fromfd ∧ 0 ≤ tofd) ∨
    (usesFd fromfd fromPath = true ∧ descriptors table fromfd = .closed) ∨
    (usesFd tofd toPath = true ∧ descriptors table tofd = .closed)

/-- One side, then the other. -/
def bothSides (r₁ r₂ : Except Errno CString) : Except Errno (CString × CString) :=
  r₁.bind fun path₁ => r₂.bind fun path₂ => .ok (path₁, path₂)

theorem admits_bothSides (r₁ r₂ : Except Errno CString) : Admits r₁ r₂ (bothSides r₁ r₂) := by
  cases r₁ with
  | error errno => exact .inl rfl
  | ok path₁ =>
      cases r₂ with
      | error errno => exact .inr rfl
      | ok path₂ => exact ⟨rfl, rfl⟩

/-- A function that fails without a call has an error to do for. -/
theorem ofResolution_eq_error_iff {α : Type} {call : α → PathCall} {r : Except Errno α}
    {errno : Errno} :
    Outcome.ofResolution k call r = .ofResolution k call (.error errno) ↔ r = .error errno := by
  constructor
  · intro h
    cases r with
    | ok a => simp [Outcome.ofResolution] at h
    | error errno' =>
        simp only [Outcome.ofResolution, Outcome.mk.injEq, Exec.fail.injEq, true_and] at h
        rw [h]
  · rintro rfl
    rfl

/-- A path has no meaning for want of a descriptor exactly when it is relative to a closed one. -/
theorem resolve_eq_ebadf_iff {table : Int → Descriptor} {fd : Int} {file : CString} :
    resolve table fd file = .error EBADF ↔ usesFd fd file = true ∧ table fd = .closed := by
  unfold resolve
  cases usesFd fd file with
  | false => simp
  | true => cases table fd <;> simp [EBADF, ENOTDIR]

/-- One side of the code, over a buffer that starts with the table. -/
theorem emulatedSide_eq (table : List (KinfoFile H)) (tail : List UInt8) (i : Nat) (fd : Int)
    (file : CString) :
    emulatedSide H k i (tableBytes table ++ tail) (tableBytes table).length fd file =
      .ofExcept (resolve (descriptors table) fd file) := by
  unfold emulatedSide
  cases huses : usesFd fd file with
  | false =>
      rw [if_neg (not_of_usesFd_eq_false huses), resolve, huses]
      rfl
  | true =>
      rw [if_pos (usesFd_iff.mp huses)]
      exact scanRecords_eq_resolve tail huses fun kf hfind _ =>
        joinInBuffer_eq k i file (readAt_recordOffset hfind tail)

/-- The two sides of the code, one after the other. -/
theorem ofExcept_bind_bind (r₁ r₂ : Except Errno CString) :
    ((Exec.ofExcept r₁).bind fun path₁ =>
      (Exec.ofExcept r₂).bind fun path₂ => .ok (path₁, path₂)) =
      .ofExcept (bothSides r₁ r₂) := by
  cases r₁ with
  | error errno => rfl
  | ok path₁ =>
      cases r₂ with
      | error errno => rfl
      | ok path₂ => rfl

section Block

variable {table : List (KinfoFile H)} {fromfd tofd : Int} {fromPath toPath : CString}

theorem entered_iff :
    (fromfd ≠ AT_FDCWD ∧ (!isAbsolute fromPath) = true) ∨
        (tofd ≠ AT_FDCWD ∧ (!isAbsolute toPath) = true) ↔
      ¬ (usesFd fromfd fromPath = false ∧ usesFd tofd toPath = false) := by
  rw [← usesFd_iff, ← usesFd_iff]
  cases usesFd fromfd fromPath <;> cases usesFd tofd toPath <;> simp

/-- Two paths that are not relative to a descriptor stay as they are. -/
theorem emulatedFiles_of_plain
    (h : usesFd fromfd fromPath = false ∧ usesFd tofd toPath = false) :
    emulatedFiles H k fromfd fromPath tofd toPath =
      .ofExcept (bothSides (resolve (descriptors table) fromfd fromPath)
        (resolve (descriptors table) tofd toPath)) := by
  rw [emulatedFiles, if_neg (fun hentered => entered_iff.mp hentered h), resolve, resolve, h.1, h.2]
  rfl

/-- The test that both sides share. -/
theorem emulatedFiles_of_negative
    (h : ¬ (usesFd fromfd fromPath = false ∧ usesFd tofd toPath = false))
    (hneg : fromfd < 0 ∨ tofd < 0) :
    emulatedFiles H k fromfd fromPath tofd toPath = .fail EBADF := by
  rw [emulatedFiles, if_pos (entered_iff.mpr h), if_pos hneg]

/-- Behind the tests each side is resolved alone. -/
theorem emulatedFiles_of_nonneg {kfLen : Nat} (hlen : k.filedescLen = some kfLen)
    (hstored : k.filedesc kfLen = some (tableBytes table))
    (h : ¬ (usesFd fromfd fromPath = false ∧ usesFd tofd toPath = false))
    (hnonneg : ¬ (fromfd < 0 ∨ tofd < 0)) (hfrom : fromPath.strlen ≠ 0)
    (hto : toPath.strlen ≠ 0) :
    emulatedFiles H k fromfd fromPath tofd toPath =
      .ofExcept (bothSides (resolve (descriptors table) fromfd fromPath)
        (resolve (descriptors table) tofd toPath)) := by
  obtain ⟨tail, hread, -⟩ := readTable_eq 0 hlen hstored
  have hnonempty : ¬ (fromPath.strlen = 0 ∨ toPath.strlen = 0) := by
    rintro (hempty | hempty)
    · exact hfrom hempty
    · exact hto hempty
  rw [emulatedFiles, if_pos (entered_iff.mpr h), if_neg hnonneg, if_neg hnonempty, hread]
  show ((emulatedSide H k 1 _ _ fromfd fromPath).bind fun path₁ =>
    (emulatedSide H k 2 _ _ tofd toPath).bind fun path₂ => .ok (path₁, path₂)) = _
  rw [emulatedSide_eq, emulatedSide_eq, ofExcept_bind_bind]

end Block

/-- Without the system call, a function with two paths is the shared block and a call. -/
theorem TwoPaths.run_emulation (f : TwoPaths) (fromfd : Int) (fromPath : CString) (tofd : Int)
    (toPath : CString) :
    f.run H k (-1) fromfd fromPath tofd toPath =
      ⟨finish k (emulatedFiles H k fromfd fromPath tofd toPath) f.plainCall, -1⟩ := by
  cases f with
  | linkat => rfl
  | renameat => rfl

/-- `linkat` and `renameat` treat their sides independently exactly when the test of the
descriptors does no harm. -/
theorem twoPaths_independent_iff (f : TwoPaths) (table : List (KinfoFile H)) (kfLen : Nat)
    (hlen : k.filedescLen = some kfLen) (hstored : k.filedesc kfLen = some (tableBytes table))
    (fromfd : Int) (fromPath : CString) (tofd : Int) (toPath : CString)
    (hfrom : fromPath.strlen ≠ 0) (hto : toPath.strlen ≠ 0) :
    Independent k table f fromfd fromPath tofd toPath ↔
      GuardFits table fromfd fromPath tofd toPath := by
  unfold Independent
  rw [f.run_emulation]
  by_cases hplain : usesFd fromfd fromPath = false ∧ usesFd tofd toPath = false
  · -- The block is not entered, and both paths stay.
    refine iff_of_true ⟨_, admits_bothSides _ _, ?_⟩ (.inl hplain)
    rw [emulatedFiles_of_plain hplain, finish_ofExcept]
  by_cases hneg : fromfd < 0 ∨ tofd < 0
  · -- The code fails with `EBADF`, which has to be the error of a side.
    have hfail : finish k (emulatedFiles H k fromfd fromPath tofd toPath) f.plainCall =
        .ofResolution k f.plainCall (.error EBADF) := by
      rw [emulatedFiles_of_negative hplain hneg]
      rfl
    have hnonneg : ¬ (0 ≤ fromfd ∧ 0 ≤ tofd) := by omega
    simp only [hfail, AtResult.mk.injEq, and_true]
    constructor
    · rintro ⟨r, hadmits, hr⟩
      rw [ofResolution_eq_error_iff.mp hr.symm] at hadmits
      exact .inr (.inr (hadmits.imp resolve_eq_ebadf_iff.mp resolve_eq_ebadf_iff.mp))
    · rintro (h | h | h)
      · exact absurd h hplain
      · exact absurd h hnonneg
      · exact ⟨.error EBADF, h.imp resolve_eq_ebadf_iff.mpr resolve_eq_ebadf_iff.mpr, rfl⟩
  · -- Both tests pass, and then the sides do not meet again.
    refine iff_of_true ⟨_, admits_bothSides _ _, ?_⟩ (.inr (.inl (by omega)))
    rw [emulatedFiles_of_nonneg hlen hstored hplain hneg hfrom hto, finish_ofExcept]

/-- `linkat (5, "a", 5, "b", 0)`, with a directory as descriptor 5. -/
theorem twoPaths_independent_iff_tmp :
    Independent (kernelWith socketAndTmp) socketAndTmp .linkat 5 ⟨[97], by decide⟩ 5
      ⟨[98], by decide⟩ :=
  (twoPaths_independent_iff .linkat socketAndTmp _ rfl (kernelWith_filedesc socketAndTmp) 5
    ⟨[97], by decide⟩ 5 ⟨[98], by decide⟩ (by decide) (by decide)).mpr
      (.inr (.inl ⟨by decide, by decide⟩))

/-- `linkat (5, "a", AT_FDCWD, "b", 0)` and `renameat` of the same arguments fail with `EBADF`,
although `"/tmp/a"` and `"b"` are what the two sides mean. -/
theorem twoPaths_relative_and_cwd :
    ¬ Independent (kernelWith socketAndTmp) socketAndTmp .linkat 5 ⟨[97], by decide⟩ AT_FDCWD
        ⟨[98], by decide⟩ ∧
      ¬ Independent (kernelWith socketAndTmp) socketAndTmp .renameat 5 ⟨[97], by decide⟩ AT_FDCWD
        ⟨[98], by decide⟩ := by
  have hfrom : resolve (descriptors socketAndTmp) 5 ⟨[97], by decide⟩ =
      .ok ⟨[47, 116, 109, 112, 47, 97], by decide⟩ := by decide +kernel
  have hto : resolve (descriptors socketAndTmp) AT_FDCWD ⟨[98], by decide⟩ =
      .ok ⟨[98], by decide⟩ := by decide +kernel
  have hcalls : ∀ f : TwoPaths, (f.run kinfoHeaders (kernelWith socketAndTmp) (-1) 5
      ⟨[97], by decide⟩ AT_FDCWD ⟨[98], by decide⟩).calls = [] := by
    intro f
    cases f <;> rfl
  have hfails : ∀ f : TwoPaths, ¬ Independent (kernelWith socketAndTmp) socketAndTmp f 5
      ⟨[97], by decide⟩ AT_FDCWD ⟨[98], by decide⟩ := by
    rintro f ⟨r, hadmits, hrun⟩
    rw [hfrom, hto] at hadmits
    cases r with
    | ok paths =>
        have hcall := hcalls f
        rw [hrun] at hcall
        cases hcall
    | error errno => rcases hadmits with h | h <;> cases h
  exact ⟨hfails .linkat, hfails .renameat⟩

end GlibcPorts.AtEmulation
