import GlibcPorts.Proofs.AtEmulation.BufferRoom

/-!
# `GlibcPorts.Proofs.AtEmulation.Futimesat`: the two ways of `futimesat`

`futimesat` goes to the kernel while `__have_atfcts` is not -1, and to its emulation then. What
each of the two does to files is `TimesResult.changes`: the calls that it makes set the times of
the files that they are about (`TimesCall.target`).

`futimesat_paths_agree_iff` says when both change the same file to the same times. Without a path
the emulation calls `strlen (NULL)`, unless the descriptor is negative. With a path it leaves its
buffer when the record of the directory has no spare byte, which is the defect of all functions
with one path (`BufferRoom`).
-/

set_option autoImplicit false

namespace GlibcPorts.AtEmulation

open Lib

/-! ### What a call changes -/

section Changes

variable {table : Int → Descriptor} {Obj : Type}

/-- The file that a call is about, and the times that it sets. -/
def TimesCall.target (files : Files table Obj) : TimesCall → Option (Obj × Addr)
  | .futimes fd tvp => (files.opened fd).map (·, tvp)
  | .futimesat fd file tvp => (files.relativeTo fd file).map (·, tvp)
  | .utimes file tvp => (files.atPath file).map (·, tvp)

/-- The kernel has the calls, and a call succeeds when there is a file that it is about. -/
def SetsTimes (files : Files table Obj) (times : TimesCall → CallResult) : Prop :=
  ∀ c : TimesCall, if (c.target files).isSome then (times c).ret = 0
    else (times c).ret = -1 ∧ (times c).errno ≠ ENOSYS

/-- The files that a call of `futimesat` changes, if it returns. -/
def TimesResult.changes (files : Files table Obj) (r : TimesResult) : Option (List (Obj × Addr)) :=
  match r.result with
  | .ok _ | .fail _ => some (r.calls.filterMap (TimesCall.target files))
  | .fault | .running => none

end Changes

/-! ### The emulation -/

section Emulation

variable {H : Headers} {k : Kernel} {table : List (KinfoFile H)} {kfLen : Nat} {fd : Int}

/-- The emulation can do with its arguments: without a path it only rejects the descriptor, and a
path needs a spare byte behind the record of its directory. -/
def EmulationServes (table : List (KinfoFile H)) (kfLen : Nat) (fd : Int) : Option CString → Prop
  | none => fd < 0
  | some file => usesFd fd file = true → 0 ≤ fd → file.strlen ≠ 0 →
      ∀ path, descriptors table fd = .directory path → SpareByte table kfLen fd path

/-- The block of `futimesat` finds what its arguments mean, or leaves its memory. -/
theorem emulatedFile_serves (hlen : k.filedescLen = some kfLen)
    (hstored : k.filedesc kfLen = some (tableBytes table)) {file : CString}
    (hserves : EmulationServes table kfLen fd (some file)) :
    emulatedFile H k fd file = .ofExcept (resolveFile (descriptors table) fd file) := by
  by_cases hroom : usesFd fd file = true → 0 ≤ fd ∧ file.strlen ≠ 0
  · refine emulatedFile_eq hlen hstored fun huses path hdir => ?_
    obtain ⟨hfd, hfile⟩ := hroom huses
    exact (spareByte_iff file).mp (hserves huses hfd hfile path hdir)
  · -- The tests in front of the table end the function.
    rw [Classical.not_imp, not_and_or, Int.not_le, not_not] at hroom
    obtain ⟨huses, hbad⟩ := hroom
    unfold emulatedFile resolveFile
    rw [if_pos (usesFd_iff.mp huses), if_pos huses]
    by_cases hfd : fd < 0
    · rw [if_pos hfd, if_pos hfd]
      rfl
    · have hempty : file.strlen = 0 := hbad.resolve_left hfd
      rw [if_neg hfd, if_neg hfd, if_pos hempty, if_pos hempty]
      rfl

theorem futimesatFile_eq_fault_iff (hlen : k.filedescLen = some kfLen)
    (hstored : k.filedesc kfLen = some (tableBytes table)) (file : Option CString) :
    futimesatFile H k fd file = .fault ↔ ¬ EmulationServes table kfLen fd file := by
  cases file with
  | none =>
      rw [futimesatFile, EmulationServes]
      split_ifs with hfd <;> simp [hfd]
  | some file =>
      rw [futimesatFile]
      constructor
      · intro hfault hserves
        rw [emulatedFile_serves hlen hstored hserves] at hfault
        cases hresolve : resolveFile (descriptors table) fd file <;>
          simp [hresolve, Exec.ofExcept] at hfault
      · intro hnot
        simp only [EmulationServes, Classical.not_imp, not_forall] at hnot
        obtain ⟨huses, hfd, hfile, path, hdir, hspare⟩ := hnot
        exact (emulatedFile_eq_fault_iff hlen hstored huses hfile hdir).mpr ⟨hfd, hspare⟩

variable {Obj : Type} {files : Files (descriptors table) Obj} {times : TimesCall → CallResult}

/-- What the path of `futimesat` changes while the kernel has the call. -/
theorem changes_futimesat (hkernel : SetsTimes files times) {haveAtfcts : Int}
    (hhave : 0 ≤ haveAtfcts) (file : Option CString) (tvp : Addr) :
    (futimesat H k times haveAtfcts fd file tvp).changes files =
      match file with
      | none => some ((files.opened fd).map (·, tvp)).toList
      | some file => some ((files.relativeTo fd file).map (·, tvp)).toList := by
  have hsingle : ∀ c : TimesCall, [c].filterMap (TimesCall.target files) =
      (c.target files).toList := fun c => by
    cases hc : c.target files <;> simp [hc]
  unfold futimesat
  rw [if_pos hhave]
  cases file with
  | none => exact congrArg some (hsingle _)
  | some path =>
      -- The kernel has the call, so the emulation is not tried.
      have hhas : ¬ ((times (.futimesat fd path tvp)).ret = -1 ∧
          (times (.futimesat fd path tvp)).errno = ENOSYS) := by
        have hcall := hkernel (.futimesat fd path tvp)
        split_ifs at hcall
        · rw [hcall]
          simp
        · exact fun h => hcall.2 h.2
      dsimp only
      rw [if_neg hhas]
      exact congrArg some (hsingle _)

/-- What the emulation changes, if it can do with its arguments. -/
theorem changes_emulation (hlen : k.filedescLen = some kfLen)
    (hstored : k.filedesc kfLen = some (tableBytes table)) {file : CString}
    (hserves : EmulationServes table kfLen fd (some file)) (tvp : Addr) :
    (futimesat H k times (-1) fd (some file) tvp).changes files =
      some ((files.relativeTo fd file).map (·, tvp)).toList := by
  have hblock : futimesatFile H k fd (some file) =
      .ofExcept (resolveFile (descriptors table) fd file) :=
    emulatedFile_serves hlen hstored hserves
  unfold futimesat emulatedFutimesat
  rw [if_neg (by decide), hblock, files.relativeTo_eq]
  cases resolveFile (descriptors table) fd file with
  | error errno => rfl
  | ok path =>
      show some ([TimesCall.utimes path tvp].filterMap (TimesCall.target files)) = _
      cases hpath : files.atPath path <;> simp [TimesCall.target, hpath, Except.toOption]

end Emulation

/-- The two ways of `futimesat` set the times of the same file, or of none, exactly when the
emulation can do with its arguments. -/
theorem futimesat_paths_agree_iff {H : Headers} {k : Kernel} {Obj : Type}
    {times : TimesCall → CallResult} (table : List (KinfoFile H)) (kfLen : Nat)
    (hlen : k.filedescLen = some kfLen) (hstored : k.filedesc kfLen = some (tableBytes table))
    (files : Files (descriptors table) Obj) (hkernel : SetsTimes files times) {haveAtfcts : Int}
    (hhave : 0 ≤ haveAtfcts) (fd : Int) (file : Option CString) (tvp : Addr) :
    (futimesat H k times (-1) fd file tvp).changes files =
        (futimesat H k times haveAtfcts fd file tvp).changes files ↔
      EmulationServes table kfLen fd file := by
  rw [changes_futimesat hkernel hhave]
  by_cases hserves : EmulationServes table kfLen fd file
  · refine iff_of_true ?_ hserves
    cases file with
    | none =>
        have hfd : fd < 0 := hserves
        have hclosed : files.opened fd = none := files.opened_closed fd (if_pos hfd)
        simp [futimesat, emulatedFutimesat, futimesatFile, TimesResult.changes, hfd, hclosed]
    | some file => exact changes_emulation hlen hstored hserves tvp
  · refine iff_of_false (fun heq => ?_) hserves
    have hfault := (futimesatFile_eq_fault_iff hlen hstored file).mpr hserves
    cases file <;> simp [futimesat, emulatedFutimesat, hfault, TimesResult.changes] at heq

/-! ### A process with a directory -/

/-- Every path leads to a file of its own, and a directory is open as the file of its path. -/
def pathFiles (table : Int → Descriptor) : Files table CString where
  named path := some path
  opened fd :=
    match openDescriptor table fd with
    | .directory path => some path
    | _ => none
  opened_closed fd h := by rw [h]

/-- The calls succeed when there is a file that they are about. -/
def timesOf {table : Int → Descriptor} {Obj : Type} (files : Files table Obj) (c : TimesCall) :
    CallResult :=
  if (c.target files).isSome then ⟨0, 0⟩ else ⟨-1, ENOENT⟩

theorem setsTimes_timesOf {table : Int → Descriptor} {Obj : Type} (files : Files table Obj) :
    SetsTimes files (timesOf files) := by
  intro c
  unfold timesOf
  split_ifs
  · rfl
  · exact ⟨rfl, show (2 : Nat) ≠ 78 by decide⟩

/-- Both ways of `futimesat (5, "x", tvp)` are about `"/tmp/x"`. -/
theorem futimesat_paths_agree_iff_tmp :
    let files := pathFiles (descriptors socketAndTmp)
    (futimesat kinfoHeaders (kernelWith socketAndTmp) (timesOf files) (-1) 5
          (some ⟨[120], by decide⟩) 1).changes files =
        (futimesat kinfoHeaders (kernelWith socketAndTmp) (timesOf files) 0 5
          (some ⟨[120], by decide⟩) 1).changes files := by
  intro files
  have hserves : EmulationServes socketAndTmp (tableBytes socketAndTmp).length 5
      (some ⟨[120], by decide⟩) := by
    intro _ _ _ path hpath
    have htmp : descriptors socketAndTmp 5 = .directory ⟨[47, 116, 109, 112], by decide⟩ := by
      decide +kernel
    cases htmp.symm.trans hpath
    unfold SpareByte
    decide +kernel
  exact (futimesat_paths_agree_iff socketAndTmp _ rfl (kernelWith_filedesc socketAndTmp) files
    (setsTimes_timesOf files) (Int.le_refl 0) 5 (some ⟨[120], by decide⟩) 1).mpr hserves

/-- `futimesat (5, NULL, tvp)` changes the directory `/tmp` while the kernel has the call, and then
the emulation reads at `NULL`. -/
theorem futimesat_null_differs :
    let files := pathFiles (descriptors socketAndTmp)
    SetsTimes files (timesOf files) ∧
      (kernelWith socketAndTmp).filedescLen = some (tableBytes socketAndTmp).length ∧
      (kernelWith socketAndTmp).filedesc (tableBytes socketAndTmp).length =
        some (tableBytes socketAndTmp) ∧
      (futimesat kinfoHeaders (kernelWith socketAndTmp) (timesOf files) 0 5 none 1).changes files =
        some [(⟨[47, 116, 109, 112], by decide⟩, 1)] ∧
      (futimesat kinfoHeaders (kernelWith socketAndTmp) (timesOf files) (-1) 5 none 1).changes
        files = none := by
  refine ⟨setsTimes_timesOf _, rfl, kernelWith_filedesc socketAndTmp, ?_, ?_⟩
  · decide +kernel
  · decide +kernel

end GlibcPorts.AtEmulation
