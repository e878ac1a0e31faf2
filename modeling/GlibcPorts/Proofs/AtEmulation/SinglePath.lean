import GlibcPorts.Proofs.AtEmulation.Table

/-!
# `GlibcPorts.Proofs.AtEmulation.SinglePath`: the functions with one path

`singlePath_emulates`: without the system calls, every function with one path does what the
meaning of its descriptor and its path asks for (`resolveFile`), over any table of open files and
with any bytes in the rest of its buffer. The table counts through its first record of each
descriptor.

The path is built in the buffer with the records, over what lies behind `kf_path`, so the
theorem assumes that the buffer has room for it (`Room`). The block of code that the functions
share is `emulatedFile_eq`, and `SinglePath.run_emulation` says that each of them is this block
and one call.
-/

set_option autoImplicit false

namespace GlibcPorts.AtEmulation

open Lib

variable {H : Headers} {k : Kernel}

/-- A meaning, as the code returns it. -/
def Exec.ofExcept {α : Type} : Except Errno α → Exec α
  | .ok a => .ok a
  | .error errno => .fail errno

/-- The call at the end, of a path that was found or not. -/
theorem finish_ofExcept {α : Type} (r : Except Errno α) (call : α → PathCall) :
    finish k (.ofExcept r) call = .ofResolution k call r := by
  cases r with
  | ok a => rfl
  | error errno => rfl

/-- When the descriptor counts. -/
theorem usesFd_iff {fd : Int} {file : CString} :
    usesFd fd file = true ↔ fd ≠ AT_FDCWD ∧ (!isAbsolute file) = true := by
  simp [usesFd]

/-- The test of the code fails for a path that is not relative to its descriptor. -/
theorem not_of_usesFd_eq_false {fd : Int} {file : CString} (h : usesFd fd file = false) :
    ¬ (fd ≠ AT_FDCWD ∧ (!isAbsolute file) = true) := by
  rw [← usesFd_iff, h]
  exact Bool.false_ne_true

/-- The search for a descriptor computes what a path relative to it means, if the function
builds the path of the directory, a slash and the file. -/
theorem scanRecords_eq_resolve {table : List (KinfoFile H)} (tail : List UInt8) {fd : Int}
    {file : CString} {build : Nat → Option CString} (huses : usesFd fd file = true)
    (hbuild : ∀ kf, (table.find? fun kf => kf.kfFd == fd) = some kf → kf.isDir = true →
      build (recordOffset table fd + H.kfPathOff) = some (kf.kfPath ++ (slash ++ file))) :
    scanRecords H (tableBytes table ++ tail) (tableBytes table).length fd file build =
      .ofExcept (resolve (descriptors table) fd file) := by
  rw [scanRecords_eq, resolve, if_pos huses]
  unfold descriptors
  cases hfind : table.find? fun kf => kf.kfFd == fd with
  | none => rfl
  | some kf =>
      cases hdir : kf.isDir with
      | false => simp [hdir, Exec.ofExcept]
      | true =>
          have hbuilt := hbuild kf hfind hdir
          simp [hdir, hbuilt, Exec.ofOption, Exec.ofExcept]

/-- The buffer for `file` has room for the path behind `kf_path` of the record of `fd`, when the
kernel first reports `kfLen` bytes. -/
def Room (table : List (KinfoFile H)) (kfLen : Nat) (fd : Int) (file : CString) : Prop :=
  usesFd fd file = true → ∀ path, descriptors table fd = .directory path →
    recordOffset table fd + H.kfPathOff + (path ++ (slash ++ file)).bytes.length ≤
      kfLen + file.strlen

/-- The two calls of `sysctl` leave the table at the start of a buffer of the right size. -/
theorem readTable_eq {table : List (KinfoFile H)} {kfLen : Nat} (extra : Nat)
    (hlen : k.filedescLen = some kfLen) (hstored : k.filedesc kfLen = some (tableBytes table)) :
    ∃ tail, readTable k extra = .ok (tableBytes table ++ tail, (tableBytes table).length) ∧
      (tableBytes table ++ tail).length = kfLen + extra := by
  have hle := k.filedesc_le kfLen _ hstored
  have hstack := k.length_stack 0 (kfLen + extra)
  refine ⟨(k.stack 0 (kfLen + extra)).drop (tableBytes table).length, ?_, ?_⟩
  · rw [readTable, hlen]
    simp only [hstored]
  · rw [List.length_append, List.length_drop, hstack]
    omega

/-- The block that the functions with one path share computes what the arguments mean. -/
theorem emulatedFile_eq {table : List (KinfoFile H)} {kfLen : Nat}
    (hlen : k.filedescLen = some kfLen) (hstored : k.filedesc kfLen = some (tableBytes table))
    {fd : Int} {file : CString} (hroom : Room table kfLen fd file) :
    emulatedFile H k fd file = .ofExcept (resolveFile (descriptors table) fd file) := by
  unfold emulatedFile resolveFile
  cases huses : usesFd fd file with
  | false =>
      rw [if_neg (not_of_usesFd_eq_false huses)]
      rfl
  | true =>
      rw [if_pos (usesFd_iff.mp huses)]
      simp only [if_true]
      by_cases hfd : fd < 0
      · rw [if_pos hfd, if_pos hfd]
        rfl
      by_cases hempty : file.strlen = 0
      · rw [if_neg hfd, if_neg hfd, if_pos hempty, if_pos hempty]
        rfl
      rw [if_neg hfd, if_neg hfd, if_neg hempty, if_neg hempty]
      -- Behind the tests: the table is read and searched.
      obtain ⟨tail, hread, hsize⟩ := readTable_eq file.strlen hlen hstored
      rw [hread]
      show scanRecords H _ _ fd file _ = _
      refine scanRecords_eq_resolve tail huses fun kf hfind hdir => ?_
      have hpath : descriptors table fd = .directory kf.kfPath := by
        simp [descriptors, hfind, hdir]
      have hfits := hroom huses kf.kfPath hpath
      rw [← hsize] at hfits
      exact appendInPlace_eq (readAt_recordOffset hfind tail) hfits

/-- Without the system call, a function with one path is the shared block and a call. -/
theorem SinglePath.run_emulation (f : SinglePath) (hflags : f.Accepts H) (fd : Int)
    (file : CString) :
    f.run H k (-1) fd file = ⟨finish k (emulatedFile H k fd file) f.plainCall, -1⟩ := by
  -- The flags pass their test; the rest is what `atSyscall` does without the system call.
  cases f with
  | openatNocancel oflag mode => rfl
  | openat oflag arg => rfl
  | mkdirat mode => rfl
  | unlinkat flag =>
      rw [Accepts] at hflags
      rw [run, AtEmulation.unlinkat, if_neg (not_not.mpr hflags)]
      rfl
  | fchmodat mode flag =>
      rw [Accepts] at hflags
      rw [run, AtEmulation.fchmodat, if_neg (not_not.mpr hflags)]
      rfl
  | fchownat owner group flag =>
      rw [Accepts] at hflags
      rw [run, AtEmulation.fchownat, if_neg (not_not.mpr hflags)]
      rfl
  | readlinkat buf len => rfl
  | symlinkat fromPath => rfl
  | xmknodat vers mode dev =>
      rw [Accepts] at hflags
      rw [run, AtEmulation.xmknodat, if_neg (not_not.mpr hflags)]
      rfl
  | fxstatat buf16 vers st flag =>
      rw [Accepts] at hflags
      rw [run, AtEmulation.fxstatat, if_neg (by omega), if_neg (not_not.mpr hflags)]
      rfl
  | fxstatat64 buf16 vers st flag =>
      rw [Accepts] at hflags
      rw [run, AtEmulation.fxstatat64, if_neg (by omega), if_neg (not_not.mpr hflags)]
      rfl

/-- Without the system calls, a function with one path makes exactly the call that its
descriptor and its path mean, or fails with the error that they mean and makes no call. -/
theorem singlePath_emulates (f : SinglePath) (hflags : f.Accepts H)
    (table : List (KinfoFile H)) (kfLen : Nat) (hlen : k.filedescLen = some kfLen)
    (hstored : k.filedesc kfLen = some (tableBytes table)) (fd : Int) (file : CString)
    (hroom : Room table kfLen fd file) :
    f.run H k (-1) fd file =
      ⟨.ofResolution k f.plainCall (resolveFile (descriptors table) fd file), -1⟩ := by
  rw [f.run_emulation hflags, emulatedFile_eq hlen hstored hroom, finish_ofExcept]

/-! ### A process with a socket and a directory -/

/-- The layout of `struct kinfo_file` in version 8 of the kernel. -/
def kinfoHeaders : Headers where
  kfStructsizeOff := 0
  kfTypeOff := 4
  kfFdOff := 8
  kfVnodeTypeOff := 32
  kfPathOff := 368
  kfStructsizeOff_le := by decide
  kfTypeOff_le := by decide
  kfFdOff_le := by decide
  kfVnodeTypeOff_le := by decide
  KF_TYPE_VNODE := 1
  KF_VTYPE_VDIR := 2
  MKNOD_VER := 0

/-- The bytes of a record with a path of four characters, rounded to 376. -/
def recordBytes (kfType kfFd kfVnodeType : UInt8) (path : List UInt8) : List UInt8 :=
  [120, 1, 0, 0] ++ [kfType, 0, 0, 0] ++ [kfFd, 0, 0, 0] ++ List.replicate 20 0 ++
    [kfVnodeType, 0, 0, 0] ++ List.replicate 332 0 ++ path ++ List.replicate 4 0

/-- Descriptor 3 is a socket, and descriptor 5 is the directory `/tmp`. -/
def socketAndTmp : List (KinfoFile kinfoHeaders) :=
  [⟨recordBytes 2 3 0 [0, 0, 0, 0], by decide +kernel, by decide +kernel⟩,
    ⟨recordBytes 1 5 2 [47, 116, 109, 112], by decide +kernel, by decide +kernel⟩]

/-- A kernel without the `*at` calls that reports a table, and lets every other call succeed. -/
def kernelWith {H : Headers} (table : List (KinfoFile H)) : Kernel where
  call _ := ⟨0, 0⟩
  filedescLen := some (tableBytes table).length
  filedesc n := if (tableBytes table).length ≤ n then some (tableBytes table) else none
  filedesc_le := by
    intro n stored h
    split at h
    · cases h
      assumption
    · cases h
  stack _ n := List.replicate n 170
  length_stack _ _ := List.length_replicate

/-- It has the table. -/
theorem kernelWith_filedesc {H : Headers} (table : List (KinfoFile H)) :
    (kernelWith table).filedesc (tableBytes table).length = some (tableBytes table) :=
  if_pos (Nat.le_refl _)

/-- `mkdirat (5, "x", 0755)` is `mkdir ("/tmp/x", 0755)`. -/
theorem singlePath_emulates_mkdirat :
    (SinglePath.mkdirat 0o755).run kinfoHeaders (kernelWith socketAndTmp) (-1) 5
        ⟨[120], by decide⟩ =
      ⟨⟨[.mkdir ⟨[47, 116, 109, 112, 47, 120], by decide⟩ 0o755], .ok ⟨0, 0⟩⟩, -1⟩ := by
  have hroom : Room socketAndTmp (tableBytes socketAndTmp).length 5 ⟨[120], by decide⟩ := by
    intro _ path hpath
    have htmp : descriptors socketAndTmp 5 = .directory ⟨[47, 116, 109, 112], by decide⟩ := by
      decide +kernel
    cases htmp.symm.trans hpath
    decide +kernel
  have hmkdir := singlePath_emulates (.mkdirat 0o755) trivial socketAndTmp _ rfl
    (kernelWith_filedesc socketAndTmp) 5 ⟨[120], by decide⟩ hroom
  rw [hmkdir]
  decide +kernel

end GlibcPorts.AtEmulation
