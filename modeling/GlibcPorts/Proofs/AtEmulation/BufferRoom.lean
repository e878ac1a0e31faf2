import GlibcPorts.AtEmulation.Faccessat
import GlibcPorts.AtEmulation.Futimesat
import GlibcPorts.Proofs.AtEmulation.SinglePath

/-!
# `GlibcPorts.Proofs.AtEmulation.BufferRoom`: the two calls of `strcat`

The functions with one path append a slash and `file` behind `kf_path`, in a buffer that is
`strlen (file)` bytes longer than the size the kernel reported. The old NUL of `kf_path` gives
the place of one more byte, but two more are written: the slash and the new NUL. So the record
must not end with its NUL at the end of the reported size (`SpareByte`).

`atFunction_in_buffer_iff` says that this is all: whichever function it is, and however it gets to
the emulation, it stays inside its memory exactly when there is a spare byte. Whether a function
comes to the block at all is `AtFunction.Enters`. `mkdirat_overflows` is the table of one record
without padding.
-/

set_option autoImplicit false

namespace GlibcPorts.AtEmulation

open Lib

variable {H : Headers} {k : Kernel}

/-! ### The block -/

/-- A byte that the kernel reported lies behind the NUL of the `kf_path` of `fd`, which has the
path `path`: padding, another record, or what the second `sysctl` did not fill. -/
def SpareByte (table : List (KinfoFile H)) (kfLen : Nat) (fd : Int) (path : CString) : Prop :=
  recordOffset table fd + H.kfPathOff + path.bytes.length + 1 ≤ kfLen

/-- The two calls of `strcat` leave the buffer when the whole path does not fit. -/
theorem appendInPlace_eq_none {mem : List UInt8} {file path : CString} {kfPath : Nat}
    (hpath : CString.readAt mem kfPath = some path)
    (hfull : mem.length < kfPath + (path ++ (slash ++ file)).bytes.length) :
    appendInPlace mem file kfPath = none := by
  cases hcat₁ : CString.strcat mem kfPath slash with
  | none => simp [appendInPlace, hcat₁]
  | some mem₁ =>
      -- The slash still fits, so it is `file` that does not.
      have hread₁ := CString.readAt_of_strcat hpath hcat₁
      have hlen₁ : mem₁.length = mem.length := by
        rw [CString.strcat, hpath, Option.bind_some] at hcat₁
        exact CString.length_of_writeAt hcat₁
      have hcat₂ : CString.strcat mem₁ kfPath file = none :=
        CString.strcat_eq_none hread₁ (by rw [hlen₁, CString.append_assoc]; exact hfull)
      simp [appendInPlace, hcat₁, hcat₂]

section Block

variable {table : List (KinfoFile H)} {kfLen : Nat} {fd : Int} {file path : CString}

/-- The room for the whole path is the room for the slash: the buffer has the room for `file`. -/
theorem spareByte_iff (file : CString) :
    SpareByte table kfLen fd path ↔
      recordOffset table fd + H.kfPathOff + (path ++ (slash ++ file)).bytes.length ≤
        kfLen + file.strlen := by
  have hslash : slash.strlen = 1 := rfl
  simp only [SpareByte, CString.length_bytes, CString.strlen_append, hslash]
  omega

/-- The block leaves its memory exactly when it appends to a record without a spare byte. -/
theorem emulatedFile_eq_fault_iff (hlen : k.filedescLen = some kfLen)
    (hstored : k.filedesc kfLen = some (tableBytes table)) (huses : usesFd fd file = true)
    (hfile : file.strlen ≠ 0) (hdir : descriptors table fd = .directory path) :
    emulatedFile H k fd file = .fault ↔ 0 ≤ fd ∧ ¬ SpareByte table kfLen fd path := by
  obtain ⟨tail, hread, hsize⟩ := readTable_eq file.strlen hlen hstored
  unfold emulatedFile
  rw [if_pos (usesFd_iff.mp huses)]
  by_cases hfd : fd < 0
  · rw [if_pos hfd]
    simp only [reduceCtorEq, false_iff]
    omega
  rw [if_neg hfd, if_neg hfile, hread]
  show scanRecords H _ _ fd file _ = .fault ↔ _
  rw [scanRecords_eq]
  -- The first record of the descriptor has the path that the file is appended to.
  cases hfind : table.find? fun kf => kf.kfFd == fd with
  | none => simp [descriptors, hfind] at hdir
  | some kf =>
      have hkf : kf.isDir = true ∧ kf.kfPath = path := by
        cases hisDir : kf.isDir <;> simp [descriptors, hfind, hisDir] at hdir ⊢
        exact hdir
      have hpath := readAt_recordOffset hfind tail
      rw [hkf.2] at hpath
      simp only [hkf.1, if_true]
      have hnonneg : 0 ≤ fd := Int.not_lt.mp hfd
      by_cases hspare : SpareByte table kfLen fd path
      · have hroom := (spareByte_iff file).mp hspare
        rw [← hsize] at hroom
        rw [appendInPlace_eq hpath hroom]
        simp [Exec.ofOption, hspare]
      · have hfull := mt (spareByte_iff file).mpr hspare
        rw [← hsize, Nat.not_le] at hfull
        rw [appendInPlace_eq_none hpath hfull]
        simp [Exec.ofOption, hspare, hnonneg]

end Block

/-! ### The functions -/

/-- The functions that find one path, with their other arguments. -/
inductive AtFunction where
  | single (f : SinglePath)
  | futimesat (tvp : Addr)
  | faccessat (mode flag : BitVec 32)
deriving DecidableEq, Repr

/-- What the functions meet. -/
structure World where
  kernel : Kernel
  times : TimesCall → CallResult
  access : AccessEnv

/-- The function goes on behind its system call, which returns `r` if it is made. -/
def Missing (haveAtfcts : Int) (r : CallResult) : Prop :=
  0 ≤ haveAtfcts → r.ret = -1 ∧ r.errno = ENOSYS

/-- The system call that the function makes first. -/
def SinglePath.syscall (f : SinglePath) (fd : Int) (file : CString) : PathCall :=
  match f with
  | openatNocancel oflag mode => .openat fd file oflag mode
  | openat oflag arg => .openat fd file oflag (if oflag &&& O_CREAT ≠ 0 then arg else 0)
  | mkdirat mode => .mkdirat fd file mode
  | unlinkat flag => .unlinkat fd file flag
  | fchmodat mode flag => .fchmodat fd file mode flag
  | fchownat owner group flag => .fchownat fd file owner group flag
  | readlinkat buf len => .readlinkat fd file buf len
  | symlinkat fromPath => .symlinkat fromPath fd file
  | xmknodat _ mode dev =>
      if mode &&& S_IFMT = S_IFIFO then .mkfifoat fd file mode else .mknodat fd file mode dev
  | fxstatat buf16 vers st flag =>
      .fstatat fd file (if vers = STAT_VER then buf16 else st) flag
  | fxstatat64 buf16 _ _ flag => .fstatat fd file buf16 flag

/-- The version is one that the function takes in front of its system call. -/
def SinglePath.VersionFits (haveAtfcts : Int) (f : SinglePath) : Prop :=
  match f with
  | fxstatat _ vers _ _ => ¬ (0 ≤ haveAtfcts ∧ vers ≠ STAT_VER ∧ vers ≠ STAT_VER_stat)
  | fxstatat64 _ vers _ _ => ¬ (0 ≤ haveAtfcts ∧ vers ≠ STAT_VER)
  | _ => True

namespace AtFunction

/-- What a call of the function returns. -/
def result (H : Headers) (w : World) (haveAtfcts : Int) (f : AtFunction) (fd : Int)
    (file : CString) : Exec CallResult :=
  match f with
  | single f => (f.run H w.kernel haveAtfcts fd file).result
  | futimesat tvp =>
      (AtEmulation.futimesat H w.kernel w.times haveAtfcts fd (some file) tvp).result
  | faccessat mode flag =>
      (AtEmulation.faccessat H w.kernel w.access haveAtfcts fd file mode flag).result

/-- The function comes to the block that finds the path. `faccessat` has a block of its own and that
of `fxstatat64`, which it calls when it compares the mode bits and when it corrects the answer of
the system call. -/
def Enters (H : Headers) (w : World) (haveAtfcts : Int) (f : AtFunction) (fd : Int)
    (file : CString) : Prop :=
  match f with
  | single f =>
      f.VersionFits haveAtfcts ∧ f.Accepts H ∧
        Missing haveAtfcts (w.kernel.call (f.syscall fd file))
  | futimesat tvp => Missing haveAtfcts (w.times (.futimesat fd file tvp))
  | faccessat mode flag =>
      let result := w.access.sysFaccessat fd file mode flag
      (Missing haveAtfcts result ∧ flag &&& ~~~(AT_SYMLINK_NOFOLLOW ||| AT_EACCESS) = 0) ∨
        (0 ≤ haveAtfcts ∧ (result.ret = 0 ∧ mode &&& X_OK ≠ 0 ∧ accessUid w.access flag = 0) ∧
          Missing haveAtfcts (w.kernel.call
            (.fstatat fd file w.access.buf16 (flag &&& AT_SYMLINK_NOFOLLOW))))

end AtFunction

section Faults

variable {α : Type} {haveAtfcts : Int}

/-- The call at the end is not what goes wrong. -/
theorem finish_eq_fault_iff (r : Exec α) (call : α → PathCall) :
    (finish k r call).result = .fault ↔ r = .fault := by
  cases r <;> simp [finish, Outcome.made, Outcome.error]

/-- Only the emulation goes outside the buffer. -/
theorem atSyscall_eq_fault_iff (c : PathCall) (emulation : Outcome) :
    (atSyscall k haveAtfcts c emulation).result = .fault ↔
      Missing haveAtfcts (k.call c) ∧ emulation.result = .fault := by
  unfold atSyscall Missing
  by_cases hhave : 0 ≤ haveAtfcts
  · by_cases hnosys : (k.call c).ret = -1 ∧ (k.call c).errno = ENOSYS
    · simp [hhave, hnosys]
    · simp [hhave, hnosys, Outcome.made]
  · simp [hhave]

/-- A test of the flags in front of the block. -/
theorem ite_error_eq_fault_iff {P : Prop} [Decidable P] (errno : Errno) (o : Outcome) :
    (if ¬ P then .error errno else o : Outcome).result = .fault ↔ P ∧ o.result = .fault := by
  by_cases hP : P <;> simp [hP, Outcome.error]

end Faults

/-- A function of the first family faults where it enters the block and the block faults. -/
theorem SinglePath.run_eq_fault_iff (f : SinglePath) (haveAtfcts : Int) (fd : Int)
    (file : CString) :
    (f.run H k haveAtfcts fd file).result = .fault ↔
      (f.VersionFits haveAtfcts ∧ f.Accepts H ∧ Missing haveAtfcts (k.call (f.syscall fd file))) ∧
        emulatedFile H k fd file = .fault := by
  cases f with
  | openatNocancel oflag mode =>
      simp [run, AtEmulation.openatNocancel, VersionFits, Accepts, syscall,
        atSyscall_eq_fault_iff, finish_eq_fault_iff]
  | openat oflag arg =>
      simp [run, AtEmulation.openat, AtEmulation.openatNocancel, VersionFits, Accepts, syscall,
        atSyscall_eq_fault_iff, finish_eq_fault_iff]
  | mkdirat mode =>
      simp [run, AtEmulation.mkdirat, VersionFits, Accepts, syscall, atSyscall_eq_fault_iff,
        finish_eq_fault_iff]
  -- The flags are checked in front of the block.
  | unlinkat flag =>
      rw [run, AtEmulation.unlinkat, atSyscall_eq_fault_iff, ite_error_eq_fault_iff,
        finish_eq_fault_iff]
      simp only [VersionFits, Accepts, syscall]
      tauto
  | fchmodat mode flag =>
      rw [run, AtEmulation.fchmodat, atSyscall_eq_fault_iff, ite_error_eq_fault_iff,
        finish_eq_fault_iff]
      simp only [VersionFits, Accepts, syscall]
      tauto
  | fchownat owner group flag =>
      rw [run, AtEmulation.fchownat, atSyscall_eq_fault_iff, ite_error_eq_fault_iff,
        finish_eq_fault_iff]
      simp only [VersionFits, Accepts, syscall]
      tauto
  | readlinkat buf len =>
      simp [run, AtEmulation.readlinkat, VersionFits, Accepts, syscall, atSyscall_eq_fault_iff,
        finish_eq_fault_iff]
  | symlinkat fromPath =>
      simp [run, AtEmulation.symlinkat, VersionFits, Accepts, syscall, atSyscall_eq_fault_iff,
        finish_eq_fault_iff]
  -- Here and below the version is checked before the system call.
  | xmknodat vers mode dev =>
      rw [run, AtEmulation.xmknodat]
      by_cases hvers : vers = H.MKNOD_VER
      · rw [if_neg (not_not.mpr hvers), atSyscall_eq_fault_iff, finish_eq_fault_iff]
        simp [VersionFits, Accepts, syscall, hvers]
      · rw [if_pos hvers]
        simp [Accepts, hvers, Outcome.error]
  | fxstatat buf16 vers st flag =>
      rw [run, AtEmulation.fxstatat]
      by_cases hvers : 0 ≤ haveAtfcts ∧ vers ≠ STAT_VER ∧ vers ≠ STAT_VER_stat
      · rw [if_pos hvers]
        simp only [VersionFits, Outcome.error]
        tauto
      · rw [if_neg hvers, atSyscall_eq_fault_iff, ite_error_eq_fault_iff, finish_eq_fault_iff]
        simp only [VersionFits, Accepts, syscall]
        tauto
  | fxstatat64 buf16 vers st flag =>
      rw [run, AtEmulation.fxstatat64]
      by_cases hvers : 0 ≤ haveAtfcts ∧ vers ≠ STAT_VER
      · rw [if_pos hvers]
        simp only [VersionFits, Outcome.error]
        tauto
      · rw [if_neg hvers, atSyscall_eq_fault_iff, ite_error_eq_fault_iff, finish_eq_fault_iff]
        simp only [VersionFits, Accepts, syscall]
        tauto

/-- The same of `futimesat` with a path. -/
theorem futimesat_eq_fault_iff (times : TimesCall → CallResult) (haveAtfcts : Int) (fd : Int)
    (file : CString) (tvp : Addr) :
    (futimesat H k times haveAtfcts fd (some file) tvp).result = .fault ↔
      Missing haveAtfcts (times (.futimesat fd file tvp)) ∧ emulatedFile H k fd file = .fault := by
  have hemulated : ∀ have', (emulatedFutimesat H k times have' fd (some file) tvp).result = .fault ↔
      emulatedFile H k fd file = .fault := by
    intro have'
    cases hblock : emulatedFile H k fd file <;>
      simp [emulatedFutimesat, futimesatFile, hblock]
  unfold futimesat Missing
  by_cases hhave : 0 ≤ haveAtfcts
  · by_cases hnosys : (times (.futimesat fd file tvp)).ret = -1 ∧
        (times (.futimesat fd file tvp)).errno = ENOSYS
    · simp [hhave, hnosys, hemulated]
    · simp [hhave, hnosys]
  · simp [hhave, hemulated]

/-- What follows a piece of code and does not fault does not change whether the code does. -/
theorem bind_eq_fault_iff {α β : Type} {r : Exec α} {f : α → Exec β}
    (hf : ∀ a, r = .ok a → f a ≠ .fault) : r.bind f = .fault ↔ r = .fault := by
  cases r with
  | ok a => simp [Exec.bind, hf a rfl]
  | fail errno => simp [Exec.bind]
  | fault => simp [Exec.bind]
  | running => simp [Exec.bind]

/-- `access` has no buffer. -/
theorem access_ne_fault (env : AccessEnv) (path : CString) (mode : BitVec 32) :
    access k env path mode ≠ .fault := by
  unfold access statCall
  split_ifs <;> simp only [Exec.bind, ne_eq, reduceCtorEq, not_false_eq_true]
  split_ifs <;> simp

/-- The comparison of the mode bits has none either. -/
theorem judgeBits_ne_fault (env : AccessEnv) (stats : Stat64) (mode flag : BitVec 32) :
    judgeBits env stats mode flag ≠ .fault := by
  unfold judgeBits
  dsimp only
  split_ifs <;> simp

/-- `fxstatat64` returns the result of its last call. -/
theorem getLast?_of_fxstatat64 {haveAtfcts : Int} {buf16 : Addr} {vers fd : Int} {file : CString}
    {st : Addr} {flag : BitVec 32} {result : CallResult}
    (h : (fxstatat64 H k haveAtfcts buf16 vers fd file st flag).result = .ok result) :
    ∃ c, (fxstatat64 H k haveAtfcts buf16 vers fd file st flag).calls.getLast? = some c ∧
      result = k.call c := by
  unfold fxstatat64 atSyscall at *
  split_ifs at * <;> cases hblock : emulatedFile H k fd file <;>
    simp_all [finish, Outcome.made, Outcome.error]

/-- `fstatat64` faults where it goes on behind its system call and the block faults. -/
theorem fstatat64_eq_fault_iff (env : AccessEnv) (haveAtfcts : Int) (fd : Int) (file : CString)
    (flag : BitVec 32) :
    (fstatat64 H k env haveAtfcts fd file flag).1 = .fault ↔
      (flag &&& ~~~AT_SYMLINK_NOFOLLOW = 0 ∧
        Missing haveAtfcts (k.call (.fstatat fd file env.buf16 flag))) ∧
      emulatedFile H k fd file = .fault := by
  have hrun := SinglePath.run_eq_fault_iff (.fxstatat64 env.buf16 STAT_VER env.stats flag)
    haveAtfcts fd file (H := H) (k := k)
  have hvers : ¬ (0 ≤ haveAtfcts ∧ STAT_VER ≠ STAT_VER) := fun h => h.2 rfl
  simp only [SinglePath.run, SinglePath.VersionFits, SinglePath.Accepts, SinglePath.syscall, hvers,
    not_false_eq_true, true_and] at hrun
  unfold fstatat64
  dsimp only
  rw [bind_eq_fault_iff, hrun]
  intro result hresult
  obtain ⟨c, hlast, -⟩ := getLast?_of_fxstatat64 hresult
  rw [hlast]
  split_ifs <;> simp [Exec.ofOption]

/-- The flag that `faccessat` passes on is one that `fstatat64` takes. -/
theorem nofollow_accepted (flag : BitVec 32) :
    flag &&& AT_SYMLINK_NOFOLLOW &&& ~~~AT_SYMLINK_NOFOLLOW = 0 := by
  rw [BitVec.and_assoc, show AT_SYMLINK_NOFOLLOW &&& ~~~AT_SYMLINK_NOFOLLOW = 0 from rfl]
  exact BitVec.and_zero

/-- Without the system call, `faccessat` comes to its own block or to that of `fstatat64`. -/
theorem emulatedFaccessat_eq_fault_iff (env : AccessEnv) {haveAtfcts : Int}
    (hhave : ¬ 0 ≤ haveAtfcts) (fd : Int) (file : CString) (mode flag : BitVec 32) :
    (emulatedFaccessat H k env haveAtfcts fd file mode flag).result = .fault ↔
      flag &&& ~~~(AT_SYMLINK_NOFOLLOW ||| AT_EACCESS) = 0 ∧ emulatedFile H k fd file = .fault := by
  unfold emulatedFaccessat
  by_cases hflag : flag &&& ~~~(AT_SYMLINK_NOFOLLOW ||| AT_EACCESS) = 0
  · rw [if_neg (not_not.mpr hflag)]
    by_cases hway : (flag &&& AT_EACCESS = 0 ∨ env.libcEnableSecure = false) ∧
        flag &&& AT_SYMLINK_NOFOLLOW = 0
    · rw [if_pos hway]
      dsimp only
      rw [bind_eq_fault_iff fun path _ => access_ne_fault env path mode]
      exact (and_iff_right hflag).symm
    · -- The block is that of `fstatat64`, which takes these flags.
      rw [if_neg hway]
      unfold faccessatBits
      dsimp only
      rw [bind_eq_fault_iff fun stats _ => judgeBits_ne_fault env stats mode flag,
        fstatat64_eq_fault_iff]
      exact and_congr_left fun _ => iff_of_true ⟨nofollow_accepted flag, fun h => absurd h hhave⟩
        hflag
  · rw [if_pos hflag]
    simp only [reduceCtorEq, false_iff]
    tauto

/-- With the system call, it comes to that of `fstatat64` when it corrects the answer. -/
theorem faccessatChecked_eq_fault_iff (env : AccessEnv) (haveAtfcts : Int) (fd : Int)
    (file : CString) (mode flag : BitVec 32) :
    (faccessatChecked H k env haveAtfcts fd file mode flag).result = .fault ↔
      (((env.sysFaccessat fd file mode flag).ret = 0 ∧ mode &&& X_OK ≠ 0 ∧
          accessUid env flag = 0) ∧
        Missing haveAtfcts
          (k.call (.fstatat fd file env.buf16 (flag &&& AT_SYMLINK_NOFOLLOW)))) ∧
      emulatedFile H k fd file = .fault := by
  unfold faccessatChecked
  dsimp only
  split_ifs with hcheck
  · rw [bind_eq_fault_iff, fstatat64_eq_fault_iff]
    · simp only [nofollow_accepted, hcheck, ne_eq, not_false_eq_true, true_and, and_self]
    · intro stats _
      split_ifs <;> simp
  · simp only [false_iff]
    tauto

/-- `faccessat` goes wrong in its own block, or in that of `fstatat64`. -/
theorem faccessat_eq_fault_iff (env : AccessEnv) (haveAtfcts : Int) (fd : Int) (file : CString)
    (mode flag : BitVec 32) :
    (faccessat H k env haveAtfcts fd file mode flag).result = .fault ↔
      ((Missing haveAtfcts (env.sysFaccessat fd file mode flag) ∧
          flag &&& ~~~(AT_SYMLINK_NOFOLLOW ||| AT_EACCESS) = 0) ∨
        (0 ≤ haveAtfcts ∧
          ((env.sysFaccessat fd file mode flag).ret = 0 ∧ mode &&& X_OK ≠ 0 ∧
            accessUid env flag = 0) ∧
          Missing haveAtfcts
            (k.call (.fstatat fd file env.buf16 (flag &&& AT_SYMLINK_NOFOLLOW))))) ∧
      emulatedFile H k fd file = .fault := by
  unfold faccessat
  by_cases hhave : 0 ≤ haveAtfcts
  · rw [if_pos hhave]
    dsimp only
    by_cases hnosys : (env.sysFaccessat fd file mode flag).ret = -1 ∧
        (env.sysFaccessat fd file mode flag).errno = ENOSYS
    · -- A call that is missing does not return 0, so the second look is not taken.
      have hcheck : ¬ ((env.sysFaccessat fd file mode flag).ret = 0 ∧ mode &&& X_OK ≠ 0 ∧
          accessUid env flag = 0) := by
        rw [hnosys.1]
        exact fun h => absurd h.1 (by decide)
      have hmissing : Missing haveAtfcts (env.sysFaccessat fd file mode flag) := fun _ => hnosys
      rw [if_pos hnosys, emulatedFaccessat_eq_fault_iff env (by decide)]
      simp only [hmissing, hcheck, true_and, false_and, and_false, or_false]
    · rw [if_neg hnosys, faccessatChecked_eq_fault_iff]
      have hmissing : ¬ Missing haveAtfcts (env.sysFaccessat fd file mode flag) :=
        fun h => hnosys (h hhave)
      simp only [hmissing, hhave, false_and, true_and, false_or]
  · rw [if_neg hhave, emulatedFaccessat_eq_fault_iff env hhave]
    simp only [Missing, hhave, false_implies, true_and, false_and, or_false]

/-- Every function faults where it enters the block and the block faults. -/
theorem AtFunction.result_eq_fault_iff (f : AtFunction) (w : World) (haveAtfcts : Int) (fd : Int)
    (file : CString) :
    f.result H w haveAtfcts fd file = .fault ↔
      f.Enters H w haveAtfcts fd file ∧ emulatedFile H w.kernel fd file = .fault := by
  cases f with
  | single f => exact f.run_eq_fault_iff haveAtfcts fd file
  | futimesat tvp => exact futimesat_eq_fault_iff w.times haveAtfcts fd file tvp
  | faccessat mode flag =>
      exact faccessat_eq_fault_iff w.access haveAtfcts fd file mode flag

/-- Relative to a directory, a function stays inside its memory exactly when there is a spare
byte, if it comes to the block at all and behind its test of the descriptor. -/
theorem atFunction_in_buffer_iff (f : AtFunction) (w : World) (haveAtfcts : Int)
    (table : List (KinfoFile H)) (kfLen : Nat) (hlen : w.kernel.filedescLen = some kfLen)
    (hstored : w.kernel.filedesc kfLen = some (tableBytes table)) (fd : Int)
    (file path : CString) (huses : usesFd fd file = true) (hfile : file.strlen ≠ 0)
    (hdir : descriptors table fd = .directory path) :
    f.result H w haveAtfcts fd file ≠ .fault ↔
      (f.Enters H w haveAtfcts fd file → 0 ≤ fd → SpareByte table kfLen fd path) := by
  rw [Ne, f.result_eq_fault_iff, emulatedFile_eq_fault_iff hlen hstored huses hfile hdir]
  tauto

/-! ### A table of one directory -/

/-- What the functions meet in a process with a table and no rights of its own. -/
def worldWith {H : Headers} (table : List (KinfoFile H)) : World where
  kernel := kernelWith table
  times _ := ⟨0, 0⟩
  access := {
    sysFaccessat := fun _ _ _ _ => ⟨0, 0⟩
    sysAccess := fun _ _ => ⟨0, 0⟩
    stats := 0
    buf16 := 0
    stored := fun _ => ⟨0, 0, 0⟩
    uid := 1000
    euid := 1000
    gid := 1000
    egid := 1000
    groupMember := fun _ => false
    libcEnableSecure := false }

/-- `mkdirat (5, "x", 0755)` beside the record of `/tmp`, which has padding. -/
theorem atFunction_in_buffer_iff_mkdirat :
    (AtFunction.single (.mkdirat 0o755)).result kinfoHeaders (worldWith socketAndTmp) (-1) 5
        ⟨[120], by decide⟩ ≠ .fault := by
  have htmp : descriptors socketAndTmp 5 = .directory ⟨[47, 116, 109, 112], by decide⟩ := by
    decide +kernel
  have hspare : SpareByte socketAndTmp (tableBytes socketAndTmp).length 5
      ⟨[47, 116, 109, 112], by decide⟩ := by
    unfold SpareByte
    decide +kernel
  exact (atFunction_in_buffer_iff (.single (.mkdirat 0o755)) (worldWith socketAndTmp) (-1)
    socketAndTmp _ rfl (kernelWith_filedesc socketAndTmp) 5 ⟨[120], by decide⟩ _ (by decide)
    (by decide) htmp).mpr fun _ _ => hspare

/-- Descriptor 5 is the directory `/tmp`, and its record of 373 bytes ends with the NUL. -/
def unpaddedTmp : List (KinfoFile kinfoHeaders) :=
  [⟨[117, 1, 0, 0] ++ [1, 0, 0, 0] ++ [5, 0, 0, 0] ++ List.replicate 20 0 ++ [2, 0, 0, 0] ++
      List.replicate 332 0 ++ [47, 116, 109, 112, 0], by decide +kernel, by decide +kernel⟩]

/-- `mkdirat (5, "x", 0755)` writes the NUL of `"/tmp/x"` behind its buffer of 374 bytes. -/
theorem mkdirat_overflows :
    descriptors unpaddedTmp 5 = .directory ⟨[47, 116, 109, 112], by decide⟩ ∧
      (kernelWith unpaddedTmp).filedescLen = some 373 ∧
      (kernelWith unpaddedTmp).filedesc 373 = some (tableBytes unpaddedTmp) ∧
      (AtFunction.single (.mkdirat 0o755)).result kinfoHeaders (worldWith unpaddedTmp) (-1) 5
        ⟨[120], by decide⟩ = .fault := by
  refine ⟨?_, ?_, ?_, ?_⟩
  · decide +kernel
  · decide +kernel
  · decide +kernel
  · decide +kernel

end GlibcPorts.AtEmulation
