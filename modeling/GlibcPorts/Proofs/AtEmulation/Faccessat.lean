import GlibcPorts.AtEmulation.Permissions
import GlibcPorts.Proofs.AtEmulation.Futimesat
import Mathlib.Tactic.IntervalCases

/-!
# `GlibcPorts.Proofs.AtEmulation.Faccessat`: the three ways of `faccessat`

`faccessat` gives the answer of the system call, corrected for the super-user
(`faccessatChecked_answer`), or it asks `access` (`access_answer`), or it looks at the bits of the
file itself (`judgeBits_answer`). Each of the three follows the rule `Creds.allows`, and they
differ in the ids that they ask about: `access` knows only the real ones.

The comment in the code says that `access` does the same for a program that is not set-uid or
set-gid, and tests for that with what was true when the program started.
`faccessat_paths_agree_iff` is what follows. The emulation answers as the system call does, unless
the effective ids have changed since and the rule tells them apart from the real ones, or the block
that finds the path leaves its buffer. To look at the bits, `faccessat` calls `fstatat64`, which
has such a block too.
-/

set_option autoImplicit false

namespace GlibcPorts.AtEmulation

open Lib

/-! ### The rule -/

/-- Only the three bits of an access are asked for. -/
def IsAccessMode (mode : BitVec 32) : Prop := mode &&& (X_OK ||| W_OK ||| R_OK) = mode

section Rule

variable {c : Creds} {stats : Stat64} {mode : BitVec 32}

/-- It has three bits. -/
theorem IsAccessMode.lt (h : IsAccessMode mode) : mode.toNat < 8 := by
  have hle : (mode &&& (X_OK ||| W_OK ||| R_OK)).toNat ≤ 7 := by
    rw [BitVec.toNat_and]
    exact Nat.and_le_right
  rw [h] at hle
  omega

/-- Shifts up and down lose nothing of the three bits. -/
theorem IsAccessMode.shift (h : IsAccessMode mode) {n : Nat} (hn : n ≤ 6) :
    (mode <<< n) >>> n = mode := by
  have hlt := h.lt
  apply BitVec.eq_of_toNat_eq
  rw [BitVec.toNat_ushiftRight, BitVec.toNat_shiftLeft, Nat.shiftLeft_eq, Nat.mod_eq_of_lt,
    Nat.shiftRight_eq_div_pow, Nat.mul_div_cancel _ (Nat.two_pow_pos n)]
  calc mode.toNat * 2 ^ n ≤ 7 * 2 ^ 6 :=
        Nat.mul_le_mul (by omega) (Nat.pow_le_pow_right (by decide) hn)
    _ < 2 ^ 32 := by decide

/-- The rule of the functions is that of the kernel, less the files that nobody may execute. -/
theorem Creds.allows_eq (c : Creds) (stats : Stat64) (mode : BitVec 32) :
    c.allows stats mode =
      (c.kernelAllows stats mode &&
        !(decide (mode &&& X_OK ≠ 0 ∧ c.uid = 0) && !stats.anyExec)) := by
  unfold Creds.allows Creds.kernelAllows
  by_cases huid : c.uid = 0
  · by_cases hexec : mode &&& X_OK = 0 <;> simp [huid, hexec]
  · rw [if_neg huid]
    simp only [huid, and_false, decide_false, Bool.false_or, Bool.false_and, Bool.not_false,
      Bool.and_true]

/-- An access asks for execution with its lowest bit. -/
theorem getLsbD_zero_of_exec (h : mode &&& X_OK ≠ 0) : mode.getLsbD 0 = true := by
  by_contra hbit
  rw [Bool.not_eq_true] at hbit
  refine h ?_
  have hone : X_OK = 1#32 := rfl
  rw [hone, BitVec.and_one_eq_setWidth_ofBool_getLsbD, hbit]
  rfl

/-- Without a bit for execution, no class has one. -/
theorem Creds.hasBits_of_not_anyExec (c : Creds) (hany : stats.anyExec = false)
    (hexec : mode &&& X_OK ≠ 0) : c.hasBits stats mode = false := by
  have hbits : stats.stMode &&& (S_IXUSR ||| S_IXGRP ||| S_IXOTH) = 0 := by
    simpa [Stat64.anyExec] using hany
  have hbit : ∀ i, (S_IXUSR ||| S_IXGRP ||| S_IXOTH).getLsbD i = true →
      stats.stMode.getLsbD i = false := by
    intro i hi
    have hi' := congrArg (BitVec.getLsbD · i) hbits
    simpa [hi] using hi'
  -- The lowest bit of a class is its bit for execution.
  have hclass : (c.classBits stats).getLsbD 0 = false := by
    unfold Creds.classBits
    dsimp only
    split_ifs
    · simpa using hbit 6 (by decide)
    · simpa using hbit 3 (by decide)
    · simpa using hbit 0 (by decide)
  rw [Creds.hasBits, decide_eq_false_iff_not]
  intro heq
  have hzero := congrArg (BitVec.getLsbD · 0) heq
  simp only [BitVec.getLsbD_and, hclass, getLsbD_zero_of_exec hexec] at hzero
  cases hzero

end Rule

/-! ### The three ways -/

section Ways

variable {H : Headers} {k : Kernel} {table : Int → Descriptor} {files : Files table Stat64}
  {start : StartIds} {env : AccessEnv} {fd : Int} {file path : CString} {mode flag : BitVec 32}
  {haveAtfcts : Int}

/-- The comparison of the mode bits is the rule of the kernel. -/
theorem granted_eq_iff (stats : Stat64) (hmode : IsAccessMode mode) :
    granted env stats mode flag = mode ↔ (credsOf env flag).hasBits stats mode = true := by
  have hgranted : granted env stats mode flag = (credsOf env flag).classBits stats &&& mode := by
    unfold granted Creds.classBits credsOf
    dsimp only
    split_ifs
    · rw [BitVec.ushiftRight_and_distrib, hmode.shift (by decide)]
    · rw [BitVec.ushiftRight_and_distrib, hmode.shift (by decide)]
    · rfl
  rw [hgranted, Creds.hasBits, decide_eq_true_iff]

/-- The answer that was given. -/
theorem allowed_of_answers {r : CallResult} {b : Bool} (h : Answers r b) : r.allowed = b := by
  unfold Answers at h
  cases b with
  | true => exact decide_eq_true h
  | false =>
      rw [if_neg Bool.false_ne_true] at h
      rw [CallResult.allowed, h.1]
      rfl

/-- A call that answers is not missing. -/
theorem not_missing_of_answers {r : CallResult} {b : Bool} (h : Answers r b) :
    ¬ (r.ret = -1 ∧ r.errno = ENOSYS) := by
  unfold Answers at h
  rintro ⟨hret, hnosys⟩
  split_ifs at h
  · rw [hret] at h
    exact absurd h (by decide)
  · exact h.2 hnosys

/-- Neither of the two flags keeps the last symbolic link from being followed. -/
theorem nofollow_eq (hflag : flag = 0 ∨ flag = AT_EACCESS) : flag &&& AT_SYMLINK_NOFOLLOW = 0 := by
  rcases hflag with rfl | rfl <;> decide

/-- A call that finds its file or fails is not missing. -/
theorem not_missing_of_finds {c : PathCall} {found : Option Stat64}
    (h : Finds (statCall k env c) found) :
    ¬ ((k.call c).ret = -1 ∧ (k.call c).errno = ENOSYS) := by
  rintro ⟨hret, hnosys⟩
  have hfail : statCall k env c = .fail ENOSYS := by
    rw [statCall, hret, hnosys]
    rfl
  rw [hfail] at h
  cases found with
  | some stats => cases h
  | none =>
      obtain ⟨errno, herrno, hne⟩ := h
      cases herrno
      exact hne rfl

/-- While the kernel has the call, `fstatat64` is the system call. -/
theorem fstatat64_of_have (hhave : 0 ≤ haveAtfcts) {found : Option Stat64}
    (h : Finds (statCall k env (.fstatat fd file env.buf16 0)) found) :
    fstatat64 H k env haveAtfcts fd file 0 =
      (statCall k env (.fstatat fd file env.buf16 0), haveAtfcts) := by
  have hhas := not_missing_of_finds h
  have hvers : ¬ (0 ≤ haveAtfcts ∧ STAT_VER ≠ STAT_VER) := fun h => h.2 rfl
  unfold fstatat64 fxstatat64 atSyscall
  rw [if_neg hvers, if_pos hhave, if_neg hhas]
  rfl

/-- Without it, `fstatat64` looks at the path that its block finds. -/
theorem fstatat64_of_missing (hhave : ¬ 0 ≤ haveAtfcts) :
    fstatat64 H k env haveAtfcts fd file 0 =
      ((emulatedFile H k fd file).bind fun path =>
        statCall k env (.xstat64 STAT_VER path env.stats), haveAtfcts) := by
  have hvers : ¬ (0 ≤ haveAtfcts ∧ STAT_VER ≠ STAT_VER) := fun h => h.2 rfl
  unfold fstatat64 fxstatat64 atSyscall
  rw [if_neg hvers, if_neg hhave, if_neg (not_not.mpr (by decide))]
  cases emulatedFile H k fd file <;> rfl

/-- The system call, with the correction for the super-user. -/
theorem faccessatChecked_answer (hkernel : JudgesAccess files start k env)
    (hflag : flag = 0 ∨ flag = AT_EACCESS) (hhave : 0 ≤ haveAtfcts) :
    (faccessatChecked H k env haveAtfcts fd file mode flag).result.answer =
      some ((files.relativeTo fd file).any fun stats => (credsOf env flag).allows stats mode) := by
  have hret := allowed_of_answers (hkernel.sysFaccessat fd file mode flag hflag)
  have hstat := hkernel.fstatat fd file
  have huid : (credsOf env flag).uid = accessUid env flag := rfl
  unfold faccessatChecked
  rw [nofollow_eq hflag, fstatat64_of_have hhave hstat]
  dsimp only
  cases hfile : files.relativeTo fd file with
  | none =>
      rw [hfile, Option.any_none] at hret
      have hdenied : (env.sysFaccessat fd file mode flag).ret ≠ 0 := of_decide_eq_false hret
      rw [if_neg fun h => hdenied h.1, Option.any_none, ← hret]
      rfl
  | some stats =>
      rw [hfile, Option.any_some] at hret
      rw [hfile] at hstat
      have hfound : statCall k env (.fstatat fd file env.buf16 0) = .ok stats := hstat
      rw [hfound, Option.any_some, Creds.allows_eq, ← hret, huid]
      -- The second look at the file is for the super-user who asks to execute it.
      by_cases hcheck : mode &&& X_OK ≠ 0 ∧ accessUid env flag = 0
      · rw [decide_eq_true hcheck, Bool.true_and, Bool.not_not]
        by_cases hzero : (env.sysFaccessat fd file mode flag).ret = 0
        · have hgranted : (env.sysFaccessat fd file mode flag).allowed = true :=
            decide_eq_true hzero
          rw [if_pos ⟨hzero, hcheck⟩]
          by_cases hany : stats.anyExec = true
          · simp [Exec.bind, Exec.answer, hany]
          · simp [Exec.bind, Exec.answer, hany]
        · have hdenied : (env.sysFaccessat fd file mode flag).allowed = false :=
            decide_eq_false hzero
          rw [if_neg fun h => hzero h.1, hdenied, Bool.false_and, ← hdenied]
          rfl
      · rw [if_neg fun h => hcheck h.2, decide_eq_false hcheck, Bool.false_and, Bool.not_false,
          Bool.and_true]
        rfl

/-- `access`, with the same correction, for the real ids. -/
theorem access_answer (hkernel : JudgesAccess files start k env) :
    (access k env path mode).answer =
      some ((files.atPath path).any fun stats => (credsOf env 0).allows stats mode) := by
  have hret := allowed_of_answers (hkernel.sysAccess path mode)
  have hstat := hkernel.stat64 path
  have huid : (credsOf env 0).uid = env.uid := rfl
  unfold access
  cases hfile : files.atPath path with
  | none =>
      rw [hfile, Option.any_none] at hret
      have hdenied : (env.sysAccess path mode).ret ≠ 0 := of_decide_eq_false hret
      rw [if_pos hdenied, Option.any_none]
      split_ifs
      · exact congrArg some hret
      · rfl
  | some stats =>
      rw [hfile, Option.any_some] at hret
      rw [hfile] at hstat
      have hfound : statCall k env (.xstat64 STAT_VER path env.stats) = .ok stats := hstat
      rw [hfound, Option.any_some, Creds.allows_eq, ← hret, huid]
      -- The same test, with its branches the other way round.
      by_cases hplain : env.uid ≠ 0 ∨ mode &&& X_OK = 0
      · have hcheck : ¬ (mode &&& X_OK ≠ 0 ∧ env.uid = 0) := by tauto
        rw [if_pos hplain, decide_eq_false hcheck, Bool.false_and, Bool.not_false, Bool.and_true]
        rfl
      · have hcheck : mode &&& X_OK ≠ 0 ∧ env.uid = 0 := by tauto
        rw [if_neg hplain, decide_eq_true hcheck, Bool.true_and, Bool.not_not]
        by_cases hzero : (env.sysAccess path mode).ret = 0
        · have hgranted : (env.sysAccess path mode).allowed = true := decide_eq_true hzero
          rw [if_neg (not_not.mpr hzero), hgranted, Bool.true_and]
          by_cases hany : stats.anyExec = true
          · simp [Exec.bind, Exec.answer, hany]
          · simp [Exec.bind, Exec.answer, hany]
        · have hdenied : (env.sysAccess path mode).allowed = false := decide_eq_false hzero
          rw [if_pos hzero, hdenied, Bool.false_and]
          rfl

/-- The bits of the file, for the ids that the flags ask about. -/
theorem judgeBits_answer (stats : Stat64) (hmode : IsAccessMode mode) :
    (judgeBits env stats mode flag).answer = some ((credsOf env flag).allows stats mode) := by
  have huid : (credsOf env flag).uid = accessUid env flag := rfl
  have hgranted := @granted_eq_iff env mode flag stats hmode
  have hmask : mode &&& (X_OK ||| W_OK ||| R_OK) = mode := hmode
  unfold judgeBits
  rw [Creds.allows, huid]
  dsimp only
  rw [hmask]
  by_cases hnone : mode = F_OK
  · -- Every class has no bits at all.
    rw [if_pos hnone, hnone]
    split_ifs <;> simp [F_OK, Creds.hasBits, Exec.answer]
  rw [if_neg hnone]
  by_cases hroot : accessUid env flag = 0
  · rw [if_pos hroot]
    by_cases hallowed : mode &&& X_OK = 0 ∨ stats.anyExec
    · rw [if_pos ⟨hroot, hallowed⟩]
      simpa [Exec.answer] using hallowed
    · -- Nobody may execute the file, so no class has the bits.
      have hexec : mode &&& X_OK ≠ 0 := fun h => hallowed (.inl h)
      have hany : stats.anyExec = false := by simpa using fun h => hallowed (.inr h)
      have hbits := (credsOf env flag).hasBits_of_not_anyExec hany hexec
      have hnot : granted env stats mode flag ≠ mode := by
        rw [Ne, hgranted, hbits]
        exact Bool.false_ne_true
      rw [if_neg fun h => hallowed h.2, if_neg hnot, decide_eq_false hexec, hany]
      rfl
  · rw [if_neg hroot, if_neg fun h => hroot h.1]
    cases hbits : (credsOf env flag).hasBits stats mode with
    | true =>
        rw [if_pos (hgranted.mpr hbits)]
        rfl
    | false =>
        have hnot : granted env stats mode flag ≠ mode := by
          rw [Ne, hgranted, hbits]
          exact Bool.false_ne_true
        rw [if_neg hnot]
        rfl

end Ways

/-! ### The whole function -/

/-- The block that finds the path stays in its buffer. And where the emulation asks `access` for
the effective ids, the rule gives the same answer for them as for the real ones. -/
def JudgesAlike {H : Headers} {table : List (KinfoFile H)} (kfLen : Nat)
    (files : Files (descriptors table) Stat64) (start : StartIds) (env : AccessEnv) (fd : Int)
    (file : CString) (mode flag : BitVec 32) : Prop :=
  EmulationServes table kfLen fd (some file) ∧
    (flag = AT_EACCESS → start.differ = false → ∀ stats, files.relativeTo fd file = some stats →
      (credsOf env 0).allows stats mode = (credsOf env AT_EACCESS).allows stats mode)

section Whole

variable {H : Headers} {k : Kernel} {table : List (KinfoFile H)} {kfLen : Nat}
  {files : Files (descriptors table) Stat64} {start : StartIds} {env : AccessEnv} {fd : Int}
  {file : CString} {mode flag : BitVec 32}

/-- While the kernel has the call. -/
theorem faccessat_answer (hkernel : JudgesAccess files start k env)
    (hflag : flag = 0 ∨ flag = AT_EACCESS) {haveAtfcts : Int} (hhave : 0 ≤ haveAtfcts) :
    (faccessat H k env haveAtfcts fd file mode flag).result.answer =
      some ((files.relativeTo fd file).any fun stats => (credsOf env flag).allows stats mode) := by
  have hhas := not_missing_of_answers (hkernel.sysFaccessat fd file mode flag hflag)
  unfold faccessat
  rw [if_pos hhave]
  dsimp only
  rw [if_neg hhas]
  exact faccessatChecked_answer hkernel hflag hhave

/-- The way through `access`: the block finds the file, and `access` asks about the real ids. -/
theorem throughAccess_answer (hkernel : JudgesAccess files start k env)
    (hlen : k.filedescLen = some kfLen) (hstored : k.filedesc kfLen = some (tableBytes table))
    (hserves : EmulationServes table kfLen fd (some file)) :
    ((emulatedFile H k fd file).bind fun path => access k env path mode).answer =
      some ((files.relativeTo fd file).any fun stats => (credsOf env 0).allows stats mode) := by
  rw [emulatedFile_serves hlen hstored hserves, files.relativeTo_eq]
  cases resolveFile (descriptors table) fd file with
  | error errno => rfl
  | ok path => exact access_answer hkernel

/-- The way through `fstatat64`: the block finds the file, and its bits are compared for the ids
that the flags ask about. -/
theorem throughBits_answer (hkernel : JudgesAccess files start k env)
    (hlen : k.filedescLen = some kfLen) (hstored : k.filedesc kfLen = some (tableBytes table))
    (hserves : EmulationServes table kfLen fd (some file)) (hflag : flag = 0 ∨ flag = AT_EACCESS)
    (hmode : IsAccessMode mode) :
    (faccessatBits H k env (-1) fd file mode flag).result.answer =
      some ((files.relativeTo fd file).any fun stats => (credsOf env flag).allows stats mode) := by
  unfold faccessatBits
  rw [nofollow_eq hflag, fstatat64_of_missing (by decide),
    emulatedFile_serves hlen hstored hserves, files.relativeTo_eq]
  -- `stat` of the path finds the file or fails, and so does the call.
  cases resolveFile (descriptors table) fd file with
  | error errno => rfl
  | ok path =>
      have hstat := hkernel.stat64 path
      show ((statCall k env (.xstat64 STAT_VER path env.stats)).bind fun stats =>
          judgeBits env stats mode flag).answer =
        some ((files.atPath path).any fun stats => (credsOf env flag).allows stats mode)
      cases hfile : files.atPath path with
      | none =>
          rw [hfile] at hstat
          obtain ⟨errno, herrno, -⟩ := hstat
          rw [herrno]
          rfl
      | some stats =>
          rw [hfile] at hstat
          have hfound : statCall k env (.xstat64 STAT_VER path env.stats) = .ok stats := hstat
          rw [hfound]
          exact judgeBits_answer stats hmode

/-- Without the call, and without `__libc_enable_secure` or for the real ids, the function goes
through `access`. -/
theorem emulation_eq_access (hkernel : JudgesAccess files start k env)
    (hflag : flag = 0 ∨ flag = AT_EACCESS) (hway : flag = 0 ∨ start.differ = false) :
    (faccessat H k env (-1) fd file mode flag).result =
      (emulatedFile H k fd file).bind fun path => access k env path mode := by
  have htaken : (flag &&& AT_EACCESS = 0 ∨ env.libcEnableSecure = false) ∧
      flag &&& AT_SYMLINK_NOFOLLOW = 0 := by
    refine ⟨hway.imp (fun h => ?_) fun h => hkernel.secure.trans h, nofollow_eq hflag⟩
    rw [h]
    decide
  have hknown : flag &&& ~~~(AT_SYMLINK_NOFOLLOW ||| AT_EACCESS) = 0 := by
    rcases hflag with rfl | rfl <;> decide
  unfold faccessat emulatedFaccessat
  rw [if_neg (by decide), if_neg (not_not.mpr hknown), if_pos htaken]

/-- Else it looks at the bits. -/
theorem emulation_eq_bits (hkernel : JudgesAccess files start k env) (hflag : flag = AT_EACCESS)
    (hway : start.differ = true) :
    (faccessat H k env (-1) fd file mode flag).result =
      (faccessatBits H k env (-1) fd file mode flag).result := by
  have hnot : ¬ ((flag &&& AT_EACCESS = 0 ∨ env.libcEnableSecure = false) ∧
      flag &&& AT_SYMLINK_NOFOLLOW = 0) := by
    rw [hflag, hkernel.secure, hway]
    decide
  have hknown : flag &&& ~~~(AT_SYMLINK_NOFOLLOW ||| AT_EACCESS) = 0 := by
    rw [hflag]
    decide
  unfold faccessat emulatedFaccessat
  rw [if_neg (by decide), if_neg (not_not.mpr hknown), if_neg hnot]

/-- On both ways the function faults with the block that finds the path. -/
theorem emulation_eq_fault (hflag : flag = 0 ∨ flag = AT_EACCESS)
    (hfault : emulatedFile H k fd file = .fault) :
    (faccessat H k env (-1) fd file mode flag).result = .fault := by
  have hknown : flag &&& ~~~(AT_SYMLINK_NOFOLLOW ||| AT_EACCESS) = 0 := by
    rcases hflag with rfl | rfl <;> decide
  exact (faccessat_eq_fault_iff env (-1) fd file mode flag).mpr
    ⟨.inl ⟨fun h => absurd h (by decide), hknown⟩, hfault⟩

end Whole

/-- The emulation of `faccessat` answers as the system call does exactly when it judges alike. -/
theorem faccessat_paths_agree_iff {H : Headers} {k : Kernel} (table : List (KinfoFile H))
    (kfLen : Nat) (hlen : k.filedescLen = some kfLen)
    (hstored : k.filedesc kfLen = some (tableBytes table))
    (files : Files (descriptors table) Stat64) (start : StartIds) (env : AccessEnv)
    (hkernel : JudgesAccess files start k env) {haveAtfcts : Int} (hhave : 0 ≤ haveAtfcts)
    (fd : Int) (file : CString) {mode flag : BitVec 32} (hmode : IsAccessMode mode)
    (hflag : flag = 0 ∨ flag = AT_EACCESS) :
    (faccessat H k env (-1) fd file mode flag).result.answer =
        (faccessat H k env haveAtfcts fd file mode flag).result.answer ↔
      JudgesAlike kfLen files start env fd file mode flag := by
  rw [faccessat_answer hkernel hflag hhave]
  by_cases hserves : EmulationServes table kfLen fd (some file)
  · -- The way through `access`, or the bits of the file.
    by_cases hway : flag = 0 ∨ start.differ = false
    · rw [emulation_eq_access hkernel hflag hway,
        throughAccess_answer hkernel hlen hstored hserves, Option.some.injEq]
      rcases hflag with rfl | rfl
      · exact iff_of_true rfl ⟨hserves, fun h => absurd h (by decide)⟩
      · have hdiffer := hway.resolve_left (by decide)
        constructor
        · intro hsame
          refine ⟨hserves, fun _ _ stats hfile => ?_⟩
          rwa [hfile, Option.any_some, Option.any_some] at hsame
        · intro halike
          have hsame := halike.2 rfl hdiffer
          cases hfile : files.relativeTo fd file with
          | none => rfl
          | some stats => exact hsame stats hfile
    · -- The bits are compared with the effective ids, as the kernel does it.
      rw [not_or, Bool.not_eq_false] at hway
      have heaccess := hflag.resolve_left hway.1
      rw [emulation_eq_bits hkernel heaccess hway.2,
        throughBits_answer hkernel hlen hstored hserves hflag hmode]
      refine iff_of_true rfl ⟨hserves, fun _ hdiffer => ?_⟩
      rw [hway.2] at hdiffer
      cases hdiffer
  · -- Outside of its buffer the emulation has no answer.
    have hfault := (futimesatFile_eq_fault_iff hlen hstored (some file)).mpr hserves
    rw [emulation_eq_fault hflag hfault]
    exact iff_of_false (fun h => by cases h) fun h => hserves h.1

/-! ### A file that only its owner may read -/

/-- Every path leads to the file. -/
def oneFile (table : Int → Descriptor) (stats : Stat64) : Files table Stat64 where
  named _ := some stats
  opened _ := none
  opened_closed _ _ := rfl

/-- What a call of the kernel returns. -/
def answerOf (allowed : Bool) : CallResult := if allowed then .success else ⟨-1, EACCES⟩

/-- It is an answer. -/
theorem answers_answerOf (allowed : Bool) : Answers (answerOf allowed) allowed := by
  cases allowed with
  | true => rfl
  | false => exact ⟨rfl, show (13 : Nat) ≠ 78 by decide⟩

/-- The file that a call of the kernel is about. -/
def fileOf {table : Int → Descriptor} (files : Files table Stat64) : PathCall → Option Stat64
  | .xstat64 _ path _ => files.atPath path
  | .fstatat fd file _ _ => files.relativeTo fd file
  | _ => none

/-- A kernel with a table that finds the files. -/
def kernelOf {H : Headers} (table : List (KinfoFile H))
    (files : Files (descriptors table) Stat64) : Kernel :=
  { kernelWith table with
    call := fun c => if (fileOf files c).isSome then ⟨0, 0⟩ else ⟨-1, ENOENT⟩ }

/-- The kernel gives the table. -/
theorem kernelOf_filedesc {H : Headers} (table : List (KinfoFile H))
    (files : Files (descriptors table) Stat64) :
    (kernelOf table files).filedesc (tableBytes table).length = some (tableBytes table) :=
  kernelWith_filedesc table

/-- A process with these ids and no further groups, in a program that started with other ones. -/
def envOf {table : Int → Descriptor} (files : Files table Stat64) (start : StartIds)
    (uid euid : IdT) : AccessEnv where
  sysFaccessat fd file mode flag :=
    answerOf ((files.relativeTo fd file).any fun stats =>
      (⟨if flag &&& AT_EACCESS ≠ 0 then euid else uid, 100, fun _ => false⟩ : Creds).kernelAllows
        stats mode)
  sysAccess path mode :=
    answerOf ((files.atPath path).any fun stats =>
      (⟨uid, 100, fun _ => false⟩ : Creds).kernelAllows stats mode)
  stats := 0
  buf16 := 0
  stored c := (fileOf files c).getD ⟨0, 0, 0⟩
  uid := uid
  euid := euid
  gid := 100
  egid := 100
  groupMember _ := false
  libcEnableSecure := start.differ

/-- `stat` finds the files. -/
theorem finds_fileOf {H : Headers} (table : List (KinfoFile H))
    (files : Files (descriptors table) Stat64) (start : StartIds) (uid euid : IdT) (c : PathCall) :
    Finds (statCall (kernelOf table files) (envOf files start uid euid) c) (fileOf files c) := by
  cases hfile : fileOf files c with
  | none =>
      refine ⟨ENOENT, ?_, by decide⟩
      simp [statCall, kernelOf, hfile]
  | some stats =>
      show _ = _
      simp [statCall, kernelOf, envOf, hfile]

/-- It judges as the kernel does. -/
theorem judgesAccess_envOf {H : Headers} (table : List (KinfoFile H))
    (files : Files (descriptors table) Stat64) (start : StartIds) (uid euid : IdT) :
    JudgesAccess files start (kernelOf table files) (envOf files start uid euid) := by
  refine ⟨fun path => ?_, fun fd file => ?_, fun path mode => ?_, fun fd file mode flag _ => ?_,
    rfl⟩
  · exact finds_fileOf table files start uid euid (.xstat64 STAT_VER path 0)
  · exact finds_fileOf table files start uid euid (.fstatat fd file 0 0)
  · exact answers_answerOf _
  · have hcreds : credsOf (envOf files start uid euid) flag =
        ⟨if flag &&& AT_EACCESS ≠ 0 then euid else uid, 100, fun _ => false⟩ := by
      simp only [credsOf, accessUid, accessGid, envOf, ite_self]
    rw [hcreds]
    exact answers_answerOf _

/-- A file of the super-user with the mode 0600. -/
def shadow : Stat64 := ⟨0o600, 0, 0⟩

/-- The ids of a program that the super-user started. -/
def rootStart : StartIds := ⟨0, 0, 100, 100⟩

/-- The emulation lets the super-user read the file, as the system call does. -/
theorem faccessat_paths_agree_iff_root :
    let files := oneFile (descriptors socketAndTmp) shadow
    let k := kernelOf socketAndTmp files
    (faccessat kinfoHeaders k (envOf files rootStart 0 0) (-1) AT_FDCWD
          ⟨[115], by decide⟩ R_OK AT_EACCESS).result.answer =
        (faccessat kinfoHeaders k (envOf files rootStart 0 0) 0 AT_FDCWD
          ⟨[115], by decide⟩ R_OK AT_EACCESS).result.answer := by
  intro files k
  have halike : JudgesAlike (tableBytes socketAndTmp).length files rootStart
      (envOf files rootStart 0 0) AT_FDCWD ⟨[115], by decide⟩ R_OK AT_EACCESS := by
    exact ⟨fun huses => absurd huses (by decide), fun _ _ stats _ => rfl⟩
  exact (faccessat_paths_agree_iff socketAndTmp _ rfl (kernelOf_filedesc socketAndTmp files) files
    rootStart _ (judgesAccess_envOf socketAndTmp files rootStart 0 0) (Int.le_refl 0) AT_FDCWD
    ⟨[115], by decide⟩ (show IsAccessMode R_OK from rfl) (.inr rfl)).mpr halike

/-- A program that the super-user started and that has given up its effective user id may not read
the file with it, and the emulation says that it may. -/
theorem faccessat_ignores_seteuid :
    let files := oneFile (descriptors socketAndTmp) shadow
    let k := kernelOf socketAndTmp files
    JudgesAccess files rootStart k (envOf files rootStart 0 1000) ∧
      (faccessat kinfoHeaders k (envOf files rootStart 0 1000) 0 AT_FDCWD
        ⟨[115], by decide⟩ R_OK AT_EACCESS).result.answer = some false ∧
      (faccessat kinfoHeaders k (envOf files rootStart 0 1000) (-1)
        AT_FDCWD ⟨[115], by decide⟩ R_OK AT_EACCESS).result.answer = some true := by
  refine ⟨judgesAccess_envOf socketAndTmp _ rootStart 0 1000, ?_, ?_⟩
  · decide
  · decide

end GlibcPorts.AtEmulation
