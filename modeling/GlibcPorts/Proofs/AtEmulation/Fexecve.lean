import GlibcPorts.AtEmulation.Fexecve
import GlibcPorts.Proofs.AtEmulation.SinglePath

/-!
# `GlibcPorts.Proofs.AtEmulation.Fexecve`: which program the emulation runs

The loop of `fexecve` is another search through the records, so `walk_table` applies. The first
record of the descriptor decides (`execPath_eq`), and nothing the kernel may leave in the buffer
behind the records makes a difference.
-/

set_option autoImplicit false

namespace GlibcPorts.AtEmulation

open Lib

variable {H : Headers} {k : Kernel}

/-- The record is one of a regular file. -/
def KinfoFile.isRegular (KF_VTYPE_VREG : Int) (kf : KinfoFile H) : Bool :=
  kf.kfType == H.KF_TYPE_VNODE && kf.kfVnodeType == KF_VTYPE_VREG

/-- The type fields say whether the record is one of a regular file. -/
theorem regularAt_eq (KF_VTYPE_VREG : Int) {mem tail : List UInt8} {p : Nat} {kf : KinfoFile H}
    (hmem : mem.drop p = kf.bytes ++ tail) :
    regularAt H KF_VTYPE_VREG mem p = some (kf.isRegular KF_VTYPE_VREG) := by
  have htype : readInt mem (p + H.kfTypeOff) = some kf.kfType := readInt_field hmem H.kfTypeOff_le
  have hvnode : readInt mem (p + H.kfVnodeTypeOff) = some kf.kfVnodeType :=
    readInt_field hmem H.kfVnodeTypeOff_le
  by_cases hkf : kf.kfType = H.KF_TYPE_VNODE
  · simp [regularAt, htype, hvnode, hkf, KinfoFile.isRegular]
  · simp [regularAt, htype, hkf, KinfoFile.isRegular]

/-- What the loop does with the record of the descriptor. -/
def execTurn (KF_VTYPE_VREG : Int) (_ : Nat) (kf : KinfoFile H) : Option (Option CString) :=
  some (if kf.isRegular KF_VTYPE_VREG then some kf.kfPath else none)

/-- The loop looks for the descriptor. -/
theorem execBody_looksFor (KF_VTYPE_VREG : Int) (mem : List UInt8) (fd : Int) :
    LooksFor (H := H) mem fd (execTurn KF_VTYPE_VREG) (execBody H KF_VTYPE_VREG mem fd) := by
  intro p kf tail hmem s
  have hfd : readInt mem (p + H.kfFdOff) = some kf.kfFd := readInt_field hmem H.kfFdOff_le
  by_cases hkf : kf.kfFd = fd
  · cases hregular : kf.isRegular KF_VTYPE_VREG with
    | true =>
        simp [execBody, execTurn, hfd, hkf, regularAt_eq KF_VTYPE_VREG hmem, hregular,
          readAt_kfPath hmem]
    | false => simp [execBody, execTurn, hfd, hkf, regularAt_eq KF_VTYPE_VREG hmem, hregular]
  · simp [execBody, hfd, hkf]

/-- What the arguments of `fexecve` mean: the path of a regular file. -/
def programOf (KF_VTYPE_VREG : Int) (table : List (KinfoFile H)) (fd : Int) : Option CString :=
  (table.find? fun kf => kf.kfFd == fd).bind fun kf =>
    if kf.isRegular KF_VTYPE_VREG then some kf.kfPath else none

/-- The emulation finds this path. -/
theorem execPath_eq (KF_VTYPE_VREG : Int) {table : List (KinfoFile H)} {kfLen : Nat}
    (hlen : k.filedescLen = some kfLen) (hstored : k.filedesc kfLen = some (tableBytes table))
    (fd : Int) (argv envp : Addr) :
    execPath H KF_VTYPE_VREG k fd argv envp =
      if fd < 0 ∨ argv = 0 ∨ envp = 0 then .fail EINVAL
      else
        match programOf KF_VTYPE_VREG table fd with
        | some path => .ok path
        | none => .fail EINVAL := by
  unfold execPath
  split
  · rfl
  obtain ⟨tail, hread, -⟩ := readTable_eq 0 hlen hstored
  have hwalk := walk_table table tail fd
    (execBody_looksFor KF_VTYPE_VREG (tableBytes table ++ tail) fd)
  rw [hread]
  simp only [Exec.bind, hwalk]
  unfold programOf execTurn
  cases table.find? fun kf => kf.kfFd == fd with
  | none => rfl
  | some kf =>
      simp only [Option.bind_some]
      cases kf.isRegular KF_VTYPE_VREG <;> rfl

/-- What the emulation does: it runs the file of the first record of the descriptor if that is a
regular one, and else fails with `EINVAL` and runs nothing. -/
theorem emulatedFexecve_eq (KF_VTYPE_VREG : Int) (exec : ExecCall → CallResult)
    {table : List (KinfoFile H)} {kfLen : Nat} (hlen : k.filedescLen = some kfLen)
    (hstored : k.filedesc kfLen = some (tableBytes table)) (haveAtfcts fd : Int)
    (argv envp : Addr) :
    emulatedFexecve H KF_VTYPE_VREG k exec haveAtfcts fd argv envp =
      match (if fd < 0 ∨ argv = 0 ∨ envp = 0 then none else programOf KF_VTYPE_VREG table fd) with
      | some path => ⟨[.execve path argv envp], .ok (exec (.execve path argv envp)), haveAtfcts⟩
      | none => ⟨[], .fail EINVAL, haveAtfcts⟩ := by
  unfold emulatedFexecve
  rw [execPath_eq KF_VTYPE_VREG hlen hstored fd argv envp]
  by_cases hbad : fd < 0 ∨ argv = 0 ∨ envp = 0
  · rw [if_pos hbad, if_pos hbad]
  · rw [if_neg hbad, if_neg hbad]
    cases programOf KF_VTYPE_VREG table fd with
    | none => rfl
    | some path => rfl

/-- `fexecve` returns what the system call does where there is one. Where there is none, a call that
still tries it sets `__have_atfcts` to `-1`, and this call and the later ones run the file of the
first record of the descriptor if that is a regular one, and else fail with `EINVAL` and run
nothing. -/
theorem fexecve_emulates (KF_VTYPE_VREG : Int) (exec : ExecCall → CallResult)
    (table : List (KinfoFile H)) (kfLen : Nat) (hlen : k.filedescLen = some kfLen)
    (hstored : k.filedesc kfLen = some (tableBytes table)) (haveAtfcts fd : Int)
    (argv envp : Addr) :
    fexecve H KF_VTYPE_VREG k exec haveAtfcts fd argv envp =
      if 0 ≤ haveAtfcts ∧ ¬ (exec (.fexecve fd argv envp)).LacksCall then
        ⟨[.fexecve fd argv envp], .ok (exec (.fexecve fd argv envp)), haveAtfcts⟩
      else
        let tried := if 0 ≤ haveAtfcts then [.fexecve fd argv envp] else []
        let after := if 0 ≤ haveAtfcts then -1 else haveAtfcts
        match (if fd < 0 ∨ argv = 0 ∨ envp = 0 then none
          else programOf KF_VTYPE_VREG table fd) with
        | some path =>
            ⟨tried ++ [.execve path argv envp], .ok (exec (.execve path argv envp)), after⟩
        | none => ⟨tried, .fail EINVAL, after⟩ := by
  by_cases hhave : 0 ≤ haveAtfcts
  · -- A call that tries goes on only after `ENOSYS`.
    by_cases hlacks : (exec (.fexecve fd argv envp)).LacksCall
    · have hcode : fexecve H KF_VTYPE_VREG k exec haveAtfcts fd argv envp =
          let emulation := emulatedFexecve H KF_VTYPE_VREG k exec (-1) fd argv envp
          { emulation with calls := .fexecve fd argv envp :: emulation.calls } := by
        unfold fexecve
        rw [if_pos hhave]
        exact if_pos hlacks
      rw [hcode, if_neg (fun h => h.2 hlacks), if_pos hhave, if_pos hhave,
        emulatedFexecve_eq KF_VTYPE_VREG exec hlen hstored]
      cases (if fd < 0 ∨ argv = 0 ∨ envp = 0 then none
        else programOf KF_VTYPE_VREG table fd) <;> rfl
    · rw [if_pos (And.intro hhave hlacks)]
      unfold fexecve
      rw [if_pos hhave]
      exact if_neg hlacks
  · rw [if_neg (fun h => hhave h.1), if_neg hhave, if_neg hhave, fexecve, if_neg hhave]
    exact emulatedFexecve_eq KF_VTYPE_VREG exec hlen hstored haveAtfcts fd argv envp

/-- Descriptor 3 is the directory `/usr`, and descriptor 5 is the regular file `/tmp`. -/
def usrAndTmp : List (KinfoFile kinfoHeaders) :=
  [⟨recordBytes 1 3 2 [47, 117, 115, 114], by decide +kernel, by decide +kernel⟩,
    ⟨recordBytes 1 5 1 [47, 116, 109, 112], by decide +kernel, by decide +kernel⟩]

/-- A kernel without the system call, where `execve` succeeds. -/
def withoutFexecve : ExecCall → CallResult
  | .fexecve _ _ _ => ⟨-1, ENOSYS⟩
  | .execve _ _ _ => ⟨0, 0⟩

/-- The first call `fexecve (5, argv, envp)` there is `execve ("/tmp", argv, envp)`. -/
theorem fexecve_emulates_first :
    fexecve kinfoHeaders 1 (kernelWith usrAndTmp) withoutFexecve 0 5 8 16 =
      ⟨[.fexecve 5 8 16, .execve ⟨[47, 116, 109, 112], by decide⟩ 8 16], .ok ⟨0, 0⟩, -1⟩ := by
  rw [fexecve_emulates 1 _ usrAndTmp _ rfl (kernelWith_filedesc usrAndTmp)]
  decide +kernel

end GlibcPorts.AtEmulation
