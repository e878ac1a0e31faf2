import GlibcPorts.SharedMemory.ShmOpen
import Mathlib.Data.Finset.Basic

/-!
# `GlibcPorts.Proofs.SharedMemory.ShmOpen`: what `shm_open` returns and leaves

`Disciplined` says what a caller relies on: `shm_open` returns a descriptor that it opened and
that is open, or it returns -1, with an `errno` and with the descriptors from before.

`checkFile_disciplined` is the part behind the open: on both ways out that fail the descriptor is
closed. `shmOpen_disciplined_iff` says when the whole function keeps the discipline: unless it
comes to the fallback with `O_WRONLY`. There it returns an error number as if it were a
descriptor (`shmOpen_wronly`).
-/

set_option autoImplicit false

namespace GlibcPorts.SharedMemory

open Lib

/-- The result is a descriptor that the call opened and did not close, or -1 with an `errno` and
with the descriptors from before. -/
def Disciplined (before : Process) (ret : Int) (after : Process) : Prop :=
  (∃ fd : Nat, ret = fd ∧ fd ∉ before.fds ∧ after.fds = insert fd before.fds) ∨
    (ret = -1 ∧ after.errno ≠ 0 ∧ after.fds = before.fds)

section Results

variable {k : ShmKernel} {p q : Process} {fd : Nat}

/-- A call that fails leaves its error behind. -/
theorem disciplined_failure (e : Failure) : Disciplined p (-1) (p.setErrno e) :=
  .inr ⟨rfl, e.2, rfl⟩

theorem disciplined_opened (fd : NewFd p.fds) : Disciplined p fd (p.opened fd) :=
  .inl ⟨fd, rfl, fd.2, rfl⟩

/-- `close` keeps an `errno` that is set, or sets another. -/
theorem errno_close_ne_zero (k : ShmKernel) (fd : Nat) (h : p.errno ≠ 0) :
    (p.close k fd).errno ≠ 0 := by
  unfold Process.close
  cases hclose : k.close fd with
  | none => exact h
  | some e => exact e.2

/-- Behind the open the result is the descriptor, or the descriptor is closed. -/
theorem checkFile_disciplined (k : ShmKernel) (hfd : fd ∉ p.fds) :
    Disciplined p (checkFile k fd (p.opened fd)).1 (checkFile k fd (p.opened fd)).2 := by
  have herase : (insert fd p.fds).erase fd = p.fds := Finset.erase_insert hfd
  unfold checkFile
  cases hstat : k.fstat fd with
  | error e =>
      simp only [notRegular, hstat, if_true]
      exact .inr ⟨rfl, (by decide : EINVAL ≠ 0), herase⟩
  | ok stMode =>
      simp only [notRegular, hstat]
      by_cases hreg : S_ISREG stMode = true
      · simp only [hreg, Bool.not_true, Bool.false_eq_true, if_false]
        cases hmark : k.setFl fd FPOSIXSHM with
        | error e =>
            simp only [notMarked, hmark, if_true]
            exact .inr ⟨rfl, errno_close_ne_zero k fd e.2, herase⟩
        | ok done =>
            simp only [notMarked, hmark, Bool.false_eq_true, if_false]
            exact .inl ⟨fd, rfl, hfd, rfl⟩
      · simp only [Bool.not_eq_true] at hreg
        simp only [hreg, Bool.not_false, if_true]
        exact .inr ⟨rfl, (by decide : EINVAL ≠ 0), herase⟩

/-- A positive number that is no new descriptor is not a result. -/
theorem not_disciplined_error {errno : Errno} (hfds : q.fds = p.fds) : ¬ Disciplined p errno q := by
  rintro (⟨fd, -, hfd, hopened⟩ | ⟨hret, -, -⟩)
  · rw [hfds] at hopened
    exact hfd (hopened ▸ Finset.mem_insert_self fd p.fds)
  · omega

/-- The fallback keeps the discipline unless the file is to be opened for writing alone. -/
theorem shmOpenFallback_disciplined_iff (k : ShmKernel) (name : CString) (oflag : BitVec 32)
    (mode : BitVec 16) (p : Process) :
    Disciplined p (shmOpenFallback k name oflag mode p).1
        (shmOpenFallback k name oflag mode p).2 ↔ oflag &&& O_ACCMODE ≠ O_WRONLY := by
  unfold shmOpenFallback
  by_cases hwronly : oflag &&& O_ACCMODE = O_WRONLY
  · rw [if_pos hwronly]
    exact iff_of_false (not_disciplined_error rfl) fun hne => hne hwronly
  · rw [if_neg hwronly]
    refine iff_of_true ?_ hwronly
    cases hopen : k.openFile name oflag mode p.fds with
    | error e => exact disciplined_failure e
    | ok fd => exact checkFile_disciplined k fd.2

end Results

/-- The failure of a system call that the kernel does not have. -/
def noSyscall : Failure := ⟨ENOSYS, by decide⟩

/-- `shm_open` returns a descriptor that it opened, or -1 with an `errno` and the descriptors from
before, exactly if it does not come to the fallback with `O_WRONLY`. -/
theorem shmOpen_disciplined_iff (k : ShmKernel) (name : CString) (oflag : BitVec 32)
    (mode : BitVec 16) (p : Process) :
    Disciplined p (shmOpen k name oflag mode p).1 (shmOpen k name oflag mode p).2 ↔
      ¬ (k.shmOpen name oflag mode p.fds = .error noSyscall ∧ oflag &&& O_ACCMODE = O_WRONLY) := by
  unfold shmOpen
  cases hcall : k.shmOpen name oflag mode p.fds with
  | ok fd => exact iff_of_true (disciplined_opened fd) (by simp)
  | error e =>
      by_cases hnosys : (e : Errno) = ENOSYS
      · -- The fallback starts with the descriptors from before.
        have he : e = noSyscall := Subtype.ext hnosys
        have hfallback := shmOpenFallback_disciplined_iff k name oflag mode (p.setErrno e)
        simp only [hnosys, if_true]
        rw [he] at hfallback ⊢
        simp only [true_and]
        exact hfallback
      · have he : e ≠ noSyscall := fun h => hnosys (congrArg Subtype.val h)
        simp only [hnosys, if_false]
        refine iff_of_true (disciplined_failure e) fun h => ?_
        exact he (Except.error.inj h.1)

/-- A kernel without the system call, on which no file can be opened. -/
def oldKernel : ShmKernel where
  shmOpen _ _ _ _ := .error noSyscall
  openFile _ _ _ _ := .error ⟨EACCES, by decide⟩
  fstat _ := .ok S_IFREG
  setFl _ _ := .ok ()
  close _ := none

/-- The object `/x`. -/
def slashX : CString := ⟨[47, 120], by decide⟩

/-- `shm_open ("/x", O_WRONLY, 0)` returns 22 on such a kernel, though no such descriptor is
open. -/
theorem shmOpen_wronly :
    (shmOpen oldKernel slashX O_WRONLY 0 ⟨{0, 1, 2}, 0⟩).1 = 22 ∧
      ¬ Disciplined ⟨{0, 1, 2}, 0⟩ (shmOpen oldKernel slashX O_WRONLY 0 ⟨{0, 1, 2}, 0⟩).1
        (shmOpen oldKernel slashX O_WRONLY 0 ⟨{0, 1, 2}, 0⟩).2 := by
  have hreturned : ¬ Disciplined ⟨{0, 1, 2}, 0⟩ EINVAL (Process.setErrno ENOSYS ⟨{0, 1, 2}, 0⟩) :=
    not_disciplined_error rfl
  exact ⟨rfl, hreturned⟩

end GlibcPorts.SharedMemory
