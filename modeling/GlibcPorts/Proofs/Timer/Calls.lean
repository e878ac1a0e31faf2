import GlibcPorts.Proofs.Timer.Table
import GlibcPorts.Timer.Calls

/-!
# `GlibcPorts.Proofs.Timer.Calls`: what a call does with the table

* `timerAlloc_ok` and `timerAlloc_error`: a successful allocation puts the block in an empty
  slot, and a failed one leaves the table alone.
* `timerFree_eq`: a struct that is in the table once leaves it.
-/

set_option autoImplicit false

namespace GlibcPorts.Timer

namespace Process

variable {proc proc' : Process} {block : Option (Addr × StructTimer)} {a : Addr} {i : Nat}

/-- The process after a successful allocation of `a` in slot `i`. -/
def allocate (proc : Process) (a : Addr) (bytes : StructTimer) (i : Nat) : Process :=
  { proc.store a bytes with
    allocated := Function.update proc.allocated a true
    allTimers := Function.update proc.allTimers i (some a) }

/-- A successful allocation puts the block that `malloc` returned in an empty slot. -/
theorem timerAlloc_ok (h : proc.timerAlloc block = (.ok a, proc')) :
    ∃ bytes i, block = some (a, bytes) ∧ i < TIMER_MAX ∧ proc.allTimers i = none ∧
      proc' = proc.allocate a bytes i := by
  unfold timerAlloc at h
  cases block with
  | none =>
      simp only at h
      split at h
      · cases h
      · cases h
  | some b =>
      obtain ⟨b, bytes⟩ := b
      simp only at h
      split at h
      · next i hi =>
        cases h
        obtain ⟨hlt, hnone⟩ := freeSlot_eq_some hi
        exact ⟨bytes, i, rfl, hlt, hnone, rfl⟩
      · cases h

/-- A failed allocation changes nothing, or leaves a block that is in no slot. -/
theorem timerAlloc_error {e : Errno} (h : proc.timerAlloc block = (.error e, proc')) :
    proc' = proc ∨ ∃ b bytes, block = some (b, bytes) ∧
      proc' = { proc.store b bytes with allocated := Function.update proc.allocated b true } := by
  unfold timerAlloc at h
  cases block with
  | none =>
      simp only at h
      split at h
      · next i hi =>
        cases h
        obtain ⟨-, hnone⟩ := freeSlot_eq_some hi
        refine .inl ?_
        -- The slot had `NULL` before.
        have hslot : Function.update proc.allTimers i none = proc.allTimers := by
          rw [← hnone]
          exact Function.update_eq_self i proc.allTimers
        simp only [Option.map_none, hslot]
      · cases h
        exact .inl rfl
  | some b =>
      obtain ⟨b, bytes⟩ := b
      simp only at h
      split at h
      · cases h
      · cases h
        exact .inr ⟨b, bytes, rfl, rfl⟩

/-- A struct that is in one slot only leaves the table. -/
theorem timerFree_eq (hi : i < TIMER_MAX) (hslot : proc.allTimers i = some a)
    (huniq : ∀ j, proc.allTimers j = some a → j = i) :
    proc.timerFree a = { proc with
      allTimers := Function.update proc.allTimers i none
      allocated := Function.update proc.allocated a false } := by
  unfold timerFree
  rw [ptr2id_eq hi hslot huniq]
  congr 1
  funext j
  rw [Function.update_apply]
  simp only [Int.natCast_inj]

end Process

end GlibcPorts.Timer
