import GlibcPorts.Lib.CString
import GlibcPorts.Lib.Transition
import Mathlib.Data.Fintype.Basic

/-!
# `GlibcPorts.Login.LoginCache`: the login name that a process remembers

`getlogin` and `getlogin_r` ask the kernel once and keep the name in `__getlogin_cache_room`.
`__getlogin_cache` is NULL or points there. `setlogin` makes it NULL and then tells the kernel the
new name.

The threads of a process run the three functions at the same time, without a lock. `Pc` is the
place of a thread in their code, before its next access to the variables or its next system call,
and `act` is what it does there. `loginCache` is the system of all threads. The kernel has one name
for the session, so another process can change it too (`LoginStep.elsewhere`).
-/

set_option autoImplicit false

namespace GlibcPorts.Login

open Lib

/-- The room for a name, with its NUL. -/
def MAXLOGNAME : Nat := 17

/-- A call that asks for the name. -/
inductive GetCall where
  | getlogin
  | getloginR (nameLen : Nat)
deriving DecidableEq, Repr

/-- What such a call gives its caller. -/
inductive GetResult where
  /-- The address of `__getlogin_cache_room`. -/
  | pointer
  | null
  /-- `0`, and these bytes in the buffer of the caller. -/
  | copied (bytes : List UInt8)
  /-- `-1`, with `ERANGE`. -/
  | erange
  /-- The system call failed: NULL, or `-1`. -/
  | failed
deriving DecidableEq, Repr

/-- Where a thread is. -/
inductive Pc where
  /-- Outside the three functions. -/
  | idle
  /-- Before `__getlogin_cache == NULL`. -/
  | test (call : GetCall)
  /-- Before the system call `getlogin`. -/
  | fetch (call : GetCall)
  /-- Before `__memchr (__getlogin_cache_room, '\0', MAXLOGNAME)`. -/
  | check (call : GetCall)
  /-- Before `__getlogin_cache = __getlogin_cache_room`. -/
  | publish (call : GetCall)
  /-- Before `__getlogin_cache[0]` or `strlen (__getlogin_cache)`. -/
  | read (call : GetCall)
  /-- Before the last read of `__getlogin_cache` in `getlogin`. -/
  | pointer
  /-- Before `memcpy (name, __getlogin_cache, len + 1)`. -/
  | copy (nameLen len : Nat)
  /-- The caller has the result. -/
  | returned (call : GetCall) (result : GetResult)
  /-- Before `__getlogin_cache = NULL` in `setlogin`. -/
  | clear (name : CString)
  /-- Before the system call `setlogin`. -/
  | set (name : CString)
  /-- After an access through NULL, or past the end of the room. -/
  | crashed
  /-- After `abort ()`. -/
  | aborted
deriving DecidableEq, Repr

/-- The thread runs `setlogin`. -/
def Pc.Setting : Pc → Prop
  | .clear _ | .set _ => True
  | _ => False

instance Pc.decidableSetting : ∀ pc : Pc, Decidable pc.Setting := by
  intro pc
  cases pc <;> unfold Pc.Setting <;> infer_instance

/-- The thread is in none of the three functions. It may still have a result. -/
def Pc.Outside : Pc → Prop
  | .idle | .returned _ _ => True
  | _ => False

instance Pc.decidableOutside : ∀ pc : Pc, Decidable pc.Outside := by
  intro pc
  cases pc <;> unfold Pc.Outside <;> infer_instance

/-- The thread has found a name, in the variables or in the kernel, and has not yet returned. -/
def Pc.HasName : Pc → Prop
  | .check _ | .publish _ | .read _ | .pointer | .copy _ _ => True
  | _ => False

instance Pc.decidableHasName : ∀ pc : Pc, Decidable pc.HasName := by
  intro pc
  cases pc <;> unfold Pc.HasName <;> infer_instance

/-- What the threads share, and the name that the kernel has. -/
structure Shared where
  kernel : CString
  /-- `__getlogin_cache != NULL`. -/
  cached : Bool
  /-- `__getlogin_cache_room`. -/
  room : List UInt8
deriving DecidableEq

/-- What a thread does. The kernel decides the outcome of a system call. -/
inductive Act where
  | get (call : GetCall)
  | set (name : CString)
  /-- The next access to the variables. -/
  | move
  /-- The system call `getlogin` stores these bytes. -/
  | fetched (bytes : List UInt8)
  | fetchFailed
  /-- The system call `setlogin` changes the name. -/
  | changed
  | changeFailed
  /-- The caller is done with the result. -/
  | leave
deriving DecidableEq

/-- The next access of a thread to the variables. -/
def move (sh : Shared) : Pc → Option (Shared × Pc)
  | .test call => some (sh, if sh.cached then .read call else .fetch call)
  | .check call => some (sh, if 0 ∈ sh.room then .publish call else .aborted)
  | .publish call => some ({ sh with cached := true }, .read call)
  | .read .getlogin =>
      some (sh,
        if sh.cached then
          match sh.room with
          | [] => .crashed
          | c :: _ => if c ≠ 0 then .pointer else .returned .getlogin .null
        else .crashed)
  | .read (.getloginR nameLen) =>
      some (sh,
        if sh.cached then
          match CString.readAt sh.room 0 with
          | none => .crashed
          | some name =>
              if name.strlen < nameLen then .copy nameLen name.strlen
              else .returned (.getloginR nameLen) .erange
        else .crashed)
  | .pointer => some (sh, .returned .getlogin (if sh.cached then .pointer else .null))
  | .copy nameLen len =>
      some (sh,
        if sh.cached then .returned (.getloginR nameLen) (.copied (sh.room.take (len + 1)))
        else .crashed)
  | .clear name => some ({ sh with cached := false }, .set name)
  | _ => none

/-- What a thread does at a place. -/
def act : Act → Shared → Pc → Option (Shared × Pc)
  | .get call, sh, .idle => some (sh, .test call)
  | .set name, sh, .idle => some (sh, .clear name)
  | .move, sh, pc => move sh pc
  | .fetched bytes, sh, .fetch call =>
      if bytes.length = MAXLOGNAME then some ({ sh with room := bytes }, .check call) else none
  | .fetchFailed, sh, .fetch call => some (sh, .returned call .failed)
  | .changed, sh, .set name => some ({ sh with kernel := name }, .idle)
  | .changeFailed, sh, .set _ => some (sh, .idle)
  | .leave, sh, .returned _ _ => some (sh, .idle)
  | _, _, _ => none

/-- The threads `ι` of a process. -/
structure State (ι : Type) where
  shared : Shared
  pc : ι → Pc

/-- A step of a thread, or another process changes the name. -/
inductive LoginStep (ι : Type) where
  | thread (i : ι) (a : Act)
  | elsewhere (name : CString)
deriving DecidableEq

section System

variable {ι : Type} [DecidableEq ι]

/-- The state behind a step. -/
def step : LoginStep ι → State ι → Option (State ι)
  | .thread i a, s =>
      (act a s.shared (s.pc i)).map fun (shared, pc) =>
        { shared, pc := Function.update s.pc i pc }
  | .elsewhere name, s => some { s with shared := { s.shared with kernel := name } }

/-- How the functions may be called: `setlogin` only while every other thread is outside the three,
and no other thread calls one before it returns. The kernel answers with the name of the session,
and another process changes that name only while it is neither remembered nor on its way through a
call. -/
def Disciplined : LoginStep ι → State ι → Prop
  | .thread _ (.get _), s => ∀ j, ¬ (s.pc j).Setting
  | .thread _ (.set _), s => ∀ j, (s.pc j).Outside
  | .thread _ (.fetched bytes), s => CString.readAt bytes 0 = some s.shared.kernel
  | .thread _ _, _ => True
  | .elsewhere _, s => s.shared.cached = false ∧ ∀ j, ¬ (s.pc j).HasName

instance Disciplined.decidable [Fintype ι] :
    ∀ (l : LoginStep ι) (s : State ι), Decidable (Disciplined l s)
  | .thread _ (.get _), s => inferInstanceAs (Decidable (∀ j, ¬ (s.pc j).Setting))
  | .thread _ (.set _), s => inferInstanceAs (Decidable (∀ j, (s.pc j).Outside))
  | .thread _ (.fetched bytes), s =>
      inferInstanceAs (Decidable (CString.readAt bytes 0 = some s.shared.kernel))
  | .thread _ .move, _ | .thread _ .fetchFailed, _ | .thread _ .changed, _
  | .thread _ .changeFailed, _ | .thread _ .leave, _ => inferInstanceAs (Decidable True)
  | .elsewhere _, s =>
      inferInstanceAs (Decidable (s.shared.cached = false ∧ ∀ j, ¬ (s.pc j).HasName))

end System

/-- The result that a call should give for the name of the kernel. -/
def Right (sh : Shared) : GetCall → GetResult → Prop
  | .getlogin, .pointer => CString.readAt sh.room 0 = some sh.kernel ∧ sh.kernel.chars ≠ []
  | .getlogin, .null => sh.kernel.chars = []
  | .getloginR nameLen, .copied bytes => bytes = sh.kernel.bytes ∧ sh.kernel.strlen < nameLen
  | .getloginR nameLen, .erange => nameLen ≤ sh.kernel.strlen
  | _, .failed => True
  | _, _ => False

end GlibcPorts.Login
