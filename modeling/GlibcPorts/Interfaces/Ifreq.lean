import GlibcPorts.Interfaces.IfIndex

/-!
# `GlibcPorts.Interfaces.Ifreq`: `__ifreq`

`__ifreq` of `kfreebsd/ifreq.c`. The kernel stores the records of the interfaces in a buffer and
does not say whether it cut them, so the code enlarges the buffer until there is room behind them
for a record of the largest size.

`__if_nextreq` is not part of the sources: it is the size of the record at the start of some bytes
(`nextreq`). `rq_len` is an `int`, and the loop leaves its memory when doubling it overflows.
-/

set_option autoImplicit false

namespace GlibcPorts.Interfaces

open Lib

/-- `sizeof (struct ifreq)`. -/
def sizeofIfreq : Nat := 32

/-- The interfaces there is room for at first. -/
def RQ_IFS : Nat := 16

/-- The largest `struct ifreq`. -/
def RQ_MAXSIZE : Nat := 256

/-- `INT_MAX`. -/
def INT_MAX : Nat := 2 ^ 31 - 1

/-- What `__ifreq` meets: what `__opensock` returns, where `realloc` puts the buffer and which of
its calls fail, and what each `SIOCGIFCONF` stores in so many bytes, if it does not fail. -/
structure IfreqEnv where
  opensock : Int
  place : Placement UInt8
  fails : Nat → Bool
  siocgifconf : Nat → Nat → Option (List UInt8)
  nextreq : List UInt8 → Nat

/-- `rq_len`, `ifc.ifc_buf` and the heap in front of a turn. -/
structure IfreqState where
  round : Nat
  rqLen : Nat
  ifcBuf : Option Nat
  heap : Heap UInt8

/-- How the loop that enlarges the buffer is left. -/
inductive Enlarged where
  | failed (heap : Heap UInt8)
  /-- There are `ifcLen` bytes of records in the buffer. -/
  | filled (ifcBuf ifcLen : Nat) (heap : Heap UInt8)

/-- What `__ifreq` stores at `*ifreqs` and `*num_ifs`, the heap behind it, and the sockets that it
closed. -/
structure IfreqResult where
  ifreqs : Option Nat
  numIfs : Nat
  heap : Heap UInt8
  closed : List Int

section Ifreq

variable (env : IfreqEnv)

/-- A turn of the loop that enlarges the buffer. -/
def enlargeTurn (s : IfreqState) : Option (Enlarged ⊕ IfreqState) := do
  match ← s.heap.realloc env.place env.fails s.round s.ifcBuf s.rqLen with
  | (none, heap) => return .inl (.failed heap)
  | (some ifcBuf, heap) =>
      match env.siocgifconf s.round s.rqLen with
      | none =>
          let heap ← heap.free ifcBuf
          return .inl (.failed heap)
      | some bytes =>
          let buf ← heap ifcBuf
          let buf ← buf.storeAt 0 bytes
          let heap := heap.store ifcBuf buf
          if bytes.length + RQ_MAXSIZE ≤ s.rqLen then
            return .inl (.filled ifcBuf bytes.length heap)
          else if s.rqLen * 2 ≤ INT_MAX then
            return .inr ⟨s.round + 1, s.rqLen * 2, some ifcBuf, heap⟩
          else none

/-- The loop that counts the records in the first `ifcLen` bytes. -/
def countRecords (mem : List UInt8) (ifcLen : Nat) : Exit Nat Empty :=
  walk (fun p => some (env.nextreq (mem.drop p))) (fun nifs _ => some (.inr (nifs + 1))) ifcLen
    (ifcLen + 1) 0 0

/-- `__ifreq`, behind the loop that enlarges the buffer. `closed` is what it closes. -/
def finishIfreq (closed : List Int) (round ifcBuf ifcLen : Nat) (heap : Heap UInt8) :
    Outcome IfreqResult :=
  match heap ifcBuf with
  | none => .fault
  | some buf =>
      match countRecords env buf.stored ifcLen with
      | .ended _ nifs =>
          match heap.realloc env.place env.fails (round + 1) (some ifcBuf) ifcLen with
          | none => .fault
          | some (ifreqs, heap) => .returned ⟨ifreqs, nifs, heap, closed⟩
      | .stopped _ _ | .fault => .fault
      | .running => .running

/-- `__ifreq`. The fuel is for the turns of the loop that enlarges the buffer. -/
def ifreq (fuel : Nat) (heap : Heap UInt8) (sockfd : Int) : Outcome IfreqResult :=
  let fd := if sockfd < 0 then env.opensock else sockfd
  if fd < 0 then .returned ⟨none, 0, heap, []⟩
  else
    let closed := if fd ≠ sockfd then [fd] else []
    match forever (enlargeTurn env) fuel ⟨0, RQ_IFS * sizeofIfreq + RQ_MAXSIZE, none, heap⟩ with
    | .left _ (.failed heap) => .returned ⟨none, 0, heap, closed⟩
    | .left s (.filled ifcBuf ifcLen heap) => finishIfreq env closed s.round ifcBuf ifcLen heap
    | .fault => .fault
    | .running => .running

end Ifreq

end GlibcPorts.Interfaces
