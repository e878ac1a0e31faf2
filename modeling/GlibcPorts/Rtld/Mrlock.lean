import GlibcPorts.Lib.Transition
import Mathlib.Data.Fintype.Card
import Mathlib.Data.BitVec

/-!
# `GlibcPorts.Rtld.Mrlock`: the multi-reader lock of ld.so

The lock of `kfreebsd/rtld-lowlevel.h` is one `int`. Its bits above the low three count the
readers that hold it, `RTLD_MRLOCK_WRITER` says that the writer holds it, and the two wait
bits say that a reader (`RTLD_MRLOCK_RWAIT`) or the writer (`RTLD_MRLOCK_WWAIT`) may be
asleep.

`ReaderPc` and `WriterPc` are the places in the code of a reader, which runs
`__rtld_mrlock_lock` and then `__rtld_mrlock_unlock`, and of the writer, which runs
`__rtld_mrlock_change` and then `__rtld_mrlock_done`. Each place stands before one access to
the lock word: the plain load of `iv`, a compare-and-exchange, an `atomic_or`, a
fetch-and-add, or a call to the kernel. The local control flow between two accesses is
`readerTest` and `writerTest`.

`readerMove` and `writerMove` are the atomic steps of one thread, `mrlock` is the system of
all readers and the writer. The code allows one thread at a time to ask for the exclusive
lock, so the writer is one actor. The kernel compares the word in `lll_futex_wait` and puts
the thread to sleep in one step; `lll_futex_wake` with `0x7fffffff` wakes every sleeper. A
wait may also end early, when a signal interrupts it.
-/

set_option autoImplicit false

namespace GlibcPorts.Rtld

open GlibcPorts.Lib (System)

/-- `(lock).iv`, an `int`. -/
abbrev Word := BitVec 32

/-- The writer holds the lock. -/
def RTLD_MRLOCK_WRITER : Word := 1

/-- A reader may be asleep. -/
def RTLD_MRLOCK_RWAIT : Word := 2

/-- The writer may be asleep. -/
def RTLD_MRLOCK_WWAIT : Word := 4

/-- The bits for the number of readers. -/
def RTLD_MRLOCK_RBITS : Word :=
  ~~~(RTLD_MRLOCK_WRITER ||| RTLD_MRLOCK_RWAIT ||| RTLD_MRLOCK_WWAIT)

/-- One reader. -/
def RTLD_MRLOCK_INC : Word := 8

/-- How often a thread tries before it sleeps. -/
def RTLD_MRLOCK_TRIES : Nat := 5

/-- Where a reader is. The places of `__rtld_mrlock_lock` carry its locals. -/
inductive ReaderPc where
  /-- Outside the lock's code. -/
  | idle
  /-- Before `oldval = (lock).iv`. -/
  | load (tries : Nat)
  /-- Before the compare-and-exchange. -/
  | exchange (tries : Nat) (oldval : Word)
  /-- Before the `atomic_or` of `RWAIT`. -/
  | orRwait (oldval : Word)
  /-- Before `lll_futex_wait (&(lock), oldval)`. -/
  | futexWait (oldval : Word)
  /-- Asleep in the kernel. -/
  | asleep
  /-- After `out:`, before the fetch-and-add of `__rtld_mrlock_unlock`. -/
  | holds
  /-- Before `lll_futex_wake (&(lock), 0x7fffffff)` of `__rtld_mrlock_unlock`. -/
  | futexWake
deriving DecidableEq, Repr

/-- Where the writer is. The places of `__rtld_mrlock_change` carry its locals. -/
inductive WriterPc where
  /-- Outside the lock's code. -/
  | idle
  /-- Before `oldval = lock.iv`. -/
  | load (tries : Nat)
  /-- Before the compare-and-exchange. -/
  | exchange (tries : Nat) (oldval : Word)
  /-- Before the `atomic_or` of `WWAIT`. -/
  | orWwait (oldval : Word)
  /-- Before `lll_futex_wait (&(lock), oldval)`. -/
  | futexWait (oldval : Word)
  /-- Asleep in the kernel. -/
  | asleep
  /-- After `out:`, before the fetch-and-add of `__rtld_mrlock_done`. -/
  | holds
  /-- Before `lll_futex_wake (&(lock), 0x7fffffff)` of `__rtld_mrlock_done`. -/
  | futexWake
deriving DecidableEq, Repr

/-- The code of `__rtld_mrlock_lock` from the test of the inner `while` with a fresh
`oldval` to the next access to the lock word. -/
def readerTest (tries : Nat) (oldval : Word) : ReaderPc :=
  if oldval &&& (RTLD_MRLOCK_WRITER ||| RTLD_MRLOCK_WWAIT) = 0 then .exchange tries oldval
  else if tries + 1 < RTLD_MRLOCK_TRIES then .load (tries + 1)
  -- The last try failed. `oldval` is the value that it saw, not the word of now.
  else if oldval &&& RTLD_MRLOCK_RWAIT = 0 then .orRwait oldval
  else .futexWait oldval

/-- The code of `__rtld_mrlock_change` from the test of the inner `while` with a fresh
`oldval` to the next access to the lock word. -/
def writerTest (tries : Nat) (oldval : Word) : WriterPc :=
  if oldval &&& RTLD_MRLOCK_RBITS = 0 then .exchange tries oldval
  else if tries + 1 < RTLD_MRLOCK_TRIES then .load (tries + 1)
  else .orWwait oldval

/-- What a step of a thread does: the new lock word, the thread's next place, and whether
the step wakes every sleeper. -/
structure Move (Pc : Type) where
  iv : Word
  pc : Pc
  wake : Bool := false

/-- The next atomic step of a reader; none while it sleeps. -/
def readerMove (iv : Word) : ReaderPc → Option (Move ReaderPc)
  | .idle => some { iv, pc := .load 0 }
  | .load tries => some { iv, pc := readerTest tries iv }
  | .exchange tries oldval =>
      if iv = oldval then
        some { iv := (oldval &&& RTLD_MRLOCK_RBITS) + RTLD_MRLOCK_INC, pc := .holds }
      -- `oldval = ret`, and the inner `while` tests it without a new try.
      else some { iv, pc := readerTest tries iv }
  | .orRwait oldval =>
      -- The local copy gets the bit by itself, whatever else the word holds by now.
      some { iv := iv ||| RTLD_MRLOCK_RWAIT, pc := .futexWait (oldval ||| RTLD_MRLOCK_RWAIT) }
  | .futexWait oldval => some { iv, pc := if iv = oldval then .asleep else .load 0 }
  | .asleep => none
  | .holds =>
      -- The test reads the value that the fetch-and-add returned.
      some
        { iv := iv - RTLD_MRLOCK_INC
          pc :=
            if iv &&& (RTLD_MRLOCK_RBITS ||| RTLD_MRLOCK_WWAIT)
                = RTLD_MRLOCK_INC ||| RTLD_MRLOCK_WWAIT then .futexWake
            else .idle }
  | .futexWake => some { iv, pc := .idle, wake := true }

/-- The next atomic step of the writer; none while it sleeps. -/
def writerMove (iv : Word) : WriterPc → Option (Move WriterPc)
  | .idle => some { iv, pc := .load 0 }
  | .load tries => some { iv, pc := writerTest tries iv }
  | .exchange tries oldval =>
      if iv = oldval then
        some { iv := (oldval &&& RTLD_MRLOCK_RWAIT) + RTLD_MRLOCK_WRITER, pc := .holds }
      else some { iv, pc := writerTest tries iv }
  | .orWwait oldval =>
      some { iv := iv ||| RTLD_MRLOCK_WWAIT, pc := .futexWait (oldval ||| RTLD_MRLOCK_WWAIT) }
  | .futexWait oldval => some { iv, pc := if iv = oldval then .asleep else .load 0 }
  | .asleep => none
  | .holds =>
      some
        { iv := iv - RTLD_MRLOCK_WRITER
          pc := if iv &&& RTLD_MRLOCK_RWAIT ≠ 0 then .futexWake else .idle }
  | .futexWake => some { iv, pc := .idle, wake := true }

/-- A sleeping reader returns from the kernel and takes the outer `while (1)` again. -/
def ReaderPc.awake : ReaderPc → ReaderPc
  | .asleep => .load 0
  | pc => pc

/-- A sleeping writer returns from the kernel and takes the outer `while (1)` again. -/
def WriterPc.awake : WriterPc → WriterPc
  | .asleep => .load 0
  | pc => pc

/-- The lock word and the places of the readers `ι` and of the writer. -/
structure State (ι : Type*) where
  iv : Word
  reader : ι → ReaderPc
  writer : WriterPc

/-- `lll_futex_wake (&(lock), 0x7fffffff)`: every sleeper returns. -/
def State.wakeAll {ι : Type*} (s : State ι) : State ι :=
  { s with reader := fun i => (s.reader i).awake, writer := s.writer.awake }

/-- `s.wakeAll` when the step wakes the sleepers, else `s`. -/
def State.wakeIf {ι : Type*} (wake : Bool) (s : State ι) : State ι :=
  if wake then s.wakeAll else s

/-- The steps: a reader's, the writer's, and a signal that ends a reader's or the writer's
wait early. -/
inductive Label (ι : Type*) where
  | reader (i : ι)
  | writer
  | interruptReader (i : ι)
  | interruptWriter
deriving DecidableEq, Repr

/-- One step of the system. -/
def step {ι : Type*} [DecidableEq ι] : Label ι → State ι → Option (State ι)
  | .reader i, s =>
      (readerMove s.iv (s.reader i)).map fun m =>
        State.wakeIf m.wake { s with iv := m.iv, reader := Function.update s.reader i m.pc }
  | .writer, s =>
      (writerMove s.iv s.writer).map fun m =>
        State.wakeIf m.wake { s with iv := m.iv, writer := m.pc }
  | .interruptReader i, s =>
      if s.reader i = .asleep then
        some { s with reader := Function.update s.reader i (s.reader i).awake }
      else none
  | .interruptWriter, s =>
      if s.writer = .asleep then some { s with writer := s.writer.awake } else none

/-- The lock after `__rtld_mrlock_initialize`, with every thread outside its code. -/
def initial (ι : Type*) : State ι := { iv := 0, reader := fun _ => .idle, writer := .idle }

/-- The readers `ι` and the writer over one lock. -/
def mrlock (ι : Type*) [DecidableEq ι] : System (State ι) (Label ι) where
  init s := s = initial ι
  step := step

end GlibcPorts.Rtld
