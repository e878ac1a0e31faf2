import GlibcPorts.Process.Affinity
import Mathlib.Tactic.Common

/-!
# `GlibcPorts.Proofs.Process.Affinity`: getting and setting the CPUs of a process

The kernel keeps a set of `size` bytes for each process and knows blocks of up to `maxSize` bytes
(`KeepsSets`). `schedGetaffinity_spec`: the block is the set of the process and then zeros, whatever
its size, and the call fails when the block or `cpu_set_t` is smaller than the sets of the kernel.

`affinity_roundTrip`: what was set with one size is got with any other. What was got can be set
again exactly if the kernel knows the size of the block, which `sched_getaffinity` does not ask.
-/

set_option autoImplicit false

namespace GlibcPorts.Process

open Lib
open Lib.CString (writeAt writeAt_over)

/-- A set of CPUs in a block of `n` bytes. -/
def padded (set : List UInt8) (n : Nat) : List UInt8 := set ++ List.replicate (n - set.length) 0

/-- It has the size of the block. -/
theorem length_padded {set : List UInt8} {n : Nat} (h : set.length ≤ n) :
    (padded set n).length = n := by
  rw [padded, List.length_append, List.length_replicate]
  omega

/-- A set padded to one size, and then with zeros. -/
theorem padded_append_zeros {set : List UInt8} {m n : Nat} (hm : set.length ≤ m) (hn : m ≤ n) :
    padded set m ++ List.replicate (n - m) 0 = padded set n := by
  rw [padded, padded, List.append_assoc, List.replicate_append_replicate]
  congr 2
  omega

/-- What is known of the system calls. The kernel has a set for each process that exists. It returns
the set in a block of a size that it knows. It takes one from such a block, which becomes the set of
the process, and it takes the set that the process has anyway. -/
structure KeepsSets {S : Type} (k : CpuCalls S) (size maxSize : Nat)
    (sets : S → Int → Option (List UInt8)) : Prop where
  length_sets : ∀ {s pid set}, sets s pid = some set → set.length = size
  get_iff : ∀ {s pid n stored},
    k.getaffinity s CPU_LEVEL_WHICH CPU_WHICH_PID pid n = .ok stored ↔
      size ≤ n ∧ n ≤ maxSize ∧ ∃ set, sets s pid = some set ∧ stored = padded set n
  set_ok : ∀ {s s' pid n mask}, mask.length = n →
    k.setaffinity s CPU_LEVEL_WHICH CPU_WHICH_PID pid n mask = .ok s' →
      n ≤ maxSize ∧ ∃ set, sets s' pid = some set ∧ mask = padded set n
  set_own : ∀ {s pid set n}, sets s pid = some set → size ≤ n → n ≤ maxSize →
    ∃ s', k.setaffinity s CPU_LEVEL_WHICH CPU_WHICH_PID pid n (padded set n) = .ok s'

/-- The process that a call is about. -/
def subject (getpid pid : Int) : Int := if pid = 0 then getpid else pid

/-- Hiding an `errno` does not change the result. -/
@[simp] theorem hide_res (hidden : List Errno) (r : AffinityResult) :
    (r.hide hidden).res = r.res := by
  unfold AffinityResult.hide
  split <;> rfl

/-- The zeros in front of the call, for a block larger than `cpu_set_t`. -/
theorem clearRest_eq {n : Nat} {cpuset : List UInt8} (hlen : cpuset.length = n) :
    ∃ front, front.length = min n sizeofCpuSetT ∧
      clearRest n cpuset = some (front ++ List.replicate (n - min n sizeofCpuSetT) 0) := by
  by_cases hlarge : sizeofCpuSetT < n
  · have hmin : min n sizeofCpuSetT = sizeofCpuSetT := by omega
    have hfront : (cpuset.take sizeofCpuSetT).length = sizeofCpuSetT :=
      List.length_take_of_le (by omega)
    have hback : (cpuset.drop sizeofCpuSetT).length =
        (List.replicate (n - sizeofCpuSetT) (0 : UInt8)).length := by
      rw [List.length_drop, List.length_replicate, hlen]
    have hwrite := writeAt_over (cpuset.take sizeofCpuSetT) (cpuset.drop sizeofCpuSetT) [] hback
    rw [List.append_nil, List.append_nil, List.take_append_drop, hfront] at hwrite
    refine ⟨cpuset.take sizeofCpuSetT, hfront.trans hmin.symm, ?_⟩
    rw [clearRest, if_pos hlarge, hmin, hwrite]
  · have hmin : min n sizeofCpuSetT = n := by omega
    refine ⟨cpuset, hlen.trans hmin.symm, ?_⟩
    rw [clearRest, if_neg hlarge, hmin, Nat.sub_self, List.replicate_zero, List.append_nil]

section Kernel

variable {S : Type} {k : CpuCalls S} {size maxSize : Nat} {sets : S → Int → Option (List UInt8)}
  (hk : KeepsSets k size maxSize sets)
include hk

/-- `sched_getaffinity` stays inside the block. It succeeds for a process that exists when the
block and `cpu_set_t` have room for a set of the kernel and the kernel knows the smaller of both
sizes, and then the block is the set and zeros behind it. -/
theorem schedGetaffinity_spec (s : S) (getpid pid : Int) {n : Nat} {cpuset : List UInt8}
    (hlen : cpuset.length = n) (errno : Errno) :
    ∃ r out, schedGetaffinity k s getpid pid n cpuset errno = some (r, out) ∧ out.length = n ∧
      (r.res = 0 ↔ size ≤ min n sizeofCpuSetT ∧ min n sizeofCpuSetT ≤ maxSize ∧
        (sets s (subject getpid pid)).isSome) ∧
      ∀ set, r.res = 0 → sets s (subject getpid pid) = some set → out = padded set n := by
  obtain ⟨front, hfront, hclear⟩ := clearRest_eq hlen
  -- What the call does with the block, and what the function returns then.
  have hrun : ∀ {call out}, k.getaffinity s CPU_LEVEL_WHICH CPU_WHICH_PID (subject getpid pid)
      (min n sizeofCpuSetT) = call →
      storeSet (front ++ List.replicate (n - min n sizeofCpuSetT) 0) call = some out →
      schedGetaffinity k s getpid pid n cpuset errno =
        some ((AffinityResult.ofCall errno call).hide [ERANGE], out) := by
    rintro call out rfl hout
    unfold subject at hout ⊢
    simp [schedGetaffinity, hclear, hout]
  cases hcall : k.getaffinity s CPU_LEVEL_WHICH CPU_WHICH_PID (subject getpid pid)
      (min n sizeofCpuSetT) with
  | error e =>
      refine ⟨_, _, hrun hcall rfl, ?_, ?_, fun set hzero => ?_⟩
      · rw [List.length_append, List.length_replicate, hfront]
        omega
      · rw [hide_res]
        refine ⟨fun h => ?_, fun ⟨hlo, hhi, hsome⟩ => ?_⟩
        · have hminus : (-1 : Int) = 0 := h
          exact absurd hminus (by decide)
        · obtain ⟨set, hset⟩ := Option.isSome_iff_exists.mp hsome
          have hok := hk.get_iff.mpr ⟨hlo, hhi, set, hset, rfl⟩
          exact nomatch hcall.symm.trans hok
      · rw [hide_res] at hzero
        have hminus : (-1 : Int) = 0 := hzero
        exact absurd hminus (by decide)
  | ok stored =>
      obtain ⟨hlo, hhi, set, hset, rfl⟩ := hk.get_iff.mp hcall
      have hsize := hk.length_sets hset
      have hstored : (padded set (min n sizeofCpuSetT)).length = min n sizeofCpuSetT :=
        length_padded (by omega)
      have hwrite : writeAt (front ++ List.replicate (n - min n sizeofCpuSetT) 0) 0
          (padded set (min n sizeofCpuSetT)) = some (padded set n) := by
        have hpad : padded set (min n sizeofCpuSetT) ++
            List.replicate (n - min n sizeofCpuSetT) 0 = padded set n :=
          padded_append_zeros (by omega) (by omega)
        rw [← hpad]
        exact writeAt_over [] front _ (hfront.trans hstored.symm)
      refine ⟨_, _, hrun hcall hwrite, length_padded (by omega), ?_, fun set' _ hset' => ?_⟩
      · rw [hide_res, hset]
        exact ⟨fun _ => ⟨hlo, hhi, rfl⟩, fun _ => rfl⟩
      · rw [Option.some.inj (hset.symm.trans hset')]

omit hk in
/-- `sched_setaffinity` succeeds with its system call. -/
theorem schedSetaffinity_iff (s : S) (getpid pid : Int) {n : Nat} {cpuset : List UInt8}
    (errno : Errno) :
    (schedSetaffinity k s getpid pid n cpuset errno).1.res = 0 ↔ ∃ s',
      k.setaffinity s CPU_LEVEL_WHICH CPU_WHICH_PID (subject getpid pid) n cpuset = .ok s' ∧
        (schedSetaffinity k s getpid pid n cpuset errno).2 = s' := by
  show ((AffinityResult.ofCall errno (k.setaffinity s _ _ (subject getpid pid) n cpuset)).hide
    [ERANGE, EDEADLK]).res = 0 ↔ ∃ s', _ ∧
      (k.setaffinity s _ _ (subject getpid pid) n cpuset).toOption.getD s = s'
  rw [hide_res]
  cases k.setaffinity s CPU_LEVEL_WHICH CPU_WHICH_PID (subject getpid pid) n cpuset with
  | error e => simp [AffinityResult.ofCall]
  | ok s' => simp [AffinityResult.ofCall, Except.toOption]

/-- The set that `sched_setaffinity` has the kernel take is what `sched_getaffinity` returns, in a
block of any size that it accepts, with zeros behind it. Setting what was returned is accepted
exactly if the kernel knows the size of that block. -/
theorem affinity_roundTrip (s : S) (getpid pid : Int) {n m : Nat} {mask block : List UInt8}
    (hmask : mask.length = n) (hblock : block.length = m) (errno : Errno)
    (hset : (schedSetaffinity k s getpid pid n mask errno).1.res = 0) :
    ∃ set r out, set.length = size ∧ mask = padded set n ∧
      schedGetaffinity k (schedSetaffinity k s getpid pid n mask errno).2 getpid pid m block errno =
        some (r, out) ∧ out.length = m ∧
      (r.res = 0 ↔ size ≤ min m sizeofCpuSetT ∧ min m sizeofCpuSetT ≤ maxSize) ∧
      (r.res = 0 → out = padded set m ∧
        ((schedSetaffinity k (schedSetaffinity k s getpid pid n mask errno).2 getpid pid m out
          errno).1.res = 0 ↔ m ≤ maxSize)) := by
  obtain ⟨s', hcall, hstate⟩ := (schedSetaffinity_iff s getpid pid errno).mp hset
  obtain ⟨-, set, hsets, hpadded⟩ := hk.set_ok hmask hcall
  obtain ⟨r, out, hrun, hlen, hiff, hout⟩ :=
    schedGetaffinity_spec hk s' getpid pid hblock errno
  rw [hsets] at hiff hout
  rw [hstate]
  refine ⟨set, r, out, hk.length_sets hsets, hpadded, hrun, hlen, ?_,
    fun hzero => ⟨hout set hzero rfl, ?_⟩⟩
  · rw [hiff]
    exact ⟨fun ⟨hlo, hhi, _⟩ => ⟨hlo, hhi⟩, fun ⟨hlo, hhi⟩ => ⟨hlo, hhi, rfl⟩⟩
  · obtain ⟨hlo, -, -⟩ := hiff.mp hzero
    have hfits : size ≤ m := Nat.le_trans hlo (Nat.min_le_left _ _)
    rw [schedSetaffinity_iff]
    constructor
    · -- A kernel takes no block that is larger than it knows.
      rintro ⟨s'', hagain, -⟩
      exact (hk.set_ok hlen hagain).1
    · intro hhi
      obtain ⟨s'', hagain⟩ := hk.set_own hsets hfits hhi
      rw [← hout set hzero rfl] at hagain
      refine ⟨s'', hagain, ?_⟩
      show (k.setaffinity s' _ _ (subject getpid pid) m out).toOption.getD s' = s''
      rw [hagain]
      rfl

end Kernel

/-- The kernel of one process, with the number 7, for sixteen CPUs. It knows blocks of at most 128
of them. -/
def smallKernel : CpuCalls (UInt8 × UInt8) where
  getaffinity s _ _ pid n :=
    if n < 2 ∨ 16 < n then .error ERANGE
    else if pid ≠ 7 then .error ESRCH
    else .ok (padded [s.1, s.2] n)
  setaffinity _ _ _ pid n mask :=
    if n < 2 ∨ 16 < n then .error ERANGE
    else if pid ≠ 7 then .error ESRCH
    else if mask = padded [mask.getD 0 0, mask.getD 1 0] n then .ok (mask.getD 0 0, mask.getD 1 0)
    else .error EINVAL

/-- The set of that process. -/
def smallSets (s : UInt8 × UInt8) (pid : Int) : Option (List UInt8) :=
  if pid = 7 then some [s.1, s.2] else none

/-- No other process has one. -/
theorem smallSets_eq_some_iff {s : UInt8 × UInt8} {pid : Int} {set : List UInt8} :
    smallSets s pid = some set ↔ pid = 7 ∧ [s.1, s.2] = set := by
  simp [smallSets]

/-- Getting the set: which of the three arms answers. -/
theorem smallKernel_get_iff {s : UInt8 × UInt8} {level which n : Nat} {pid : Int}
    {stored : List UInt8} :
    smallKernel.getaffinity s level which pid n = .ok stored ↔
      (2 ≤ n ∧ n ≤ 16) ∧ pid = 7 ∧ stored = padded [s.1, s.2] n := by
  simp only [smallKernel]
  split_ifs with hsize hpid
  · exact ⟨nofun, fun h => by omega⟩
  · exact ⟨nofun, fun h => absurd h.2.1 hpid⟩
  · rw [Except.ok.injEq]
    exact ⟨fun h => ⟨by omega, not_not.mp hpid, h.symm⟩, fun h => h.2.2.symm⟩

/-- Setting the set: which of the four arms answers. -/
theorem smallKernel_set_iff {s s' : UInt8 × UInt8} {level which n : Nat} {pid : Int}
    {mask : List UInt8} :
    smallKernel.setaffinity s level which pid n mask = .ok s' ↔
      (2 ≤ n ∧ n ≤ 16) ∧ pid = 7 ∧ mask = padded [mask.getD 0 0, mask.getD 1 0] n ∧
        (mask.getD 0 0, mask.getD 1 0) = s' := by
  simp only [smallKernel]
  split_ifs with hsize hpid hmask
  · exact ⟨nofun, fun h => by omega⟩
  · exact ⟨nofun, fun h => absurd h.2.1 hpid⟩
  · rw [Except.ok.injEq]
    exact ⟨fun h => ⟨by omega, not_not.mp hpid, hmask, h⟩, fun h => h.2.2.2⟩
  · exact ⟨nofun, fun h => absurd h.2.2.1 hmask⟩

/-- It is a kernel of this kind. -/
theorem keepsSets_small : KeepsSets smallKernel 2 16 smallSets where
  length_sets h := by
    obtain ⟨-, rfl⟩ := smallSets_eq_some_iff.mp h
    rfl
  get_iff {s pid n stored} := by
    rw [smallKernel_get_iff]
    constructor
    · rintro ⟨⟨hlo, hhi⟩, hpid, hstored⟩
      exact ⟨hlo, hhi, _, smallSets_eq_some_iff.mpr ⟨hpid, rfl⟩, hstored⟩
    · rintro ⟨hlo, hhi, set, hset, hstored⟩
      obtain ⟨hpid, rfl⟩ := smallSets_eq_some_iff.mp hset
      exact ⟨⟨hlo, hhi⟩, hpid, hstored⟩
  set_ok {s s' pid n mask} _ h := by
    obtain ⟨⟨-, hhi⟩, hpid, hmask, rfl⟩ := smallKernel_set_iff.mp h
    exact ⟨hhi, _, smallSets_eq_some_iff.mpr ⟨hpid, rfl⟩, hmask⟩
  set_own {s pid set n} h hlo hhi := by
    obtain ⟨hpid, rfl⟩ := smallSets_eq_some_iff.mp h
    exact ⟨s, smallKernel_set_iff.mpr ⟨⟨hlo, hhi⟩, hpid, rfl, rfl⟩⟩

/-- A block of 24 bytes is good for getting the set, and not for setting it. -/
theorem affinity_roundTrip_large : ∃ set r out, set.length = 2 ∧ [3, 0, 0] = padded set 3 ∧
    schedGetaffinity smallKernel (3, 0) 7 0 24 (List.replicate 24 255) 0 = some (r, out) ∧
    r.res = 0 ∧ out = padded set 24 ∧
    (schedSetaffinity smallKernel (3, 0) 7 0 24 out 0).1.res ≠ 0 := by
  have hset : (schedSetaffinity smallKernel (1, 1) 7 0 3 [3, 0, 0] 0).1.res = 0 := by decide
  have hblock : (List.replicate 24 (255 : UInt8)).length = 24 := List.length_replicate
  have hmask : [(3 : UInt8), 0, 0].length = 3 := rfl
  have hstate : (schedSetaffinity smallKernel (1, 1) 7 0 3 [3, 0, 0] 0).2 = (3, 0) := by decide
  obtain ⟨set, r, out, hlen, hmask', hrun, -, hiff, hout⟩ :=
    affinity_roundTrip keepsSets_small (1, 1) 7 0 hmask hblock 0 hset
  have hzero : r.res = 0 := hiff.mpr (by decide)
  obtain ⟨heq, hagain⟩ := hout hzero
  rw [hstate] at hrun hagain
  exact ⟨set, r, out, hlen, hmask', hrun, hzero, heq, fun h => absurd (hagain.mp h) (by decide)⟩

end GlibcPorts.Process
