import GlibcPorts.Proofs.Mount.MountTable
import GlibcPorts.Lib.Realloc
import GlibcPorts.Lib.Transition

/-!
# `GlibcPorts.Proofs.Mount.BufferCapacity`: the buffer that `getmntinfo` keeps

`mntSystem` is a process that calls `getmntinfo` any number of times. Its steps are the calls and
the turns of the loop, and its states also say what the last call returned. What the kernel and
`malloc` answer is any `MntEnv`; a kernel that is `Bounded` stores no more than fits.

`MntPoint.Sound` says that `mntbuf` and `mntbufsize` fit together: there is no buffer, or one
block with room for `mntbufsize` records, and it is the only one. It also says that no access was
outside the memory, that nothing was freed twice, and that the records which the last call
returned are there.

`getmntinfo_sound_iff` says which steps keep this: those that do not allocate a number of records
whose size in bytes exceeds the maximum of a `size_t` (`AllocFits`). On a 64-bit machine there is
no such number of type `int` (`allocFits_lp64`). On a 32-bit machine the size wraps, and the block
is smaller than `mntbufsize` says (`getmntinfo_overflows`). The last part of the theorem connects
the system with the function: what a call does is a run of it (`exists_run_of_mntinfo`).
-/

set_option autoImplicit false

namespace GlibcPorts.Mount

open Lib

/-- The kernel returns an error, or it stores as many records as it says. They fit the buffer. -/
def MntEnv.Bounded (env : MntEnv) : Prop :=
  ∀ i size, (env.sys i (some size)).count < 0 ∨
    ((env.sys i (some size)).count = (env.sys i (some size)).stored.length ∧
      (env.sys i (some size)).stored.length ≤ size / sizeofStatfsFbsd5)

/-! ### Sequences of calls -/

/-- Where a process is. -/
inductive MntPoint (S : Type) where
  /-- Outside the function, with what its last call returned. -/
  | outside (last : Option MntResult) (s : MntState S)
  /-- At the start of a turn of the loop. -/
  | inside (s : MntState S)
  /-- Behind an access outside the memory. -/
  | fault

inductive MntStep where
  | call
  | turn
deriving DecidableEq, Repr

section System

variable {S : Type} (abi : Abi) (fmt : Format S) (env : MntEnv)

/-- Where a turn of the loop leads. -/
def MntPoint.ofTurn : Option ((MntResult × MntState S) ⊕ MntState S) → MntPoint S
  | none => .fault
  | some (.inl (r, s)) => .outside (some r) s
  | some (.inr s) => .inside s

def mntStep : MntStep → MntPoint S → Option (MntPoint S)
  | .call, .outside _ s => some (.inside s)
  | .turn, .inside s => some (.ofTurn (mntinfoTurn abi fmt env s))
  | _, _ => none

/-- A process that calls `getmntinfo`. -/
def mntSystem : System (MntPoint S) MntStep where
  init p := p = .outside none (noBuffer S)
  step := mntStep abi fmt env

/-- The step does not allocate a block for `n` records whose size exceeds the maximum of a
`size_t`. -/
def AllocFits : MntStep → MntPoint S → Prop
  | .turn, .inside s =>
      let n := (env.sys s.calls none).count
      0 < n → s.mntbufsize < n → env.malloc (s.calls + 1) (toSize abi (n * fmt.size)) ≠ none →
        n * fmt.size < 2 ^ abi.longBits
  | _, _ => True

end System

section Capacity

variable {S : Type} {abi : Abi} {fmt : Format S} {env : MntEnv} {s s₁ s' : MntState S}
  {b : Block S} {n : Int}

/-- The only block is `b`, at `mntbuf`. There is no size without it. -/
structure MntState.Owns (s : MntState S) (b : Block S) : Prop where
  only : Heap.Extends (fun _ => none) s.heap s.mntbuf b
  null : s.mntbuf = none → s.mntbufsize = 0

/-- The block has room for `mntbufsize` records. -/
def MntState.Sized (s : MntState S) : Prop := ∃ b, s.Owns b ∧ s.mntbufsize ≤ b.length

/-- There are `count` records at `p`. -/
def MntState.Valid (s : MntState S) (count : Int) (p : Option Nat) : Prop :=
  ∃ q b, p = some q ∧ s.heap q = some b ∧ 0 < count ∧ count ≤ b.length

/-- The size and the block fit together, and the records that the last call returned are there. -/
def MntPoint.Sound : MntPoint S → Prop
  | .outside last s =>
      s.Sized ∧ ∀ count p, last = some (.entries count p) → s.Valid count p
  | .inside s => s.Sized
  | .fault => False

/-! ### Sizes in bytes -/

/-- A wrapped size has room for fewer records, never for more. -/
theorem toSize_mul_div_le (abi : Abi) (m : Nat) {k : Nat} (hk : 0 < k) :
    toSize abi ((m : Int) * k) / k ≤ m := by
  rw [toSize_mul]
  exact (Nat.div_le_div_right (Nat.mod_le _ _)).trans_eq (Nat.mul_div_cancel _ hk)

/-- A block for `n` records has room for them when their size in bytes fits a `size_t`. -/
theorem le_toSize_div_iff (hsize : 0 < fmt.size) (hpos : 0 < n) :
    n ≤ (toSize abi (n * fmt.size) / fmt.size : Nat) ↔ n * fmt.size < 2 ^ abi.longBits := by
  obtain ⟨m, rfl⟩ := Int.eq_ofNat_of_zero_le (Int.le_of_lt hpos)
  rw [toSize_mul, Int.ofNat_le, Nat.le_div_iff_mul_le hsize]
  have hmax : 0 < 2 ^ abi.longBits := Nat.two_pow_pos _
  constructor
  · intro hle
    have hlt : m * fmt.size < 2 ^ abi.longBits := hle.trans_lt (Nat.mod_lt _ hmax)
    exact_mod_cast hlt
  · intro hlt
    have hlt' : m * fmt.size < 2 ^ abi.longBits := by exact_mod_cast hlt
    rw [Nat.mod_eq_of_lt hlt']

/-- No more records are asked for than the size in bytes has room for. -/
theorem asked_le (abi : Abi) (fmt : Format S) (n : Int) :
    asked abi fmt n ≤ toSize abi (n * fmt.size) / fmt.size := by
  have hlong : (toLong abi (toSize abi (n * fmt.size))).toNat ≤ toSize abi (n * fmt.size) := by
    generalize toSize abi (n * fmt.size) = bytes
    have hmod : bytes % 2 ^ abi.longBits ≤ bytes := Nat.mod_le _ _
    rw [toLong, Int.bmod_def]
    split <;> omega
  exact Nat.div_le_div_right hlong

theorem asked_le_self (abi : Abi) (hsize : 0 < fmt.size) (hpos : 0 < n) :
    asked abi fmt n ≤ n := by
  obtain ⟨m, rfl⟩ := Int.eq_ofNat_of_zero_le (Int.le_of_lt hpos)
  exact_mod_cast (asked_le abi fmt m).trans (toSize_mul_div_le abi m hsize)

/-! ### Getting a buffer -/

/-- What the loop does to get a buffer for `n` records: it keeps the block that it has, or it frees
it, and then `malloc` fails or there is a new one. -/
theorem ensureBuffer_cases (abi : Abi) (fmt : Format S) (env : MntEnv) (n : Int)
    (hs : s.Owns b) :
    (n ≤ s.mntbufsize ∧ ensureBuffer abi fmt env n s = some (true, s)) ∨
      (s.mntbufsize < n ∧ env.malloc s.calls (toSize abi (n * fmt.size)) = none ∧
        ∃ s₁, ensureBuffer abi fmt env n s = some (false, s₁) ∧ s₁.mntbufsize = 0 ∧
          s₁.Owns []) ∨
      (s.mntbufsize < n ∧ env.malloc s.calls (toSize abi (n * fmt.size)) ≠ none ∧
        ∃ s₁, ensureBuffer abi fmt env n s = some (true, s₁) ∧ s₁.mntbufsize = n ∧
          s₁.Owns (Block.fresh (toSize abi (n * fmt.size) / fmt.size))) := by
  have hfree : freeBuffer s = some fun _ => none := hs.only.freePtr
  by_cases hlt : s.mntbufsize < n
  · right
    cases hmalloc : env.malloc s.calls (toSize abi (n * fmt.size)) with
    | none =>
        left
        have hs₁ : ({ s with mntbufsize := 0, mntbuf := none, heap := fun _ => none } :
            MntState S).Owns [] := ⟨.null, fun _ => rfl⟩
        refine ⟨hlt, rfl, _, ?_, rfl, hs₁⟩
        simp [ensureBuffer, hlt, hfree, hmalloc]
    | some p =>
        right
        have hs₁ : ({ s with
            mntbufsize := n
            mntbuf := some p
            heap := Heap.alloc (fun _ => none) p (toSize abi (n * fmt.size) / fmt.size) } :
            MntState S).Owns (Block.fresh (toSize abi (n * fmt.size) / fmt.size)) :=
          ⟨.block rfl, fun hnone => absurd hnone (Option.some_ne_none p)⟩
        refine ⟨hlt, Option.some_ne_none p, _, ?_, rfl, hs₁⟩
        simp [ensureBuffer, hlt, hfree, hmalloc]
  · -- The buffer is large enough as it is.
    left
    exact ⟨Int.not_lt.mp hlt, if_neg hlt⟩

/-! ### Fetching the records -/

/-- The conversion stays inside both arrays when what was stored fits the block. -/
theorem copyDown_tmpbuf (fmt : Format S) (size : Nat) {stored : List StatfsFbsd5}
    (h : stored.length ≤ b.length) :
    ∃ b', copyDown fmt.convert (tmpbuf size stored) stored.length b = some b' ∧
      b'.length = b.length := by
  have hsrc : stored.length ≤ (tmpbuf size stored).length := by
    rw [tmpbuf, List.length_append, List.length_map]
    exact Nat.le_add_right _ _
  refine ⟨_, copyDown_eq_some_iff.mpr ⟨hsrc, h, rfl⟩, ?_⟩
  rw [take_tmpbuf, List.length_append, List.length_map, List.length_map, List.length_drop]
  omega

/-- A call that asks for no more records than the block has room for stays inside it. -/
theorem getfsstat_stays (abi : Abi) (hkernel : env.Bounded) (hs : s.Owns b) (i : Nat)
    {bufsize : Int} (hroom : bufcount fmt bufsize ≤ b.length) :
    ∃ reply heap b', getfsstat abi fmt (env.sys i) s.heap s.mntbuf bufsize = some (reply, heap) ∧
      Heap.Extends (fun _ => none) heap s.mntbuf b' ∧ b'.length = b.length := by
  cases hbuf : s.mntbuf with
  -- Without a buffer nothing is stored.
  | none =>
      have honly := hs.only
      rw [hbuf] at honly
      exact ⟨_, _, b, rfl, honly, rfl⟩
  | some p =>
      have honly := hs.only
      rw [hbuf] at honly
      by_cases hzero : bufcount fmt bufsize = 0
      · exact ⟨_, _, b, if_pos hzero, honly, rfl⟩
      simp only [getfsstat, if_neg hzero]
      by_cases hpos : 0 < (env.sys i (some (tmpbufSize abi (bufcount fmt bufsize)))).count
      · -- The kernel's count fits its array, and so it fits the block.
        obtain hneg | ⟨hcount, hstored⟩ := hkernel i (tmpbufSize abi (bufcount fmt bufsize))
        · omega
        have hlen := (hstored.trans (toSize_mul_div_le abi _ (by decide))).trans hroom
        obtain ⟨b', hcopy, hlen'⟩ := copyDown_tmpbuf fmt
          (tmpbufSize abi (bufcount fmt bufsize)) hlen
        have hstore := (honly.update b').2
        refine ⟨env.sys i (some (tmpbufSize abi (bufcount fmt bufsize))), _, b', ?_, hstore, hlen'⟩
        rw [if_pos hpos, (honly.update b).1, hcount, Int.toNat_natCast]
        simp only [Option.bind_eq_bind, Option.bind_some, hcopy]
        rfl
      · exact ⟨_, _, b, if_neg hpos, honly, rfl⟩

/-- The block that is there decides whether the size fits it. -/
theorem MntState.Owns.sized_iff (hs : s.Owns b) : s.Sized ↔ s.mntbufsize ≤ b.length := by
  constructor
  · rintro ⟨b', hs', hle⟩
    rwa [hs.only.unique hs'.only]
  · intro hle
    exact ⟨b, hs, hle⟩

/-- The records that a fetch returns are in the block. -/
theorem valid_of_sized {count : Int} (hsized : s.Sized) (hpos : 0 < count)
    (hle : count ≤ s.mntbufsize) : s.Valid count s.mntbuf := by
  obtain ⟨b, hs, hroom⟩ := hsized
  have honly := hs.only
  cases hbuf : s.mntbuf with
  | none =>
      have hzero := hs.null hbuf
      omega
  | some p =>
      rw [hbuf] at honly
      exact ⟨p, b, rfl, (honly.update b).1, hpos, by omega⟩

/-- A fetch that asks for no more records than the block has room for does not fault. What it
leaves is sound when the size fits the block. -/
theorem fetchRecords_sound_iff (hkernel : env.Bounded) (hs : s.Owns b)
    (hroom : asked abi fmt n ≤ b.length) (hn : n ≤ s.mntbufsize) :
    (MntPoint.ofTurn (fetchRecords abi fmt env n s)).Sound ↔ s.mntbufsize ≤ b.length := by
  obtain ⟨reply, heap, b', hget, honly, hlen⟩ := getfsstat_stays abi hkernel hs s.calls hroom
  have hs' : ({ s with heap := heap, calls := s.calls + 1 } : MntState S).Owns b' :=
    ⟨honly, hs.null⟩
  have hsized := hs'.sized_iff
  rw [hlen] at hsized
  simp only [fetchRecords, hget, Option.bind_eq_bind, Option.bind_some]
  split
  · exact (and_iff_left (by simp)).trans hsized
  split
  · exact (and_iff_left (by simp)).trans hsized
  split
  · rename_i hnonneg hne hle
    refine Iff.trans ⟨And.left, fun h => ⟨h, fun count p hlast => ?_⟩⟩ hsized
    cases hlast
    exact valid_of_sized h (by omega) (Int.le_trans hle hn)
  · exact hsized

/-! ### Steps -/

/-- A turn keeps soundness exactly when what it allocates fits. -/
theorem turn_sound_iff (hsize : 0 < fmt.size) (hkernel : env.Bounded) (hs : s.Sized) :
    (MntPoint.ofTurn (mntinfoTurn abi fmt env s)).Sound ↔
      AllocFits abi fmt env .turn (.inside s) := by
  obtain ⟨b, howns, hroom⟩ := hs
  have howns' : ({ s with calls := s.calls + 1 } : MntState S).Owns b := ⟨howns.only, howns.null⟩
  have hsized' : ({ s with calls := s.calls + 1 } : MntState S).Sized := ⟨b, howns', hroom⟩
  simp only [mntinfoTurn, getfsstat, AllocFits, Option.bind_eq_bind, Option.bind_some]
  generalize hn : (env.sys s.calls none).count = n
  split
  · exact iff_of_true ⟨hsized', by simp⟩ (by omega)
  split
  · exact iff_of_true ⟨hsized', by simp⟩ (by omega)
  have hpos : 0 < n := by omega
  have hcases := ensureBuffer_cases abi fmt env n howns'
  obtain ⟨hle, hensure⟩ | ⟨hlt, hnone, s₁, hensure, hzero, hs₁⟩ |
    ⟨hlt, hsome, s₁, hensure, hcount, hs₁⟩ := hcases
  · -- The old block stays, and nothing is allocated.
    have hasked : asked abi fmt n ≤ b.length := by
      have hle' := asked_le_self abi hsize hpos
      have hcap := Int.le_trans hle hroom
      omega
    simp only [hensure, Option.bind_some, if_true]
    refine (fetchRecords_sound_iff hkernel howns' hasked hle).trans (iff_of_true hroom ?_)
    intro _ hlt
    exact absurd hlt (Int.not_lt.mpr hle)
  · simp only [hensure, Option.bind_some]
    refine iff_of_true ⟨⟨[], hs₁, by simp [hzero]⟩, by simp⟩ fun _ _ hsome => ?_
    exact absurd hnone hsome
  · -- There is a new block for `n` records.
    have hasked : asked abi fmt n ≤ (Block.fresh (toSize abi (n * fmt.size) / fmt.size) :
        Block S).length := by
      rw [Block.length_fresh]
      exact asked_le abi fmt n
    simp only [hensure, Option.bind_some, if_true]
    rw [fetchRecords_sound_iff hkernel hs₁ hasked (Int.le_of_eq hcount.symm), hcount,
      Block.length_fresh, le_toSize_div_iff hsize hpos]
    exact ⟨fun hfits _ _ _ => hfits, fun hfits => hfits hpos hlt hsome⟩

/-- A step keeps soundness exactly when what it allocates fits. -/
theorem step_sound_iff (hsize : 0 < fmt.size) (hkernel : env.Bounded) {l : MntStep}
    {p p' : MntPoint S} (hp : p.Sound) (hstep : mntStep abi fmt env l p = some p') :
    p'.Sound ↔ AllocFits abi fmt env l p := by
  match l, p, hstep with
  | .call, .outside last s, hstep =>
      cases hstep
      exact iff_of_true hp.1 trivial
  | .turn, .inside s, hstep =>
      cases hstep
      exact turn_sound_iff hsize hkernel hp

/-- Soundness is there in every state that steps reach which keep it. -/
theorem sound_of_reachable (hsize : 0 < fmt.size) (hkernel : env.Bounded) {p : MntPoint S}
    (hp : (mntSystem abi fmt env).ReachableVia (AllocFits abi fmt env) p) : p.Sound := by
  refine hp.invariant (I := MntPoint.Sound) ?_ ?_
  · rintro _ rfl
    exact ⟨⟨[], ⟨.null, fun _ => rfl⟩, Int.le_refl 0⟩, by simp⟩
  · intro l p p' hsound hfits hstep
    exact (step_sound_iff hsize hkernel hsound hstep).mpr hfits

end Capacity

/-! ### A call is a run -/

section Calls

variable {S : Type} {abi : Abi} {fmt : Format S} {env : MntEnv}

/-- Where a call ends that does not run for ever. -/
def MntPoint.ofCall : Left (MntState S) (MntResult × MntState S) → Option (MntPoint S)
  | .left _ (r, s) => some (.outside (some r) s)
  | .fault => some .fault
  | .running => none

/-- What a call of `getmntinfo` does is a call and some turns of the system. -/
theorem exists_run_of_mntinfo {fuel : Nat} {s : MntState S} {p : MntPoint S}
    (last : Option MntResult) (h : MntPoint.ofCall (mntinfo abi fmt env fuel s) = some p) :
    ∃ k, (mntSystem abi fmt env).run (.call :: List.replicate k .turn) (.outside last s) =
      some p := by
  -- The call itself is the first step, and each turn is one more.
  suffices hturns : ∃ k, (mntSystem abi fmt env).run (List.replicate k .turn) (.inside s) =
      some p from hturns
  induction fuel generalizing s with
  | zero => cases h
  | succ fuel ih =>
      have hstep : (mntSystem abi fmt env).step .turn (.inside s) =
          some (.ofTurn (mntinfoTurn abi fmt env s)) := rfl
      rw [mntinfo, forever] at h
      cases hturn : mntinfoTurn abi fmt env s with
      | none =>
          rw [hturn] at h hstep
          exact ⟨1, (congrArg (Option.bind · _) hstep).trans h⟩
      | some next =>
          cases next with
          | inl result =>
              rw [hturn] at h hstep
              exact ⟨1, (congrArg (Option.bind · _) hstep).trans h⟩
          | inr s' =>
              rw [hturn] at h hstep
              obtain ⟨k, hk⟩ := ih h
              exact ⟨k + 1, (congrArg (Option.bind · _) hstep).trans hk⟩

end Calls

/-! ### `getmntinfo` -/

/-- On a 64-bit machine every number of type `int` fits. -/
theorem allocFits_lp64 {env : MntEnv} (hint : ∀ i, (env.sys i none).count < 2 ^ 31) (l : MntStep)
    (p : MntPoint (Statfs .lp64 Abi.lp64.longBits)) :
    AllocFits .lp64 (statfsFormat .lp64) env l p := by
  cases l with
  | call => trivial
  | turn =>
      cases p with
      | inside s =>
          intro _ _ _
          have hn := hint s.calls
          show (env.sys s.calls none).count * 320 < 2 ^ 64
          omega
      | _ => trivial

/-- In every run of calls of `getmntinfo` whose steps allocate no block with a size that exceeds
the maximum of a `size_t`, every state is sound. The first step that allocates one leads to a
state that is not. What a call of the function does is such a run. -/
theorem getmntinfo_sound_iff (abi : Abi) (env : MntEnv) (hkernel : env.Bounded) :
    (∀ p, (mntSystem abi (statfsFormat abi) env).ReachableVia
        (AllocFits abi (statfsFormat abi) env) p → p.Sound) ∧
    (∀ l p p', (mntSystem abi (statfsFormat abi) env).ReachableVia
        (AllocFits abi (statfsFormat abi) env) p →
      (mntSystem abi (statfsFormat abi) env).step l p = some p' →
      (p'.Sound ↔ AllocFits abi (statfsFormat abi) env l p)) ∧
    ∀ fuel s p last, MntPoint.ofCall (getmntinfo abi env fuel s) = some p →
      ∃ k, (mntSystem abi (statfsFormat abi) env).run (.call :: List.replicate k .turn)
        (.outside last s) = some p := by
  have hsize : 0 < (statfsFormat abi).size := by
    cases abi <;> decide
  refine ⟨fun p hp => ?_, fun l p p' hp hstep => ?_, fun fuel s p last hcall => ?_⟩
  · exact sound_of_reachable hsize hkernel hp
  · exact step_sound_iff hsize hkernel (sound_of_reachable hsize hkernel hp) hstep
  · exact exists_run_of_mntinfo last hcall

/-- The kernel that stores the first records of a table is bounded. -/
theorem bounded_mountedKernel (mounted : Nat → List StatfsFbsd5)
    (malloc : Nat → Nat → Option Nat) : (mountedKernel mounted malloc).Bounded := by
  intro i size
  exact .inr ⟨rfl, List.length_take_le _ _⟩

/-- One of two file systems is unmounted between the two system calls. The call of `getmntinfo`
leaves a sound state. -/
theorem getmntinfo_sound_unmount :
    ∃ p, (mntSystem .lp64 (statfsFormat .lp64) (mountedKernel twoThenOne fun _ _ => some 7)).run
        [.call, .turn] (.outside none (noBuffer _)) = some p ∧ p.Sound := by
  have hkernel := bounded_mountedKernel twoThenOne fun _ _ => some 7
  have hfits : ∀ l p, AllocFits .lp64 (statfsFormat .lp64)
      (mountedKernel twoThenOne fun _ _ => some 7) l p := by
    refine allocFits_lp64 fun i => ?_
    show ((twoThenOne i).length : Int) < 2 ^ 31
    cases i with
    | zero => decide
    | succ i => exact (by decide : (1 : Int) < 2 ^ 31)
  refine ⟨_, rfl, (getmntinfo_sound_iff .lp64 _ hkernel).1 _ ?_⟩
  exact .step .turn (.step .call (.init rfl) (hfits _ _) rfl) (hfits _ _) rfl

/-- The kernel reports more than `2 ^ 24` file systems at first, and has two. -/
def crowdedKernel : MntEnv where
  sys
    | 0, none => ⟨2 ^ 24 + 1, [], 0⟩
    | _, none => ⟨2, [], 0⟩
    | _, some size =>
        let stored := [emptyMount, emptyMount].take (size / sizeofStatfsFbsd5)
        ⟨stored.length, stored, 0⟩
  malloc _ _ := some 7

/-- On a 32-bit machine the first call gets a block for one record, and it takes it for one for
`2 ^ 24 + 1`. The next call stores its second record behind the block. -/
theorem getmntinfo_overflows :
    crowdedKernel.Bounded ∧ ¬ ∀ p,
      (mntSystem .ilp32 (statfsFormat .ilp32) crowdedKernel).Reachable p → p.Sound := by
  constructor
  · intro i size
    cases i <;> exact .inr ⟨rfl, List.length_take_le _ _⟩
  · intro hsound
    exact hsound .fault (System.ReachableVia.of_run (.init rfl) [.call, .turn, .call, .turn] rfl)

end GlibcPorts.Mount
