import GlibcPorts.Mount.Getmntinfo

/-!
# `GlibcPorts.Proofs.Mount.MountTable`: whether `getmntinfo` sees the whole table

`getmntinfo` asks for the number of the mounted file systems and then for their records, and file
systems may come and go in between. The kernel stores as many records as fit (`mountedKernel`),
so the number it returns never exceeds the number the code asked for, and the test behind the
call finds nothing wrong: a table that grew in between is cut (`getmntinfo_truncates`).

`getmntinfo_whole_iff` says when the records returned are the table of the last call: when the
table has no more records than the code asked for (`Covered`). On a 64-bit machine these are as
many as the first call reported (`covered_lp64_iff`). On a 32-bit machine the size in bytes may
exceed a `long`, and then nothing is fetched.
-/

set_option autoImplicit false

namespace GlibcPorts.Mount

open Lib

/-- A kernel with the file systems `mounted i` at the call `i`: without a buffer it returns their
number, and with one it stores the first of them, as many as fit, and returns how many. -/
def mountedKernel (mounted : Nat → List StatfsFbsd5) (malloc : Nat → Nat → Option Nat) :
    MntEnv where
  sys i
    | none => ⟨(mounted i).length, [], 0⟩
    | some size =>
        let stored := (mounted i).take (size / sizeofStatfsFbsd5)
        ⟨stored.length, stored, 0⟩
  malloc := malloc

section Table

variable {S : Type} {abi : Abi} {fmt : Format S}

/-- The first records of the block at `p` are those of the table. -/
def HoldsTable (fmt : Format S) (table : List StatfsFbsd5) (heap : Heap S) (p : Option Nat) :
    Prop :=
  ∃ q block, p = some q ∧ heap q = some block ∧
    block.take table.length = table.map fun pk => some (fmt.convert pk)

/-- The number and the records returned are those of the table. -/
def Whole (fmt : Format S) (table : List StatfsFbsd5) (count : Int) (mntbufp : Option Nat)
    (s : MntState S) : Prop :=
  count = table.length ∧ HoldsTable fmt table s.heap mntbufp

/-- How many records the code asks for when the first call reported `count`. -/
def asked (abi : Abi) (fmt : Format S) (count : Int) : Nat :=
  bufcount fmt (toLong abi (toSize abi (count * fmt.size)))

/-- The table `after` at the second call of a turn has no more records than the code asks for
when the first call found the table `before`. When it asks for none, the buffer from before the
turn has to hold the table already. -/
def Covered (abi : Abi) (fmt : Format S) (t : MntState S) (before after : List StatfsFbsd5) :
    Prop :=
  if asked abi fmt before.length = 0 then
    before.length ≤ t.mntbufsize ∧ HoldsTable fmt after t.heap t.mntbuf
  else after.length ≤ tmpbufSize abi (asked abi fmt before.length) / sizeofStatfsFbsd5

/-- There is no size without a buffer. -/
def MntState.Cached (s : MntState S) : Prop := s.mntbuf = none → s.mntbufsize ≤ 0

/-! ### What a turn does -/

section Turn

variable {env : MntEnv} {s s₁ s' : MntState S} {n count : Int} {mntbufp : Option Nat}

/-- A buffer is there: the old one is large enough, or a new one was allocated. -/
theorem ensureBuffer_eq_true (h : ensureBuffer abi fmt env n s = some (true, s₁)) :
    (n ≤ s.mntbufsize ∧ s₁ = s) ∨
      (s.mntbufsize < n ∧ ∃ (p : Nat) (heap : Heap S), s₁ = { s with
        mntbufsize := n, mntbuf := some p,
        heap := heap.alloc p (toSize abi (n * fmt.size) / fmt.size) }) := by
  unfold ensureBuffer at h
  split at h
  · rename_i hlt
    obtain ⟨heap, -, h⟩ := Option.bind_eq_some_iff.mp h
    cases hmalloc : env.malloc s.calls (toSize abi (n * fmt.size)) with
    | none => simp [hmalloc] at h
    | some p =>
        simp only [hmalloc, Option.pure_def, Option.some.injEq, Prod.mk.injEq, true_and] at h
        exact .inr ⟨hlt, p, heap, h.symm⟩
  · rename_i hle
    simp only [Option.pure_def, Option.some.injEq, Prod.mk.injEq, true_and] at h
    exact .inl ⟨Int.not_lt.mp hle, h.symm⟩

/-- The size and the pointer go together behind the allocation. -/
theorem cached_of_ensureBuffer (hs : s.Cached)
    (h : ensureBuffer abi fmt env n s = some (true, s₁)) : s₁.Cached := by
  obtain ⟨-, rfl⟩ | ⟨-, p, heap, rfl⟩ := ensureBuffer_eq_true h
  · exact hs
  · intro hnone
    cases hnone

/-- The fetch returns records: what the system call said and did. -/
theorem fetchRecords_eq_entries
    (h : fetchRecords abi fmt env n s = some (.inl (.entries count mntbufp, s'))) :
    ∃ reply heap, getfsstat abi fmt (env.sys s.calls) s.heap s.mntbuf
        (toLong abi (toSize abi (n * fmt.size))) = some (reply, heap) ∧
      0 < count ∧ count = reply.count ∧ mntbufp = s.mntbuf ∧
      s' = { s with heap := heap, calls := s.calls + 1 } := by
  obtain ⟨⟨reply, heap⟩, hget, h⟩ := Option.bind_eq_some_iff.mp h
  refine ⟨reply, heap, hget, ?_⟩
  simp only at h
  split at h
  · simp at h
  split at h
  · simp at h
  split at h
  · simp only [Option.pure_def, Option.some.injEq, Sum.inl.injEq, Prod.mk.injEq,
      MntResult.entries.injEq] at h
    obtain ⟨⟨rfl, rfl⟩, rfl⟩ := h
    exact ⟨by omega, rfl, rfl, rfl⟩
  · simp at h

/-- The fetch goes on with the same buffer. -/
theorem fetchRecords_eq_inr (h : fetchRecords abi fmt env n s = some (.inr s')) :
    s'.mntbuf = s.mntbuf ∧ s'.mntbufsize = s.mntbufsize := by
  obtain ⟨⟨reply, heap⟩, -, h⟩ := Option.bind_eq_some_iff.mp h
  simp only at h
  split at h
  · simp at h
  split at h
  · simp at h
  split at h
  · simp at h
  · simp only [Option.pure_def, Option.some.injEq, Sum.inr.injEq] at h
    subst h
    exact ⟨rfl, rfl⟩

/-- What a turn does that gets to the fetch. -/
theorem mntinfoTurn_cases {r : (MntResult × MntState S) ⊕ MntState S}
    (h : mntinfoTurn abi fmt env s = some r) :
    (∃ errno s', r = .inl (.zero errno, s')) ∨
      0 < (env.sys s.calls none).count ∧
        ∃ s₁, ensureBuffer abi fmt env (env.sys s.calls none).count
            { s with calls := s.calls + 1 } = some (true, s₁) ∧
          fetchRecords abi fmt env (env.sys s.calls none).count s₁ = some r := by
  simp only [mntinfoTurn, getfsstat, Option.bind_eq_bind, Option.bind_some] at h
  split at h
  · cases h
    exact .inl ⟨_, _, rfl⟩
  split at h
  · cases h
    exact .inl ⟨_, _, rfl⟩
  obtain ⟨⟨enough, s₁⟩, hensure, h⟩ := Option.bind_eq_some_iff.mp h
  cases enough with
  | false =>
      cases h
      exact .inl ⟨_, _, rfl⟩
  | true => exact .inr ⟨by omega, s₁, hensure, h⟩

/-- A turn that goes on keeps the size and the pointer together. -/
theorem cached_of_mntinfoTurn (hs : s.Cached) (h : mntinfoTurn abi fmt env s = some (.inr s')) :
    s'.Cached := by
  obtain ⟨errno, s₂, hzero⟩ | ⟨-, s₁, hensure, hfetch⟩ := mntinfoTurn_cases h
  · cases hzero
  · have hs₁ : s₁.Cached := cached_of_ensureBuffer (s := { s with calls := s.calls + 1 }) hs hensure
    obtain ⟨hbuf, hsize⟩ := fetchRecords_eq_inr hfetch
    intro hnone
    rw [hsize]
    exact hs₁ (hbuf ▸ hnone)

end Turn

/-! ### The records -/

/-- What the kernel stored is what the code reads from its array. -/
theorem take_tmpbuf (size : Nat) (stored : List StatfsFbsd5) :
    (tmpbuf size stored).take stored.length = stored.map some :=
  List.take_left' (List.length_map some)

section Kernel

variable {mounted : Nat → List StatfsFbsd5} {malloc : Nat → Nat → Option Nat} {i p : Nat}
  {heap heap' : Heap S} {bufsize : Int} {reply : FsstatReply}

/-- A buffer that is too small for a record is not used. -/
theorem getfsstat_of_asked_eq_zero {buf : Option Nat} (hasked : bufcount fmt bufsize = 0)
    (h : getfsstat abi fmt ((mountedKernel mounted malloc).sys i) heap buf bufsize =
      some (reply, heap')) : reply.count = (mounted i).length ∧ heap' = heap := by
  have hunused : getfsstat abi fmt ((mountedKernel mounted malloc).sys i) heap buf bufsize =
      some ((mountedKernel mounted malloc).sys i none, heap) := by
    cases buf with
    | none => rfl
    | some p => exact if_pos hasked
  rw [hunused] at h
  cases h
  exact ⟨rfl, rfl⟩

/-- Else the buffer starts with the records that fit. -/
theorem getfsstat_of_asked_ne_zero (hasked : bufcount fmt bufsize ≠ 0)
    (h : getfsstat abi fmt ((mountedKernel mounted malloc).sys i) heap (some p) bufsize =
      some (reply, heap')) (hpos : 0 < reply.count) :
    ∃ stored rest,
      stored = (mounted i).take (tmpbufSize abi (bufcount fmt bufsize) / sizeofStatfsFbsd5) ∧
        reply.count = stored.length ∧
        heap' = heap.store p (stored.map (fun pk => some (fmt.convert pk)) ++ rest) := by
  simp only [getfsstat, if_neg hasked] at h
  split at h
  · obtain ⟨block, -, h⟩ := Option.bind_eq_some_iff.mp h
    obtain ⟨block', hcopy, h⟩ := Option.bind_eq_some_iff.mp h
    simp only [Option.pure_def, Option.some.injEq, Prod.mk.injEq] at h
    obtain ⟨rfl, rfl⟩ := h
    obtain ⟨-, -, rfl⟩ := copyDown_eq_some_iff.mp hcopy
    -- What the kernel stored, under a name.
    generalize hstored : (mounted i).take
      (tmpbufSize abi (bufcount fmt bufsize) / sizeofStatfsFbsd5) = stored
    refine ⟨stored, block.drop stored.length, rfl, ?_, ?_⟩
    · simp only [mountedKernel, hstored]
    · simp only [mountedKernel, hstored, Int.toNat_natCast, take_tmpbuf, List.map_map]
      rfl
  · rename_i hnot
    simp only [Option.some.injEq, Prod.mk.injEq] at h
    obtain ⟨rfl, rfl⟩ := h
    exact absurd hpos hnot

end Kernel

/-- A buffer from `malloc` holds no table. -/
theorem not_holdsTable_fresh {table : List StatfsFbsd5} (hne : table ≠ []) {heap : Heap S}
    {p n : Nat} : ¬ HoldsTable fmt table (heap.alloc p n) (some p) := by
  rintro ⟨q, block, hq, hblock, htake⟩
  cases hq
  rw [Heap.alloc_self] at hblock
  cases hblock
  obtain ⟨pk, hpk⟩ := List.exists_mem_of_ne_nil table hne
  have hmem : some (fmt.convert pk) ∈ (Block.fresh n : Block S).take table.length := by
    rw [htake]
    exact List.mem_map_of_mem hpk
  have hnone := List.eq_of_mem_replicate (List.mem_of_mem_take hmem)
  cases hnone

/-- The first `n` records of a table, behind the conversion, are the whole table exactly when the
table has no more than that. -/
theorem whole_store_iff {table : List StatfsFbsd5} {n p : Nat} {heap : Heap S} {rest : Block S}
    {s : MntState S} (hs : s.heap =
      heap.store p ((table.take n).map (fun pk => some (fmt.convert pk)) ++ rest)) :
    Whole fmt table (table.take n).length (some p) s ↔ table.length ≤ n := by
  constructor
  · rintro ⟨hcount, -⟩
    rw [List.length_take] at hcount
    omega
  · intro hle
    rw [List.take_of_length_le hle] at hs ⊢
    refine ⟨rfl, p, _, rfl, by rw [hs, Heap.store_self], ?_⟩
    exact List.take_left' (List.length_map _)

/-- The records that a call returns are the table of its last system call exactly when that one
covers the table. -/
theorem mntinfo_whole_iff (mounted : Nat → List StatfsFbsd5) (malloc : Nat → Nat → Option Nat)
    {fuel : Nat} {s t s' : MntState S} {count : Int} {mntbufp : Option Nat} (hs : s.Cached)
    (hret : mntinfo abi fmt (mountedKernel mounted malloc) fuel s =
      .left t (.entries count mntbufp, s')) :
    s'.calls = t.calls + 2 ∧
      (Whole fmt (mounted (t.calls + 1)) count mntbufp s' ↔
        Covered abi fmt t (mounted t.calls) (mounted (t.calls + 1))) := by
  obtain ⟨ht, hturn⟩ := of_forever_left (I := MntState.Cached)
    (fun _ _ hcached hagain => cached_of_mntinfoTurn hcached hagain) hs hret
  obtain ⟨errno, s₂, hzero⟩ | ⟨hbefore, s₁, hensure, hfetch⟩ := mntinfoTurn_cases hturn
  · cases hzero
  have hs₁ : s₁.Cached := cached_of_ensureBuffer (s := { t with calls := t.calls + 1 }) ht hensure
  have hcalls : s₁.calls = t.calls + 1 := by
    obtain ⟨-, rfl⟩ | ⟨-, p, heap, rfl⟩ := ensureBuffer_eq_true hensure <;> rfl
  obtain ⟨reply, heap', hget, hpos, rfl, rfl, rfl⟩ := fetchRecords_eq_entries hfetch
  rw [hcalls] at hget ⊢
  refine ⟨rfl, ?_⟩
  have hbuf := ensureBuffer_eq_true hensure
  by_cases hasked : asked abi fmt (mounted t.calls).length = 0
  · -- Nothing was fetched, so the buffer is as it was behind the allocation.
    obtain ⟨hcount, rfl⟩ := getfsstat_of_asked_eq_zero hasked hget
    rw [Covered, if_pos hasked, Whole, hcount]
    have hne : mounted (t.calls + 1) ≠ [] := by
      intro hnil
      rw [hcount, hnil] at hpos
      exact absurd hpos (by decide)
    obtain ⟨hle, rfl⟩ | ⟨hlt, p, heap, rfl⟩ := hbuf
    · exact and_congr_left fun _ => iff_of_true rfl hle
    · refine iff_of_false (fun hwhole => not_holdsTable_fresh hne hwhole.2) fun hcovered => ?_
      exact absurd hcovered.1 (Int.not_le.mpr hlt)
  · -- The buffer starts with the records that fit.
    obtain ⟨p, hp⟩ : ∃ p, s₁.mntbuf = some p := by
      rw [← Option.ne_none_iff_exists']
      intro hnone
      have hsize := hs₁ hnone
      obtain ⟨hle, rfl⟩ | ⟨-, p, heap, rfl⟩ := hbuf
      · exact absurd (Int.lt_of_lt_of_le hbefore hle) (Int.not_lt.mpr hsize)
      · cases hnone
    rw [hp] at hget ⊢
    obtain ⟨stored, rest, rfl, hcount, rfl⟩ := getfsstat_of_asked_ne_zero hasked hget hpos
    rw [Covered, if_neg hasked, hcount]
    exact whole_store_iff rfl

end Table

/-! ### On a 64-bit machine -/

/-- What a size in bytes wraps to. -/
theorem toSize_mul (abi : Abi) (m k : Nat) :
    toSize abi ((m : Int) * k) = m * k % 2 ^ abi.longBits := by
  have hcast : (m : Int) * k % 2 ^ abi.longBits = (m * k % 2 ^ abi.longBits : Nat) := by
    push_cast
    rfl
  rw [toSize, hcast, Int.toNat_natCast]

/-- The code asks for as many records as the first call reported, and the kernel has room for
them: the sizes in bytes are far below the maximum of a `long`. -/
theorem covered_lp64_iff {S : Type} {fmt : Format S} {t : MntState S}
    {before after : List StatfsFbsd5} (hpos : 0 < fmt.size) (hsize : fmt.size ≤ 2 ^ 16)
    (hne : before ≠ []) (hint : before.length < 2 ^ 31) :
    Covered .lp64 fmt t before after ↔ after.length ≤ before.length := by
  have hbytes : before.length * fmt.size < 2 ^ 31 * 2 ^ 16 :=
    Nat.mul_lt_mul_of_lt_of_le hint hsize (by omega)
  have hasked : asked .lp64 fmt before.length = before.length := by
    have hlong : toLong .lp64 (before.length * fmt.size) = (before.length * fmt.size : Nat) :=
      Int.bmod_eq_of_le_mul_two (by simp only [Abi.longBits]; omega)
        (by simp only [Abi.longBits]; omega)
    have hfits : before.length * fmt.size < 2 ^ Abi.lp64.longBits := by
      simp only [Abi.longBits]
      omega
    rw [asked, toSize_mul, Nat.mod_eq_of_lt hfits, hlong, bufcount, Int.toNat_natCast]
    exact Nat.mul_div_cancel _ hpos
  have hroom : tmpbufSize .lp64 before.length / sizeofStatfsFbsd5 = before.length := by
    have hfits : before.length * sizeofStatfsFbsd5 < 2 ^ Abi.lp64.longBits := by
      simp only [Abi.longBits, sizeofStatfsFbsd5]
      omega
    rw [tmpbufSize, toSize_mul, Nat.mod_eq_of_lt hfits]
    exact Nat.mul_div_cancel _ (by decide)
  have hlen : before.length ≠ 0 := fun hzero => hne (List.eq_nil_of_length_eq_zero hzero)
  rw [Covered, hasked, if_neg hlen, hroom]

/-! ### The two functions -/

/-- A call of `getmntinfo` or `getmntinfo64` that returns records returns the table of its last
system call exactly when that call covers the table. -/
theorem getmntinfo_whole_iff (abi : Abi) (mounted : Nat → List StatfsFbsd5)
    (malloc : Nat → Nat → Option Nat) (fuel : Nat) :
    (∀ s t s' count mntbufp, s.Cached →
      getmntinfo abi (mountedKernel mounted malloc) fuel s = .left t (.entries count mntbufp, s') →
      (Whole (statfsFormat abi) (mounted (s'.calls - 1)) count mntbufp s' ↔
        Covered abi (statfsFormat abi) t (mounted (s'.calls - 2)) (mounted (s'.calls - 1)))) ∧
    (∀ s t s' count mntbufp, s.Cached →
      getmntinfo64 abi (mountedKernel mounted malloc) fuel s =
        .left t (.entries count mntbufp, s') →
      (Whole (statfs64Format abi) (mounted (s'.calls - 1)) count mntbufp s' ↔
        Covered abi (statfs64Format abi) t (mounted (s'.calls - 2)) (mounted (s'.calls - 1)))) := by
  constructor
  · intro s t s' count mntbufp hs hret
    obtain ⟨hcalls, hwhole⟩ := mntinfo_whole_iff mounted malloc hs hret
    rw [hcalls]
    exact hwhole
  · intro s t s' count mntbufp hs hret
    obtain ⟨hcalls, hwhole⟩ := mntinfo_whole_iff mounted malloc hs hret
    rw [hcalls]
    exact hwhole

/-! ### A table that shrinks and a table that grows -/

/-- An empty file system. -/
def emptyMount : StatfsFbsd5 where
  fVersion := 0
  fType := 0
  fFlags := 0
  fBsize := 0
  fIosize := 0
  fBlocks := 0
  fBfree := 0
  fBavail := 0
  fFiles := 0
  fFfree := 0
  fSyncwrites := 0
  fAsyncwrites := 0
  fSyncreads := 0
  fAsyncreads := 0
  fNamemax := 0
  fOwner := 0
  fFsid := ⟨0, 0⟩
  fFstypename := .zero _
  fMntfromname := .zero _
  fMntonname := .zero _

/-- A process before its first call of `getmntinfo`. -/
def noBuffer (S : Type) : MntState S := ⟨0, none, fun _ => none, 0⟩

/-- Two file systems at the first call, and one of them at the next. -/
def twoThenOne : Nat → List StatfsFbsd5
  | 0 => [emptyMount, emptyMount]
  | _ => [emptyMount]

/-- A file system is unmounted between the two calls. `getmntinfo` returns the other one. -/
theorem getmntinfo_whole_iff_unmount :
    ∃ t s', getmntinfo .lp64 (mountedKernel twoThenOne fun _ _ => some 7) 1 (noBuffer _) =
        .left t (.entries 1 (some 7), s') ∧
      Whole (statfsFormat .lp64) (twoThenOne (s'.calls - 1)) 1 (some 7) s' := by
  have hcached : (noBuffer (Statfs .lp64 Abi.lp64.longBits)).Cached := fun _ => Int.le_refl 0
  have hcovered : ∀ t, Covered .lp64 (statfsFormat .lp64) t (twoThenOne 0) (twoThenOne 1) :=
    fun t => (covered_lp64_iff (by decide) (by decide) (by decide) (by decide)).mpr (by decide)
  refine ⟨_, _, rfl, ?_⟩
  exact ((getmntinfo_whole_iff .lp64 twoThenOne (fun _ _ => some 7) 1).1 _ _ _ _ _ hcached
    rfl).mpr (hcovered _)

/-- One file system at the first call, and one more at the next. -/
def oneThenTwo : Nat → List StatfsFbsd5
  | 0 => [emptyMount]
  | _ => [emptyMount, emptyMount]

/-- A second file system is mounted between the two calls. `getmntinfo` returns the first one
alone, and it does not ask again. -/
theorem getmntinfo_truncates :
    ∃ t s', getmntinfo .lp64 (mountedKernel oneThenTwo fun _ _ => some 7) 1 (noBuffer _) =
        .left t (.entries 1 (some 7), s') ∧ s'.calls = 2 ∧
      ¬ Whole (statfsFormat .lp64) (oneThenTwo (s'.calls - 1)) 1 (some 7) s' := by
  refine ⟨_, _, rfl, rfl, ?_⟩
  rintro ⟨hcount, -⟩
  exact absurd hcount (by decide)

end GlibcPorts.Mount
