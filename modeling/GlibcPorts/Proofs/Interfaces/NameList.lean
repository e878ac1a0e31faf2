import GlibcPorts.Proofs.Interfaces.Iterate

/-!
# `GlibcPorts.Proofs.Interfaces.NameList`: the list that `if_nameindex` builds

`Memory.HoldsList` says what the list is for: a record for each interface, with its index and a
pointer to its name, and a terminating record behind them.

While the arrays grow, `recordsOf` and `namesOf` are what they hold, wherever `realloc` moves them
(`Building`): `addC_cases` and `addS_cases` are the steps, `nameindexAux_cases` is a message and
`deliver_nameindexAux` the run. A call of `realloc` that fails ends the run (`Failed`).

`ifNameindex_intact` says that the list is intact when memory suffices. When something fails, all
that `if_nameindex` has to tell it by is `oom`, so it misses the failures of `__sysctl`, and it does
not return while these are `ENOMEM`: `ifNameindex_reports_iff` says that there is nothing else that
it misses.
-/

set_option autoImplicit false

namespace GlibcPorts.Interfaces

open Lib

/-! ### What a list is -/

/-- The string at a pointer. -/
def Memory.string (mem : Memory) (p : Ptr) : Option CString := do
  let q ← p.block
  let b ← mem.chars q
  CString.readAt b.stored p.off

/-- At `ifn` is an array with a record for each interface, its index and a pointer to its name,
and behind these one record `{0, NULL}` and nothing that was stored. -/
def Memory.HoldsList (mem : Memory) (ifn : Nat) (ifs : List (Nat × CString)) : Prop :=
  ∃ (records : List IfNameindex) (spare : Nat),
    mem.records ifn = some (records.map some ++ some ⟨0, .null⟩ :: Block.fresh spare) ∧
      records.map (fun r => (r.ifIndex, mem.string r.ifName)) = ifs.map fun i => (i.1, some i.2)

/-- Only finitely many blocks are allocated. -/
structure Memory.Finite (mem : Memory) : Prop where
  records : mem.records.Finite
  chars : mem.chars.Finite

/-! ### What the arrays hold while they grow -/

/-- The names, one behind the other. -/
def namesOf (ifs : List (Nat × CString)) : List UInt8 := ifs.flatMap fun i => i.2.bytes

/-- The records of interfaces whose names start at the offset `off` of the block `c`. -/
def recordsOf (c : Option Nat) : Nat → List (Nat × CString) → List IfNameindex
  | _, [] => []
  | off, i :: ifs => ⟨i.1, ⟨c, off⟩⟩ :: recordsOf c (off + i.2.bytes.length) ifs

section Lists

variable {c : Option Nat} {off : Nat} {ifs : List (Nat × CString)} {i : Nat × CString}

/-- One record for each interface. -/
@[simp] theorem length_recordsOf (c : Option Nat) (off : Nat) (ifs : List (Nat × CString)) :
    (recordsOf c off ifs).length = ifs.length := by
  induction ifs generalizing off with
  | nil => rfl
  | cons i ifs ih => exact congrArg Nat.succ (ih _)

/-- One more name, at the end. -/
theorem namesOf_concat (ifs : List (Nat × CString)) (i : Nat × CString) :
    namesOf (ifs ++ [i]) = namesOf ifs ++ i.2.bytes := by
  simp [namesOf]

/-- One more record, at the end. -/
theorem recordsOf_concat (c : Option Nat) (off : Nat) (ifs : List (Nat × CString))
    (i : Nat × CString) :
    recordsOf c off (ifs ++ [i]) =
      recordsOf c off ifs ++ [⟨i.1, ⟨c, off + (namesOf ifs).length⟩⟩] := by
  induction ifs generalizing off with
  | nil => rfl
  | cons j ifs ih =>
      have hnames : (namesOf (j :: ifs)).length = j.2.bytes.length + (namesOf ifs).length :=
        List.length_append
      rw [List.cons_append, recordsOf, ih, recordsOf, hnames, List.cons_append, Nat.add_assoc]

/-- All names are in one block. -/
theorem block_of_mem_recordsOf {r : IfNameindex} (h : r ∈ recordsOf c off ifs) :
    r.ifName.block = c := by
  induction ifs generalizing off with
  | nil => cases h
  | cons i ifs ih =>
      cases h with
      | head => rfl
      | tail _ hmem => exact ih hmem

/-- The offset of each record is the start of its name, so reading there gives the names. -/
theorem map_recordsOf (pre : List UInt8) (read : Ptr → Option CString)
    (hread : ∀ off, read ⟨c, off⟩ = CString.readAt (pre ++ namesOf ifs) off) :
    (recordsOf c pre.length ifs).map (fun r => (r.ifIndex, read r.ifName)) =
      ifs.map fun i => (i.1, some i.2) := by
  induction ifs generalizing pre with
  | nil => rfl
  | cons i ifs ih =>
      -- The names so far, with this one, are in front of the others.
      have hnames : pre ++ namesOf (i :: ifs) = (pre ++ i.2.bytes) ++ namesOf ifs :=
        (List.append_assoc _ _ _).symm
      have hfirst : read ⟨c, pre.length⟩ = some i.2 := by
        rw [hread]
        exact CString.readAt_eq_some_iff.mpr ⟨namesOf ifs, List.drop_left⟩
      have hrest := ih (pre ++ i.2.bytes) (by rwa [hnames] at hread)
      rw [List.length_append] at hrest
      rw [recordsOf, List.map_cons, List.map_cons, hrest, hfirst]

/-- The loop over the records makes pointers of the offsets. -/
theorem convertOffsets_recordsOf (c : Option Nat) (off : Nat) (ifs : List (Nat × CString))
    (rest : Block IfNameindex) :
    convertOffsets c ifs.length ((recordsOf none off ifs).map some ++ rest) =
      some ((recordsOf c off ifs).map some ++ rest) := by
  induction ifs generalizing off with
  | nil => rfl
  | cons i ifs ih =>
      rw [recordsOf, recordsOf, List.map_cons, List.map_cons, List.cons_append, List.cons_append,
        List.length_cons, convertOffsets, if_pos rfl, ih]
      rfl

end Lists

section Steps

variable {env : IndexEnv} {mem : Memory} {l l' : NameindexLocals} {records : List IfNameindex}
  {chars : List UInt8}

/-- No call of `realloc` failed that was made between two states. -/
def NoneFailed (env : IndexEnv) (l l' : NameindexLocals) : Prop :=
  l.calls ≤ l'.calls ∧ ∀ k, l.calls ≤ k → k < l'.calls → env.fails k = false

/-- A call of `realloc` failed and left everything as it was. -/
structure GrowFailed (env : IndexEnv) (l l' : NameindexLocals) : Prop where
  fails : env.fails l.calls = true
  eq : l' = { l with oom := true, calls := l.calls + 1 }

/-- No failure, and then none. -/
theorem NoneFailed.trans {l'' : NameindexLocals} (h : NoneFailed env l l')
    (h' : NoneFailed env l' l'') : NoneFailed env l l'' := by
  refine ⟨Nat.le_trans h.1 h'.1, fun k hle hlt => ?_⟩
  by_cases hk : k < l'.calls
  · exact h.2 k hle hk
  · exact h'.2 k (Nat.not_lt.mp hk) hlt

/-- A call is made only for an array that is full. -/
theorem noneFailed_of_full {full : Bool} (hfails : ¬ (full = true ∧ env.fails l.calls = true))
    (hcalls : l'.calls = if full then l.calls + 1 else l.calls) : NoneFailed env l l' := by
  cases full with
  | false =>
      have hsame : l'.calls = l.calls := hcalls
      refine ⟨hsame.ge, fun k hle hlt => ?_⟩
      omega
  | true =>
      have hnext : l'.calls = l.calls + 1 := hcalls
      refine ⟨by omega, fun k hle hlt => ?_⟩
      have hk : k = l.calls := by omega
      rw [hk]
      exact Bool.eq_false_iff.mpr fun hfail => hfails ⟨rfl, hfail⟩

/-- `add_s` appends a record, or a call of `realloc` fails. -/
theorem addS_cases (env : IndexEnv) (hmem : mem.records.Finite) (hs : l.s.Holds mem.records records)
    (index : Nat) (name : Ptr) :
    ∃ l', addS env l index name = some l' ∧
      (GrowFailed env l l' ∨
        ¬ (l.s.len = l.s.allocated ∧ env.fails l.calls = true) ∧
          l'.s.Holds mem.records (records ++ [⟨index, name⟩]) ∧ l'.c = l.c ∧ l'.oom = l.oom ∧
          NoneFailed env l l') := by
  have hlen := hs.len_eq
  have hle := hs.len_le
  have hadd := hs.add env.records env.fails l.calls (2 * l.s.allocated + 1)
    (l.s.len == l.s.allocated) hmem (List.cons_ne_nil (⟨index, name⟩ : IfNameindex) [])
    (fun hfull => by
      have hfull : l.s.len = l.s.allocated := beq_iff_eq.mp hfull
      rw [List.length_singleton]
      omega)
    (fun hfull => by
      have hfull : l.s.len ≠ l.s.allocated := beq_eq_false_iff_ne.mp hfull
      rw [List.length_singleton]
      omega)
  unfold addS
  dsimp only
  -- `add` says that the array is full and `realloc` failed, or that the record is in it.
  obtain ⟨hfull, hfails, hadd⟩ | ⟨hfails, g, hadd, hholds⟩ := hadd
  · rw [hadd, hfull]
    exact ⟨_, rfl, .inl ⟨hfails, rfl⟩⟩
  · rw [hadd]
    refine ⟨_, rfl, .inr ⟨?_, hholds, rfl, rfl, noneFailed_of_full hfails rfl⟩⟩
    rwa [beq_iff_eq] at hfails

/-- `add_c` appends a name and returns its offset, or a call of `realloc` fails. -/
theorem addC_cases (env : IndexEnv) (hmem : mem.chars.Finite) (hc : l.c.Holds mem.chars chars)
    (name : CString) :
    ∃ off l', addC env l name = some (off, l') ∧
      (GrowFailed env l l' ∨
        off = chars.length ∧ l'.c.Holds mem.chars (chars ++ name.bytes) ∧ l'.s = l.s ∧
          l'.oom = l.oom ∧ NoneFailed env l l') := by
  have hlen := hc.len_eq
  have hle := hc.len_le
  have hbytes : name.bytes.length = name.strlen + 1 := CString.length_bytes name
  have hne : name.bytes ≠ [] := List.ne_nil_of_length_eq_add_one hbytes
  have hadd := hc.add env.chars env.fails l.calls
    (if l.c.len + (name.strlen + 1) < 2 * l.c.allocated + 1 then 2 * l.c.allocated + 1
      else l.c.len + (name.strlen + 1))
    (decide (l.c.len + (name.strlen + 1) > l.c.allocated)) hmem hne
    -- A full array doubles, or gets as long as the name needs.
    (fun hfull => by
      have hfull := of_decide_eq_true hfull
      rw [hbytes]
      split_ifs <;> omega)
    (fun hfull => by
      have hfull := of_decide_eq_false hfull
      rw [hbytes]
      omega)
  unfold addC
  dsimp only
  obtain ⟨hfull, hfails, hadd⟩ | ⟨hfails, g, hadd, hholds⟩ := hadd
  · rw [hadd, hfull]
    exact ⟨_, _, rfl, .inl ⟨hfails, rfl⟩⟩
  · rw [hadd]
    exact ⟨_, _, rfl, .inr ⟨hlen, hholds, rfl, rfl, noneFailed_of_full hfails rfl⟩⟩

/-- The interfaces so far are in the arrays, and nothing failed. -/
structure Building (env : IndexEnv) (mem : Memory) (ifs : List (Nat × CString))
    (l : NameindexLocals) : Prop where
  records : l.s.Holds mem.records (recordsOf none 0 ifs)
  chars : l.c.Holds mem.chars (namesOf ifs)
  unused : ifs = [] → l.c.array = none
  oom : l.oom = false
  calls : ∀ k < l.calls, env.fails k = false

/-- A call of `realloc` failed. The arrays are still there. -/
structure Failed (env : IndexEnv) (mem : Memory) (l : NameindexLocals) : Prop where
  records : ∃ records, l.s.Holds mem.records records
  chars : ∃ chars, l.c.Holds mem.chars chars
  oom : l.oom = true
  fails : ∃ k < l.calls, env.fails k = true

variable {ifs : List (Nat × CString)}

/-- A failure behind which both arrays are as before. -/
theorem GrowFailed.failed (h : GrowFailed env l l') (hs : l.s.Holds mem.records records)
    (hc : l.c.Holds mem.chars chars) : Failed env mem l' := by
  obtain ⟨hfails, rfl⟩ := h
  exact ⟨⟨records, hs⟩, ⟨chars, hc⟩, rfl, l.calls, Nat.lt_succ_self _, hfails⟩

/-- When no call failed before, none has failed. -/
theorem NoneFailed.calls (h : NoneFailed env l l') (hcalls : ∀ k < l.calls, env.fails k = false) :
    ∀ k < l'.calls, env.fails k = false := by
  intro k hk
  by_cases hlt : k < l.calls
  · exact hcalls k hlt
  · exact h.2 k (Nat.not_lt.mp hlt) hk

/-- Nothing is built yet. -/
theorem building_start (env : IndexEnv) (mem : Memory) : Building env mem [] (.start mem) where
  records := ResizableArray.holds_empty _
  chars := ResizableArray.holds_empty _
  unused _ := rfl
  oom := rfl
  calls _ hk := absurd hk (Nat.not_lt_zero _)

/-- A message adds its interface, or a call of `realloc` fails and it stops. -/
theorem nameindexAux_cases (hmem : mem.Finite) (h : Building env mem ifs l) (errno : Errno)
    (i : Nat × CString) :
    ∃ l', (nameindexAux env l errno i.1 i.2 = some (true, l', errno) ∧ Failed env mem l') ∨
      (nameindexAux env l errno i.1 i.2 = some (false, l', errno) ∧
        Building env mem (ifs ++ [i]) l') := by
  -- The name goes into the characters first.
  obtain ⟨off, l₁, hc, hfailed | ⟨rfl, hchars, hs₁, hoom₁, hcalls₁⟩⟩ :=
    addC_cases env hmem.chars h.chars i.2
  · have hfail := hfailed.failed h.records h.chars
    refine ⟨l₁, .inl ⟨?_, hfail⟩⟩
    simp [nameindexAux, hc, hfail.oom]
  · have hrecords₁ : l₁.s.Holds mem.records (recordsOf none 0 ifs) := by
      rw [hs₁]
      exact h.records
    rw [h.oom] at hoom₁
    -- Then the record, with the offset of the name in place of its address.
    obtain ⟨l₂, hs, hfailed | ⟨-, hrecords, hc₂, hoom₂, hcalls₂⟩⟩ :=
      addS_cases env hmem.records hrecords₁ i.1 ⟨none, (namesOf ifs).length⟩
    · have hfail := hfailed.failed hrecords₁ hchars
      refine ⟨l₂, .inl ⟨?_, hfail⟩⟩
      simp [nameindexAux, hc, hoom₁, hs, hfail.oom]
    · rw [hoom₁] at hoom₂
      refine ⟨l₂, .inr ⟨?_, ⟨?_, ?_, ?_, hoom₂, (hcalls₁.trans hcalls₂).calls h.calls⟩⟩⟩
      · simp [nameindexAux, hc, hoom₁, hs, hoom₂]
      · rw [recordsOf_concat, Nat.zero_add]
        exact hrecords
      · rw [namesOf_concat, hc₂]
        exact hchars
      · intro hnil
        simp at hnil

/-- The messages add their interfaces, or a call of `realloc` fails. -/
theorem deliver_nameindexAux (hmem : mem.Finite) (h : Building env mem ifs l) (errno : Errno)
    (rest : List (Nat × CString)) :
    ∃ l', deliver (nameindexAux env) (l, errno) rest = some (l', errno) ∧
      (Failed env mem l' ∨ Building env mem (ifs ++ rest) l') := by
  induction rest generalizing ifs l with
  | nil =>
      rw [List.append_nil]
      exact ⟨l, rfl, .inr h⟩
  | cons i rest ih =>
      obtain ⟨l₁, ⟨haux, hfail⟩ | ⟨haux, hbuild⟩⟩ := nameindexAux_cases hmem h errno i
      · exact ⟨l₁, deliver_cons_stop haux, .inl hfail⟩
      · obtain ⟨l', hrun, hend⟩ := ih hbuild
        rw [List.append_assoc] at hend
        exact ⟨l', (deliver_cons_next haux).trans hrun, hend⟩

/-- The conversion leaves the arrays where they are. -/
theorem convertAll_building (h : Building env mem ifs l) :
    ∃ l', convertAll l = some l' ∧ l'.s.Holds mem.records (recordsOf l.c.array 0 ifs) ∧
      l'.c = l.c ∧ l'.oom = false ∧ l'.calls = l.calls ∧ l'.s.len = l.s.len ∧
      l'.s.allocated = l.s.allocated := by
  unfold convertAll
  cases harray : l.s.array with
  | none =>
      -- Without an array there is no interface.
      have hnil : ifs = [] := by
        have hrecords := congrArg List.length (h.records.eq_nil harray)
        rw [length_recordsOf] at hrecords
        exact List.eq_nil_of_length_eq_zero hrecords
      subst hnil
      exact ⟨l, if_pos h.records.len_eq, h.records, rfl, h.oom, rfl, rfl, rfl⟩
  | some a =>
      have hlen : (recordsOf l.c.array 0 ifs).length = (recordsOf none 0 ifs).length := by
        rw [length_recordsOf, length_recordsOf]
      obtain ⟨hblock, hholds⟩ := h.records.update harray hlen
      have hconvert : convertOffsets l.c.array l.s.len
          (Block.filled (recordsOf none 0 ifs) l.s.allocated) =
          some (Block.filled (recordsOf l.c.array 0 ifs) l.s.allocated) := by
        rw [h.records.len_eq, length_recordsOf, Block.filled, Block.filled, hlen]
        exact convertOffsets_recordsOf _ _ _ _
      refine ⟨{ l with s := { l.s with
        heap := l.s.heap.store a (Block.filled (recordsOf l.c.array 0 ifs) l.s.allocated) } },
        ?_, hholds, rfl, h.oom, rfl, rfl, rfl⟩
      simp only [hblock, hconvert, Option.bind_eq_bind, Option.bind_some]
      rfl

/-! ### The end of `if_nameindex` -/

/-- The arrays of a list that is complete. -/
structure Built (mem : Memory) (ifs : List (Nat × CString)) (l : NameindexLocals) : Prop where
  records : l.s.Holds mem.records (recordsOf l.c.array 0 ifs ++ [⟨0, .null⟩])
  chars : l.c.Holds mem.chars (namesOf ifs)
  unused : ifs = [] → l.c.array = none

/-- The strings of the block are those of its bytes. -/
theorem Built.string (h : Built mem ifs l) (hne : ifs ≠ []) (off : Nat) :
    (⟨l.s.heap, l.c.heap⟩ : Memory).string ⟨l.c.array, off⟩ =
      CString.readAt (namesOf ifs) off := by
  obtain ⟨i, rest, rfl⟩ := List.exists_cons_of_ne_nil hne
  have hnames : namesOf (i :: rest) ≠ [] := by simp [namesOf, CString.bytes]
  obtain ⟨q, hq, hblock⟩ := h.chars.exists_block hnames
  simp only [Memory.string, hq, hblock, Option.bind_eq_bind, Option.bind_some,
    Block.stored_filled]

/-- The array is the list of the interfaces. -/
theorem Built.holdsList (h : Built mem ifs l) :
    ∃ a, l.s.array = some a ∧ (⟨l.s.heap, l.c.heap⟩ : Memory).HoldsList a ifs := by
  obtain ⟨a, ha, hblock⟩ := h.records.exists_block (by simp)
  refine ⟨a, ha, recordsOf l.c.array 0 ifs, l.s.allocated - (ifs.length + 1), ?_, ?_⟩
  · rw [Block.filled, List.map_append, List.append_assoc, List.length_append,
      length_recordsOf] at hblock
    exact hblock
  · by_cases hnil : ifs = []
    · rw [hnil]
      rfl
    · exact map_recordsOf [] _ (h.string hnil)

/-- `if_freenameindex` releases both arrays. -/
theorem Built.free (h : Built mem ifs l) :
    ifFreenameindex ⟨l.s.heap, l.c.heap⟩ l.s.array = some mem := by
  obtain ⟨a, ha, hblock⟩ := h.records.exists_block (by simp)
  have hfreeRecords := h.records.extends_base.freePtr
  have hfreeChars := h.chars.extends_base.freePtr
  -- The first record points to the characters, or it is the last and there are none.
  have hfirst : ∃ index, (Block.filled (recordsOf l.c.array 0 ifs ++ [⟨0, .null⟩])
      l.s.allocated).head? = some (some ⟨index, ⟨l.c.array, 0⟩⟩) := by
    cases ifs with
    | nil =>
        rw [h.unused rfl]
        exact ⟨0, rfl⟩
    | cons i ifs => exact ⟨i.1, rfl⟩
  obtain ⟨index, hfirst⟩ := hfirst
  rw [ha] at hfreeRecords ⊢
  have hfree : l.s.heap.free a = some mem.records := hfreeRecords
  simp only [ifFreenameindex, hblock, hfirst, Option.bind_eq_bind, Option.bind_some,
    Memory.freeChars, if_true, hfreeChars, hfree]
  rfl

/-- A failure of `realloc` is reported: NULL, with `errno`, and nothing is left. -/
theorem finishNameindex_failed (h : Failed env mem l) (errno : Errno) :
    finishNameindex env l errno = some ⟨none, ENOMEM, mem, l.calls⟩ := by
  obtain ⟨records, hrecords⟩ := h.records
  obtain ⟨chars, hchars⟩ := h.chars
  simp only [finishNameindex, h.oom, if_true, Option.bind_eq_bind, Option.bind_some,
    hrecords.extends_base.freePtr, hchars.extends_base.freePtr]
  rfl

/-- Behind the messages the list is complete, or the call of `realloc` for the terminating record
fails. -/
theorem finishNameindex_building (hmem : mem.Finite) (h : Building env mem ifs l)
    (errno : Errno) :
    ∃ l', (finishNameindex env l errno = some ⟨none, ENOMEM, mem, l'.calls⟩ ∧
        Failed env mem l' ∧ env.fails l.calls = true) ∨
      (finishNameindex env l errno =
          some ⟨l'.s.array, errno, ⟨l'.s.heap, l'.c.heap⟩, l'.calls⟩ ∧
        Built mem ifs l' ∧ (∀ k < l'.calls, env.fails k = false) ∧
        ¬ (l.s.len = l.s.allocated ∧ env.fails l.calls = true)) := by
  obtain ⟨l₁, hconvert, hrecords₁, hc₁, hoom₁, hcalls₁, hlen₁, halloc₁⟩ := convertAll_building h
  have hchars₁ : l₁.c.Holds mem.chars (namesOf ifs) := by
    rw [hc₁]
    exact h.chars
  -- The offsets are pointers now, and the terminating record follows.
  obtain ⟨l₂, hadd, hfailed | ⟨hroom, hrecords, hc₂, hoom₂, hcalls₂⟩⟩ :=
    addS_cases env hmem.records hrecords₁ 0 .null
  · have hfail := hfailed.failed hrecords₁ hchars₁
    have hlast := hfailed.fails
    rw [hcalls₁] at hlast
    refine ⟨l₂, .inl ⟨?_, hfail, hlast⟩⟩
    have hend := finishNameindex_failed hfail errno
    simp only [finishNameindex, hfail.oom, if_true, Option.bind_eq_bind, Option.bind_some]
      at hend
    simp only [finishNameindex, h.oom, hconvert, hadd, hfail.oom, if_true, Bool.false_eq_true,
      if_false, Option.bind_eq_bind, Option.bind_some]
    exact hend
  · rw [hoom₁] at hoom₂
    rw [hlen₁, halloc₁, hcalls₁] at hroom
    refine ⟨l₂, .inr ⟨?_, ⟨?_, ?_, ?_⟩, hcalls₂.calls ?_, hroom⟩⟩
    · simp only [finishNameindex, h.oom, hconvert, hadd, hoom₂, Bool.false_eq_true, if_false,
        Option.bind_eq_bind, Option.bind_some]
      rfl
    · rw [hc₂, hc₁]
      exact hrecords
    · rw [hc₂]
      exact hchars₁
    · rw [hc₂, hc₁]
      exact h.unused
    · rw [hcalls₁]
      exact h.calls

end Steps

/-! ### `if_nameindex` -/

section Nameindex

variable {env : IndexEnv} {fuel : Nat} {buf : RouteBuf} {mem : Memory}

/-- Behind a reply of the kernel the list is complete, or a call of `realloc` failed. -/
theorem ifNameindex_cases (hanswer : Answers env.sysctl fuel (.ok buf))
    (hwf : buf.WellFormedReply) (hmem : mem.Finite) (errno : Errno) :
    ∃ errno' l, (ifNameindex env fuel mem errno = .returned ⟨none, ENOMEM, mem, l.calls⟩ ∧
        Failed env mem l) ∨
      (ifNameindex env fuel mem errno =
          .returned ⟨l.s.array, errno', ⟨l.s.heap, l.c.heap⟩, l.calls⟩ ∧
        Built mem buf.ifList l ∧ ∀ k < l.calls, env.fails k = false) := by
  obtain ⟨errno', hiterate⟩ := hanswer.ifIterate_eq hwf errno
  obtain ⟨l, hrun, hfail | hbuild⟩ :=
    deliver_nameindexAux hmem (building_start env mem) errno' buf.ifList
  · refine ⟨errno', l, .inl ⟨?_, hfail⟩⟩
    simp only [ifNameindex, hiterate, hrun, Outcome.bind, finishNameindex_failed hfail]
  · obtain ⟨l', ⟨hfinish, hfail, -⟩ | ⟨hfinish, hbuilt, hcalls, -⟩⟩ :=
      finishNameindex_building hmem hbuild errno'
    · refine ⟨errno', l', .inl ⟨?_, hfail⟩⟩
      simp only [ifNameindex, hiterate, hrun, Outcome.bind, hfinish]
    · refine ⟨errno', l', .inr ⟨?_, hbuilt, hcalls⟩⟩
      simp only [ifNameindex, hiterate, hrun, Outcome.bind, hfinish]

/-- The states behind each call of `add_c` and `add_s`, and behind the conversion. -/
inductive Stepping (env : IndexEnv) (mem : Memory) : NameindexLocals → Prop
  | start : Stepping env mem (.start mem)
  | addC {l l' : NameindexLocals} {name : CString} {off : Nat} (hl : Stepping env mem l)
      (hadd : addC env l name = some (off, l')) : Stepping env mem l'
  | addS {l l' : NameindexLocals} {index : Nat} {name : Ptr} (hl : Stepping env mem l)
      (hadd : addS env l index name = some l') : Stepping env mem l'
  | convert {l l' : NameindexLocals} (hl : Stepping env mem l)
      (hconvert : convertAll l = some l') : Stepping env mem l'

/-- The lengths are below the sizes, which are those of the blocks, and the next stores are inside
the blocks. -/
structure Bounded (env : IndexEnv) (l : NameindexLocals) : Prop where
  s_len_le : l.s.len ≤ l.s.allocated
  c_len_le : l.c.len ≤ l.c.allocated
  s_block : ∀ a, l.s.array = some a → (l.s.heap a).map List.length = some l.s.allocated
  c_block : ∀ a, l.c.array = some a → (l.c.heap a).map List.length = some l.c.allocated
  addC_stores : ∀ name, (addC env l name).isSome
  addS_stores : ∀ index name, (addS env l index name).isSome

/-- The records so far have the index and the offset of the start of the name of each
interface. -/
def Collected (mem : Memory) (l : NameindexLocals) (ifs : List (Nat × CString)) : Prop :=
  ∃ records chars, l.s.Holds mem.records records ∧ l.c.Holds mem.chars chars ∧
    (∀ r ∈ records, r.ifName.block = none) ∧
    records.map (fun r => (r.ifIndex, CString.readAt chars r.ifName.off)) =
      ifs.map fun i => (i.1, some i.2)

/-- The conversion keeps the number of the records. -/
theorem convertOffsets_eq_some {c : Option Nat} {records : List IfNameindex}
    {rest b : Block IfNameindex}
    (h : convertOffsets c records.length (records.map some ++ rest) = some b) :
    ∃ records' : List IfNameindex, records'.length = records.length ∧
      b = records'.map some ++ rest := by
  induction records generalizing b with
  | nil =>
      cases h
      exact ⟨[], rfl, rfl⟩
  | cons r records ih =>
      rw [List.length_cons, List.map_cons, List.cons_append, convertOffsets] at h
      split at h
      · obtain ⟨b', hb', rfl⟩ := Option.map_eq_some_iff.mp h
        obtain ⟨records', hlen, rfl⟩ := ih hb'
        refine ⟨{ r with ifName := ⟨c, r.ifName.off⟩ } :: records', ?_, rfl⟩
        rw [List.length_cons, hlen, List.length_cons]
      · cases h

/-- The arrays hold something in every state. -/
theorem Stepping.holds {l : NameindexLocals} (hmem : mem.Finite) (h : Stepping env mem l) :
    (∃ records, l.s.Holds mem.records records) ∧ ∃ chars, l.c.Holds mem.chars chars := by
  induction h with
  | start => exact ⟨⟨[], ResizableArray.holds_empty _⟩, [], ResizableArray.holds_empty _⟩
  | @addC l l' name off _ hadd ih =>
      obtain ⟨⟨records, hs⟩, chars, hc⟩ := ih
      obtain ⟨off', l'', hadd', hcases⟩ := addC_cases env hmem.chars hc name
      rw [hadd, Option.some.injEq, Prod.mk.injEq] at hadd'
      obtain ⟨-, rfl⟩ := hadd'
      obtain ⟨-, rfl⟩ | ⟨-, hholds, hsame, -⟩ := hcases
      · exact ⟨⟨records, hs⟩, chars, hc⟩
      · rw [hsame]
        exact ⟨⟨records, hs⟩, _, hholds⟩
  | @addS l l' index name _ hadd ih =>
      obtain ⟨⟨records, hs⟩, chars, hc⟩ := ih
      obtain ⟨l'', hadd', hcases⟩ := addS_cases env hmem.records hs index name
      rw [hadd, Option.some.injEq] at hadd'
      subst hadd'
      obtain ⟨-, rfl⟩ | ⟨-, hholds, hsame, -⟩ := hcases
      · exact ⟨⟨records, hs⟩, chars, hc⟩
      · rw [hsame]
        exact ⟨⟨_, hholds⟩, chars, hc⟩
  -- The records stay as many, so the array holds them as before.
  | @convert l l' _ hconvert ih =>
      obtain ⟨⟨records, hs⟩, chars, hc⟩ := ih
      unfold convertAll at hconvert
      cases harray : l.s.array with
      | none =>
          simp only [harray] at hconvert
          split at hconvert
          · cases hconvert
            exact ⟨⟨records, hs⟩, chars, hc⟩
          · cases hconvert
      | some a =>
          have hblock := (hs.update harray rfl).1
          simp only [harray, hblock, Option.bind_eq_bind, Option.bind_some] at hconvert
          obtain ⟨b, hb, hl'⟩ := Option.bind_eq_some_iff.mp hconvert
          rw [hs.len_eq] at hb
          obtain ⟨records', hlen, rfl⟩ := convertOffsets_eq_some hb
          have hholds := (hs.update harray hlen).2
          rw [harray] at hholds
          rw [← hlen] at hl'
          cases hl'
          exact ⟨⟨records', hholds⟩, chars, hc⟩

/-- The heap stays finite. -/
theorem Stepping.bounded {l : NameindexLocals} (hmem : mem.Finite) (h : Stepping env mem l) :
    Bounded env l := by
  obtain ⟨⟨records, hs⟩, chars, hc⟩ := h.holds hmem
  refine ⟨?_, ?_, fun a ha => ?_, fun a ha => ?_, fun name => ?_, fun index name => ?_⟩
  · rw [hs.len_eq]
    exact hs.len_le
  · rw [hc.len_eq]
    exact hc.len_le
  · rw [(hs.update ha rfl).1, Option.map_some, Block.length_filled hs.len_le]
  · rw [(hc.update ha rfl).1, Option.map_some, Block.length_filled hc.len_le]
  · obtain ⟨off, l', hadd, -⟩ := addC_cases env hmem.chars hc name
    rw [hadd]
    rfl
  · obtain ⟨l', hadd, -⟩ := addS_cases env hmem.records hs index name
    rw [hadd]
    rfl

/-- One interface keeps the invariant. -/
theorem Stepping.nameindexAux {l l' : NameindexLocals} {errno errno' : Errno} {i : Nat × CString}
    {stop : Bool} (h : Stepping env mem l)
    (haux : nameindexAux env l errno i.1 i.2 = some (stop, l', errno')) : Stepping env mem l' := by
  obtain ⟨⟨off, l₁⟩, hadd, haux⟩ := Option.bind_eq_some_iff.mp haux
  simp only at haux
  split at haux
  · cases haux
    exact h.addC hadd
  · obtain ⟨l₂, hadd', haux⟩ := Option.bind_eq_some_iff.mp haux
    cases haux
    exact (h.addC hadd).addS hadd'

/-- All interfaces keep it. -/
theorem Stepping.deliver {l : NameindexLocals} {errno : Errno} {s : NameindexLocals × Errno}
    (h : Stepping env mem l) {ifs : List (Nat × CString)}
    (hrun : deliver (Interfaces.nameindexAux env) (l, errno) ifs = some s) :
    Stepping env mem s.1 := by
  induction ifs generalizing l errno with
  | nil =>
      cases hrun
      exact h
  | cons i ifs ih =>
      rw [deliver_cons_eq] at hrun
      cases haux : Interfaces.nameindexAux env l errno i.1 i.2 with
      | none => simp [haux] at hrun
      | some r =>
          obtain ⟨stop, l', errno'⟩ := r
          have hnext := h.nameindexAux haux
          cases stop with
          | true =>
              simp only [haux, Option.some.injEq] at hrun
              rw [← hrun]
              exact hnext
          | false =>
              simp only [haux] at hrun
              exact ih hnext hrun

/-- An array that is built has the interfaces. -/
theorem Building.collected {ifs : List (Nat × CString)} {l : NameindexLocals}
    (h : Building env mem ifs l) : Collected mem l ifs :=
  ⟨_, _, h.records, h.chars, fun _ => block_of_mem_recordsOf,
    map_recordsOf [] (fun p => CString.readAt (namesOf ifs) p.off) fun _ => rfl⟩

/-- `if_nameindex` builds the list intact when memory suffices: over any reply, and wherever the
arrays are moved to, the stores are inside the arrays, the offsets stay those of the names, and
the list has all interfaces and is released as a whole. -/
theorem ifNameindex_intact (hanswer : Answers env.sysctl fuel (.ok buf))
    (hwf : buf.WellFormedReply) (hmem : mem.Finite) (hsuffices : ∀ k, env.fails k = false)
    (errno : Errno) :
    (∃ r ifn, ifNameindex env fuel mem errno = .returned r ∧ r.ifn = some ifn ∧
      r.mem.HoldsList ifn buf.ifList ∧ ifFreenameindex r.mem r.ifn = some mem) ∧
    (∀ sdl, 0 ∉ buf.sdlName sdl →
      (buf.namebuf sdl).chars = (buf.sdlName sdl).take IFNAMSIZ) ∧
    (∀ l, Stepping env mem l → Bounded env l) ∧
    ∀ k, ∃ l, deliver (nameindexAux env) (.start mem, errno) (buf.ifList.take k) =
        some (l, errno) ∧ Stepping env mem l ∧ Collected mem l (buf.ifList.take k) := by
  have hnofail : ∀ l, ¬ Failed env mem l := fun l hfail => by
    obtain ⟨k, -, hk⟩ := hfail.fails
    rw [hsuffices k] at hk
    cases hk
  -- Memory suffices, so every run ends with a list that is complete.
  refine ⟨?_, fun sdl => buf.chars_namebuf, fun l hl => hl.bounded hmem, fun k => ?_⟩
  · obtain ⟨errno', l, ⟨-, hfail⟩ | ⟨hreturned, hbuilt, -⟩⟩ :=
      ifNameindex_cases hanswer hwf hmem errno
    · exact absurd hfail (hnofail l)
    · obtain ⟨ifn, hifn, hlist⟩ := hbuilt.holdsList
      exact ⟨_, ifn, hreturned, hifn, hlist, hbuilt.free⟩
  · obtain ⟨l, hrun, hfail | hbuild⟩ :=
      deliver_nameindexAux hmem (building_start env mem) errno (buf.ifList.take k)
    · exact absurd hfail (hnofail l)
    · exact ⟨l, hrun, Stepping.start.deliver hrun, hbuild.collected⟩

end Nameindex

/-- The interfaces `lo0` and `em0`, and an address of the first. -/
def twoInterfaces : RouteBuf where
  mem p :=
    ([224, 0, RTM_VERSION, RTM_IFINFO, 16, 0, 0, 0, 73, 128, 0, 0, 1, 0] ++ List.replicate 154 0 ++
      [54, 18, 1, 0, 24, 3, 0, 0, 108, 111, 48] ++ List.replicate 45 0 ++
      [36, 0, RTM_VERSION, RTM_NEWADDR, 32, 0, 0, 0, 0, 0, 0, 0, 1, 0] ++ List.replicate 6 0 ++
      [16, 2, 0, 0, 127, 0, 0, 1] ++ List.replicate 8 0 ++
      [224, 0, RTM_VERSION, RTM_IFINFO, 16, 0, 0, 0, 67, 136, 0, 0, 2, 0] ++
      List.replicate 154 0 ++ [54, 18, 2, 0, 6, 3, 6, 0, 101, 109, 48] ++
      List.replicate 45 0).getD p 0
  needed := 484

/-- The name of the loopback interface. -/
def lo0 : CString := ⟨[108, 111, 48], by decide⟩

/-- The name of a network card. -/
def em0 : CString := ⟨[101, 109, 48], by decide⟩

/-- The kernel may say this. -/
theorem wellFormedReply_twoInterfaces : twoInterfaces.WellFormedReply := by
  have hmessages : twoInterfaces.messages = [0, 224, 260] := by decide
  intro p hp
  rw [hmessages] at hp
  simp only [List.mem_cons, List.not_mem_nil, or_false] at hp
  obtain rfl | rfl | rfl := hp <;> exact ⟨by decide, by decide, by decide, by decide, by decide⟩

/-- What it says. -/
theorem ifList_twoInterfaces : twoInterfaces.ifList = [(1, lo0), (2, em0)] := by decide

/-- A kernel that gives the same reply to each call, which has an `errno` if the call fails. -/
noncomputable def kernelOf (reply : SysctlReply) : IndexEnv where
  sysctl _ _ := reply
  records := .lowest _
  chars := .lowest _
  fails _ := false

/-- Nothing is allocated. -/
def Memory.empty : Memory := ⟨fun _ => none, fun _ => none⟩

/-- The empty memory is finite. -/
theorem Memory.finite_empty : Memory.empty.Finite :=
  ⟨⟨0, fun _ _ => rfl⟩, ⟨0, fun _ _ => rfl⟩⟩

/-- The first call answers. -/
theorem answers_twoInterfaces :
    Answers (kernelOf ⟨none, twoInterfaces⟩).sysctl 1 (.ok twoInterfaces) := ⟨_, rfl⟩

/-- The list of two interfaces, which is freed. -/
theorem ifNameindex_intact_two :
    ∃ r ifn, ifNameindex (kernelOf ⟨none, twoInterfaces⟩) 1 .empty 0 = .returned r ∧
      r.ifn = some ifn ∧ r.mem.HoldsList ifn [(1, lo0), (2, em0)] ∧
      ifFreenameindex r.mem r.ifn = some .empty := by
  rw [← ifList_twoInterfaces]
  exact (ifNameindex_intact answers_twoInterfaces
    wellFormedReply_twoInterfaces Memory.finite_empty (fun _ => rfl) 0).1

/-! ### Failures -/

section Failures

variable {env : IndexEnv} {fuel : Nat} {buf : RouteBuf} {mem : Memory}

/-- What `if_nameindex` returns reports the failures of its calls: NULL comes with `errno` and
leaves nothing behind, and a list comes when no call failed, and is complete. -/
def ReportsFailures (env : IndexEnv) (mem : Memory) : Outcome NameindexResult → Prop
  | .returned r =>
      match r.ifn with
      | none => r.errno = ENOMEM ∧ r.mem = mem
      | some ifn => (∀ k < r.calls, env.fails k = false) ∧
          ∃ n, FirstAnswer env.sysctl n ∧ (replyAt env.sysctl n).errno = none ∧
            r.mem.HoldsList ifn (replyAt env.sysctl n).buf.ifList
  | _ => False

/-- Behind a failure of `__sysctl` the list is empty, if there is memory for it. -/
theorem ifNameindex_error {errno' : Errno} (hanswer : Answers env.sysctl fuel (.error errno'))
    (hmem : mem.Finite) (errno : Errno) :
    ∃ r, ifNameindex env fuel mem errno = .returned r ∧
      if env.fails 0 = true then r.ifn = none ∧ r.errno = ENOMEM ∧ r.mem = mem
      else ∃ ifn, r.ifn = some ifn ∧ r.mem.HoldsList ifn [] := by
  have hiterate := hanswer.ifIterate_error (nameindexAux env) (.start mem) errno
  obtain ⟨l, ⟨hfinish, -, hfails⟩ | ⟨hfinish, hbuilt, -, hroom⟩⟩ :=
    finishNameindex_building hmem (building_start env mem) errno'
  · refine ⟨⟨none, ENOMEM, mem, l.calls⟩, ?_, ?_⟩
    · simp only [ifNameindex, hiterate, Outcome.bind, hfinish]
    · have hfirst : env.fails 0 = true := hfails
      rw [if_pos hfirst]
      exact ⟨rfl, rfl, rfl⟩
  · refine ⟨⟨l.s.array, errno', ⟨l.s.heap, l.c.heap⟩, l.calls⟩, ?_, ?_⟩
    · simp only [ifNameindex, hiterate, Outcome.bind, hfinish]
    · have hfirst : ¬ env.fails 0 = true := fun hfails => hroom ⟨rfl, hfails⟩
      rw [if_neg hfirst]
      exact hbuilt.holdsList

/-- `if_nameindex` does not return before `if_iterate` has left its loop. -/
theorem exists_answers_of_reports {errno : Errno}
    (h : ReportsFailures env mem (ifNameindex env fuel mem errno)) :
    ∃ answer, Answers env.sysctl fuel answer := by
  unfold ifNameindex ifIterate at h
  cases hloop : forever (sysctlTurn env.sysctl) fuel (0, 512) with
  | left s r => exact ⟨r, s, hloop⟩
  | fault =>
      rw [hloop] at h
      exact h.elim
  | running =>
      rw [hloop] at h
      exact h.elim

/-- Behind a reply the list is complete, or NULL comes with `errno`. -/
theorem reports_of_reply {n : Nat} (hfirst : FirstAnswer env.sysctl n)
    (hreply : (replyAt env.sysctl n).errno = none)
    (hwf : (replyAt env.sysctl n).buf.WellFormedReply) (hmem : mem.Finite) (errno : Errno)
    (hfuel : n < fuel) : ReportsFailures env mem (ifNameindex env fuel mem errno) := by
  have hanswer := hfirst.answers hfuel
  rw [SysctlReply.toExcept, hreply] at hanswer
  obtain ⟨errno', l, ⟨hreturned, -⟩ | ⟨hreturned, hbuilt, hcalls⟩⟩ :=
    ifNameindex_cases hanswer hwf hmem errno
  · rw [hreturned]
    exact ⟨rfl, rfl⟩
  · obtain ⟨ifn, hifn, hlist⟩ := hbuilt.holdsList
    rw [hreturned]
    simp only [ReportsFailures, hifn]
    exact ⟨hcalls, n, hfirst, hreply, hlist⟩

/-- Behind a failure of `__sysctl` the failure is reported if there is no memory for the list. -/
theorem reports_of_error_iff {n : Nat} {errno' : Errno} (hfirst : FirstAnswer env.sysctl n)
    (herror : (replyAt env.sysctl n).errno = some errno') (hmem : mem.Finite) (errno : Errno)
    (hfuel : n < fuel) :
    ReportsFailures env mem (ifNameindex env fuel mem errno) ↔ env.fails 0 = true := by
  have hanswer := hfirst.answers hfuel
  rw [SysctlReply.toExcept, herror] at hanswer
  obtain ⟨r, hreturned, hend⟩ := ifNameindex_error hanswer hmem errno
  rw [hreturned]
  by_cases hfails : env.fails 0 = true
  · rw [if_pos hfails] at hend
    refine iff_of_true ?_ hfails
    simp only [ReportsFailures, hend.1]
    exact hend.2
  · rw [if_neg hfails] at hend
    obtain ⟨ifn, hifn, -⟩ := hend
    refine iff_of_false (fun hreports => ?_) hfails
    simp only [ReportsFailures, hifn] at hreports
    obtain ⟨-, m, hfirst', hreply, -⟩ := hreports
    rw [hfirst'.unique hfirst, herror] at hreply
    cases hreply

/-- `if_nameindex` returns and reports every failure exactly when the calls of `__sysctl` come to
an end, and this is a reply, or the first call of `realloc` fails too. -/
theorem ifNameindex_reports_iff
    (hwf : ∀ n, FirstAnswer env.sysctl n → (replyAt env.sysctl n).errno = none →
      (replyAt env.sysctl n).buf.WellFormedReply)
    (hmem : mem.Finite) (errno : Errno) :
    (∃ rounds, ∀ fuel, rounds ≤ fuel →
        ReportsFailures env mem (ifNameindex env fuel mem errno)) ↔
      ∃ n, FirstAnswer env.sysctl n ∧
        ((replyAt env.sysctl n).errno ≠ none → env.fails 0 = true) := by
  constructor
  · -- A call that returns had an answer, and an error is reported by the first `realloc` only.
    rintro ⟨rounds, hreports⟩
    obtain ⟨answer, hanswer⟩ := exists_answers_of_reports (hreports rounds le_rfl)
    obtain ⟨n, hfirst, -⟩ := hanswer.exists_firstAnswer
    refine ⟨n, hfirst, fun herror => ?_⟩
    obtain ⟨errno', herrno⟩ := Option.ne_none_iff_exists'.mp herror
    exact (reports_of_error_iff hfirst herrno hmem errno (by omega)).mp
      (hreports (rounds + n + 1) (by omega))
  · rintro ⟨n, hfirst, hfails⟩
    refine ⟨n + 1, fun fuel hfuel => ?_⟩
    cases hreply : (replyAt env.sysctl n).errno with
    | none => exact reports_of_reply hfirst hreply (hwf n hfirst hreply) hmem errno hfuel
    | some errno' =>
        rw [hreply] at hfails
        exact (reports_of_error_iff hfirst hreply hmem errno hfuel).mpr
          (hfails (Option.some_ne_none errno'))

end Failures

/-- The first call of a kernel that does not say `ENOMEM` is the one it answers. -/
theorem firstAnswer_kernelOf {reply : SysctlReply} (h : reply.errno ≠ some ENOMEM) :
    FirstAnswer (kernelOf reply).sysctl 0 :=
  ⟨fun k hk => absurd hk (Nat.not_lt_zero k), h⟩

/-- With enough fuel nothing fails that is not reported. -/
theorem ifNameindex_reports_iff_two :
    ∃ rounds, ∀ fuel, rounds ≤ fuel →
      ReportsFailures (kernelOf ⟨none, twoInterfaces⟩) .empty
        (ifNameindex (kernelOf ⟨none, twoInterfaces⟩) fuel .empty 0) :=
  (@ifNameindex_reports_iff (kernelOf ⟨none, twoInterfaces⟩) .empty
    (fun _ _ _ => wellFormedReply_twoInterfaces) Memory.finite_empty 0).mpr
    ⟨0, firstAnswer_kernelOf (by decide), fun herror => absurd rfl herror⟩

/-- The kernel says `EINVAL`, and `if_nameindex` returns an empty list. -/
theorem ifNameindex_hides_error :
    FirstAnswer (kernelOf ⟨some EINVAL, twoInterfaces⟩).sysctl 0 ∧
      (∃ r ifn, ifNameindex (kernelOf ⟨some EINVAL, twoInterfaces⟩) 1 .empty 0 = .returned r ∧
        r.ifn = some ifn ∧ r.mem.HoldsList ifn []) ∧
      ¬ ReportsFailures (kernelOf ⟨some EINVAL, twoInterfaces⟩) .empty
        (ifNameindex (kernelOf ⟨some EINVAL, twoInterfaces⟩) 1 .empty 0) := by
  have hfirst : FirstAnswer (kernelOf ⟨some EINVAL, twoInterfaces⟩).sysctl 0 :=
    firstAnswer_kernelOf (by decide)
  have hfails : ¬ (kernelOf ⟨some EINVAL, twoInterfaces⟩).fails 0 = true := by decide
  obtain ⟨r, hreturned, hend⟩ :=
    ifNameindex_error (hfirst.answers Nat.zero_lt_one) Memory.finite_empty 0
  rw [if_neg hfails] at hend
  obtain ⟨ifn, hifn, hlist⟩ := hend
  refine ⟨hfirst, ⟨r, ifn, hreturned, hifn, hlist⟩, fun hreports => ?_⟩
  exact hfails
    ((reports_of_error_iff hfirst rfl Memory.finite_empty 0 Nat.zero_lt_one).mp hreports)

end GlibcPorts.Interfaces
