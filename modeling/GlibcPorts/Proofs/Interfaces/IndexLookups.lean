import GlibcPorts.Proofs.Interfaces.NameList
import Mathlib.Data.List.Nodup

/-!
# `GlibcPorts.Proofs.Interfaces.IndexLookups`: the three lookups agree

`if_nametoindex` and `if_indextoname` stop at the first interface that matches, and
`if_nameindex` runs over all of them. Over the same reply the first two are searches in
`RouteBuf.ifList` (`deliver_nametoindexAux`, `deliver_indextonameAux`), and the entries of the
list that `if_nameindex` returns are the interfaces of `RouteBuf.ifList`
(`Memory.isEntry_iff`). `lookups_agree` puts them together: without two interfaces of the same
index or the same name, each of the three says the same of an index and a name.
-/

set_option autoImplicit false

namespace GlibcPorts.Interfaces

open Lib

/-! ### The entries of a list -/

/-- The records of a list up to `{0, NULL}`, as a program reads them. -/
def readRecords : Block IfNameindex → Option (List IfNameindex)
  | some r :: b => if r = ⟨0, .null⟩ then some [] else (readRecords b).map (r :: ·)
  | _ => none

/-- The list at `ifn` has an entry with this index and this name. -/
def Memory.IsEntry (mem : Memory) (ifn index : Nat) (name : CString) : Prop :=
  ∃ b records r, mem.records ifn = some b ∧ readRecords b = some records ∧ r ∈ records ∧
    r.ifIndex = index ∧ mem.string r.ifName = some name

/-- The list ends at its null record. -/
theorem readRecords_eq {records : List IfNameindex} (rest : Block IfNameindex)
    (h : ∀ r ∈ records, r ≠ ⟨0, .null⟩) :
    readRecords (records.map some ++ some ⟨0, .null⟩ :: rest) = some records := by
  induction records with
  | nil => exact if_pos rfl
  | cons r records ih =>
      have hrest := ih fun r' hr' => h r' (List.mem_cons_of_mem r hr')
      rw [List.map_cons, List.cons_append, readRecords, if_neg (h r List.mem_cons_self), hrest]
      rfl

/-- The entries of a list are the interfaces that it is for. -/
theorem Memory.isEntry_iff {mem : Memory} {ifn : Nat} {ifs : List (Nat × CString)}
    (h : mem.HoldsList ifn ifs) (index : Nat) (name : CString) :
    mem.IsEntry ifn index name ↔ (index, name) ∈ ifs := by
  obtain ⟨records, spare, hblock, hmap⟩ := h
  -- A record of an interface points to a name, so it is not the last one.
  have hnotlast : ∀ r ∈ records, r ≠ ⟨0, .null⟩ := by
    rintro r hr rfl
    have hmem := List.mem_map_of_mem (f := fun r => (r.ifIndex, mem.string r.ifName)) hr
    rw [hmap] at hmem
    obtain ⟨i, -, hi⟩ := List.mem_map.mp hmem
    have hnone : some i.2 = none := congrArg Prod.snd hi
    cases hnone
  have hread := readRecords_eq (Block.fresh spare) hnotlast
  have hiff : (∃ r ∈ records, r.ifIndex = index ∧ mem.string r.ifName = some name) ↔
      (index, some name) ∈ records.map fun r => (r.ifIndex, mem.string r.ifName) := by
    simp only [List.mem_map, Prod.mk.injEq]
  have hmem : (index, some name) ∈ ifs.map (fun i => (i.1, some i.2)) ↔ (index, name) ∈ ifs := by
    simp
  rw [← hmem, ← hmap, ← hiff]
  constructor
  · rintro ⟨b, records', r, hb, hrecords, hr, hentry⟩
    rw [hblock, Option.some.injEq] at hb
    subst hb
    rw [hread, Option.some.injEq] at hrecords
    subst hrecords
    exact ⟨r, hr, hentry⟩
  · rintro ⟨r, hr, hentry⟩
    exact ⟨_, records, r, hblock, hread, hr, hentry⟩

/-! ### The searches -/

section Searches

/-- `if_nametoindex` looks for the first interface with the name. -/
theorem deliver_nametoindexAux (name : CString) (index : Nat) (errno : Errno)
    (ifs : List (Nat × CString)) :
    deliver nametoindexAux (⟨name, index⟩, errno) ifs =
      some (⟨name, ((ifs.find? fun i => i.2 = name).map Prod.fst).getD index⟩, errno) := by
  induction ifs with
  | nil => rfl
  | cons i ifs ih =>
      by_cases hname : i.2 = name
      · have haux : nametoindexAux ⟨name, index⟩ errno i.1 i.2 =
            some (true, ⟨name, i.1⟩, errno) := if_pos hname
        rw [deliver_cons_stop haux, List.find?_cons_of_pos (by simpa using hname)]
        rfl
      · have haux : nametoindexAux ⟨name, index⟩ errno i.1 i.2 =
            some (false, ⟨name, index⟩, errno) := if_neg hname
        rw [deliver_cons_next haux, List.find?_cons_of_neg (by simpa using hname), ih]

/-- `if_indextoname` looks for the first interface with the index. -/
theorem deliver_indextonameAux (index : Nat) (ifname : ByteField IF_NAMESIZE) (errno : Errno)
    (ifs : List (Nat × CString)) :
    ∃ errno', deliver indextonameAux (⟨index, ifname, false⟩, errno) ifs =
      some (match ifs.find? fun i => i.1 = index with
        | some i => ⟨index, ifname.strncpy i.2.bytes IF_NAMESIZE le_rfl, true⟩
        | none => ⟨index, ifname, false⟩, errno') := by
  induction ifs generalizing errno with
  | nil => exact ⟨errno, rfl⟩
  | cons i ifs ih =>
      by_cases hindex : i.1 = index
      · have haux : indextonameAux ⟨index, ifname, false⟩ errno i.1 i.2 =
            some (true, ⟨index, ifname.strncpy i.2.bytes IF_NAMESIZE le_rfl, true⟩, errno) :=
          if_pos hindex
        refine ⟨errno, ?_⟩
        rw [deliver_cons_stop haux, List.find?_cons_of_pos (by simpa using hindex)]
      · have haux : indextonameAux ⟨index, ifname, false⟩ errno i.1 i.2 =
            some (false, ⟨index, ifname, false⟩, ENXIO) := if_neg hindex
        obtain ⟨errno', hrun⟩ := ih ENXIO
        refine ⟨errno', ?_⟩
        rw [deliver_cons_next haux, List.find?_cons_of_neg (by simpa using hindex), hrun]

end Searches

/-- The search for a key that no two elements share. -/
theorem find?_key_eq_some_iff {α κ : Type} [DecidableEq κ] {f : α → κ} {as : List α}
    (h : (as.map f).Nodup) {k : κ} {a : α} :
    (as.find? fun x => f x = k) = some a ↔ a ∈ as ∧ f a = k := by
  constructor
  · intro hfind
    have hkey := List.find?_some hfind
    exact ⟨List.mem_of_find?_eq_some hfind, of_decide_eq_true hkey⟩
  · rintro ⟨hmem, rfl⟩
    -- What is found first has the same key, so it is the same element.
    cases hfind : as.find? fun x => f x = f a with
    | none =>
        have hnot := List.find?_eq_none.mp hfind a hmem
        simp at hnot
    | some b =>
        have hkey := List.find?_some hfind
        have hsame := List.inj_on_of_nodup_map h (List.mem_of_find?_eq_some hfind) hmem
          (of_decide_eq_true hkey)
        rw [hsame]

section Lookups

variable (sysctl : Nat → Nat → SysctlReply) (fuel : Nat)

/-- `if_nametoindex (name)` returns `index`. -/
def NametoindexReturns (name : CString) (errno : Errno) (index : Nat) : Prop :=
  ∃ errno', ifNametoindex sysctl fuel name errno = .returned (index, errno')

/-- `if_indextoname (index)` returns its array, and the string there is `name`. -/
def IndextonameYields (index : Nat) (ifname : ByteField IF_NAMESIZE) (errno : Errno)
    (name : CString) : Prop :=
  ∃ field errno', ifIndextoname sysctl fuel index ifname errno = .returned (true, field, errno') ∧
    0 ∈ field.bytes ∧ field.str = name

/-- `if_indextoname (index)` returns NULL. -/
def IndextonameFails (index : Nat) (ifname : ByteField IF_NAMESIZE) (errno : Errno) : Prop :=
  ∃ field errno', ifIndextoname sysctl fuel index ifname errno = .returned (false, field, errno')

variable {sysctl fuel} {buf : RouteBuf} {index : Nat} {name : CString} {errno : Errno}
  {ifname : ByteField IF_NAMESIZE}

/-- The index that is returned is that of the first interface of the name, or 0. -/
theorem nametoindexReturns_iff (hanswer : Answers sysctl fuel (.ok buf))
    (hwf : buf.WellFormedReply) :
    NametoindexReturns sysctl fuel name errno index ↔
      ((buf.ifList.find? fun i => i.2 = name).map Prod.fst).getD 0 = index := by
  obtain ⟨errno', hiterate⟩ := hanswer.ifIterate_eq hwf errno
  have hreturned : ifNametoindex sysctl fuel name errno =
      .returned (((buf.ifList.find? fun i => i.2 = name).map Prod.fst).getD 0, errno') := by
    simp only [ifNametoindex, hiterate, deliver_nametoindexAux, Outcome.bind]
  simp [NametoindexReturns, hreturned]

/-- What `if_indextoname` returns is the first interface with the index. -/
theorem ifIndextoname_eq (hanswer : Answers sysctl fuel (.ok buf)) (hwf : buf.WellFormedReply)
    (index : Nat) (ifname : ByteField IF_NAMESIZE) (errno : Errno) :
    ∃ errno', ifIndextoname sysctl fuel index ifname errno =
      .returned (match buf.ifList.find? fun i => i.1 = index with
        | some i => (true, ifname.strncpy i.2.bytes IF_NAMESIZE le_rfl, errno')
        | none => (false, ifname, errno')) := by
  obtain ⟨errno₁, hiterate⟩ := hanswer.ifIterate_eq hwf errno
  obtain ⟨errno₂, hrun⟩ := deliver_indextonameAux index ifname errno₁ buf.ifList
  refine ⟨errno₂, ?_⟩
  simp only [ifIndextoname, hiterate, hrun, Outcome.bind]
  cases buf.ifList.find? fun i => i.1 = index <;> rfl

/-- No name is returned when no interface has the index. -/
theorem indextonameFails_iff (hanswer : Answers sysctl fuel (.ok buf))
    (hwf : buf.WellFormedReply) :
    IndextonameFails sysctl fuel index ifname errno ↔ ∀ i ∈ buf.ifList, i.1 ≠ index := by
  obtain ⟨errno', hreturned⟩ := ifIndextoname_eq hanswer hwf index ifname errno
  have hnone : (buf.ifList.find? fun i => i.1 = index) = none ↔
      ∀ i ∈ buf.ifList, i.1 ≠ index := by
    simp [List.find?_eq_none]
  rw [← hnone]
  cases hfind : buf.ifList.find? fun i => i.1 = index <;>
    simp [IndextonameFails, hreturned, hfind]

/-- The array that `if_indextoname` fills holds a name of at most 15 bytes with its NUL. -/
theorem indextonameYields_iff (hanswer : Answers sysctl fuel (.ok buf))
    (hwf : buf.WellFormedReply) (hindices : (buf.ifList.map Prod.fst).Nodup)
    (hshort : ∀ i ∈ buf.ifList, i.2.strlen ≤ 15) :
    IndextonameYields sysctl fuel index ifname errno name ↔ (index, name) ∈ buf.ifList := by
  obtain ⟨errno', hreturned⟩ := ifIndextoname_eq hanswer hwf index ifname errno
  -- `strncpy` copies a name that is short as a whole, and sets the rest to NUL.
  have hfield : ∀ i ∈ buf.ifList,
      (ifname.strncpy i.2.bytes IF_NAMESIZE le_rfl).str = i.2 ∧
        0 ∈ (ifname.strncpy i.2.bytes IF_NAMESIZE le_rfl).bytes := by
    intro i hi
    have hlen := hshort i hi
    have hself : CString.upToNul i.2.bytes = i.2 := by
      have hbytes := CString.upToNul_bytes_append i.2 []
      rwa [List.append_nil] at hbytes
    have hstr : (ifname.strncpy i.2.bytes IF_NAMESIZE le_rfl).str = i.2 := by
      rw [ByteField.str_strncpy_full, CString.cut_eq_upToNul, hself]
      rw [hself]
      exact hlen.trans (by decide)
    refine ⟨hstr, (ByteField.strlen_str_lt_iff _).mp ?_⟩
    rw [hstr]
    exact Nat.lt_of_le_of_lt hlen (by decide)
  constructor
  · rintro ⟨field, errno₁, heq, -, hstr⟩
    rw [hreturned] at heq
    cases hfind : buf.ifList.find? fun i => i.1 = index with
    | none => simp [hfind] at heq
    | some i =>
        obtain ⟨hmem, hindex⟩ := (find?_key_eq_some_iff hindices).mp hfind
        simp only [hfind, Outcome.returned.injEq, Prod.mk.injEq, true_and] at heq
        rw [← heq.1, (hfield i hmem).1] at hstr
        rw [← hindex, ← hstr]
        exact hmem
  · intro hmem
    have hfind := (find?_key_eq_some_iff hindices).mpr ⟨hmem, rfl⟩
    obtain ⟨hstr, hnul⟩ := hfield _ hmem
    refine ⟨_, errno', ?_, hnul, hstr⟩
    rw [hreturned, hfind]

/-- No interface has the index 0. -/
theorem index_ne_zero (hwf : buf.WellFormedReply) {i : Nat × CString} (h : i ∈ buf.ifList) :
    i.1 ≠ 0 := by
  obtain ⟨p, hp, rfl⟩ := List.mem_map.mp h
  obtain ⟨hmem, hnames⟩ := List.mem_filter.mp hp
  exact (hwf p hmem).index_ne hnames

/-- An index is returned exactly for an interface that is in the list. -/
theorem nametoindexReturns_ne_zero_iff (hanswer : Answers sysctl fuel (.ok buf))
    (hwf : buf.WellFormedReply) (hnames : (buf.ifList.map Prod.snd).Nodup) :
    (NametoindexReturns sysctl fuel name errno index ∧ index ≠ 0) ↔
      (index, name) ∈ buf.ifList := by
  rw [nametoindexReturns_iff hanswer hwf]
  constructor
  · rintro ⟨hreturned, hne⟩
    -- The names differ, so the first interface of the name is the one.
    cases hfind : buf.ifList.find? fun i => i.2 = name with
    | none =>
        rw [hfind] at hreturned
        exact absurd hreturned.symm hne
    | some i =>
        obtain ⟨hmem, hname⟩ := (find?_key_eq_some_iff hnames).mp hfind
        have hindex : i.1 = index := by
          rw [hfind] at hreturned
          exact hreturned
        rw [← hindex, ← hname]
        exact hmem
  · intro hmem
    have hfind := (find?_key_eq_some_iff hnames).mpr ⟨hmem, rfl⟩
    rw [hfind]
    exact ⟨rfl, index_ne_zero hwf hmem⟩

/-- No index is returned exactly for a name that is not. -/
theorem nametoindexReturns_zero_iff (hanswer : Answers sysctl fuel (.ok buf))
    (hwf : buf.WellFormedReply) :
    NametoindexReturns sysctl fuel name errno 0 ↔ ∀ index, (index, name) ∉ buf.ifList := by
  rw [nametoindexReturns_iff hanswer hwf]
  constructor
  · intro hzero index hmem
    cases hfind : buf.ifList.find? fun i => i.2 = name with
    | none =>
        have hnot := List.find?_eq_none.mp hfind _ hmem
        simp at hnot
    | some i =>
        rw [hfind] at hzero
        exact index_ne_zero hwf (List.mem_of_find?_eq_some hfind) hzero
  · intro hnot
    have hnone : (buf.ifList.find? fun i => i.2 = name) = none := by
      rw [List.find?_eq_none]
      rintro ⟨index, name'⟩ hmem hname
      rw [← of_decide_eq_true hname] at hnot
      exact hnot index hmem
    rw [hnone]
    rfl

end Lookups

/-- For a reply where no two interfaces have the same index or the same name, and names that leave
room for a NUL, the three lookups say the same of each index and each name: what the messages of
the reply say. There is a list to look at unless memory is short. -/
theorem lookups_agree {env : IndexEnv} {fuel : Nat} {buf : RouteBuf} {mem : Memory}
    (hanswer : Answers env.sysctl fuel (.ok buf)) (hwf : buf.WellFormedReply)
    (hindices : (buf.ifList.map Prod.fst).Nodup) (hnames : (buf.ifList.map Prod.snd).Nodup)
    (hshort : ∀ i ∈ buf.ifList, i.2.strlen ≤ 15) (hmem : mem.Finite) (errno : Errno)
    (ifname : ByteField IF_NAMESIZE) :
    (∀ index name,
      ((NametoindexReturns env.sysctl fuel name errno index ∧ index ≠ 0) ↔
        IndextonameYields env.sysctl fuel index ifname errno name) ∧
      (IndextonameYields env.sysctl fuel index ifname errno name ↔
        (index, name) ∈ buf.ifList)) ∧
    (∀ r ifn, ifNameindex env fuel mem errno = .returned r → r.ifn = some ifn →
      ∀ index name,
        (IndextonameYields env.sysctl fuel index ifname errno name ↔
          r.mem.IsEntry ifn index name) ∧
        (NametoindexReturns env.sysctl fuel name errno 0 ↔
          ∀ index, ¬ r.mem.IsEntry ifn index name) ∧
        (IndextonameFails env.sysctl fuel index ifname errno ↔
          ∀ name, ¬ r.mem.IsEntry ifn index name)) ∧
    ((∀ k, env.fails k = false) →
      ∃ r ifn, ifNameindex env fuel mem errno = .returned r ∧ r.ifn = some ifn) := by
  have hyields : ∀ index name, IndextonameYields env.sysctl fuel index ifname errno name ↔
      (index, name) ∈ buf.ifList := fun _ _ => indextonameYields_iff hanswer hwf hindices hshort
  have hcases := ifNameindex_cases hanswer hwf hmem errno
  refine ⟨fun index name => ?_, fun r ifn hr hifn index name => ?_, fun hsuffices => ?_⟩
  · rw [nametoindexReturns_ne_zero_iff hanswer hwf hnames, hyields]
    exact ⟨Iff.rfl, Iff.rfl⟩
  · obtain ⟨errno', l, ⟨hreturned, -⟩ | ⟨hreturned, hbuilt, -⟩⟩ := hcases
    · rw [hreturned, Outcome.returned.injEq] at hr
      subst hr
      cases hifn
    rw [hreturned, Outcome.returned.injEq] at hr
    subst hr
    -- The list that was returned is the one that was built, so its entries are the interfaces.
    obtain ⟨ifn', hifn', hlist⟩ := hbuilt.holdsList
    rw [hifn', Option.some.injEq] at hifn
    subst hifn
    have hentry := Memory.isEntry_iff hlist
    refine ⟨?_, ?_, ?_⟩
    · rw [hyields, hentry]
    · simp only [nametoindexReturns_zero_iff hanswer hwf, hentry]
    · rw [indextonameFails_iff hanswer hwf]
      simp only [hentry]
      constructor
      · exact fun hall name hmem => hall _ hmem rfl
      · rintro hnot ⟨index', name⟩ hmem rfl
        exact hnot name hmem
  · obtain ⟨errno', l, ⟨-, hfail⟩ | ⟨hreturned, hbuilt, -⟩⟩ := hcases
    · obtain ⟨k, -, hk⟩ := hfail.fails
      rw [hsuffices k] at hk
      cases hk
    · obtain ⟨ifn, hifn, -⟩ := hbuilt.holdsList
      exact ⟨_, ifn, hreturned, hifn⟩

/-- The interface `em0` has the index 2. -/
theorem lookups_agree_two :
    NametoindexReturns (kernelOf ⟨none, twoInterfaces⟩).sysctl 1 em0 0 2 ∧
      IndextonameYields (kernelOf ⟨none, twoInterfaces⟩).sysctl 1 2 (ByteField.zero _) 0 em0 := by
  have hindices : (twoInterfaces.ifList.map Prod.fst).Nodup := by
    rw [ifList_twoInterfaces]
    decide
  have hnames : (twoInterfaces.ifList.map Prod.snd).Nodup := by
    rw [ifList_twoInterfaces]
    decide
  have hshort : ∀ i ∈ twoInterfaces.ifList, i.2.strlen ≤ 15 := by
    rw [ifList_twoInterfaces]
    decide
  have hagree := (lookups_agree answers_twoInterfaces wellFormedReply_twoInterfaces hindices hnames
    hshort Memory.finite_empty 0 (ByteField.zero _)).1 2 em0
  have hyields := hagree.2.mpr (by rw [ifList_twoInterfaces]; decide)
  exact ⟨(hagree.1.mpr hyields).1, hyields⟩

end GlibcPorts.Interfaces
