import GlibcPorts.Proofs.Interfaces.Entries
import Mathlib.Data.List.Infix

/-!
# `GlibcPorts.Proofs.Interfaces.Filling`: what the second pass writes

The second pass fills one entry after the other. `Filled` is its invariant: what the pointers
have moved over so far, in terms of the entries that are done, and that each of these entries is
the one of its message (`IsEntryOf`).

`filled_of_act` says that an action that stays inside the regions keeps the invariant, and
`exists_act` that an action stays inside if the counters have room for its entry. A run of the
pass is the induction over the entries (`filled_of_run`, `exists_run`).

The names are stored one behind the other, so those that were stored so far are a prefix of the
names later (`IsEntryOf.mono`). The data have gaps, but at most half of what the first pass counts
for them, and `Filled` bounds the pointer from both sides.
-/

set_option autoImplicit false

namespace GlibcPorts.Interfaces

open Lib

/-! ### Rounding -/

/-- Rounding up does not go down. -/
theorem le_alignUp (n mask : Nat) : n ≤ alignUp n mask := by
  have hmod : (n + mask) % (mask + 1) < mask + 1 := Nat.mod_lt _ (Nat.succ_pos mask)
  have hdiv := Nat.div_add_mod (n + mask) (mask + 1)
  rw [alignUp, Nat.mul_comm]
  omega

/-- Nor further than the mask. -/
theorem alignUp_le (n mask : Nat) : alignUp n mask ≤ n + mask := Nat.div_mul_le_self _ _

/-- The room of a socket address is not less than its length. -/
theorem saLen_le_saRlen (abi : Abi) (buf : RouteBuf) (p : Nat) :
    buf.saLen p ≤ buf.saRlen abi p := by
  unfold RouteBuf.saRlen
  split
  · exact le_alignUp _ _
  · omega

/-- The padding is not more than the statistics of an interface. -/
theorem alignbytes_le (abi : Abi) : ALIGNBYTES abi ≤ sizeofIfData abi := by
  cases abi <;> decide

/-! ### The stores -/

namespace Filling

variable {s s' t : Filling} {f g : Ifaddrs → Ifaddrs} {bs cs : List UInt8}

/-- What some stores for the entry at `ift` do: they change the entry by `f` and append the bytes
`bs` to the names. -/
structure Stores (f : Ifaddrs → Ifaddrs) (bs : List UInt8) (s s' : Filling) : Prop where
  ift : s'.ift = s.ift
  cif : s'.cif = s.cif
  length_entries : s'.entries.length = s.entries.length
  length_names : s'.names.length = s.names.length
  length_data : s'.data.length = s.data.length
  entries : ∀ i, i ≠ s.ift → s'.entries[i]? = s.entries[i]?
  entry : s'.entries[s.ift]? = s.entries[s.ift]?.map f
  namesPos : s'.namesPos = s.namesPos + bs.length
  names : s'.names.take s'.namesPos = s.names.take s.namesPos ++ bs

/-- Nothing is stored. -/
theorem Stores.refl (s : Filling) : Stores id [] s s := by
  constructor <;> simp

/-- Some stores and then others. -/
theorem Stores.trans (h : Stores f bs s s') (h' : Stores g cs s' t) :
    Stores (g ∘ f) (bs ++ cs) s t where
  ift := h'.ift.trans h.ift
  cif := h'.cif.trans h.cif
  length_entries := h'.length_entries.trans h.length_entries
  length_names := h'.length_names.trans h.length_names
  length_data := h'.length_data.trans h.length_data
  entries i hi := (h'.entries i (h.ift ▸ hi)).trans (h.entries i hi)
  entry := by
    have hentry := h'.entry
    rw [h.ift, h.entry, Option.map_map] at hentry
    exact hentry
  namesPos := by rw [h'.namesPos, h.namesPos, List.length_append, Nat.add_assoc]
  names := by rw [h'.names, h.names, List.append_assoc]

/-- The entry stays one of the region. -/
theorem Stores.ift_lt (h : Stores f bs s s') (hentry : s.ift < s.entries.length) :
    s'.ift < s'.entries.length := by
  rw [h.ift, h.length_entries]
  exact hentry

/-- There is an entry to change. -/
theorem setEntry_of_lt (h : s.ift < s.entries.length) (f : Ifaddrs → Ifaddrs) :
    ∃ s', s.setEntry f = some s' := ⟨_, if_pos h⟩

/-- A change of the entry. -/
theorem setEntry_eq_some (h : s.setEntry f = some s') :
    s.ift < s.entries.length ∧ Stores f [] s s' ∧ s'.dataPos = s.dataPos := by
  unfold setEntry at h
  split at h
  · rename_i hlt
    cases h
    refine ⟨hlt, ⟨rfl, rfl, List.length_modify _ _ _, rfl, rfl, fun i hi => ?_, ?_, rfl, ?_⟩, rfl⟩
    · simp [Ne.symm hi]
    · simp
    · simp
  · cases h

/-- There is room for the name. -/
theorem putName_of_le (bs : List UInt8) (h : s.namesPos + bs.length ≤ s.names.length) :
    ∃ s', s.putName bs = some s' := by
  rw [putName, CString.writeAt_of_le h]
  exact ⟨_, rfl⟩

/-- A name that is appended. -/
theorem putName_eq_some (h : s.putName bs = some s') :
    s.namesPos + bs.length ≤ s.names.length ∧ Stores id bs s s' ∧ s'.dataPos = s.dataPos := by
  obtain ⟨names, hwrite, rfl⟩ := Option.map_eq_some_iff.mp h
  have hle := CString.le_of_writeAt hwrite
  refine ⟨hle, ⟨rfl, rfl, rfl, CString.length_of_writeAt hwrite, rfl, fun _ _ => rfl, ?_, rfl, ?_⟩,
    rfl⟩
  · rw [Option.map_id, id]
  · rw [CString.writeAt_of_le hle] at hwrite
    cases hwrite
    show (s.names.take s.namesPos ++ (bs ++ s.names.drop (s.namesPos + bs.length))).take
      (s.namesPos + bs.length) = s.names.take s.namesPos ++ bs
    rw [← List.append_assoc]
    refine List.take_left' ?_
    rw [List.length_append, List.length_take]
    omega

/-- There is room for the data. -/
theorem putData_of_le (bs : List UInt8) (h : s.dataPos + bs.length ≤ s.data.length) :
    ∃ s', s.putData bs = some s' := by
  rw [putData, CString.writeAt_of_le h]
  exact ⟨_, rfl⟩

/-- Data that is stored. The pointer stays. -/
theorem putData_eq_some (h : s.putData bs = some s') :
    s.dataPos + bs.length ≤ s.data.length ∧ Stores id [] s s' ∧ s'.dataPos = s.dataPos := by
  obtain ⟨data, hwrite, rfl⟩ := Option.map_eq_some_iff.mp h
  refine ⟨CString.le_of_writeAt hwrite, ⟨rfl, rfl, rfl, rfl, CString.length_of_writeAt hwrite,
    fun _ _ => rfl, ?_, rfl, ?_⟩, rfl⟩
  · rw [Option.map_id, id]
  · rw [List.append_nil]

/-- A pointer to the data, and the bytes there. -/
theorem setEntry_putData_of_le (f : Ifaddrs → Ifaddrs) (bs : List UInt8)
    (hentry : s.ift < s.entries.length) (hdata : s.dataPos + bs.length ≤ s.data.length) :
    ∃ s₁ s₂, s.setEntry f = some s₁ ∧ s₁.putData bs = some s₂ := by
  obtain ⟨s₁, hset⟩ := setEntry_of_lt hentry f
  obtain ⟨-, hstores, hpos⟩ := setEntry_eq_some hset
  rw [← hpos, ← hstores.length_data] at hdata
  obtain ⟨s₂, hput⟩ := putData_of_le bs hdata
  exact ⟨s₁, s₂, hset, hput⟩

/-- The two stores of a socket address. -/
theorem setEntry_putData_eq_some {s₁ : Filling} (hset : s.setEntry f = some s₁)
    (hput : s₁.putData bs = some s') :
    s.dataPos + bs.length ≤ s.data.length ∧ Stores f [] s s' ∧ s'.dataPos = s.dataPos := by
  obtain ⟨-, hstores, hpos⟩ := setEntry_eq_some hset
  obtain ⟨hle, hstores', hpos'⟩ := putData_eq_some hput
  rw [hpos, hstores.length_data] at hle
  exact ⟨hle, hstores.trans hstores', hpos'.trans hpos⟩

/-- The pointer to the data goes on. -/
theorem stores_advance (s : Filling) (n : Nat) : Stores id [] s (s.advance n) := by
  constructor <;> simp [advance]

/-- The pointer to the data is aligned. -/
theorem stores_align (abi : Abi) (s : Filling) : Stores id [] s (s.align abi) := by
  constructor <;> simp [align]

/-- The aligned pointer stands at most the padding further. -/
theorem dataPos_align (abi : Abi) (s : Filling) :
    s.dataPos ≤ (s.align abi).dataPos ∧ (s.align abi).dataPos ≤ s.dataPos + ALIGNBYTES abi := by
  have hle := le_alignUp (s.base + s.dataPos) (ALIGNBYTES abi)
  have hge := alignUp_le (s.base + s.dataPos) (ALIGNBYTES abi)
  simp only [align]
  omega

end Filling

open Filling (Stores)

/-! ### The socket addresses -/

section Sockaddrs

variable {abi : Abi} {buf : RouteBuf} {s s' : Filling}

/-- A socket address is stored inside, and its member of the entry set. -/
theorem fillSockaddr_eq_some {member : Nat → Ifaddrs → Ifaddrs} {bs : List UInt8}
    (h : fillSockaddr s member bs = some s') :
    Stores (member s.dataPos) [] s s' ∧ s'.dataPos = s.dataPos + bs.length ∧
      s'.dataPos ≤ s.data.length := by
  obtain ⟨s₁, hset, h⟩ := Option.bind_eq_some_iff.mp h
  obtain ⟨s₂, hput, h⟩ := Option.bind_eq_some_iff.mp h
  cases h
  obtain ⟨hle, hstores, hpos⟩ := Filling.setEntry_putData_eq_some hset hput
  have hpos' : (s₂.advance bs.length).dataPos = s.dataPos + bs.length :=
    congrArg (· + bs.length) hpos
  refine ⟨hstores.trans (Filling.stores_advance s₂ _), hpos', ?_⟩
  rw [hpos']
  exact hle

/-- There is room for the socket address. -/
theorem exists_fillSockaddr (member : Nat → Ifaddrs → Ifaddrs) (bs : List UInt8)
    (hentry : s.ift < s.entries.length) (hdata : s.dataPos + bs.length ≤ s.data.length) :
    ∃ s', fillSockaddr s member bs = some s' := by
  obtain ⟨s₁, s₂, hset, hput⟩ := Filling.setEntry_putData_of_le (member s.dataPos) bs hentry hdata
  exact ⟨_, Option.bind_eq_some_iff.mpr ⟨s₁, hset, Option.bind_eq_some_iff.mpr ⟨s₂, hput, rfl⟩⟩⟩

/-- `a'` is `a` with the socket addresses of the bits `is`. -/
structure WithAddrs (is : List Nat) (a a' : Ifaddrs) : Prop where
  name : a'.ifaName = a.ifaName
  flags : a'.ifaFlags = a.ifaFlags
  data : a'.ifaData = a.ifaData
  addr : a'.ifaAddr.isSome ↔ a.ifaAddr.isSome ∨ RTAX_IFA ∈ is
  netmask : a'.ifaNetmask.isSome ↔ a.ifaNetmask.isSome ∨ RTAX_NETMASK ∈ is
  broadaddr : a'.ifaBroadaddr.isSome ↔ a.ifaBroadaddr.isSome ∨ RTAX_BRD ∈ is

/-- No socket addresses. -/
theorem WithAddrs.refl (a : Ifaddrs) : WithAddrs [] a a := by
  constructor <;> simp

/-- One more socket address, in front. -/
theorem WithAddrs.cons {i : Nat} {is : List Nat} {a b c : Ifaddrs} (h : WithAddrs [i] a b)
    (h' : WithAddrs is b c) : WithAddrs (i :: is) a c where
  name := h'.name.trans h.name
  flags := h'.flags.trans h.flags
  data := h'.data.trans h.data
  addr := by rw [h'.addr, h.addr, List.mem_singleton, List.mem_cons, or_assoc]
  netmask := by rw [h'.netmask, h.netmask, List.mem_singleton, List.mem_cons, or_assoc]
  broadaddr := by rw [h'.broadaddr, h.broadaddr, List.mem_singleton, List.mem_cons, or_assoc]

/-- The bits that the code looks at. -/
def IsMask (i : Nat) : Prop := i = RTAX_NETMASK ∨ i = RTAX_IFA ∨ i = RTAX_BRD

/-- The socket address of a bit. -/
theorem fillBit_eq (abi : Abi) (buf : RouteBuf) (alen p : Nat) {i : Nat} (hi : IsMask i) :
    ∃ member bs, (∀ s, fillBit abi buf alen i p s = fillSockaddr s member bs) ∧
      bs.length = addrLen abi buf alen i p ∧ ∀ d a, WithAddrs [i] a (member d a) := by
  obtain rfl | rfl | rfl := hi
  · refine ⟨fun d e => { e with ifaNetmask := some d },
      if buf.saLen p = 0 then List.replicate alen 0 else buf.bytes p (buf.saRlen abi p),
      fun _ => rfl, ?_, ?_⟩
    · by_cases hlen : buf.saLen p = 0 <;> simp [addrLen, hlen]
    · intro d a
      constructor <;> simp [RTAX_IFA, RTAX_NETMASK, RTAX_BRD]
  · refine ⟨fun d e => { e with ifaAddr := some d }, buf.bytes p (buf.saRlen abi p),
      fun _ => rfl, ?_, ?_⟩
    · simp [addrLen, RTAX_IFA, RTAX_NETMASK]
    · intro d a
      constructor <;> simp [RTAX_IFA, RTAX_NETMASK, RTAX_BRD]
  · refine ⟨fun d e => { e with ifaBroadaddr := some d }, buf.bytes p (buf.saRlen abi p),
      fun _ => rfl, ?_, ?_⟩
    · simp [addrLen, RTAX_BRD, RTAX_NETMASK]
    · intro d a
      constructor <;> simp [RTAX_IFA, RTAX_NETMASK, RTAX_BRD]

/-- The loop does not skip a bit that the code looks at. -/
theorem isMask_of_mem_addrBits {addrs : BitVec 32} {i : Nat} (h : i ∈ addrBits addrs) :
    IsMask i := by
  have hzero : ∀ j < RTAX_MAX, ¬ IsMask j → RTA_MASKS &&& (1 <<< j : BitVec 32) = 0 := by
    unfold IsMask
    decide
  obtain ⟨hrange, hbit⟩ := List.mem_filter.mp h
  by_contra hmask
  have hi := hzero i (List.mem_range.mp hrange) hmask
  rw [BitVec.and_assoc, BitVec.and_comm addrs, ← BitVec.and_assoc, hi] at hbit
  simp at hbit

/-- A bit that the code looks at is one of its loop exactly when the message has it. -/
theorem mem_addrBits_iff {addrs : BitVec 32} {i : Nat} (hi : IsMask i) :
    i ∈ addrBits addrs ↔ addrs &&& (1 <<< i) ≠ 0 := by
  have hmask : RTA_MASKS &&& (1 <<< i : BitVec 32) = 1 <<< i := by
    obtain rfl | rfl | rfl := hi <;> decide
  have hlt : i < RTAX_MAX := by
    obtain rfl | rfl | rfl := hi <;> decide
  rw [addrBits, List.mem_filter, List.mem_range, BitVec.and_assoc, BitVec.and_comm addrs,
    ← BitVec.and_assoc, hmask, BitVec.and_comm]
  simp [hlt]

/-- The socket addresses of a message. -/
theorem fillAddrs_eq_some {alen : Nat} {is : List Nat} (his : ∀ i ∈ is, IsMask i) {p : Nat}
    (h : fillAddrs abi buf alen is p s = some s') :
    ∃ f, Stores f [] s s' ∧ (∀ a, WithAddrs is a (f a)) ∧
      s'.dataPos = s.dataPos + addrsLen abi buf alen is p ∧
      (s.dataPos ≤ s.data.length → s'.dataPos ≤ s.data.length) := by
  induction is generalizing s p with
  | nil =>
      cases h
      exact ⟨id, .refl _, .refl, rfl, id⟩
  | cons i is ih =>
      obtain ⟨s₁, hbit, hrest⟩ := Option.bind_eq_some_iff.mp h
      obtain ⟨member, bs, hfill, hlen, hwith⟩ := fillBit_eq abi buf alen p
        (his i List.mem_cons_self)
      rw [hfill] at hbit
      obtain ⟨hstores, hpos, hle⟩ := fillSockaddr_eq_some hbit
      obtain ⟨f, hstores', hwith', hpos', hle'⟩ :=
        ih (fun j hj => his j (List.mem_cons_of_mem i hj)) hrest
      refine ⟨f ∘ member s.dataPos, hstores.trans hstores', fun a => (hwith _ a).cons (hwith' _),
        ?_, fun _ => ?_⟩
      · rw [hpos', hpos, hlen, addrsLen, Nat.add_assoc]
      · rw [← hstores.length_data] at hle ⊢
        exact hle' hle

/-- There is room for all socket addresses of a message. -/
theorem exists_fillAddrs (alen : Nat) {is : List Nat} (his : ∀ i ∈ is, IsMask i) (p : Nat)
    (hentry : s.ift < s.entries.length)
    (hdata : s.dataPos + addrsLen abi buf alen is p ≤ s.data.length) :
    ∃ s', fillAddrs abi buf alen is p s = some s' := by
  induction is generalizing s p with
  | nil => exact ⟨s, rfl⟩
  | cons i is ih =>
      rw [addrsLen] at hdata
      obtain ⟨member, bs, hfill, hlen, -⟩ := fillBit_eq abi buf alen p
        (his i List.mem_cons_self)
      obtain ⟨s₁, hbit⟩ := exists_fillSockaddr (s := s) member bs hentry (by omega)
      obtain ⟨hstores, hpos, -⟩ := fillSockaddr_eq_some hbit
      obtain ⟨s', hrest⟩ := ih (s := s₁)
        (fun j hj => his j (List.mem_cons_of_mem i hj)) (p + buf.saRlen abi p)
        (by rw [hstores.ift, hstores.length_entries]; exact hentry)
        (by rw [hpos, hstores.length_data]; omega)
      refine ⟨s', ?_⟩
      rw [fillAddrs, hfill, hbit]
      exact hrest

end Sockaddrs

/-! ### One entry -/

section Invariant

variable (abi : Abi) (buf : RouteBuf)

/-- The name and the flags of `a` are those of the interface `link`. -/
def NamedBy (names : List UInt8) (link : Nat) (a : Ifaddrs) : Prop :=
  a.ifaFlags = buf.ifmFlags link ∧
    ∃ o, a.ifaName = some o ∧
      buf.sdlName (link + sizeofIfMsghdr abi) ++ [0] <+: names.drop o

/-- `a` is the entry that a message becomes. -/
def IsEntryOf (names : List UInt8) : Entry → Ifaddrs → Prop
  | .link p, a =>
      NamedBy abi buf names p a ∧ a.ifaAddr.isSome ∧ a.ifaNetmask = none ∧
        a.ifaBroadaddr = none ∧ a.ifaData.isSome
  | .addr link p, a =>
      NamedBy abi buf names link a ∧ a.ifaData = none ∧
        (a.ifaAddr.isSome ↔ buf.ifamAddrs p &&& RTA_IFA ≠ 0) ∧
        (a.ifaNetmask.isSome ↔ buf.ifamAddrs p &&& RTA_NETMASK ≠ 0) ∧
        (a.ifaBroadaddr.isSome ↔ buf.ifamAddrs p &&& RTA_BRD ≠ 0)

/-- The invariant of the second pass, behind the entries `done` and the interface `cur`. -/
structure Filled (cur : Option Nat) (done : List Entry) (s : Filling) : Prop where
  ift : s.ift = done.length
  ift_le : s.ift ≤ s.entries.length
  namesPos : s.namesPos = nameTotal abi buf done
  namesPos_le : s.namesPos ≤ s.names.length
  dataPos_le : s.dataPos ≤ s.data.length
  dataPos_le_total : s.dataPos ≤ dataTotal abi buf done
  dataTotal_le : dataTotal abi buf done ≤ 2 * s.dataPos
  entry : ∀ i e, done[i]? = some e → ∃ a, s.entries[i]? = some a ∧ a.ifaNext = some (i + 1) ∧
    IsEntryOf abi buf (s.names.take s.namesPos) e a
  fresh : ∀ i, s.ift ≤ i → i < s.entries.length → s.entries[i]? = some .zero
  cif : ∀ link, cur = some link → ∃ c a, c < s.ift ∧ s.cif = some c ∧ s.entries[c]? = some a ∧
    NamedBy abi buf (s.names.take s.namesPos) link a

end Invariant

section Steps

variable {abi : Abi} {buf : RouteBuf} {s t s' : Filling} {cur : Option Nat} {done : List Entry}
  {names names' : List UInt8} {a : Ifaddrs} {e : Entry} {p : Nat}

/-- More names behind it do not change a name. -/
theorem NamedBy.mono {link : Nat} (h : NamedBy abi buf names link a) (hle : names <+: names') :
    NamedBy abi buf names' link a := by
  obtain ⟨hflags, o, ho, hname⟩ := h
  exact ⟨hflags, o, ho, hname.trans (hle.drop o)⟩

/-- Nor an entry. -/
theorem IsEntryOf.mono (h : IsEntryOf abi buf names e a) (hle : names <+: names') :
    IsEntryOf abi buf names' e a := by
  cases e with
  | link p => exact ⟨h.1.mono hle, h.2⟩
  | addr l p => exact ⟨h.1.mono hle, h.2⟩

/-- The pointer `ifa_next` is not part of what an entry says of its message. -/
theorem IsEntryOf.withNext (h : IsEntryOf abi buf names e a) (next : Option Nat) :
    IsEntryOf abi buf names e { a with ifaNext := next } := by
  cases e with
  | link p => exact h
  | addr l p => exact h

/-- The step to the next entry sets the pointer to it. -/
theorem Filling.next_eq_some (h : t.next = some s') :
    t.ift < t.entries.length ∧ s'.ift = t.ift + 1 ∧ s'.cif = t.cif ∧ s'.names = t.names ∧
      s'.namesPos = t.namesPos ∧ s'.data = t.data ∧ s'.dataPos = t.dataPos ∧
      s'.entries = t.entries.modify t.ift fun e => { e with ifaNext := some (t.ift + 1) } := by
  obtain ⟨u, hset, rfl⟩ := Option.map_eq_some_iff.mp h
  unfold Filling.setEntry at hset
  split at hset
  · rename_i hlt
    cases hset
    exact ⟨hlt, rfl, rfl, rfl, rfl, rfl, rfl, rfl⟩
  · cases hset

/-- The regions of `s'` are as large as those of `s`. -/
structure SameSize (s s' : Filling) : Prop where
  entries : s'.entries.length = s.entries.length
  names : s'.names.length = s.names.length
  data : s'.data.length = s.data.length

/-- The stores of one entry keep the sizes. -/
theorem sameSize_of_next {f : Ifaddrs → Ifaddrs} {bs : List UInt8} (hstores : Stores f bs s t)
    (hnext : t.next = some s') : SameSize s s' := by
  obtain ⟨-, -, -, hnames, -, hdata, -, hentries⟩ := Filling.next_eq_some hnext
  refine ⟨?_, ?_, ?_⟩
  · rw [hentries, List.length_modify, hstores.length_entries]
  · rw [hnames, hstores.length_names]
  · rw [hdata, hstores.length_data]

/-- What `Filled` says of the pointers to the data. -/
structure DataMoved (n : Nat) (s t : Filling) : Prop where
  inside : t.dataPos ≤ s.data.length
  le : t.dataPos ≤ s.dataPos + n
  ge : 2 * s.dataPos + n ≤ 2 * t.dataPos

/-- The stores of one whole entry, and the step to the next one, keep the invariant. -/
theorem Filled.next {cur' : Option Nat} {f : Ifaddrs → Ifaddrs} {bs : List UInt8}
    (hs : Filled abi buf cur done s) (hstores : Stores f bs s t) (hnext : t.next = some s')
    (hentry : IsEntryOf abi buf (s.names.take s.namesPos ++ bs) e (f .zero))
    (hname : bs.length = e.nameSize abi buf) (hname_le : t.namesPos ≤ s.names.length)
    (hdata : DataMoved (e.dataSize abi buf) s t)
    (hcif : ∀ link, cur' = some link →
      s.cif = some s.ift ∧ NamedBy abi buf (s.names.take s.namesPos ++ bs) link (f .zero) ∨
        cur = some link) :
    Filled abi buf cur' (done ++ [e]) s' := by
  obtain ⟨hlt, hift, hcif', hnames, hnamesPos, hdata', hdataPos, hentries⟩ :=
    Filling.next_eq_some hnext
  have hlen : s'.entries.length = s.entries.length := (sameSize_of_next hstores hnext).entries
  have htake : s'.names.take s'.namesPos = s.names.take s.namesPos ++ bs := by
    rw [hnames, hnamesPos, hstores.names]
  rw [hstores.ift, hstores.length_entries] at hlt
  -- The entries behind the step: the new one, and the others as they were.
  have hnew : s'.entries[s.ift]? = some { f .zero with ifaNext := some (s.ift + 1) } := by
    have hzero := hs.fresh s.ift le_rfl hlt
    rw [hentries, hstores.ift, List.getElem?_modify_eq, hstores.entry, hzero]
    rfl
  have hold : ∀ i, i ≠ s.ift → s'.entries[i]? = s.entries[i]? := by
    intro i hi
    rw [hentries, hstores.ift, List.getElem?_modify_ne _ _ (Ne.symm hi), hstores.entries i hi]
  refine ⟨?_, ?_, ?_, ?_, ?_, ?_, ?_, ?_, ?_, ?_⟩
  · rw [hift, hstores.ift, hs.ift, List.length_append, List.length_singleton]
  · rw [hift, hlen, hstores.ift]
    exact hlt
  · rw [hnamesPos, hstores.namesPos, hs.namesPos, nameTotal_append, nameTotal_singleton, hname]
  · rw [hnames, hnamesPos, hstores.length_names]
    exact hname_le
  · rw [hdata', hdataPos, hstores.length_data]
    exact hdata.inside
  · have htotal := hs.dataPos_le_total
    have hle := hdata.le
    rw [hdataPos, dataTotal_append, dataTotal_singleton]
    omega
  · have htotal := hs.dataTotal_le
    have hge := hdata.ge
    rw [hdataPos, dataTotal_append, dataTotal_singleton]
    omega
  · intro i e' he'
    rw [htake]
    by_cases hi : i < done.length
    · -- An entry from before.
      rw [List.getElem?_append_left hi] at he'
      obtain ⟨b, hb, hbnext, hof⟩ := hs.entry i e' he'
      refine ⟨b, ?_, hbnext, hof.mono (List.prefix_append _ _)⟩
      rw [hold i (by rw [hs.ift]; omega)]
      exact hb
    · rw [List.getElem?_append_right (Nat.not_lt.mp hi), List.getElem?_singleton] at he'
      split at he'
      · cases he'
        have hi' : i = s.ift := by rw [hs.ift]; omega
        subst hi'
        exact ⟨_, hnew, rfl, hentry.withNext _⟩
      · cases he'
  · intro i hle hlt'
    rw [hift, hstores.ift] at hle
    rw [hlen] at hlt'
    rw [hold i (by omega)]
    exact hs.fresh i (by omega) hlt'
  · intro link hlink
    rw [htake, hift, hstores.ift, hcif', hstores.cif]
    obtain ⟨hself, hnamed⟩ | hcur := hcif link hlink
    · exact ⟨s.ift, _, Nat.lt_succ_self _, hself, hnew, hnamed⟩
    · obtain ⟨c, b, hc, hsc, hb, hnamed⟩ := hs.cif link hcur
      rw [← hold c (Nat.ne_of_lt hc)] at hb
      exact ⟨c, b, Nat.lt_succ_of_lt hc, hsc, hb, hnamed.mono (List.prefix_append _ _)⟩

/-- The stores of an interface. -/
theorem fillLink_eq_some (h : fillLink abi buf s p = some s') :
    ∃ t d, Stores (fun e => { e with
          ifaName := some s.namesPos, ifaFlags := buf.ifmFlags p, ifaAddr := some s.dataPos,
          ifaData := some d })
        (buf.sdlName (p + sizeofIfMsghdr abi) ++ [0]) { s with cif := some s.ift } t ∧
      t.next = some s' ∧ t.namesPos ≤ s.names.length ∧
      DataMoved (Entry.dataSize abi buf (.link p)) s t := by
  obtain ⟨s₁, hset₁, h⟩ := Option.bind_eq_some_iff.mp h
  obtain ⟨s₂, hname₂, h⟩ := Option.bind_eq_some_iff.mp h
  obtain ⟨s₃, hset₃, h⟩ := Option.bind_eq_some_iff.mp h
  obtain ⟨s₄, hdata₄, h⟩ := Option.bind_eq_some_iff.mp h
  obtain ⟨s₅, hset₅, h⟩ := Option.bind_eq_some_iff.mp h
  obtain ⟨s₆, hdata₆, hnext⟩ := Option.bind_eq_some_iff.mp h
  obtain ⟨-, hst₁, hpos₁⟩ := Filling.setEntry_eq_some hset₁
  obtain ⟨hle₂, hst₂, hpos₂⟩ := Filling.putName_eq_some hname₂
  obtain ⟨-, hst₄, hpos₄⟩ := Filling.setEntry_putData_eq_some hset₃ hdata₄
  obtain ⟨hle₆, hst₆, hpos₆⟩ := Filling.setEntry_putData_eq_some hset₅ hdata₆
  rw [hpos₂, hpos₁] at hst₄
  -- All stores, in order: up to the aligned pointer, and from there on.
  have halign := (Filling.stores_advance s₄ (buf.saRlen abi (p + sizeofIfMsghdr abi))).trans
    (Filling.stores_align abi _)
  have hbefore := ((hst₁.trans hst₂).trans hst₄).trans halign
  have hall := (hbefore.trans hst₆).trans (Filling.stores_advance s₆ (sizeofIfData abi))
  simp only [List.nil_append, List.append_nil] at hall
  have hifdata : (buf.ifmData abi p).length = sizeofIfData abi := by simp [RouteBuf.ifmData]
  have hbounds := Filling.dataPos_align abi
    (s₄.advance (buf.saRlen abi (p + sizeofIfMsghdr abi)))
  have hadv : (s₄.advance (buf.saRlen abi (p + sizeofIfMsghdr abi))).dataPos =
      s.dataPos + buf.saRlen abi (p + sizeofIfMsghdr abi) := by
    simp only [Filling.advance, hpos₄, hpos₂, hpos₁]
  have hend : (s₆.advance (sizeofIfData abi)).dataPos =
      ((s₄.advance (buf.saRlen abi (p + sizeofIfMsghdr abi))).align abi).dataPos +
        sizeofIfData abi := congrArg (· + sizeofIfData abi) hpos₆
  have hlen := hbefore.length_data
  have hpad := alignbytes_le abi
  refine ⟨s₆.advance (sizeofIfData abi), _, hall, hnext, ?_, ?_, ?_, ?_⟩
  · rw [hall.namesPos]
    rw [hst₁.namesPos, hst₁.length_names] at hle₂
    exact hle₂
  · rw [hend, ← hifdata]
    exact hle₆.trans hlen.le
  · rw [hend, Entry.dataSize]
    omega
  · rw [hend, Entry.dataSize]
    omega

/-- The stores of an address, beside the entry `link` of its interface. -/
theorem fillAddr_eq_some {c : Nat} {link : Ifaddrs} (hcif : s.cif = some c)
    (hlink : s.entries[c]? = some link) (h : fillAddr abi buf s p = some s') :
    ∃ t f, Stores f [] s t ∧ t.next = some s' ∧
      (∀ a, WithAddrs (addrBits (buf.ifamAddrs p))
        { a with ifaName := link.ifaName, ifaFlags := link.ifaFlags, ifaData := none } (f a)) ∧
      t.dataPos = s.dataPos + Entry.dataSize abi buf (.addr c p) ∧
      (s.dataPos ≤ s.data.length → t.dataPos ≤ s.data.length) := by
  simp only [fillAddr, hcif, hlink, Option.bind_eq_bind, Option.bind_some] at h
  obtain ⟨s₁, hset, h⟩ := Option.bind_eq_some_iff.mp h
  obtain ⟨t, hfill, hnext⟩ := Option.bind_eq_some_iff.mp h
  obtain ⟨-, hst₁, hpos₁⟩ := Filling.setEntry_eq_some hset
  obtain ⟨f, hst₂, hwith, hpos₂, hle⟩ := fillAddrs_eq_some
    (fun i hi => isMask_of_mem_addrBits hi) hfill
  refine ⟨t, _, hst₁.trans hst₂, hnext, fun a => hwith _, ?_, ?_⟩
  · rw [hpos₂, hpos₁]
    rfl
  · rw [← hpos₁, ← hst₁.length_data]
    exact hle

/-- An action that stays inside its regions keeps the invariant. -/
theorem filled_of_act (hs : Filled abi buf cur done s) (hown : Owned cur [e])
    (h : act (fillLink abi buf) (fillAddr abi buf) s e = some s') :
    Filled abi buf (e.owner cur) (done ++ [e]) s' ∧ SameSize s s' := by
  cases e with
  | link p =>
      obtain ⟨t, d, hst, hnext, hname_le, hmoved⟩ := fillLink_eq_some h
      have hs₀ : Filled abi buf none done { s with cif := some s.ift } :=
        ⟨hs.ift, hs.ift_le, hs.namesPos, hs.namesPos_le, hs.dataPos_le, hs.dataPos_le_total,
          hs.dataTotal_le, hs.entry, hs.fresh, fun _ hl => by cases hl⟩
      -- The name is the last one that was stored.
      have hnamed : NamedBy abi buf
          (s.names.take s.namesPos ++ (buf.sdlName (p + sizeofIfMsghdr abi) ++ [0])) p
          ⟨none, some s.namesPos, buf.ifmFlags p, some s.dataPos, none, none, some d⟩ := by
        refine ⟨rfl, s.namesPos, rfl, ?_⟩
        have hlen : (s.names.take s.namesPos).length = s.namesPos := by
          rw [List.length_take, Nat.min_eq_left hs.namesPos_le]
        rw [List.drop_left' hlen]
      have hsize := sameSize_of_next hst hnext
      refine ⟨?_, ⟨hsize.entries, hsize.names, hsize.data⟩⟩
      refine hs₀.next hst hnext ⟨hnamed, rfl, rfl, rfl, rfl⟩ ?_ hname_le
        ⟨hmoved.inside, hmoved.le, hmoved.ge⟩ fun link hlink => ?_
      · simp [Entry.nameSize, RouteBuf.sdlName]
      · cases hlink
        exact .inl ⟨rfl, hnamed⟩
  | addr link p =>
      obtain ⟨c, b, hc, hsc, hb, hnamed⟩ := hs.cif link hown.1
      obtain ⟨t, f, hst, hnext, hwith, hpos, hle⟩ := fillAddr_eq_some hsc hb h
      have hf := hwith .zero
      refine ⟨?_, sameSize_of_next hst hnext⟩
      refine hs.next hst hnext ⟨?_, ?_, ?_, ?_, ?_⟩ rfl ?_ ?_ fun l hl => .inr hl
      · rw [List.append_nil]
        obtain ⟨hflags, o, ho, hname⟩ := hnamed
        exact ⟨hf.flags.trans hflags, o, hf.name.trans ho, hname⟩
      · exact hf.data
      · rw [hf.addr, mem_addrBits_iff (.inr (.inl rfl))]
        simp [Ifaddrs.zero, RTA_IFA]
      · rw [hf.netmask, mem_addrBits_iff (.inl rfl)]
        simp [Ifaddrs.zero, RTA_NETMASK]
      · rw [hf.broadaddr, mem_addrBits_iff (.inr (.inr rfl))]
        simp [Ifaddrs.zero, RTA_BRD]
      · rw [hst.namesPos]
        exact hs.namesPos_le
      · refine ⟨hle hs.dataPos_le, hpos.le, ?_⟩
        rw [hpos, Nat.mul_add]
        show 2 * s.dataPos + Entry.dataSize abi buf (.addr c p) ≤ _
        omega

/-- The step to the next entry stays in the region. -/
theorem Filling.next_of_lt (h : s.ift < s.entries.length) : ∃ s', s.next = some s' := by
  obtain ⟨t, hset⟩ := Filling.setEntry_of_lt h fun e => { e with ifaNext := some (s.ift + 1) }
  exact ⟨_, Option.map_eq_some_iff.mpr ⟨t, hset, rfl⟩⟩

/-- There is room for the entry of an interface. -/
theorem exists_fillLink (hentries : s.ift < s.entries.length)
    (hnames : s.namesPos + Entry.nameSize abi buf (.link p) ≤ s.names.length)
    (hdata : s.dataPos + Entry.dataSize abi buf (.link p) ≤ s.data.length) :
    ∃ s', fillLink abi buf s p = some s' := by
  rw [Entry.nameSize] at hnames
  rw [Entry.dataSize] at hdata
  have hsaLen := saLen_le_saRlen abi buf (p + sizeofIfMsghdr abi)
  obtain ⟨s₁, hset₁⟩ := Filling.setEntry_of_lt (s := { s with cif := some s.ift }) hentries
    fun e => { e with ifaName := some s.namesPos, ifaFlags := buf.ifmFlags p }
  obtain ⟨-, hst₁, hpos₁⟩ := Filling.setEntry_eq_some hset₁
  obtain ⟨s₂, hname₂⟩ := Filling.putName_of_le (s := s₁)
    (buf.sdlName (p + sizeofIfMsghdr abi) ++ [0]) (by
      rw [hst₁.namesPos, hst₁.length_names]
      simpa [RouteBuf.sdlName] using hnames)
  obtain ⟨-, hst₂, hpos₂⟩ := Filling.putName_eq_some hname₂
  have h₂ := hst₁.trans hst₂
  have hlen₂ : s₂.data.length = s.data.length := h₂.length_data
  obtain ⟨s₃, s₄, hset₃, hdata₄⟩ := Filling.setEntry_putData_of_le
    (fun e => { e with ifaAddr := some s₂.dataPos })
    (buf.bytes (p + sizeofIfMsghdr abi) (buf.saLen (p + sizeofIfMsghdr abi)))
    (h₂.ift_lt hentries) (by
      rw [hpos₂, hpos₁, hlen₂, RouteBuf.length_bytes]
      show s.dataPos + _ ≤ _
      omega)
  obtain ⟨-, hst₄, hpos₄⟩ := Filling.setEntry_putData_eq_some hset₃ hdata₄
  -- From here on the pointer is aligned.
  generalize hs₅ : (s₄.advance (buf.saRlen abi (p + sizeofIfMsghdr abi))).align abi = s₅
  have hpos₅ : s₅.dataPos ≤ s.dataPos + buf.saRlen abi (p + sizeofIfMsghdr abi) +
      ALIGNBYTES abi := by
    have halign := Filling.dataPos_align abi
      (s₄.advance (buf.saRlen abi (p + sizeofIfMsghdr abi)))
    rw [hs₅] at halign
    simp only [Filling.advance, hpos₄, hpos₂, hpos₁] at halign
    exact halign.2
  have h₅ := ((h₂.trans hst₄).trans (Filling.stores_advance s₄
    (buf.saRlen abi (p + sizeofIfMsghdr abi)))).trans (Filling.stores_align abi _)
  rw [hs₅] at h₅
  have hlen₅ : s₅.data.length = s.data.length := h₅.length_data
  obtain ⟨s₆, s₇, hset₆, hdata₇⟩ := Filling.setEntry_putData_of_le
    (fun e => { e with ifaData := some s₅.dataPos }) (buf.ifmData abi p)
    (h₅.ift_lt hentries) (by
      rw [hlen₅, RouteBuf.ifmData, RouteBuf.length_bytes]
      omega)
  obtain ⟨-, hst₇, -⟩ := Filling.setEntry_putData_eq_some hset₆ hdata₇
  have h₇ := (h₅.trans hst₇).trans (Filling.stores_advance s₇ (sizeofIfData abi))
  obtain ⟨s', hnext⟩ := Filling.next_of_lt (h₇.ift_lt hentries)
  subst hs₅
  exact ⟨s', Option.bind_eq_some_iff.mpr ⟨s₁, hset₁, Option.bind_eq_some_iff.mpr ⟨s₂, hname₂,
    Option.bind_eq_some_iff.mpr ⟨s₃, hset₃, Option.bind_eq_some_iff.mpr ⟨s₄, hdata₄,
    Option.bind_eq_some_iff.mpr ⟨s₆, hset₆, Option.bind_eq_some_iff.mpr ⟨s₇, hdata₇,
    hnext⟩⟩⟩⟩⟩⟩⟩

/-- There is room for the entry of an address. -/
theorem exists_fillAddr {l c : Nat} {link : Ifaddrs} (hcif : s.cif = some c)
    (hlink : s.entries[c]? = some link) (hentries : s.ift < s.entries.length)
    (hdata : s.dataPos + Entry.dataSize abi buf (.addr l p) ≤ s.data.length) :
    ∃ s', fillAddr abi buf s p = some s' := by
  obtain ⟨s₁, hset₁⟩ := Filling.setEntry_of_lt hentries fun e =>
    { e with ifaName := link.ifaName, ifaFlags := link.ifaFlags, ifaData := none }
  obtain ⟨-, hst₁, hpos₁⟩ := Filling.setEntry_eq_some hset₁
  obtain ⟨t, hfill⟩ := exists_fillAddrs (s := s₁)
    (alenOf abi buf (addrBits (buf.ifamAddrs p)) (p + sizeofIfaMsghdr))
    (fun i hi => isMask_of_mem_addrBits hi) (p + sizeofIfaMsghdr)
    (by rw [hst₁.ift, hst₁.length_entries]; exact hentries)
    (by rw [hpos₁, hst₁.length_data]; exact hdata)
  obtain ⟨f, hst₂, -, -, -⟩ := fillAddrs_eq_some (fun i hi => isMask_of_mem_addrBits hi) hfill
  have h₂ := hst₁.trans hst₂
  obtain ⟨s', hnext⟩ := Filling.next_of_lt (s := t)
    (by rw [h₂.ift, h₂.length_entries]; exact hentries)
  refine ⟨s', ?_⟩
  simp only [fillAddr, hcif, hlink, Option.bind_eq_bind, Option.bind_some, hset₁, hfill]
  exact hnext

/-- An action stays inside regions that have room for its entry. -/
theorem exists_act (hs : Filled abi buf cur done s) (hown : Owned cur [e])
    (hentries : done.length < s.entries.length)
    (hnames : nameTotal abi buf (done ++ [e]) ≤ s.names.length)
    (hdata : dataTotal abi buf (done ++ [e]) ≤ s.data.length) :
    ∃ s', act (fillLink abi buf) (fillAddr abi buf) s e = some s' := by
  rw [← hs.ift] at hentries
  rw [nameTotal_append, nameTotal_singleton, ← hs.namesPos] at hnames
  rw [dataTotal_append, dataTotal_singleton] at hdata
  have hpos := hs.dataPos_le_total
  cases e with
  | link p => exact exists_fillLink hentries hnames (by omega)
  | addr link p =>
      obtain ⟨c, b, -, hsc, hb, -⟩ := hs.cif link hown.1
      exact exists_fillAddr (l := link) hsc hb hentries (by omega)

end Steps

/-! ### A run of the pass -/

section Run

variable {abi : Abi} {buf : RouteBuf} {s s' : Filling} {cur : Option Nat} {done rest : List Entry}

/-- Sizes that are kept twice. -/
theorem SameSize.trans {t : Filling} (h : SameSize s t) (h' : SameSize t s') : SameSize s s' :=
  ⟨h'.entries.trans h.entries, h'.names.trans h.names, h'.data.trans h.data⟩

/-- The owner of the first entry, and of those behind it. -/
theorem Owned.head_tail {e : Entry} (h : Owned cur (e :: rest)) :
    Owned cur [e] ∧ Owned (e.owner cur) rest := by
  cases e with
  | link p => exact ⟨trivial, h⟩
  | addr l p => exact ⟨⟨h.1, trivial⟩, h.2⟩

/-- A run that stays inside its regions keeps the invariant. -/
theorem filled_of_run (hs : Filled abi buf cur done s) (hown : Owned cur rest)
    (h : rest.foldlM (act (fillLink abi buf) (fillAddr abi buf)) s = some s') :
    ∃ cur', Filled abi buf cur' (done ++ rest) s' ∧ SameSize s s' := by
  induction rest generalizing s cur done with
  | nil =>
      cases h
      rw [List.append_nil]
      exact ⟨cur, hs, rfl, rfl, rfl⟩
  | cons e rest ih =>
      rw [List.foldlM_cons] at h
      obtain ⟨t, hact, hrest⟩ := Option.bind_eq_some_iff.mp h
      obtain ⟨hhead, htail⟩ := hown.head_tail
      obtain ⟨ht, hsize⟩ := filled_of_act hs hhead hact
      obtain ⟨cur', hs', hsize'⟩ := ih ht htail hrest
      rw [List.append_assoc, List.singleton_append] at hs'
      exact ⟨cur', hs', hsize.trans hsize'⟩

/-- A run stays inside regions that have room for all of its entries. -/
theorem exists_run (hs : Filled abi buf cur done s) (hown : Owned cur rest)
    (hentries : (done ++ rest).length ≤ s.entries.length)
    (hnames : nameTotal abi buf (done ++ rest) ≤ s.names.length)
    (hdata : dataTotal abi buf (done ++ rest) ≤ s.data.length) :
    ∃ s', rest.foldlM (act (fillLink abi buf) (fillAddr abi buf)) s = some s' := by
  induction rest generalizing s cur done with
  | nil => exact ⟨s, rfl⟩
  | cons e rest ih =>
      obtain ⟨hhead, htail⟩ := hown.head_tail
      have hcons : done ++ e :: rest = done ++ [e] ++ rest := by simp
      rw [hcons] at hentries hnames hdata
      have hlt : done.length < s.entries.length := by
        simp only [List.length_append, List.length_singleton] at hentries
        omega
      have hname := hnames
      have hdat := hdata
      rw [nameTotal_append] at hname
      rw [dataTotal_append] at hdat
      obtain ⟨t, hact⟩ := exists_act hs hhead hlt (by omega) (by omega)
      obtain ⟨ht, hsize⟩ := filled_of_act hs hhead hact
      obtain ⟨s', hrest⟩ := ih ht htail (by rw [hsize.entries]; exact hentries)
        (by rw [hsize.names]; exact hnames) (by rw [hsize.data]; exact hdata)
      refine ⟨s', ?_⟩
      rw [List.foldlM_cons, hact]
      exact hrest

end Run

end GlibcPorts.Interfaces
