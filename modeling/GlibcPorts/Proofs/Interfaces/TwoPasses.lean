import GlibcPorts.Lib.LinkedList
import GlibcPorts.Proofs.Interfaces.Filling

/-!
# `GlibcPorts.Proofs.Interfaces.TwoPasses`: the list that `getifaddrs` returns

`Lists` says what a call should return for a well-formed buffer: a list in memory that ends in a
null pointer and has one node for each entry, in the order of the messages. All that the second
pass writes lies in the region that the first one reserved for it, or the call is a fault.

The two passes agree on every entry, but the first one counts in `int`s. `FitsInt` says that the
counters hold what they count. `getifaddrs_lists_iff` says that the call returns the list exactly
then: `lists_of_fitsInt` is the invariant of the second pass in regions with room for all entries,
and `fitsInt_of_lists` reads the same invariant backwards. A pass that stays inside its regions
shows that they were large enough, and regions of a wrapped counter are not.
-/

set_option autoImplicit false

namespace GlibcPorts.Interfaces

open Lib

section Statement

variable (abi : Abi) (buf : RouteBuf) (entries : List Entry)

/-- The pointer `ifa_next` of a node. -/
def nextOf (es : List Ifaddrs) (k : Nat) : Option Nat := es[k]?.bind Ifaddrs.ifaNext

/-- A call returns the list of the entries. -/
def Lists (r : GetifaddrsResult) : Prop :=
  ∃ (pif : Option Nat) (es : List Ifaddrs) (names data : List UInt8),
    r = .list pif es names data ∧
    Linked (nextOf es) pif (List.range entries.length) ∧
    ∀ (i : Nat) (e : Entry), entries[i]? = some e →
      ∃ a, es[i]? = some a ∧ IsEntryOf abi buf names e a

/-- The bytes of the block that the entries need. -/
def blockTotal : Nat :=
  sizeofIfaddrs abi * (1 + entries.length) + dataTotal abi buf entries + nameTotal abi buf entries

/-- The counters hold what they count, and so does the size of the block. Their sum is 1 only for
the empty list, which the code takes it for. -/
structure FitsInt : Prop where
  icnt : 1 + entries.length < 2 ^ 31
  dcnt : dataTotal abi buf entries < 2 ^ 31
  ncnt : nameTotal abi buf entries < 2 ^ 31
  block : blockTotal abi buf entries < 2 ^ abi.longBits
  sum : 1 + entries.length + dataTotal abi buf entries + nameTotal abi buf entries ≠ 2 ^ 32 + 1

end Statement

/-! ### Counting in an `int` -/

/-- A number that an `int` can hold. -/
theorem toNat_ofNat_of_lt {n : Nat} (h : n < 2 ^ 31) : (Int32.ofNat n).toInt.toNat = n := by
  rw [Int32.toInt_ofNat_of_lt h, Int.toNat_natCast]

/-- An `int` is not larger than that. -/
theorem toNat_ofNat_lt (n : Nat) : (Int32.ofNat n).toInt.toNat < 2 ^ 31 := by
  have hlt := Int32.toInt_lt (Int32.ofNat n)
  omega

/-- A counter that wraps once is negative. -/
theorem toNat_ofNat_of_wrap {n : Nat} (h : 2 ^ 31 ≤ n) (hlt : n < 2 ^ 32) :
    (Int32.ofNat n).toInt.toNat = 0 := by
  rw [Int32.toInt_ofNat', Int.bmod_def]
  simp only [Int32.size]
  omega

/-- The counter that was not changed, or wrapped. -/
theorem ofNat_eq_one_iff {n : Nat} : Int32.ofNat n = 1 ↔ n % 2 ^ 32 = 1 := by
  rw [← Int32.toInt_inj, Int32.toInt_ofNat', Int.bmod_def]
  simp only [Int32.size, Int32.reduceToInt]
  omega

section Regions

variable {abi : Abi} {env : IfEnv} {buf : RouteBuf} {entries : List Entry} {p : Nat}

/-- The test that the code takes for an empty list. -/
theorem sum_eq_one_iff :
    (countersOf abi buf entries).icnt + (countersOf abi buf entries).dcnt +
        (countersOf abi buf entries).ncnt = 1 ↔
      (1 + entries.length + dataTotal abi buf entries + nameTotal abi buf entries) % 2 ^ 32 =
        1 := by
  rw [countersOf, ← Int32.ofNat_add, ← Int32.ofNat_add, ofNat_eq_one_iff]

/-- Each interface has a name, with a NUL at least. -/
theorem nameTotal_pos (hown : Owned none entries) (hne : entries ≠ []) :
    0 < nameTotal abi buf entries := by
  cases entries with
  | nil => exact absurd rfl hne
  | cons e entries =>
      cases e with
      | link p =>
          rw [nameTotal, List.map_cons, List.sum_cons, Entry.nameSize]
          omega
      | addr l p => cases hown.1

/-- An entry takes room. -/
theorem sizeofIfaddrs_pos (abi : Abi) : 0 < sizeofIfaddrs abi := by
  cases abi <;> decide

/-- The size of the block, when the counters hold what they count. -/
theorem blockSize_countersOf (hi : 1 + entries.length < 2 ^ 31)
    (hd : dataTotal abi buf entries < 2 ^ 31) (hn : nameTotal abi buf entries < 2 ^ 31) :
    blockSize abi (countersOf abi buf entries) =
      blockTotal abi buf entries % 2 ^ abi.longBits := by
  rw [blockSize, countersOf, Int32.toInt_ofNat_of_lt hi, Int32.toInt_ofNat_of_lt hd,
    Int32.toInt_ofNat_of_lt hn, blockTotal]
  norm_cast

/-- In front of the second pass nothing is done. -/
theorem filled_start (abi : Abi) (env : IfEnv) (buf : RouteBuf) (p : Nat) (c : Sizes) :
    Filled abi buf none [] (startFilling abi env p c) where
  ift := rfl
  ift_le := Nat.zero_le _
  namesPos := rfl
  namesPos_le := Nat.zero_le _
  dataPos_le := Nat.zero_le _
  dataPos_le_total := Nat.zero_le _
  dataTotal_le := Nat.zero_le _
  entry i e he := by cases he
  fresh i _ hi := by
    simp only [startFilling, List.length_replicate] at hi ⊢
    rw [List.getElem?_replicate, if_pos hi]
  cif _ hl := by cases hl

/-- The entries in the block. -/
@[simp] theorem length_entries_startFilling (c : Sizes) :
    (startFilling abi env p c).entries.length =
      min c.icnt.toInt.toNat (blockSize abi c / sizeofIfaddrs abi) := by
  simp [startFilling]

/-- The room for the names. -/
@[simp] theorem length_names_startFilling (c : Sizes) :
    (startFilling abi env p c).names.length = min c.ncnt.toInt.toNat
      (blockSize abi c - (sizeofIfaddrs abi * c.icnt.toInt.toNat + c.dcnt.toInt.toNat)) := by
  simp [startFilling]

/-- The room for the data. -/
@[simp] theorem length_data_startFilling (c : Sizes) :
    (startFilling abi env p c).data.length = min c.dcnt.toInt.toNat
      (blockSize abi c - sizeofIfaddrs abi * c.icnt.toInt.toNat) := by
  simp [startFilling]

/-- When the counters hold what they count, each region has room for all entries. -/
theorem room_of_fitsInt (h : FitsInt abi buf entries) :
    entries.length ≤ (startFilling abi env p (countersOf abi buf entries)).entries.length ∧
      nameTotal abi buf entries ≤
        (startFilling abi env p (countersOf abi buf entries)).names.length ∧
      dataTotal abi buf entries ≤
        (startFilling abi env p (countersOf abi buf entries)).data.length := by
  have hsize := blockSize_countersOf h.icnt h.dcnt h.ncnt
  rw [Nat.mod_eq_of_lt h.block] at hsize
  have hentries : 1 + entries.length ≤ blockTotal abi buf entries / sizeofIfaddrs abi := by
    rw [Nat.le_div_iff_mul_le (sizeofIfaddrs_pos abi), Nat.mul_comm, blockTotal]
    omega
  rw [length_entries_startFilling, length_names_startFilling, length_data_startFilling, hsize,
    countersOf]
  simp only [toNat_ofNat_of_lt h.icnt, toNat_ofNat_of_lt h.dcnt, toNat_ofNat_of_lt h.ncnt]
  rw [blockTotal] at hentries ⊢
  refine ⟨?_, ?_, ?_⟩ <;> omega

/-- A second pass that stays inside its regions shows that the counters held what they count. -/
theorem fitsInt_of_filled {cur : Option Nat} {s : Filling} (hown : Owned none entries)
    (hne : entries ≠ [])
    (hsum : (1 + entries.length + dataTotal abi buf entries + nameTotal abi buf entries) % 2 ^ 32
      ≠ 1)
    (hs : Filled abi buf cur entries s)
    (hsize : SameSize (startFilling abi env p (countersOf abi buf entries)) s) :
    FitsInt abi buf entries := by
  have hentries := hs.ift_le
  have hnames := hs.namesPos_le
  have hdata := hs.dataPos_le
  have htotal := hs.dataTotal_le
  rw [hs.ift, hsize.entries, length_entries_startFilling] at hentries
  rw [hs.namesPos, hsize.names, length_names_startFilling] at hnames
  rw [hsize.data, length_data_startFilling] at hdata
  simp only [countersOf] at hentries hnames hdata
  -- The number of the entries is one less than their counter, and a wrapped counter is negative.
  have hi : 1 + entries.length < 2 ^ 31 := by
    have hlt := toNat_ofNat_lt (1 + entries.length)
    by_contra hge
    have hzero := toNat_ofNat_of_wrap (n := 1 + entries.length) (by omega) (by omega)
    omega
  have hn : nameTotal abi buf entries < 2 ^ 31 := by
    have hlt := toNat_ofNat_lt (nameTotal abi buf entries)
    omega
  -- The padding is at most half of the data.
  have hd : dataTotal abi buf entries < 2 ^ 31 := by
    have hlt := toNat_ofNat_lt (dataTotal abi buf entries)
    by_contra hge
    have hzero := toNat_ofNat_of_wrap (n := dataTotal abi buf entries) (by omega) (by omega)
    omega
  refine ⟨hi, hd, hn, ?_, by omega⟩
  -- A block that is too small has no room for the names.
  have hpos : 0 < nameTotal abi buf entries := nameTotal_pos hown hne
  have hblock := blockSize_countersOf hi hd hn
  simp only [countersOf] at hblock
  simp only [toNat_ofNat_of_lt hi, toNat_ofNat_of_lt hd, toNat_ofNat_of_lt hn, hblock] at hnames
  have hmod : blockTotal abi buf entries % 2 ^ abi.longBits < 2 ^ abi.longBits :=
    Nat.mod_lt _ (Nat.two_pow_pos _)
  rw [blockTotal] at hnames hmod ⊢
  omega

end Regions

/-! ### The list -/

section List

variable {abi : Abi} {env : IfEnv} {buf : RouteBuf} {entries done : List Entry}
  {cur : Option Nat} {s : Filling}

/-- No entries. -/
theorem FitsInt.nil : FitsInt abi buf [] := by
  refine ⟨?_, ?_, ?_, ?_, ?_⟩
  · decide
  · simp [dataTotal]
  · simp [nameTotal]
  · cases abi <;> simp [blockTotal, dataTotal, nameTotal, sizeofIfaddrs, Abi.longBits]
  · simp [dataTotal, nameTotal]

/-- A null pointer is the list of no entries. -/
theorem eq_nil_of_lists_none (h : Lists abi buf entries (.list none [] [] [])) : entries = [] := by
  obtain ⟨pif, es, names, data, heq, hlinked, -⟩ := h
  cases heq
  exact List.length_eq_zero_iff.mp (List.range_eq_nil.mp (Linked.none_iff.mp hlinked))

/-- The end of the function returns the list of the entries that are done. -/
theorem lists_finishList (hs : Filled abi buf cur done s) :
    Lists abi buf done (finishList s) := by
  unfold finishList
  split
  · rename_i hift
    have hnil : done = [] := List.length_eq_zero_iff.mp (hs.ift ▸ hift)
    subst hnil
    exact ⟨none, [], [], [], rfl, rfl, fun i e he => by cases he⟩
  · rename_i hift
    obtain ⟨n, hn⟩ : ∃ n, done.length = n + 1 := Nat.exists_eq_succ_of_ne_zero (hs.ift ▸ hift)
    have hlast : s.ift - 1 = n := by rw [hs.ift, hn, Nat.add_sub_cancel]
    rw [hlast]
    refine ⟨some 0, _, s.names, s.data, rfl, ?_, fun i e he => ?_⟩
    · rw [hn, List.range_eq_range']
      refine Linked.range' (fun i _ hi => ?_) ?_
      · obtain ⟨a, ha, hnext, -⟩ := hs.entry i _ (List.getElem?_eq_getElem (by omega))
        rw [nextOf, List.getElem?_modify_ne _ _ (by omega), ha]
        exact hnext
      · obtain ⟨a, ha, -, -⟩ := hs.entry n _ (List.getElem?_eq_getElem (by omega))
        rw [Nat.zero_add, nextOf, List.getElem?_modify_eq, ha]
        rfl
    · obtain ⟨a, ha, -, hof⟩ := hs.entry i e he
      have hof' := hof.mono (List.take_prefix s.namesPos s.names)
      by_cases hi : n = i
      · rw [hi, List.getElem?_modify_eq, ha]
        exact ⟨_, rfl, hof'.withNext none⟩
      · rw [List.getElem?_modify_ne _ _ hi, ha]
        exact ⟨a, rfl, hof'⟩

/-- What the function does with a well-formed buffer, in terms of the entries. -/
theorem listInterfaces_eq (abi : Abi) (env : IfEnv) (hwf : WellFormed buf entries) :
    listInterfaces abi env buf =
      if (1 + entries.length + dataTotal abi buf entries + nameTotal abi buf entries) % 2 ^ 32 = 1
      then .list none [] [] []
      else
        match env.malloc (blockSize abi (countersOf abi buf entries)) with
        | none => .error ENOMEM
        | some p =>
            match entries.foldlM (act (fillLink abi buf) (fillAddr abi buf))
              (startFilling abi env p (countersOf abi buf entries)) with
            | none => .fault
            | some s => finishList s := by
  obtain ⟨idx, hsizing⟩ := outcome_sizing abi buf hwf
  obtain ⟨cursor, hended⟩ := Exit.eq_ended hsizing
  rw [listInterfaces, hended]
  simp only [sum_eq_one_iff]
  split
  · rfl
  cases env.malloc (blockSize abi (countersOf abi buf entries)) with
  | none => rfl
  | some p =>
      simp only
      obtain ⟨idx', hfilling⟩ := outcome_routeLoop (fillLink abi buf) (fillAddr abi buf) hwf
        (startFilling abi env p (countersOf abi buf entries))
      cases hrun : entries.foldlM (act (fillLink abi buf) (fillAddr abi buf))
          (startFilling abi env p (countersOf abi buf entries)) with
      | none =>
          rw [hrun] at hfilling
          rw [Exit.eq_fault hfilling]
      | some s =>
          rw [hrun] at hfilling
          obtain ⟨cursor', hended'⟩ := Exit.eq_ended hfilling
          rw [hended']

/-- With counters that hold what they count, the call returns the list. -/
theorem lists_of_fitsInt (hwf : WellFormed buf entries) (hfit : FitsInt abi buf entries)
    (hmalloc : entries ≠ [] →
      (env.malloc (blockSize abi (countersOf abi buf entries))).isSome) :
    Lists abi buf entries (listInterfaces abi env buf) := by
  rw [listInterfaces_eq abi env hwf]
  split
  · rename_i hsum
    have hi := hfit.icnt
    have hd := hfit.dcnt
    have hn := hfit.ncnt
    have hne := hfit.sum
    have hnil : entries = [] := List.length_eq_zero_iff.mp (by omega)
    subst hnil
    exact ⟨none, [], [], [], rfl, rfl, fun i e he => by cases he⟩
  · rename_i hsum
    have hne : entries ≠ [] := by
      rintro rfl
      simp [dataTotal, nameTotal] at hsum
    obtain ⟨p, hp⟩ := Option.isSome_iff_exists.mp (hmalloc hne)
    obtain ⟨hentries, hnames, hdata⟩ := @room_of_fitsInt abi env buf entries p hfit
    have hstart := filled_start abi env buf p (countersOf abi buf entries)
    have hown := owned_of_entriesOf hwf.entries_eq
    obtain ⟨s, hrun⟩ := exists_run hstart hown hentries hnames hdata
    obtain ⟨cur, hs, -⟩ := filled_of_run hstart hown hrun
    rw [hp]
    simp only [hrun]
    exact lists_finishList hs

/-- A call that returns the list had counters that hold what they count. -/
theorem fitsInt_of_lists (hwf : WellFormed buf entries)
    (h : Lists abi buf entries (listInterfaces abi env buf)) : FitsInt abi buf entries := by
  rw [listInterfaces_eq abi env hwf] at h
  split at h
  · rw [eq_nil_of_lists_none h]
    exact .nil
  rename_i hsum
  have hown := owned_of_entriesOf hwf.entries_eq
  split at h
  · obtain ⟨_, _, _, _, heq, -⟩ := h
    cases heq
  · rename_i p hp
    split at h
    · obtain ⟨_, _, _, _, heq, -⟩ := h
      cases heq
    · rename_i s hrun
      have hne : entries ≠ [] := by
        rintro rfl
        simp [dataTotal, nameTotal] at hsum
      obtain ⟨cur, hs, hsize⟩ := filled_of_run
        (filled_start abi env buf p (countersOf abi buf entries)) hown hrun
      exact fitsInt_of_filled hown hne hsum hs hsize

/-- The two passes agree, and `getifaddrs` returns the list of the interfaces and their addresses,
exactly for the buffers whose counters fit an `int`. -/
theorem getifaddrs_lists_iff (abi : Abi) (env : IfEnv) (buf : RouteBuf) (entries : List Entry)
    (hread : readMessages env MAX_SYSCTL_TRY 0 = .ok buf) (hwf : WellFormed buf entries)
    (hmalloc : entries ≠ [] →
      (env.malloc (blockSize abi (countersOf abi buf entries))).isSome) :
    Lists abi buf entries (getifaddrs abi env) ↔ FitsInt abi buf entries := by
  rw [getifaddrs, hread]
  exact ⟨fitsInt_of_lists hwf, fun hfit => lists_of_fitsInt hwf hfit hmalloc⟩

end List

/-- The kernel hands out the messages at the first attempt, and there is memory. -/
def envOf (buf : RouteBuf) : IfEnv where
  attempt _ := { size := .ok buf.needed, malloc := fun _ => true, read := fun _ => .ok buf }
  malloc _ := some 4096
  junk _ := 0

/-- The kernel answers at once. -/
theorem readMessages_envOf (buf : RouteBuf) :
    readMessages (envOf buf) MAX_SYSCTL_TRY 0 = .ok buf := rfl

/-- The interface `lo0`, with one address. -/
def loopback : RouteBuf where
  mem p :=
    ([192, 0, RTM_VERSION, RTM_IFINFO, 16, 0, 0, 0, 73, 128, 0, 0, 1, 0] ++ List.replicate 154 0 ++
      [20, 18, 1, 0, 24, 3, 0, 0, 108, 111, 48] ++ List.replicate 13 0 ++
      [36, 0, RTM_VERSION, RTM_NEWADDR, 32, 0, 0, 0, 0, 0, 0, 0, 1, 0] ++ List.replicate 6 0 ++
      [16, 2, 0, 0, 127, 0, 0, 1]).getD p 0
  needed := 228

/-- The loopback interface is listed, with its address. -/
theorem getifaddrs_lists_iff_loopback :
    Lists .lp64 loopback [.link 0, .addr 0 192] (getifaddrs .lp64 (envOf loopback)) := by
  have hwf : WellFormed loopback [.link 0, .addr 0 192] := by
    have hmessages : loopback.messages = [0, 192] := by decide
    refine ⟨?_, ?_⟩
    · rw [hmessages]
      decide
    · rw [hmessages]
      decide
  refine (getifaddrs_lists_iff .lp64 (envOf loopback) loopback _ (readMessages_envOf _) hwf
    fun _ => rfl).mpr ?_
  refine ⟨?_, ?_, ?_, ?_, ?_⟩ <;> decide

/-! ### Counters that wrap -/

/-- `n` interfaces without a name, each in 176 bytes. -/
def interfaces (n : Nat) : RouteBuf where
  mem p := [176, 0, RTM_VERSION, RTM_IFINFO, 16, 0, 0, 0, 0, 0, 0, 0, 1].getD (p % 176) 0
  needed := 176 * n

/-- The entries of `n` interfaces without addresses. -/
def links (n : Nat) : List Entry := (List.range n).map fun k => .link (176 * k)

section Interfaces

variable (n k : Nat)

/-- All interfaces look alike. -/
@[simp] theorem mem_interfaces (i : Nat) :
    (interfaces n).mem (176 * k + i) = (interfaces n).mem i := by
  simp [interfaces]

/-- Some bytes of an interface are those of the first. -/
theorem bytes_interfaces (off len : Nat) :
    (interfaces n).bytes (176 * k + off) len = (interfaces n).bytes off len := by
  simp [RouteBuf.bytes, Nat.add_assoc]

/-- All messages have the same length. -/
theorem rtmMsglen_interfaces : (interfaces n).rtmMsglen (176 * k) = 176 := by
  have hbytes := bytes_interfaces n k 0 2
  rw [Nat.add_zero] at hbytes
  rw [RouteBuf.rtmMsglen, RouteBuf.u16, hbytes]
  rfl

/-- The messages follow each other. -/
theorem messages_interfaces :
    (interfaces n).messages = (List.range n).map fun k => 176 * k := by
  have hcursors := @cursors_const (interfaces n).rtmMsglen 176 n 0 (176 * n + 1) (by decide)
    (by omega) fun k _ => by
      rw [Nat.zero_add]
      exact rtmMsglen_interfaces n k
  simp only [Nat.zero_add] at hcursors
  exact hcursors

/-- Each message is an interface. -/
theorem entriesOf_interfaces (cur : Option Nat) (ks : List Nat) :
    entriesOf (interfaces n) cur (ks.map fun k => 176 * k) =
      some (ks.map fun k => .link (176 * k)) := by
  induction ks generalizing cur with
  | nil => rfl
  | cons k ks ih =>
      have hversion : (interfaces n).rtmVersion (176 * k) = RTM_VERSION := mem_interfaces n k 2
      have htype : (interfaces n).rtmType (176 * k) = RTM_IFINFO := mem_interfaces n k 3
      have hifp : (interfaces n).ifmAddrs (176 * k) &&& RTA_IFP ≠ 0 := by
        have hbytes : (interfaces n).bytes 4 4 = [16, 0, 0, 0] := rfl
        rw [RouteBuf.ifmAddrs, RouteBuf.int, bytes_interfaces, hbytes]
        decide
      rw [List.map_cons, entriesOf.eq_def]
      simp only
      rw [if_neg (not_not.mpr hversion), if_pos htype, if_pos hifp, ih]
      rfl

/-- The kernel may say this. -/
theorem wellFormed_interfaces : WellFormed (interfaces n) (links n) := by
  refine ⟨fun p hp => ?_, ?_⟩
  · rw [messages_interfaces] at hp
    obtain ⟨k, -, rfl⟩ := List.mem_map.mp hp
    rw [rtmMsglen_interfaces]
    decide
  · rw [messages_interfaces]
    exact entriesOf_interfaces n none (List.range n)

/-- The data of all interfaces. -/
theorem dataTotal_interfaces : dataTotal .lp64 (interfaces n) (links n) = 167 * n := by
  have hsize : ∀ k, Entry.dataSize .lp64 (interfaces n) (.link (176 * k)) = 167 := fun k => by
    have hlen : (interfaces n).saLen (176 * k + sizeofIfMsghdr .lp64) = 0 :=
      congrArg UInt8.toNat (mem_interfaces n k 168)
    rw [Entry.dataSize, RouteBuf.saRlen, if_neg (not_not.mpr hlen)]
    rfl
  simp only [dataTotal, links, List.map_map, Function.comp_def, hsize, List.map_const',
    List.sum_replicate_nat, List.length_range]
  rw [Nat.mul_comm]

/-- The names of all interfaces. -/
theorem nameTotal_interfaces : nameTotal .lp64 (interfaces n) (links n) = n := by
  have hsize : ∀ k, Entry.nameSize .lp64 (interfaces n) (.link (176 * k)) = 1 := fun k => by
    have hlen : (interfaces n).sdlNlen (176 * k + sizeofIfMsghdr .lp64) = 0 :=
      congrArg UInt8.toNat (mem_interfaces n k 173)
    rw [Entry.nameSize, hlen]
  simp only [nameTotal, links, List.map_map, Function.comp_def, hsize, List.map_const',
    List.sum_replicate_nat, List.length_range]
  rw [Nat.mul_one]

/-- What the first pass counts. -/
theorem countersOf_interfaces : countersOf .lp64 (interfaces n) (links n) =
    ⟨Int32.ofNat (1 + n), Int32.ofNat (167 * n), Int32.ofNat n⟩ := by
  rw [countersOf, dataTotal_interfaces, nameTotal_interfaces, links, List.length_map,
    List.length_range]

end Interfaces

/-- From `2 ^ 31` bytes of data on `dcnt` wraps. -/
theorem not_lists_interfaces {n : Nat} (h : 2 ^ 31 ≤ 167 * n) :
    ¬ Lists .lp64 (interfaces n) (links n) (getifaddrs .lp64 (envOf (interfaces n))) := by
  intro hlists
  rw [getifaddrs, readMessages_envOf] at hlists
  have hfit : FitsInt .lp64 (interfaces n) (links n) :=
    fitsInt_of_lists (wellFormed_interfaces n) hlists
  have hdata := hfit.dcnt
  rw [dataTotal_interfaces] at hdata
  omega

/-- For a buffer of `2 ^ 25` interfaces `dcnt` wraps to a positive number, so the block that the
code asks for is one that `malloc` can return, and the data do not fit into it. -/
theorem getifaddrs_wraps :
    readMessages (envOf (interfaces (2 ^ 25))) MAX_SYSCTL_TRY 0 = .ok (interfaces (2 ^ 25)) ∧
      WellFormed (interfaces (2 ^ 25)) (links (2 ^ 25)) ∧
      blockSize .lp64 (countersOf .lp64 (interfaces (2 ^ 25)) (links (2 ^ 25))) = 3221225528 ∧
      ¬ Lists .lp64 (interfaces (2 ^ 25)) (links (2 ^ 25))
        (getifaddrs .lp64 (envOf (interfaces (2 ^ 25)))) := by
  refine ⟨readMessages_envOf _, wellFormed_interfaces _, ?_, not_lists_interfaces (by decide)⟩
  rw [countersOf_interfaces]
  decide

end GlibcPorts.Interfaces
