import GlibcPorts.Interfaces.Getifaddrs

/-!
# `GlibcPorts.Proofs.Interfaces.Entries`: the messages that become entries

`entriesOf` says what the list of the interfaces is for: an entry for each interface that comes
with its name, and one for each of its addresses, in the order of the messages. It is `none` when
an address carries the index of another interface than the one in front of it.

Both passes of `getifaddrs` run their actions over these entries and nothing else, so they agree
on which messages count: `routeTurn_eq` is the step and `outcome_routeLoop` the run. For the first
pass this gives the counters: `sizes_eq` says that they are the sums over the entries, as far as
an `int` can hold them.
-/

set_option autoImplicit false

namespace GlibcPorts.Interfaces

open Lib

/-- A message that becomes an entry: an interface, or an address of the interface `link`. -/
inductive Entry where
  | link (p : Nat)
  | addr (link p : Nat)
deriving DecidableEq, Repr

section Entries

variable (buf : RouteBuf)

/-- The entries for the messages at some offsets, behind the interface `cur`. An interface without
an index has no addresses. -/
def entriesOf : Option Nat → List Nat → Option (List Entry)
  | _, [] => some []
  | cur, p :: ps =>
      if buf.rtmVersion p ≠ RTM_VERSION then entriesOf cur ps
      else if buf.rtmType p = RTM_IFINFO then
        if buf.ifmAddrs p &&& RTA_IFP ≠ 0 then
          (entriesOf (if buf.ifmIndex p = 0 then none else some p) ps).map (.link p :: ·)
        else entriesOf none ps
      else if buf.rtmType p = RTM_NEWADDR then
        match cur with
        | none => entriesOf none ps
        | some link =>
            if buf.ifamIndex p ≠ buf.ifmIndex link then none
            else if buf.ifamAddrs p &&& RTA_MASKS = 0 then entriesOf (some link) ps
            else (entriesOf (some link) ps).map (.addr link p :: ·)
      else entriesOf cur ps

/-- The offsets of the messages. -/
def RouteBuf.messages : List Nat := cursors buf.rtmMsglen buf.needed (buf.needed + 1) 0

/-- The messages of the buffer become these entries. -/
structure WellFormed (entries : List Entry) : Prop where
  msglen_pos : ∀ p ∈ buf.messages, 0 < buf.rtmMsglen p
  entries_eq : entriesOf buf none buf.messages = some entries

/-- `idx`, behind the interface `cur`. -/
def idxOf : Option Nat → Nat
  | none => 0
  | some link => buf.ifmIndex link

end Entries

/-- The interface that the next address belongs to. -/
def Entry.owner (cur : Option Nat) : Entry → Option Nat
  | .link p => some p
  | .addr _ _ => cur

/-- Each address belongs to the last interface in front of it. -/
def Owned : Option Nat → List Entry → Prop
  | _, [] => True
  | _, .link p :: entries => Owned (some p) entries
  | cur, .addr link _ :: entries => cur = some link ∧ Owned cur entries

section Run

variable {σ : Type} {buf : RouteBuf} {cur : Option Nat} {ps : List Nat} {entries : List Entry}

/-- Without an interface in front there are no addresses, and then it does not matter. -/
theorem Owned.of_none (h : Owned none entries) (cur : Option Nat) : Owned cur entries := by
  cases entries with
  | nil => trivial
  | cons e entries =>
      cases e with
      | link p => exact h
      | addr l p => cases h.1

/-- The addresses behind an interface are its own. -/
theorem owned_of_entriesOf (h : entriesOf buf cur ps = some entries) : Owned cur entries := by
  induction ps generalizing cur entries with
  | nil =>
      cases h
      trivial
  | cons p ps ih =>
      rw [entriesOf.eq_def] at h
      simp only at h
      split at h
      · exact ih h
      split at h
      · split at h
        · obtain ⟨entries, hrest, rfl⟩ := Option.map_eq_some_iff.mp h
          have hown := ih hrest
          by_cases hidx : buf.ifmIndex p = 0
          · rw [if_pos hidx] at hown
            exact hown.of_none (some p)
          · rwa [if_neg hidx] at hown
        · exact (ih h).of_none cur
      split at h
      · cases cur with
        | none => exact ih h
        | some l =>
            simp only at h
            split at h
            · cases h
            split at h
            · exact ih h
            · obtain ⟨entries, hrest, rfl⟩ := Option.map_eq_some_iff.mp h
              exact ⟨rfl, ih hrest⟩
      · exact ih h

/-- The action of a pass at an entry. -/
def act (link addr : σ → Nat → Option σ) (s : σ) : Entry → Option σ
  | .link p => link s p
  | .addr _ p => addr s p

/-- A turn of a pass: it runs its action at the entry that the message becomes, if it does, and
`idx` is the index of the interface that the next message comes behind. -/
theorem routeTurn_eq (link addr : σ → Nat → Option σ) {p : Nat}
    (hcur : ∀ l, cur = some l → buf.ifmIndex l ≠ 0)
    (h : entriesOf buf cur (p :: ps) = some entries) :
    ∃ head cur' rest, entries = head ++ rest ∧ entriesOf buf cur' ps = some rest ∧
      (∀ l, cur' = some l → buf.ifmIndex l ≠ 0) ∧
      ∀ s, routeTurn buf link addr (idxOf buf cur, s) p =
        (head.foldlM (act link addr) s).map fun s' => .inr (idxOf buf cur', s') := by
  have hone : ∀ (e : Entry) (s : σ), [e].foldlM (act link addr) s = act link addr s e := by
    intro e s
    rw [List.foldlM_cons]
    exact bind_pure _
  rw [entriesOf.eq_def] at h
  simp only at h
  split at h
  · rename_i hversion
    refine ⟨[], cur, entries, rfl, h, hcur, fun s => ?_⟩
    rw [routeTurn, if_pos hversion]
    rfl
  rename_i hversion
  split at h
  · rename_i hinfo
    split at h
    · rename_i hifp
      obtain ⟨rest, hrest, rfl⟩ := Option.map_eq_some_iff.mp h
      refine ⟨[.link p], _, rest, rfl, hrest, ?_, fun s => ?_⟩
      · intro l hl
        split at hl
        · cases hl
        · cases hl
          assumption
      · -- The index of the interface is what `idx` holds from here on, also when it is 0.
        have hidx : idxOf buf (if buf.ifmIndex p = 0 then none else some p) = buf.ifmIndex p := by
          split
          · rename_i hzero
            rw [hzero]
            rfl
          · rfl
        rw [routeTurn, if_neg hversion, if_pos hinfo, if_pos hifp, hone, hidx]
        rfl
    · rename_i hifp
      refine ⟨[], none, entries, rfl, h, (fun _ hl => by cases hl), fun s => ?_⟩
      rw [routeTurn, if_neg hversion, if_pos hinfo, if_neg hifp]
      rfl
  rename_i hinfo
  split at h
  · rename_i hnewaddr
    cases cur with
    | none =>
        refine ⟨[], none, entries, rfl, h, hcur, fun s => ?_⟩
        have hguard : ¬ (idxOf buf none ≠ 0 ∧ buf.ifamIndex p ≠ idxOf buf none) := fun hne =>
          hne.1 rfl
        rw [routeTurn, if_neg hversion, if_neg hinfo, if_pos hnewaddr, if_neg hguard,
          if_pos (.inl rfl)]
        rfl
    | some l =>
        simp only at h
        split at h
        · cases h
        rename_i hindex
        have hguard : ¬ (idxOf buf (some l) ≠ 0 ∧ buf.ifamIndex p ≠ idxOf buf (some l)) :=
          fun hne => hindex hne.2
        split at h
        · rename_i hmasks
          refine ⟨[], some l, entries, rfl, h, hcur, fun s => ?_⟩
          rw [routeTurn, if_neg hversion, if_neg hinfo, if_pos hnewaddr, if_neg hguard,
            if_pos (.inr hmasks)]
          rfl
        · rename_i hmasks
          obtain ⟨rest, hrest, rfl⟩ := Option.map_eq_some_iff.mp h
          refine ⟨[.addr l p], some l, rest, rfl, hrest, hcur, fun s => ?_⟩
          have hne : ¬ (idxOf buf (some l) = 0 ∨ buf.ifamAddrs p &&& RTA_MASKS = 0) :=
            not_or.mpr ⟨hcur l rfl, hmasks⟩
          rw [routeTurn, if_neg hversion, if_neg hinfo, if_pos hnewaddr, if_neg hguard,
            if_neg hne, hone]
          rfl
  · rename_i hnewaddr
    refine ⟨[], cur, entries, rfl, h, hcur, fun s => ?_⟩
    rw [routeTurn, if_neg hversion, if_neg hinfo, if_neg hnewaddr]
    rfl

/-- A pass runs its actions over the entries. -/
theorem runOver_routeTurn (link addr : σ → Nat → Option σ)
    (hcur : ∀ l, cur = some l → buf.ifmIndex l ≠ 0) (h : entriesOf buf cur ps = some entries)
    (s : σ) :
    ∃ idx, runOver (routeTurn buf link addr) (idxOf buf cur, s) ps =
      (entries.foldlM (act link addr) s).map fun s' => .inr (idx, s') := by
  induction ps generalizing cur entries s with
  | nil =>
      cases h
      exact ⟨_, rfl⟩
  | cons p ps ih =>
      obtain ⟨head, cur', rest, rfl, hrest, hcur', hturn⟩ := routeTurn_eq link addr hcur h
      rw [runOver, hturn, List.foldlM_append]
      cases head.foldlM (act link addr) s with
      | none => exact ⟨0, rfl⟩
      | some s' => exact ih hcur' hrest s'

/-- A loop of `getifaddrs` over a well-formed buffer ends, and not with an error: it runs its
actions over the entries. -/
theorem outcome_routeLoop (link addr : σ → Nat → Option σ) (hwf : WellFormed buf entries) (s : σ) :
    ∃ idx, (routeLoop buf link addr s).outcome =
      some ((entries.foldlM (act link addr) s).map fun s' => .inr (idx, s')) := by
  obtain ⟨idx, hrun⟩ := runOver_routeTurn link addr (fun _ hl => by cases hl) hwf.entries_eq s
  refine ⟨idx, ?_⟩
  rw [← hrun]
  exact walk_cursors hwf.msglen_pos (Nat.succ_pos _) (by omega) (0, s)

end Run

/-! ### The counters -/

section Counters

variable (abi : Abi) (buf : RouteBuf)

/-- The bytes that the code reserves for the socket address of the bit `i`. An empty netmask gets
those of the address. -/
def addrLen (alen i p : Nat) : Nat :=
  if i = RTAX_NETMASK ∧ buf.saLen p = 0 then alen else buf.saRlen abi p

/-- The bytes for the socket addresses of some bits, the first one at `p`. -/
def addrsLen (alen : Nat) : List Nat → Nat → Nat
  | [], _ => 0
  | i :: is, p => addrLen abi buf alen i p + addrsLen alen is (p + buf.saRlen abi p)

namespace Entry

/-- The bytes of the data region for an entry, with the largest padding. -/
def dataSize : Entry → Nat
  | .link p =>
      buf.saRlen abi (p + sizeofIfMsghdr abi) + ALIGNBYTES abi + sizeofIfData abi
  | .addr _ p =>
      let bits := addrBits (buf.ifamAddrs p)
      let q := p + sizeofIfaMsghdr
      addrsLen abi buf (alenOf abi buf bits q) bits q

/-- The bytes for the name of an entry. An address has that of its interface. -/
def nameSize : Entry → Nat
  | .link p => buf.sdlNlen (p + sizeofIfMsghdr abi) + 1
  | .addr _ _ => 0

end Entry

/-- The bytes for the data of some entries. -/
def dataTotal (entries : List Entry) : Nat := (entries.map (Entry.dataSize abi buf)).sum

/-- The bytes for the names of some entries. -/
def nameTotal (entries : List Entry) : Nat := (entries.map (Entry.nameSize abi buf)).sum

/-- The counters for some entries, as an `int` holds them. -/
def countersOf (entries : List Entry) : Sizes where
  icnt := Int32.ofNat (1 + entries.length)
  dcnt := Int32.ofNat (dataTotal abi buf entries)
  ncnt := Int32.ofNat (nameTotal abi buf entries)

/-- The data of some entries, and of others. -/
theorem dataTotal_append (as bs : List Entry) :
    dataTotal abi buf (as ++ bs) = dataTotal abi buf as + dataTotal abi buf bs := by
  simp [dataTotal]

/-- The data of one entry. -/
theorem dataTotal_singleton (e : Entry) : dataTotal abi buf [e] = e.dataSize abi buf := by
  simp [dataTotal]

/-- The names of some entries, and of others. -/
theorem nameTotal_append (as bs : List Entry) :
    nameTotal abi buf (as ++ bs) = nameTotal abi buf as + nameTotal abi buf bs := by
  simp [nameTotal]

/-- The name of one entry. -/
theorem nameTotal_singleton (e : Entry) : nameTotal abi buf [e] = e.nameSize abi buf := by
  simp [nameTotal]

/-- The first pass adds up the sizes of the addresses. -/
theorem sizeAddrs_eq (alen : Nat) (is : List Nat) (p : Nat) (dcnt : Int32) :
    sizeAddrs abi buf alen is p dcnt = dcnt + Int32.ofNat (addrsLen abi buf alen is p) := by
  induction is generalizing p dcnt with
  | nil => simp [sizeAddrs, addrsLen]
  | cons i is ih =>
      rw [sizeAddrs, ih, addrsLen, addrLen]
      split <;> simp only [Int32.ofNat_add, Int32.add_assoc]

/-- What the first pass adds for an entry. -/
theorem act_size (s : Sizes) (e : Entry) :
    act (sizeLink abi buf) (sizeAddr abi buf) s e = some {
      icnt := s.icnt + 1
      dcnt := s.dcnt + Int32.ofNat (e.dataSize abi buf)
      ncnt := s.ncnt + Int32.ofNat (e.nameSize abi buf) } := by
  cases e with
  | link p =>
      simp only [act, sizeLink, Entry.dataSize, Entry.nameSize, Int32.ofNat_add, Int32.add_assoc]
  | addr l p => simp [act, sizeAddr, Entry.dataSize, Entry.nameSize, sizeAddrs_eq]

/-- The counters at the end of the first pass. -/
theorem sizes_eq (entries : List Entry) (s : Sizes) :
    entries.foldlM (act (sizeLink abi buf) (sizeAddr abi buf)) s = some {
      icnt := s.icnt + Int32.ofNat entries.length
      dcnt := s.dcnt + Int32.ofNat (dataTotal abi buf entries)
      ncnt := s.ncnt + Int32.ofNat (nameTotal abi buf entries) } := by
  induction entries generalizing s with
  | nil => simp [dataTotal, nameTotal]
  | cons e entries ih =>
      have hlen : Int32.ofNat (e :: entries).length = 1 + Int32.ofNat entries.length := by
        rw [List.length_cons, Nat.add_comm, Int32.ofNat_add]
        rfl
      rw [List.foldlM_cons, act_size, Option.bind_eq_bind, Option.bind_some, ih, hlen]
      simp only [dataTotal, nameTotal, List.map_cons, List.sum_cons, Int32.ofNat_add,
        Int32.add_assoc]

/-- The first pass over a well-formed buffer ends with the counters of its entries. -/
theorem outcome_sizing {entries : List Entry} (hwf : WellFormed buf entries) :
    ∃ idx, (routeLoop buf (sizeLink abi buf) (sizeAddr abi buf) ⟨1, 0, 0⟩).outcome =
      some (some (.inr (idx, countersOf abi buf entries))) := by
  obtain ⟨idx, hout⟩ := outcome_routeLoop (sizeLink abi buf) (sizeAddr abi buf) hwf ⟨1, 0, 0⟩
  refine ⟨idx, ?_⟩
  rw [hout, sizes_eq]
  simp [countersOf, Int32.ofNat_add]

end Counters

end GlibcPorts.Interfaces
