import GlibcPorts.Sockets.ControlMessages

/-!
# `GlibcPorts.Proofs.Sockets.ControlMessages`: the loop over the ancillary data

* `walkHeaders_safe`: the loop reads only inside the buffer, ends, and gets headers that are
  aligned and do not overlap, exactly if no header that it comes to leads it `Astray`: a length
  with which the addresses wrap around, to a place that `CMSG_NXTHDR` does not take for the end.
  With 4 GiB of addresses behind the buffer there is no such length. A 32-bit program can meet one
  in any buffer (`exists_endless`).
* `receives_iff`: the messages that a program lays out with `CMSG_LEN` and `CMSG_SPACE` are those
  that a reader gets, if the last one has its padding too. Without it the reader misses that
  message, unless it is the only one.
-/

set_option autoImplicit false

namespace GlibcPorts.Sockets

open Lib

section Sizes

variable (abi : Abi)

/-- A `size_t` takes room. -/
theorem sizeofSizeT_pos : 0 < sizeofSizeT abi := Nat.two_pow_pos _

/-- A header is aligned to a `size_t`. -/
theorem sizeofSizeT_dvd : sizeofSizeT abi ∣ sizeofCmsghdr abi := by
  cases abi <;> decide

/-- The members of a header are inside it. -/
theorem twelve_le_sizeofCmsghdr : 12 ≤ sizeofCmsghdr abi := by cases abi <;> decide

/-- A header has room for a `size_t`. -/
theorem sizeofSizeT_le : sizeofSizeT abi ≤ sizeofCmsghdr abi := by cases abi <;> decide

/-- An address has 32 bits or more. -/
theorem two_pow_32_le : 2 ^ 32 ≤ 2 ^ abi.longBits := by cases abi <;> decide

/-- A `size_t` is not larger than its numbers. -/
theorem sizeTLog_le : sizeTLog abi ≤ abi.longBits := by
  cases abi <;> decide

variable {abi} {len p n : Nat}

/-- Without a wrap around `CMSG_ALIGN` gives the next multiple. -/
theorem CMSG_ALIGN_of_lt (h : len + (sizeofSizeT abi - 1) < 2 ^ abi.longBits) :
    CMSG_ALIGN abi len = roundUp (sizeofSizeT abi) len := by
  have hlen : len < 2 ^ abi.longBits := by omega
  have hnat : (BitVec.ofNat abi.longBits len).toNat = len := by
    rw [BitVec.toNat_ofNat, Nat.mod_eq_of_lt hlen]
  unfold CMSG_ALIGN
  rw [toNat_alignUp_of_lt (sizeTLog_le abi) (by rw [hnat]; exact h), hnat]
  rfl

/-- With one it gives zero. -/
theorem CMSG_ALIGN_of_le (hlen : len < 2 ^ abi.longBits)
    (h : 2 ^ abi.longBits ≤ len + (sizeofSizeT abi - 1)) : CMSG_ALIGN abi len = 0 := by
  have hnat : (BitVec.ofNat abi.longBits len).toNat = len := by
    rw [BitVec.toNat_ofNat, Nat.mod_eq_of_lt hlen]
  unfold CMSG_ALIGN
  exact toNat_alignUp_of_le (sizeTLog_le abi) (by rw [hnat]; exact h)

/-- An aligned length is a `size_t`. -/
theorem CMSG_ALIGN_lt (abi : Abi) (len : Nat) : CMSG_ALIGN abi len < 2 ^ abi.longBits :=
  BitVec.isLt _

/-- The size of a header is aligned. -/
theorem CMSG_ALIGN_sizeofCmsghdr : CMSG_ALIGN abi (sizeofCmsghdr abi) = sizeofCmsghdr abi := by
  cases abi <;> decide

/-- The length of a message is that of its header and its data. -/
theorem CMSG_LEN_eq (n : Nat) : CMSG_LEN abi n = sizeofCmsghdr abi + n := by
  rw [CMSG_LEN, CMSG_ALIGN_sizeofCmsghdr]

/-- A sum that does not wrap around. -/
theorem addPtr_of_lt (h : p + n < 2 ^ abi.longBits) : addPtr abi p n = p + n :=
  Nat.mod_eq_of_lt h

/-- An address that wraps around lies in front. -/
theorem addPtr_of_le (hp : p < 2 ^ abi.longBits) (hn : n < 2 ^ abi.longBits)
    (h : 2 ^ abi.longBits ≤ p + n) : addPtr abi p n + 2 ^ abi.longBits = p + n := by
  rw [addPtr, Nat.mod_eq_sub_mod h, Nat.mod_eq_of_lt (by omega)]
  omega

end Sizes

/-! ### Any buffer -/

section Walks

variable {abi : Abi} {mhdr : MsgHdr abi} {cmsg next len fuel : Nat}

/-- A length that can be read has 32 bits. -/
theorem cmsgLen_lt (h : cmsgLen mhdr cmsg = some len) : len < 2 ^ 32 := by
  unfold cmsgLen MsgHdr.word at h
  split at h
  · unfold readLe at h
    split at h
    · next hle =>
      cases h
      refine Nat.lt_of_lt_of_eq (leNat_lt _) ?_
      rw [List.length_take, List.length_drop, Nat.min_eq_left (by omega)]
      rfl
    · cases h
  · cases h

/-- A pointer to a header of the buffer. -/
structure InBuffer (mhdr : MsgHdr abi) (cmsg : Nat) : Prop where
  le : mhdr.msgControl ≤ cmsg
  room : cmsg + sizeofCmsghdr abi ≤ mhdr.limit
  aligned : sizeofSizeT abi ∣ cmsg - mhdr.msgControl

/-- Every header in the buffer has a length. -/
theorem InBuffer.exists_cmsgLen (h : InBuffer mhdr cmsg) : ∃ len, cmsgLen mhdr cmsg = some len := by
  have hsize := twelve_le_sizeofCmsghdr abi
  have hle := h.le
  have hroom := h.room
  unfold MsgHdr.limit at hroom
  unfold cmsgLen MsgHdr.word readLe
  rw [if_pos hle, if_pos (by omega)]
  exact ⟨_, rfl⟩

/-- An aligned length is a multiple of the alignment. -/
theorem dvd_CMSG_ALIGN (abi : Abi) (len : Nat) : sizeofSizeT abi ∣ CMSG_ALIGN abi len := by
  unfold CMSG_ALIGN
  rw [toNat_alignUp (sizeTLog_le abi)]
  exact Nat.dvd_mul_left _ _

/-- The end of the header behind this length wraps around, or already its address does. -/
def Wraps (abi : Abi) (cmsg len : Nat) : Prop :=
  2 ^ abi.longBits ≤ cmsg + roundUp (sizeofSizeT abi) len + sizeofCmsghdr abi

/-- `CMSG_NXTHDR` takes the place behind this length for the end: it reads a length there, in the
buffer, that leads behind the buffer. -/
def TakenForEnd (mhdr : MsgHdr abi) (cmsg len : Nat) : Prop :=
  ∃ nextLen, cmsgLen mhdr (addPtr abi cmsg (CMSG_ALIGN abi len)) = some nextLen ∧
    mhdr.limit < addPtr abi (addPtr abi cmsg (CMSG_ALIGN abi len)) (CMSG_ALIGN abi nextLen)

/-- From a header of this length the loop goes wrong. -/
structure Astray (mhdr : MsgHdr abi) (cmsg len : Nat) : Prop where
  size : sizeofCmsghdr abi ≤ len
  wraps : Wraps abi cmsg len
  not_taken : ¬ TakenForEnd mhdr cmsg len

/-- A length that does not wrap around is aligned to the next multiple. -/
theorem CMSG_ALIGN_of_not_wraps (h : ¬ Wraps abi cmsg len) :
    CMSG_ALIGN abi len = roundUp (sizeofSizeT abi) len := by
  have hle := le_roundUp (sizeofSizeT_pos abi) len
  have hsize := sizeofSizeT_le abi
  have hpos := sizeofSizeT_pos abi
  unfold Wraps at h
  exact CMSG_ALIGN_of_lt (by omega)

/-- Without a wrap around `CMSG_NXTHDR` gets to a header of the buffer behind this one, or to
none. -/
theorem cmsgNxthdr_of_not_wraps (h : InBuffer mhdr cmsg) (hlen : cmsgLen mhdr cmsg = some len)
    (hwraps : ¬ Wraps abi cmsg len) :
    ∃ r, cmsgNxthdr mhdr cmsg = some r ∧
      ∀ next ∈ r, InBuffer mhdr next ∧ cmsg + sizeofCmsghdr abi ≤ next := by
  have hnone : ∀ next ∈ (none : Option Nat),
      InBuffer mhdr next ∧ cmsg + sizeofCmsghdr abi ≤ next := nofun
  have halign := CMSG_ALIGN_of_not_wraps hwraps
  have hle := le_roundUp (sizeofSizeT_pos abi) len
  have hdvd := dvd_CMSG_ALIGN abi len
  unfold Wraps at hwraps
  rw [← halign] at hwraps hle
  unfold cmsgNxthdr
  rw [hlen, Option.bind_eq_bind, Option.bind_some]
  split
  · -- The header is too short.
    exact ⟨none, rfl, hnone⟩
  · next hsize =>
    dsimp only
    rw [addPtr_of_lt (p := cmsg) (n := CMSG_ALIGN abi len) (by omega),
      addPtr_of_lt (n := sizeofCmsghdr abi) (by omega)]
    split
    · exact ⟨none, rfl, hnone⟩
    · next hroom =>
      -- There is room for a header, at an aligned place.
      have hfirst := h.le
      have hbuffer : InBuffer mhdr (cmsg + CMSG_ALIGN abi len) := by
        refine ⟨by omega, by omega, ?_⟩
        rw [Nat.sub_add_comm hfirst]
        exact Nat.dvd_add h.aligned hdvd
      obtain ⟨nextLen, hnextLen⟩ := hbuffer.exists_cmsgLen
      rw [hnextLen, Option.bind_some]
      split
      · exact ⟨none, rfl, hnone⟩
      · refine ⟨_, rfl, ?_⟩
        rintro _ ⟨⟩
        exact ⟨hbuffer, by omega⟩

/-- Where a length that wraps around leads: not to a header of the buffer behind this one, but no
end of a header lies behind the buffer. -/
theorem addPtr_of_wraps (h : InBuffer mhdr cmsg) (hlen : cmsgLen mhdr cmsg = some len)
    (hsize : sizeofCmsghdr abi ≤ len) (hwraps : Wraps abi cmsg len)
    (hnext : next = addPtr abi cmsg (CMSG_ALIGN abi len)) :
    ¬ mhdr.limit < addPtr abi next (sizeofCmsghdr abi) ∧
      ¬ (InBuffer mhdr next ∧ cmsg + sizeofCmsghdr abi ≤ next) := by
  have hbits := two_pow_32_le abi
  have hlt := cmsgLen_lt hlen
  have hroom := h.room
  have hlimit : mhdr.limit < 2 ^ abi.longBits := mhdr.limit_lt
  have hpos := twelve_le_sizeofCmsghdr abi
  by_cases halign : 2 ^ abi.longBits ≤ len + (sizeofSizeT abi - 1)
  · -- Aligned, the length is zero, and the next header is this one.
    have hself : next = cmsg := by
      rw [hnext, CMSG_ALIGN_of_le (by omega) halign, addPtr_of_lt (by omega), Nat.add_zero]
    rw [hself, addPtr_of_lt (by omega)]
    exact ⟨by omega, fun hbehind => by have hge := hbehind.2; omega⟩
  · have hup := CMSG_ALIGN_of_lt (Nat.not_le.mp halign)
    have hfar := CMSG_ALIGN_lt abi len
    unfold Wraps at hwraps
    rw [← hup] at hwraps
    by_cases hcarry : 2 ^ abi.longBits ≤ cmsg + CMSG_ALIGN abi len
    · -- The address of the next header wraps around.
      have hback := addPtr_of_le (by omega) hfar hcarry
      rw [← hnext] at hback
      rw [addPtr_of_lt (p := next) (by omega)]
      exact ⟨by omega, fun hbehind => by have hge := hbehind.2; omega⟩
    · -- Only the end of the next header wraps around.
      rw [addPtr_of_lt (Nat.not_le.mp hcarry)] at hnext
      have hnextlt : next < 2 ^ abi.longBits := by omega
      have hback := addPtr_of_le (n := sizeofCmsghdr abi) hnextlt (by omega) (by omega)
      exact ⟨by omega, fun hbehind => by have hge := hbehind.1.room; omega⟩

/-- With a wrap around it depends on what is read there. -/
theorem cmsgNxthdr_of_wraps (h : InBuffer mhdr cmsg) (hlen : cmsgLen mhdr cmsg = some len)
    (hsize : sizeofCmsghdr abi ≤ len) (hwraps : Wraps abi cmsg len) :
    (TakenForEnd mhdr cmsg len ∧ cmsgNxthdr mhdr cmsg = some none) ∨
      (¬ TakenForEnd mhdr cmsg len ∧ (cmsgNxthdr mhdr cmsg = none ∨
        ∃ next, cmsgNxthdr mhdr cmsg = some (some next) ∧
          ¬ (InBuffer mhdr next ∧ cmsg + sizeofCmsghdr abi ≤ next))) := by
  obtain ⟨hroom, hbehind⟩ := addPtr_of_wraps h hlen hsize hwraps rfl
  unfold cmsgNxthdr TakenForEnd
  simp only [hlen, Option.bind_eq_bind, Option.bind_some, if_neg (Nat.not_lt.mpr hsize),
    if_neg hroom, Option.pure_def]
  cases hnext : cmsgLen mhdr (addPtr abi cmsg (CMSG_ALIGN abi len)) with
  | none => simp
  | some nextLen =>
      rw [Option.bind_some]
      by_cases hend : mhdr.limit <
          addPtr abi (addPtr abi cmsg (CMSG_ALIGN abi len)) (CMSG_ALIGN abi nextLen)
      · exact .inl ⟨⟨nextLen, rfl, hend⟩, if_pos hend⟩
      · refine .inr ⟨?_, .inr ⟨_, if_neg hend, hbehind⟩⟩
        rintro ⟨nextLen', hread, hend'⟩
        cases hread
        exact hend hend'

/-- A header that does not lead the loop astray is followed by a header of the buffer behind it, or
by none. -/
theorem cmsgNxthdr_spec (h : InBuffer mhdr cmsg) (hlen : cmsgLen mhdr cmsg = some len)
    (hgood : ¬ Astray mhdr cmsg len) :
    ∃ r, cmsgNxthdr mhdr cmsg = some r ∧
      ∀ next ∈ r, InBuffer mhdr next ∧ cmsg + sizeofCmsghdr abi ≤ next := by
  by_cases hwraps : Wraps abi cmsg len
  · by_cases hsize : sizeofCmsghdr abi ≤ len
    · rcases cmsgNxthdr_of_wraps h hlen hsize hwraps with ⟨-, hnone⟩ | ⟨hnot, -⟩
      · exact ⟨none, hnone, nofun⟩
      · exact absurd ⟨hsize, hwraps, hnot⟩ hgood
    · refine ⟨none, ?_, nofun⟩
      unfold cmsgNxthdr
      rw [hlen, Option.bind_eq_bind, Option.bind_some, if_pos (Nat.not_le.mp hsize)]
      rfl
  · exact cmsgNxthdr_of_not_wraps h hlen hwraps

/-! ### The loop -/

/-- One turn of the loop. -/
theorem walkFrom_succ {r : Option Nat} (h : cmsgNxthdr mhdr cmsg = some r) :
    walkFrom mhdr (fuel + 1) (some cmsg) = (walkFrom mhdr fuel r).cons cmsg := by
  rw [walkFrom, h]

/-- A walk that ends, without its first header. -/
theorem Walk.cons_eq_ended {w : Walk} {headers : List Nat} (h : w.cons cmsg = .ended headers) :
    ∃ rest, w = .ended rest ∧ headers = cmsg :: rest := by
  cases w with
  | ended rest =>
      cases h
      exact ⟨rest, rfl, rfl⟩
  | fault => cases h
  | running => cases h

/-- A loop that ends has taken one turn for its first header. -/
theorem walkFrom_some_ended {headers : List Nat}
    (h : walkFrom mhdr fuel (some cmsg) = .ended headers) :
    ∃ fuel' r rest, fuel = fuel' + 1 ∧ cmsgNxthdr mhdr cmsg = some r ∧
      walkFrom mhdr fuel' r = .ended rest ∧ headers = cmsg :: rest := by
  cases fuel with
  | zero => cases h
  | succ fuel =>
      cases hnext : cmsgNxthdr mhdr cmsg with
      | none =>
          rw [walkFrom, hnext] at h
          cases h
      | some r =>
          rw [walkFrom_succ hnext] at h
          obtain ⟨rest, hrest, rfl⟩ := Walk.cons_eq_ended h
          exact ⟨fuel, r, rest, rfl, rfl, hrest, rfl⟩

/-- A loop that ends gives the same headers, however many turns it gets, if they are enough. -/
theorem walkFrom_eq_or_running {p : Option Nat} {headers : List Nat}
    (h : walkFrom mhdr fuel p = .ended headers) (fuel' : Nat) :
    walkFrom mhdr fuel' p = .ended headers ∨ walkFrom mhdr fuel' p = .running := by
  induction fuel generalizing p headers fuel' with
  | zero => cases h
  | succ fuel ih =>
      cases fuel' with
      | zero => exact .inr rfl
      | succ fuel' =>
          cases p with
          | none => exact .inl h
          | some cmsg =>
              obtain ⟨f, r, rest, hf, hnext, hrest, rfl⟩ := walkFrom_some_ended h
              cases hf
              rw [walkFrom_succ hnext]
              rcases ih hrest fuel' with hsame | hrunning
              · rw [hsame]
                exact .inl rfl
              · rw [hrunning]
                exact .inr rfl

/-- The headers that the loop comes to. -/
inductive Visited (mhdr : MsgHdr abi) : Nat → Prop
  | first {cmsg : Nat} : CMSG_FIRSTHDR mhdr = some cmsg → Visited mhdr cmsg
  | next {cmsg next : Nat} : Visited mhdr cmsg →
      cmsgNxthdr mhdr cmsg = some (some next) → Visited mhdr next

/-- A loop that ends has every header that it comes to among its headers, and ends from there
on. -/
theorem Visited.ended (h : Visited mhdr cmsg) {headers : List Nat}
    (hended : walkHeaders mhdr fuel = .ended headers) :
    ∃ fuel' before rest, walkFrom mhdr fuel' (some cmsg) = .ended rest ∧
      headers = before ++ rest := by
  induction h with
  | first h =>
      unfold walkHeaders at hended
      rw [h] at hended
      exact ⟨fuel, [], headers, hended, rfl⟩
  | next _ hnext ih =>
      obtain ⟨fuel', before, rest, hrest, rfl⟩ := ih
      obtain ⟨f, r, rest', -, hr, hrest', rfl⟩ := walkFrom_some_ended hrest
      cases hr.symm.trans hnext
      exact ⟨f, before ++ [_], rest', hrest', List.append_cons _ _ _⟩

/-- The loop reads only inside the buffer and ends, with headers of the buffer that do not
overlap. -/
structure Safe (mhdr : MsgHdr abi) : Prop where
  ne_fault : ∀ fuel, walkHeaders mhdr fuel ≠ .fault
  ends : ∃ fuel headers, walkHeaders mhdr fuel = .ended headers ∧
    (∀ cmsg ∈ headers, InBuffer mhdr cmsg) ∧
    headers.Pairwise fun cmsg next => cmsg + sizeofCmsghdr abi ≤ next

/-- The first header is in the buffer. -/
theorem inBuffer_first (h : CMSG_FIRSTHDR mhdr = some cmsg) : InBuffer mhdr cmsg := by
  unfold CMSG_FIRSTHDR at h
  split at h
  · next hle =>
    cases h
    refine ⟨Nat.le_refl _, Nat.add_le_add_left hle _, ?_⟩
    rw [Nat.sub_self]
    exact Nat.dvd_zero _
  · cases h

/-- When no header leads the loop astray, each turn leads further into the buffer. -/
theorem exists_ended (hgood : ∀ cmsg len, Visited mhdr cmsg → cmsgLen mhdr cmsg = some len →
      ¬ Astray mhdr cmsg len)
    (n : Nat) (h : Visited mhdr cmsg) (hbuffer : InBuffer mhdr cmsg)
    (hn : mhdr.limit < cmsg + n) :
    ∃ rest, walkFrom mhdr (n + 1) (some cmsg) = .ended (cmsg :: rest) ∧
      (∀ q ∈ rest, InBuffer mhdr q ∧ cmsg + sizeofCmsghdr abi ≤ q) ∧
      rest.Pairwise fun q next => q + sizeofCmsghdr abi ≤ next := by
  -- Each header lies behind the one before, so there is an end to them.
  induction n generalizing cmsg with
  | zero =>
      have hroom := hbuffer.room
      omega
  | succ n ih =>
      obtain ⟨len, hlen⟩ := hbuffer.exists_cmsgLen
      obtain ⟨r, hnext, hr⟩ := cmsgNxthdr_spec hbuffer hlen (hgood cmsg len h hlen)
      rw [walkFrom_succ hnext]
      cases r with
      | none => exact ⟨[], rfl, nofun, .nil⟩
      | some next =>
          obtain ⟨hbuffer', hle⟩ := hr next rfl
          have hpos := twelve_le_sizeofCmsghdr abi
          obtain ⟨rest, hrest, hmem, hpairs⟩ := ih (h.next hnext) hbuffer' (by omega)
          rw [hrest]
          refine ⟨next :: rest, rfl, fun q hq => ?_, List.pairwise_cons.mpr
            ⟨fun q hq => (hmem q hq).2, hpairs⟩⟩
          rcases List.mem_cons.mp hq with rfl | hq
          · exact ⟨hbuffer', hle⟩
          · obtain ⟨hq', hfar⟩ := hmem q hq
            exact ⟨hq', by omega⟩

/-- The loop is safe exactly if none of the headers that it comes to leads it astray. -/
theorem safe_iff (mhdr : MsgHdr abi) :
    Safe mhdr ↔ ∀ cmsg len, Visited mhdr cmsg → cmsgLen mhdr cmsg = some len →
      ¬ Astray mhdr cmsg len := by
  constructor
  · rintro ⟨-, fuel, headers, hended, hmem, hpairs⟩ cmsg len hvisited hlen hastray
    obtain ⟨fuel', before, rest, hrest, rfl⟩ := hvisited.ended hended
    obtain ⟨f, r, rest, -, hnext, hrest, rfl⟩ := walkFrom_some_ended hrest
    have hbuffer : InBuffer mhdr cmsg := hmem cmsg (by simp)
    rcases cmsgNxthdr_of_wraps hbuffer hlen hastray.size hastray.wraps with
      ⟨htaken, -⟩ | ⟨-, hfault | ⟨next, hnext', hbehind⟩⟩
    · exact hastray.not_taken htaken
    · cases hfault.symm.trans hnext
    · -- The next header is one of the headers too, and lies behind this one.
      cases hnext'.symm.trans hnext
      obtain ⟨-, -, rest, -, -, -, rfl⟩ := walkFrom_some_ended hrest
      have hpair := (List.pairwise_append.mp hpairs).2.1
      exact hbehind ⟨hmem next (by simp), (List.pairwise_cons.mp hpair).1 next (by simp)⟩
  · intro hgood
    have hends : ∃ fuel headers, walkHeaders mhdr fuel = .ended headers ∧
        (∀ cmsg ∈ headers, InBuffer mhdr cmsg) ∧
        headers.Pairwise fun cmsg next => cmsg + sizeofCmsghdr abi ≤ next := by
      unfold walkHeaders
      cases hfirst : CMSG_FIRSTHDR mhdr with
      | none => exact ⟨1, [], rfl, nofun, .nil⟩
      | some cmsg =>
          have hbuffer := inBuffer_first hfirst
          obtain ⟨rest, hended, hmem, hpairs⟩ :=
            exists_ended hgood (mhdr.limit + 1) (.first hfirst) hbuffer (by omega)
          refine ⟨_, _, hended, List.forall_mem_cons.mpr ⟨hbuffer, fun q hq => (hmem q hq).1⟩,
            List.pairwise_cons.mpr ⟨fun q hq => (hmem q hq).2, hpairs⟩⟩
    refine ⟨fun fuel hfault => ?_, hends⟩
    obtain ⟨fuel', headers, hended, -⟩ := hends
    rcases walkFrom_eq_or_running hended fuel with hsame | hrunning
    · cases hfault.symm.trans hsame
    · cases hfault.symm.trans hrunning

/-- With 4 GiB of addresses behind the buffer no length wraps around. -/
theorem not_wraps_of_room (hroom : mhdr.limit + 2 ^ 32 + sizeofSizeT abi ≤ 2 ^ abi.longBits)
    (h : InBuffer mhdr cmsg) (hlen : cmsgLen mhdr cmsg = some len) : ¬ Wraps abi cmsg len := by
  have hlt := cmsgLen_lt hlen
  have hup := roundUp_lt (sizeofSizeT_pos abi) len
  have hend := h.room
  unfold Wraps
  omega

/-- With enough addresses behind the buffer, each header is in it. -/
theorem Visited.inBuffer_of_room
    (hroom : mhdr.limit + 2 ^ 32 + sizeofSizeT abi ≤ 2 ^ abi.longBits)
    (h : Visited mhdr cmsg) : InBuffer mhdr cmsg := by
  induction h with
  | first h => exact inBuffer_first h
  | next _ hnext ih =>
      obtain ⟨len, hlen⟩ := ih.exists_cmsgLen
      obtain ⟨r, hr, hspec⟩ := cmsgNxthdr_of_not_wraps ih hlen (not_wraps_of_room hroom ih hlen)
      cases hr.symm.trans hnext
      exact (hspec _ rfl).1

/-- A loop that comes back to where it is does not end. -/
theorem walkFrom_running (h : cmsgNxthdr mhdr cmsg = some (some cmsg)) (fuel : Nat) :
    walkFrom mhdr fuel (some cmsg) = .running := by
  induction fuel with
  | zero => rfl
  | succ fuel ih => rw [walkFrom_succ h, ih, Walk.cons]

/-- Any buffer of a 32-bit program with room for a header can hold bytes with which the loop never
ends. -/
theorem exists_endless (mhdr : MsgHdr .ilp32) (hroom : 12 ≤ mhdr.control.length) :
    ∃ mhdr' : MsgHdr .ilp32, mhdr'.msgControl = mhdr.msgControl ∧
      mhdr'.control.length = mhdr.control.length ∧
      ∀ fuel, walkHeaders mhdr' fuel = .running := by
  have hlength : (leBytes 4 (2 ^ 32 - 1) ++
      List.replicate (mhdr.control.length - 4) (0 : UInt8)).length = mhdr.control.length := by
    rw [List.length_append, length_leBytes, List.length_replicate]
    omega
  have hpos : 0 < mhdr.msgControl := mhdr.msgControl_pos (List.ne_nil_of_length_pos (by omega))
  have hlimit := mhdr.limit_lt
  let mhdr' : MsgHdr .ilp32 := ⟨mhdr.msgControl, leBytes 4 (2 ^ 32 - 1) ++
    List.replicate (mhdr.control.length - 4) 0, by omega, fun _ => hpos⟩
  have hlen : cmsgLen mhdr' mhdr.msgControl = some (2 ^ 32 - 1) := by
    have hread : readLe mhdr'.control (0 + 0) 4 = _ :=
      readLe_of_drop List.drop_zero (by decide) (by decide)
    rw [cmsgLen, MsgHdr.word, if_pos (Nat.le_refl _), Nat.sub_self]
    exact hread
  -- Aligned, this length is zero.
  have hself : cmsgNxthdr mhdr' mhdr.msgControl = some (some mhdr.msgControl) := by
    have halign : CMSG_ALIGN .ilp32 (2 ^ 32 - 1) = 0 := by decide
    have hzero : addPtr .ilp32 mhdr.msgControl 0 = mhdr.msgControl := addPtr_of_lt (by omega)
    have hend : mhdr'.limit = mhdr.msgControl + mhdr.control.length :=
      congrArg (mhdr.msgControl + ·) hlength
    have hsize : addPtr .ilp32 mhdr.msgControl (sizeofCmsghdr .ilp32) = mhdr.msgControl + 12 :=
      addPtr_of_lt (p := mhdr.msgControl) (n := 12) (by omega)
    unfold cmsgNxthdr
    simp only [hlen, halign, hzero, hsize, hend, Option.bind_eq_bind, Option.bind_some]
    rw [if_neg (by decide), if_neg (by omega), if_neg (by omega)]
    rfl
  refine ⟨mhdr', rfl, hlength, fun fuel => ?_⟩
  rw [walkHeaders, CMSG_FIRSTHDR, if_pos (by rw [hlength]; exact hroom)]
  exact walkFrom_running hself fuel

/-- The loop over the headers is safe exactly if none of those that it comes to leads it astray.
With 4 GiB of addresses behind the buffer none does, whatever is in the buffer. A 32-bit program
has no such room, and any buffer with room for a header can hold bytes with which the loop never
ends. -/
theorem walkHeaders_safe :
    (∀ (abi : Abi) (mhdr : MsgHdr abi), Safe mhdr ↔
      ∀ cmsg len, Visited mhdr cmsg → cmsgLen mhdr cmsg = some len → ¬ Astray mhdr cmsg len) ∧
    (∀ (abi : Abi) (mhdr : MsgHdr abi),
      mhdr.limit + 2 ^ 32 + sizeofSizeT abi ≤ 2 ^ abi.longBits → Safe mhdr) ∧
    ∀ mhdr : MsgHdr .ilp32, 12 ≤ mhdr.control.length →
      ∃ mhdr' : MsgHdr .ilp32, mhdr'.msgControl = mhdr.msgControl ∧
        mhdr'.control.length = mhdr.control.length ∧
        ∀ fuel, walkHeaders mhdr' fuel = .running := by
  refine ⟨fun _ => safe_iff, fun _ mhdr hroom => (safe_iff mhdr).mpr ?_, exists_endless⟩
  intro cmsg len hvisited hlen hastray
  exact not_wraps_of_room hroom (hvisited.inBuffer_of_room hroom) hlen hastray.wraps

end Walks

/-! ### Messages -/

section Messages

variable {abi : Abi} {mhdr : MsgHdr abi} {rest : List UInt8} {cmsg : Nat} {m : Cmsg}

/-- The size of a header. -/
@[simp] theorem length_headerBytes (abi : Abi) (m : Cmsg) :
    (headerBytes abi m).length = sizeofCmsghdr abi := by
  cases abi <;> simp [headerBytes, sizeofCmsghdr]

/-- The size of a message without its padding. -/
theorem length_cmsgBytes (abi : Abi) (m : Cmsg) :
    (cmsgBytes abi m).length = CMSG_LEN abi m.data.length := by
  rw [cmsgBytes, List.length_append, length_headerBytes, CMSG_LEN_eq]

/-- The buffer has these bytes from here on. -/
structure MsgHdr.At (mhdr : MsgHdr abi) (cmsg : Nat) (bs : List UInt8) : Prop where
  le : mhdr.msgControl ≤ cmsg
  drop : mhdr.control.drop (cmsg - mhdr.msgControl) = bs

/-- Where the bytes end, the buffer does. -/
theorem MsgHdr.At.limit {bs : List UInt8} (h : mhdr.At cmsg bs) (hbs : bs ≠ []) :
    cmsg + bs.length = mhdr.limit := by
  have hle := h.le
  have hpos := List.length_pos_of_ne_nil hbs
  have hlength := congrArg List.length h.drop
  rw [List.length_drop] at hlength
  unfold MsgHdr.limit
  omega

/-- A message is not empty. -/
theorem cmsgBytes_append_ne_nil (m : Cmsg) (bs : List UInt8) : cmsgBytes abi m ++ bs ≠ [] := by
  have hsize := twelve_le_sizeofCmsghdr abi
  refine List.ne_nil_of_length_pos ?_
  rw [List.length_append, length_cmsgBytes, CMSG_LEN_eq]
  omega

/-- A field of a header in the buffer. -/
theorem word_header (h : mhdr.At cmsg (cmsgBytes abi m ++ rest)) (off : Nat)
    (hoff : off + 4 ≤ 12) :
    mhdr.word (addPtr abi cmsg off) =
      some (leNat (((headerBytes abi m).drop off).take 4)) := by
  have hsize := twelve_le_sizeofCmsghdr abi
  have hlimit : mhdr.limit < 2 ^ abi.longBits := mhdr.limit_lt
  have hend := h.limit (cmsgBytes_append_ne_nil m rest)
  rw [List.length_append, length_cmsgBytes, CMSG_LEN_eq] at hend
  obtain ⟨hle, hdrop⟩ := h
  rw [cmsgBytes, List.append_assoc] at hdrop
  have hread : readLe mhdr.control (cmsg - mhdr.msgControl + off) 4 = _ :=
    readLe_of_drop hdrop (by rw [length_headerBytes]; omega) (by decide)
  rw [addPtr_of_lt (by omega), MsgHdr.word, if_pos (by omega), Nat.sub_add_comm hle, hread]

/-- The fields of a header. -/
theorem headerBytes_fields (abi : Abi) (m : Cmsg) :
    (headerBytes abi m).take 4 = leBytes 4 (CMSG_LEN abi m.data.length) ∧
      ((headerBytes abi m).drop 4).take 4 = leBytes 4 m.cmsgLevel.toNat ∧
      ((headerBytes abi m).drop 8).take 4 = leBytes 4 m.cmsgType.toNat := by
  unfold headerBytes
  refine ⟨?_, ?_, ?_⟩ <;>
    simp [List.drop_append, List.drop_of_length_le]

/-- A word is read back from its bytes. -/
theorem leNat_wordBytes (x : BitVec 32) : leNat (leBytes 4 x.toNat) = x.toNat :=
  leNat_leBytes_of_lt (Nat.lt_of_lt_of_eq x.isLt (by rfl))

/-- The length of a message in the buffer. -/
theorem cmsgLen_of_at (h : mhdr.At cmsg (cmsgBytes abi m ++ rest))
    (hlen : CMSG_LEN abi m.data.length < 2 ^ 32) :
    cmsgLen mhdr cmsg = some (CMSG_LEN abi m.data.length) := by
  have hlimit : mhdr.limit < 2 ^ abi.longBits := mhdr.limit_lt
  have hend := h.limit (cmsgBytes_append_ne_nil m rest)
  have hread := word_header h 0 (by decide)
  rw [addPtr_of_lt (by omega), Nat.add_zero, List.drop_zero, (headerBytes_fields abi m).1,
    leNat_leBytes_of_lt (Nat.lt_of_lt_of_eq hlen (by rfl))] at hread
  exact hread

/-- A reader gets the message that lies there. -/
theorem readCmsg_of_at (h : mhdr.At cmsg (cmsgBytes abi m ++ rest))
    (hlen : CMSG_LEN abi m.data.length < 2 ^ 32) : readCmsg mhdr cmsg = some m := by
  obtain ⟨-, hlevel, htype⟩ := headerBytes_fields abi m
  have hdata : CMSG_DATA mhdr cmsg (CMSG_LEN abi m.data.length) = m.data := by
    unfold CMSG_DATA
    rw [← List.drop_drop, h.drop, cmsgBytes, List.append_assoc,
      List.drop_append_of_le_length (by rw [length_headerBytes]), ← length_headerBytes abi m,
      List.drop_length, List.nil_append, length_headerBytes, CMSG_LEN_eq, Nat.add_sub_cancel_left]
    exact List.take_left
  have hlevel' := word_header h 4 (by decide)
  have htype' := word_header h 8 (by decide)
  rw [hlevel, leNat_wordBytes] at hlevel'
  rw [htype, leNat_wordBytes] at htype'
  simp only [readCmsg, cmsgLen_of_at h hlen, hlevel', htype', hdata, Option.bind_eq_bind,
    Option.bind_some, Option.pure_def, BitVec.ofNat_toNat, BitVec.setWidth_eq]

/-- The length of the message does not wrap around. -/
def Fits (abi : Abi) (m : Cmsg) : Prop :=
  CMSG_LEN abi m.data.length + (sizeofSizeT abi - 1) < 2 ^ 32

/-- The length of a message is a `socklen_t`. -/
theorem Fits.lt (h : Fits abi m) : CMSG_LEN abi m.data.length < 2 ^ 32 := by
  unfold Fits at h
  omega

/-- `CMSG_ALIGN` of a length is the space that the message takes. -/
theorem Fits.align (h : Fits abi m) :
    CMSG_ALIGN abi (CMSG_LEN abi m.data.length) =
      CMSG_LEN abi m.data.length + padding abi m := by
  have hbits := two_pow_32_le abi
  have hle := le_roundUp (sizeofSizeT_pos abi) m.data.length
  unfold Fits at h
  have hdata : CMSG_ALIGN abi m.data.length = roundUp (sizeofSizeT abi) m.data.length := by
    rw [CMSG_LEN_eq] at h
    exact CMSG_ALIGN_of_lt (by omega)
  rw [CMSG_ALIGN_of_lt (by omega), padding, CMSG_SPACE, hdata, CMSG_ALIGN_sizeofCmsghdr,
    CMSG_LEN_eq, roundUp_add (sizeofSizeT_pos abi) (sizeofSizeT_dvd abi)]
  omega

/-- The message, its padding and one more header lie below the end of the address space. -/
def Below (abi : Abi) (cmsg : Nat) (m : Cmsg) : Prop :=
  cmsg + (CMSG_LEN abi m.data.length + padding abi m) + sizeofCmsghdr abi < 2 ^ abi.longBits

/-- Where `CMSG_NXTHDR` looks for the message behind this one. -/
theorem cmsgNxthdr_at (hfits : Fits abi m) (hbelow : Below abi cmsg m)
    (h : mhdr.At cmsg (cmsgBytes abi m ++ rest)) :
    cmsgNxthdr mhdr cmsg =
      if mhdr.limit < cmsg + (CMSG_LEN abi m.data.length + padding abi m) + sizeofCmsghdr abi then
        some none
      else
        (cmsgLen mhdr (cmsg + (CMSG_LEN abi m.data.length + padding abi m))).bind fun nextLen =>
          if mhdr.limit < addPtr abi (cmsg + (CMSG_LEN abi m.data.length + padding abi m))
              (CMSG_ALIGN abi nextLen) then some none
          else some (some (cmsg + (CMSG_LEN abi m.data.length + padding abi m))) := by
  have hmin : ¬ CMSG_LEN abi m.data.length < sizeofCmsghdr abi := by
    rw [CMSG_LEN_eq]
    omega
  unfold Below at hbelow
  unfold cmsgNxthdr
  simp only [cmsgLen_of_at h hfits.lt, Option.bind_eq_bind, Option.bind_some, if_neg hmin,
    hfits.align, Option.pure_def]
  rw [addPtr_of_lt (p := cmsg) (by omega), addPtr_of_lt (n := sizeofCmsghdr abi) (by omega)]

/-- After the last message there is nothing. -/
theorem cmsgNxthdr_last {pad : List UInt8} (hfits : Fits abi m)
    (hbelow : Below abi cmsg m) (h : mhdr.At cmsg (cmsgBytes abi m ++ pad))
    (hpad : pad.length ≤ padding abi m) : cmsgNxthdr mhdr cmsg = some none := by
  have hsize := twelve_le_sizeofCmsghdr abi
  have hend := h.limit (cmsgBytes_append_ne_nil m pad)
  rw [List.length_append, length_cmsgBytes] at hend
  rw [cmsgNxthdr_at hfits hbelow h, if_pos (by omega)]

/-- After a message with its padding there is the next one, if that has its padding too. -/
theorem cmsgNxthdr_message {m' : Cmsg} (hfits : Fits abi m) (hfits' : Fits abi m')
    (hbelow : Below abi cmsg m)
    (hbelow' : Below abi (cmsg + (CMSG_LEN abi m.data.length + padding abi m)) m')
    (h : mhdr.At cmsg
      (cmsgBytes abi m ++ List.replicate (padding abi m) 0 ++ (cmsgBytes abi m' ++ rest))) :
    mhdr.At (cmsg + (CMSG_LEN abi m.data.length + padding abi m)) (cmsgBytes abi m' ++ rest) ∧
      cmsgNxthdr mhdr cmsg =
        some (if padding abi m' ≤ rest.length then
          some (cmsg + (CMSG_LEN abi m.data.length + padding abi m)) else none) := by
  have hnext : mhdr.At (cmsg + (CMSG_LEN abi m.data.length + padding abi m))
      (cmsgBytes abi m' ++ rest) := by
    refine ⟨Nat.le_add_right_of_le h.le, ?_⟩
    rw [Nat.sub_add_comm h.le, ← List.drop_drop, h.drop]
    refine List.drop_left' ?_
    rw [List.length_append, length_cmsgBytes, List.length_replicate]
  refine ⟨hnext, ?_⟩
  -- The end of the next message, which decides.
  have hend := hnext.limit (cmsgBytes_append_ne_nil m' rest)
  have hmin' : sizeofCmsghdr abi ≤ CMSG_LEN abi m'.data.length := by
    rw [CMSG_LEN_eq]
    omega
  rw [List.length_append, length_cmsgBytes] at hend
  unfold Below at hbelow'
  rw [List.append_assoc] at h
  rw [cmsgNxthdr_at hfits hbelow h, if_neg (by omega), cmsgLen_of_at hnext hfits'.lt,
    Option.bind_some, hfits'.align, addPtr_of_lt (by omega)]
  by_cases hpad : padding abi m' ≤ rest.length
  · rw [if_pos hpad, if_neg (by omega)]
  · rw [if_neg hpad, if_pos (by omega)]

/-- One more message, in front. -/
theorem length_controlBytes_cons (m : Cmsg) (ms : List Cmsg) :
    (controlBytes abi (m :: ms)).length =
      CMSG_LEN abi m.data.length + padding abi m + (controlBytes abi ms).length := by
  rw [controlBytes, List.flatMap_cons, List.length_append, List.length_append, length_cmsgBytes,
    List.length_replicate]
  rfl

/-- A message with its padding is not longer than all of them. -/
theorem length_le_controlBytes (abi : Abi) {ms : List Cmsg} (hm : m ∈ ms) :
    CMSG_LEN abi m.data.length + padding abi m ≤ (controlBytes abi ms).length := by
  induction ms with
  | nil => cases hm
  | cons m₀ ms ih =>
      rw [length_controlBytes_cons]
      rcases List.mem_cons.mp hm with rfl | hm
      · omega
      · exact Nat.le_trans (ih hm) (Nat.le_add_left _ _)

/-- The first of messages that lie one behind the other, of which the last one has `pad` for its
padding. -/
theorem exists_head {pad : List UInt8} (hpad : pad.length ≤ padding abi m) (ms : List Cmsg) :
    ∃ m' ∈ ms ++ [m], ∃ rest,
      controlBytes abi ms ++ (cmsgBytes abi m ++ pad) = cmsgBytes abi m' ++ rest ∧
      (padding abi m' ≤ rest.length ↔ pad.length = padding abi m ∨ ms ≠ []) := by
  cases ms with
  | nil =>
      refine ⟨m, by simp, pad, by rw [controlBytes, List.flatMap_nil, List.nil_append], ?_⟩
      constructor
      · exact fun hle => .inl (Nat.le_antisymm hpad hle)
      · rintro (heq | hne)
        · exact Nat.le_of_eq heq.symm
        · exact absurd rfl hne
  | cons m₁ ms =>
      refine ⟨m₁, by simp, List.replicate (padding abi m₁) 0 ++
        (controlBytes abi ms ++ (cmsgBytes abi m ++ pad)), ?_, ?_⟩
      · simp only [controlBytes, List.flatMap_cons, List.append_assoc]
      · refine iff_of_true ?_ (.inr (List.cons_ne_nil _ _))
        rw [List.length_append, List.length_replicate]
        exact Nat.le_add_right _ _

/-- The loop over messages that lie one behind the other, of which the last one has `pad` for its
padding. -/
theorem walkFrom_layout {pad : List UInt8} (hpad : pad.length ≤ padding abi m) (ms : List Cmsg)
    (hfits : ∀ m' ∈ ms ++ [m], Fits abi m')
    (hroom : cmsg + (controlBytes abi (ms ++ [m])).length + sizeofCmsghdr abi <
      2 ^ abi.longBits)
    (h : mhdr.At cmsg (controlBytes abi ms ++ (cmsgBytes abi m ++ pad))) {fuel : Nat}
    (hfuel : ms.length + 1 < fuel) :
    ∃ headers, walkFrom mhdr fuel (some cmsg) = .ended headers ∧
      headers.map (readCmsg mhdr) =
        (if pad.length = padding abi m ∨ ms = [] then ms ++ [m] else ms).map some := by
  induction ms generalizing cmsg fuel with
  | nil =>
      rw [List.length_nil] at hfuel
      obtain ⟨f, rfl⟩ : ∃ f, fuel = f + 2 := ⟨fuel - 2, by omega⟩
      have hm : Fits abi m := hfits m (by simp)
      have hbelow : Below abi cmsg m := by
        rw [List.nil_append, length_controlBytes_cons] at hroom
        unfold Below
        omega
      rw [controlBytes, List.flatMap_nil, List.nil_append] at h
      refine ⟨[cmsg], ?_, ?_⟩
      · rw [walkFrom_succ (cmsgNxthdr_last hm hbelow h hpad)]
        rfl
      · simp [readCmsg_of_at h hm.lt]
  | cons m₀ ms ih =>
      obtain ⟨f, rfl⟩ : ∃ f, fuel = f + 1 := ⟨fuel - 1, by omega⟩
      rw [List.length_cons] at hfuel
      have hm₀ : Fits abi m₀ := hfits m₀ (by simp)
      have hrest : ∀ m' ∈ ms ++ [m], Fits abi m' := fun m' hm' =>
        hfits m' (List.mem_cons_of_mem _ hm')
      rw [List.cons_append, length_controlBytes_cons] at hroom
      -- What comes behind the first message starts with another one.
      obtain ⟨m', hm', rest, hhead, hpadded⟩ := exists_head hpad ms
      have hbelow : Below abi cmsg m₀ := by
        unfold Below
        omega
      have hbelow' : Below abi (cmsg + (CMSG_LEN abi m₀.data.length + padding abi m₀)) m' := by
        have hle := length_le_controlBytes abi hm'
        unfold Below
        omega
      have hbytes : mhdr.At cmsg (cmsgBytes abi m₀ ++ List.replicate (padding abi m₀) 0 ++
          (controlBytes abi ms ++ (cmsgBytes abi m ++ pad))) := by
        simpa only [controlBytes, List.flatMap_cons, List.append_assoc] using h
      obtain ⟨hat, hnext⟩ :=
        cmsgNxthdr_message hm₀ (hrest m' hm') hbelow hbelow' (hhead ▸ hbytes)
      have hread : readCmsg mhdr cmsg = some m₀ := by
        rw [List.append_assoc] at hbytes
        exact readCmsg_of_at hbytes hm₀.lt
      by_cases hgo : pad.length = padding abi m ∨ ms ≠ []
      · rw [if_pos (hpadded.mpr hgo)] at hnext
        obtain ⟨headers, hwalk, hmap⟩ := ih hrest (by omega) (hhead ▸ hat) (by omega : _ < f)
        refine ⟨cmsg :: headers, ?_, ?_⟩
        · rw [walkFrom_succ hnext, hwalk]
          rfl
        · rw [List.map_cons, hread, hmap]
          by_cases hfull : pad.length = padding abi m
          · simp [hfull]
          · have hne : ms ≠ [] := hgo.resolve_left hfull
            simp [hfull, hne]
      · -- The last message comes next, and its padding is missing.
        rw [if_neg (fun hle => hgo (hpadded.mp hle))] at hnext
        obtain ⟨hshort, hnil⟩ := not_or.mp hgo
        obtain ⟨f', rfl⟩ : ∃ f', f = f' + 1 := ⟨f - 1, by omega⟩
        refine ⟨[cmsg], ?_, ?_⟩
        · rw [walkFrom_succ hnext]
          rfl
        · simp [hread, hshort, not_not.mp hnil]

/-- The loop gets to the first message. -/
theorem walkHeaders_layout (ms : List Cmsg) (bs : List UInt8)
    (h : mhdr.control = controlBytes abi ms ++ (cmsgBytes abi m ++ bs)) (fuel : Nat) :
    walkHeaders mhdr fuel = walkFrom mhdr fuel (some mhdr.msgControl) := by
  have hroom : sizeofCmsghdr abi ≤ mhdr.control.length := by
    rw [h, List.length_append, List.length_append, length_cmsgBytes, CMSG_LEN_eq]
    omega
  rw [walkHeaders, CMSG_FIRSTHDR, if_pos hroom]

/-- The messages that a program lays out one behind the other, with `pad` for the padding of the
last one, all reach a reader exactly if that padding is complete or there is one message only. One
more header fits into the address space behind the buffer. -/
theorem receives_iff (mhdr : MsgHdr abi) (ms : List Cmsg) (m : Cmsg) (pad : List UInt8)
    (hcontrol : mhdr.control = controlBytes abi ms ++ (cmsgBytes abi m ++ pad))
    (hpad : pad.length ≤ padding abi m)
    (hfits : (controlBytes abi (ms ++ [m])).length + sizeofSizeT abi ≤ 2 ^ 32)
    (hroom : mhdr.msgControl + (controlBytes abi (ms ++ [m])).length + sizeofCmsghdr abi <
      2 ^ abi.longBits) :
    Receives mhdr (ms ++ [m]) ↔ pad.length = padding abi m ∨ ms = [] := by
  have hall : ∀ m' ∈ ms ++ [m], Fits abi m' := by
    intro m' hm'
    have hle := length_le_controlBytes abi hm'
    have hpos := sizeofSizeT_pos abi
    unfold Fits
    omega
  have hat : mhdr.At mhdr.msgControl (controlBytes abi ms ++ (cmsgBytes abi m ++ pad)) := by
    refine ⟨Nat.le_refl _, ?_⟩
    rw [Nat.sub_self, List.drop_zero, hcontrol]
  obtain ⟨headers, hwalk, hmap⟩ :=
    walkFrom_layout hpad ms hall hroom hat (Nat.lt_succ_self (ms.length + 1))
  rw [← walkHeaders_layout ms pad hcontrol] at hwalk
  constructor
  · rintro ⟨fuel, headers', hended, hmap'⟩
    by_contra hlost
    -- A loop that ends gives the same headers whatever the number of turns.
    have hsame : headers' = headers := by
      rcases walkFrom_eq_or_running hwalk fuel with hsame | hrunning
      · cases hended.symm.trans hsame
        rfl
      · cases hended.symm.trans hrunning
    rw [hsame, hmap, if_neg hlost] at hmap'
    have hlength := congrArg List.length hmap'
    simp at hlength
  · intro hkept
    rw [if_pos hkept] at hmap
    exact ⟨_, headers, hwalk, hmap⟩

/-- Two messages, the second one without its padding: it is lost. -/
theorem receives_iff_unpadded :
    ¬ Receives (⟨4096, controlBytes .lp64 [⟨1, 2, [7]⟩] ++ (cmsgBytes .lp64 ⟨1, 2, [8]⟩ ++ []),
        by decide, fun _ => by decide⟩ : MsgHdr .lp64)
      ([⟨1, 2, [7]⟩] ++ [⟨1, 2, [8]⟩]) := by
  rw [receives_iff _ [⟨1, 2, [7]⟩] ⟨1, 2, [8]⟩ [] rfl (by decide) (by decide) (by decide)]
  decide

end Messages

end GlibcPorts.Sockets
