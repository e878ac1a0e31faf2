import GlibcPorts.Vmmap.ReadonlyArea

/-!
# `GlibcPorts.Proofs.Vmmap.ReadonlyArea`: `__readonly_area` decides correctly

The function never looks at which bytes are covered. It starts with the size of the area, and each
entry takes away its overlap. The invariant is that `size` is the number of the bytes that no
entry so far has (`Uncovered`): `takeEntry_eq` is the step, and `scan_map` the run. The loop is
left at an entry that is not read-only, and then some byte stays that no other entry has
(`covers_iff_empty`).
-/

set_option autoImplicit false

namespace GlibcPorts.Vmmap

open Lib

section Entry

variable {abi : Abi} {sub : Nat → Nat → Option Nat}

/-- The subtraction is right where it does not underflow. -/
def Subtracts (abi : Abi) (sub : Nat → Nat → Option Nat) : Prop :=
  ∀ a b, b ≤ a → a < 2 ^ abi.longBits → sub a b = some (a - b)

/-- The subtraction of the code. -/
theorem subtracts_wrapSub (abi : Abi) : Subtracts abi (wrapSub abi) := by
  intro a b hle hlt
  have hshift : a + 2 ^ abi.longBits - b = a - b + 2 ^ abi.longBits := by omega
  rw [wrapSub, hshift, Nat.add_mod_right, Nat.mod_eq_of_lt (by omega)]

/-- The subtraction that fails where the counter would wrap around. -/
theorem subtracts_checkedSub (abi : Abi) : Subtracts abi checkedSub :=
  fun _ _ hle _ => if_pos hle

variable {area entry : Span} {u : Finset Nat} {es : List (Finset Nat)}

/-- An entry that covers the whole area leaves nothing. -/
theorem sdiff_eq_empty (hu : Uncovered area.addrs u es) (hlo : entry.lo ≤ area.lo)
    (hhi : entry.hi ≥ area.hi) : u \ entry.addrs = ∅ := by
  rw [Finset.sdiff_eq_empty_iff_subset]
  intro a ha
  have harea := hu.subset ha
  rw [Span.mem_addrs] at harea ⊢
  omega

/-- The three cases are the three ways in which part of the area stays. -/
theorem subOverlap_eq (hsub : Subtracts abi sub)
    (hu : Uncovered area.addrs u (entry.addrs :: es)) (hlt : u.card < 2 ^ abi.longBits)
    (hpart : ¬ (entry.lo ≤ area.lo ∧ entry.hi ≥ area.hi)) :
    subOverlap sub area entry u.card = some (u \ entry.addrs).card := by
  have hcard := hu.card_sdiff
  rw [Span.card_inter] at hcard
  -- Each of the three subtrahends is the overlap with the area.
  have htake : ∀ d, d = area.overlap entry → sub u.card d = some (u \ entry.addrs).card := by
    rintro d rfl
    rw [hsub _ _ (by omega) hlt]
    congr 1
    omega
  unfold subOverlap
  split_ifs with hlo hhi <;> apply htake <;> unfold Span.overlap <;> omega

/-- What an entry does to `size`: it takes away the bytes that it has of the area. -/
theorem takeEntry_eq (hsub : Subtracts abi sub)
    (hu : Uncovered area.addrs u (entry.addrs :: es)) (hlt : u.card < 2 ^ abi.longBits)
    (unusable : Bool) :
    takeEntry sub area entry unusable u.card =
      some (if entry.Meets area then
        if unusable then .inl u.card
        else if (u \ entry.addrs).card = 0 then .inl 0 else .inr (u \ entry.addrs).card
      else .inr u.card) := by
  unfold takeEntry
  by_cases hmeets : entry.Meets area
  · have htest : entry.lo < area.hi ∧ entry.hi > area.lo := hmeets
    rw [if_pos htest, if_pos hmeets]
    cases unusable with
    | true => rfl
    | false =>
        simp only [Bool.false_eq_true, if_false]
        by_cases hwhole : entry.lo ≤ area.lo ∧ entry.hi ≥ area.hi
        · rw [if_pos hwhole, sdiff_eq_empty hu hwhole.1 hwhole.2]
          rfl
        · rw [if_neg hwhole, subOverlap_eq hsub hu hlt hwhole, Option.map_some]
          split_ifs with hzero
          · rw [hzero]
          · rfl
  · have htest : ¬ (entry.lo < area.hi ∧ entry.hi > area.lo) := hmeets
    rw [if_neg htest, if_neg hmeets]

end Entry

/-! ### The loop -/

section Loop

variable {H : Headers} {abi : Abi} {sub : Nat → Nat → Option Nat} {area : Span}

/-- What the body of the loop does with an entry. -/
def entryTurn (abi : Abi) (sub : Nat → Nat → Option Nat) (area : Span) (size _p : Nat)
    (kve : KinfoVmentry H) : Option (Nat ⊕ Nat) :=
  takeEntry sub area (kve.span abi) (notReadonly H kve.kveProtection) size

/-- A turn of the loop is about one record. -/
theorem areaTurn_eq {mem tail : List UInt8} {p : Nat} {kve : KinfoVmentry H}
    (hmem : mem.drop p = kve.bytes ++ tail) (size : Nat) :
    areaTurn H abi sub mem area size p = entryTurn abi sub area size p kve := by
  have hle := kve.pathOff_le
  have hsize := readInt_of_drop hmem (H.kveStructsizeOff_le.trans hle)
  have hprot := readInt_of_drop hmem (H.kveProtectionOff_le.trans hle)
  have hstart := readLe_of_drop hmem (H.kveStartOff_le.trans hle) (by decide)
  have hend := readLe_of_drop hmem (H.kveEndOff_le.trans hle) (by decide)
  simp only [areaTurn, hsize, hprot, hstart, hend, Option.bind_eq_bind, Option.bind_some]
  rfl

/-- The records lie one behind the other, as the loop wants them. -/
theorem packed_map {mem tail : List UInt8} {len : Nat} (map : List (KinfoVmentry H)) {p : Nat}
    (hmem : mem.drop p = mapBytes map ++ tail) (hlen : p + (mapBytes map).length = len) :
    Packed (fun p => readInt mem (p + H.kveStructsizeOff)) (areaTurn H abi sub mem area)
      (entryTurn abi sub area) KinfoVmentry.width len p map := by
  induction map generalizing p with
  | nil =>
      have hp : p = len := hlen
      subst hp
      exact .nil
  | cons kve map ih =>
      have hbytes : mapBytes (kve :: map) = kve.bytes ++ mapBytes map := List.flatMap_cons
      rw [hbytes, List.append_assoc] at hmem
      rw [hbytes, List.length_append] at hlen
      have hsize : readInt mem (p + H.kveStructsizeOff) = some (kve.width : Int) := by
        rw [readInt_of_drop hmem (H.kveStructsizeOff_le.trans kve.pathOff_le), kve.structsize]
        rfl
      refine .cons kve.width_pos (by unfold KinfoVmentry.width; omega) hsize (areaTurn_eq hmem)
        (ih ?_ ?_)
      · rw [← List.drop_drop, hmem]
        exact List.drop_left
      · unfold KinfoVmentry.width
        omega

/-- Some entry of the map has this address, and it is read-only. -/
def Covers (abi : Abi) (map : List (KinfoVmentry H)) (a : Nat) : Prop :=
  ∃ kve ∈ map, kve.readonly = true ∧ a ∈ (kve.span abi).addrs

/-- The entries of a map of memory: none is empty, and no two of them overlap. -/
structure WellFormedMap (abi : Abi) (map : List (KinfoVmentry H)) : Prop where
  start_lt_end : ∀ kve ∈ map, (kve.span abi).lo < (kve.span abi).hi
  apart : map.Pairwise fun kve kve' => (kve.span abi).Apart (kve'.span abi)

variable {kve : KinfoVmentry H} {map : List (KinfoVmentry H)} {a : Nat}

/-- One record more. -/
theorem covers_cons : Covers abi (kve :: map) a ↔
    (kve.readonly = true ∧ a ∈ (kve.span abi).addrs) ∨ Covers abi map a := by
  simp [Covers]

/-- The records behind the first. -/
theorem WellFormedMap.tail (h : WellFormedMap abi (kve :: map)) : WellFormedMap abi map where
  start_lt_end kve' hkve' := h.start_lt_end kve' (List.mem_cons_of_mem kve hkve')
  apart := (List.pairwise_cons.mp h.apart).2

/-- The other entries have no address of the first. -/
theorem WellFormedMap.disjoint (h : WellFormedMap abi (kve :: map)) :
    ∀ e ∈ map.map fun kve => (kve.span abi).addrs, Disjoint (kve.span abi).addrs e := by
  intro e he
  obtain ⟨kve', hkve', rfl⟩ := List.mem_map.mp he
  exact ((List.pairwise_cons.mp h.apart).1 kve' hkve').disjoint

/-- The address of an entry that is not read-only is not covered. -/
theorem WellFormedMap.not_covers (h : WellFormedMap abi (kve :: map))
    (hkve : ¬ kve.readonly = true) (ha : a ∈ (kve.span abi).addrs) :
    ¬ Covers abi (kve :: map) a := by
  rw [covers_cons]
  rintro (⟨hreadonly, -⟩ | ⟨kve', hkve', -, ha'⟩)
  · exact hkve hreadonly
  · have hdisj := h.disjoint _ (List.mem_map_of_mem hkve')
    exact Finset.disjoint_left.mp hdisj ha ha'

/-- Behind an entry that is read-only, the others have to cover what it does not have. -/
theorem covers_of_readonly (hreadonly : kve.readonly = true) (u : Finset Nat) :
    (∀ a ∈ u, Covers abi (kve :: map) a) ↔
      ∀ a ∈ u \ (kve.span abi).addrs, Covers abi map a := by
  simp only [covers_cons, hreadonly, true_and, Finset.mem_sdiff]
  constructor
  · rintro hall a ⟨ha, hnot⟩
    exact (hall a ha).resolve_left hnot
  · intro hall a ha
    by_cases hin : a ∈ (kve.span abi).addrs
    · exact .inl hin
    · exact .inr (hall a ⟨ha, hin⟩)

/-- Behind an entry that does not meet the area, the others have to cover all of it. -/
theorem covers_of_not_meets (hmeets : ¬ (kve.span abi).Meets area) {u : Finset Nat}
    (hu : u ⊆ area.addrs) :
    (∀ a ∈ u, Covers abi (kve :: map) a) ↔ ∀ a ∈ u, Covers abi map a := by
  have hnone : ∀ a ∈ u, a ∉ (kve.span abi).addrs := by
    intro a ha hentry
    have hinter := Finset.mem_inter.mpr ⟨hentry, hu ha⟩
    rw [Span.inter_eq_empty hmeets] at hinter
    exact Finset.notMem_empty a hinter
  refine forall₂_congr fun a ha => ?_
  rw [covers_cons, or_iff_right]
  intro h
  exact hnone a ha h.2

/-- An entry that is not read-only has some byte that no other entry has. -/
theorem WellFormedMap.covers_iff_empty (h : WellFormedMap abi (kve :: map))
    (hreadonly : ¬ kve.readonly = true) (hmeets : (kve.span abi).Meets area) {u : Finset Nat}
    (hu : Uncovered area.addrs u ((kve :: map).map fun kve => (kve.span abi).addrs)) :
    u = ∅ ↔ ∀ a ∈ u, Covers abi (kve :: map) a := by
  constructor
  · rintro rfl a ha
    exact absurd ha (Finset.notMem_empty a)
  · intro hall
    by_contra hne
    obtain ⟨b, hb⟩ := Finset.nonempty_iff_ne_empty.mpr hne
    have harea := hu.subset hb
    rw [Span.mem_addrs] at harea
    have hstart := h.start_lt_end kve List.mem_cons_self
    obtain ⟨a, hentry, ha⟩ := hmeets.exists_mem hstart (by omega)
    -- No entry in front of this one had the byte, so it is still left.
    have hau := hu.inter_subset _ List.mem_cons_self (Finset.mem_inter.mpr ⟨ha, hentry⟩)
    exact h.not_covers hreadonly hentry (hall a hau)

/-- The loop ends with nothing left exactly when each byte that was left in front of it is
covered. -/
theorem scan_map (hsub : Subtracts abi sub) (hmap : WellFormedMap abi map) {u : Finset Nat}
    (hu : Uncovered area.addrs u (map.map fun kve => (kve.span abi).addrs))
    (hlt : u.card < 2 ^ abi.longBits) (p : Nat) :
    ∃ q size, (scan (entryTurn abi sub area) KinfoVmentry.width u.card p map = .stopped q size ∨
        scan (entryTurn abi sub area) KinfoVmentry.width u.card p map = .ended q size) ∧
      (size = 0 ↔ ∀ a ∈ u, Covers abi map a) := by
  induction map generalizing u p with
  | nil =>
      refine ⟨p, u.card, .inr rfl, ?_⟩
      rw [Finset.card_eq_zero, Finset.eq_empty_iff_forall_notMem]
      simp [Covers]
  | cons kve map ih =>
      have hturn := takeEntry_eq hsub hu hlt (notReadonly H kve.kveProtection)
      have hscan : ∀ next, entryTurn abi sub area u.card p kve = some next →
          scan (entryTurn abi sub area) KinfoVmentry.width u.card p (kve :: map) =
            match next with
            | .inl r => .stopped p r
            | .inr s => scan (entryTurn abi sub area) KinfoVmentry.width s (p + kve.width) map := by
        intro next hnext
        rw [scan, hnext]
        cases next <;> rfl
      rw [hscan _ hturn]
      by_cases hmeets : (kve.span abi).Meets area
      · rw [if_pos hmeets]
        by_cases hreadonly : kve.readonly = true
        · -- The entry takes its bytes away.
          have husable : notReadonly H kve.kveProtection = false := by
            simpa [KinfoVmentry.readonly] using hreadonly
          rw [covers_of_readonly hreadonly]
          simp only [husable, Bool.false_eq_true, if_false]
          by_cases hzero : (u \ (kve.span abi).addrs).card = 0
          · rw [if_pos hzero]
            refine ⟨p, 0, .inl rfl, iff_of_true rfl fun a ha => ?_⟩
            rw [Finset.card_eq_zero.mp hzero] at ha
            exact absurd ha (Finset.notMem_empty a)
          · rw [if_neg hzero]
            have hle : (u \ (kve.span abi).addrs).card ≤ u.card :=
              Finset.card_le_card Finset.sdiff_subset
            exact ih hmap.tail (hu.sdiff hmap.disjoint) (hle.trans_lt hlt) _
        · -- The bytes that the entry has of the area stay.
          have hunusable : notReadonly H kve.kveProtection = true := by
            simpa [KinfoVmentry.readonly] using hreadonly
          rw [hunusable]
          refine ⟨p, u.card, .inl rfl, ?_⟩
          rw [Finset.card_eq_zero]
          exact hmap.covers_iff_empty hreadonly hmeets hu
      · rw [if_neg hmeets, covers_of_not_meets hmeets hu.subset]
        exact ih hmap.tail hu.tail hlt _

/-- The function returns what the loop leaves. -/
theorem readonlyAreaWith_eq (hsub : Subtracts abi sub) {env : VmEnv} {kveLen ptr size : Nat}
    {tail : List UInt8} (hlen : env.vmmapLen = some kveLen)
    (hstored : env.vmmap kveLen = some (mapBytes map ++ tail, (mapBytes map).length))
    (hmap : WellFormedMap abi map) (hwrap : ptr + size < 2 ^ abi.longBits) :
    ∃ left, readonlyAreaWith H abi sub env ptr size =
        .returned (if left = 0 then 1 else -1) none ∧
      (left = 0 ↔ ∀ a, ptr ≤ a → a < ptr + size → Covers abi map a) := by
  have hend : uintptr abi (ptr + size) = ptr + size := Nat.mod_eq_of_lt hwrap
  have hcard : (⟨ptr, ptr + size⟩ : Span).addrs.card = size :=
    (Span.card_addrs _).trans (Nat.add_sub_cancel_left ptr size)
  have hlt : (⟨ptr, ptr + size⟩ : Span).addrs.card < 2 ^ abi.longBits := by
    rw [hcard]
    omega
  have hpacked : Packed _ (areaTurn H abi sub (mapBytes map ++ tail) ⟨ptr, ptr + size⟩) _ _
      (mapBytes map).length 0 map := packed_map map rfl (Nat.zero_add _)
  obtain ⟨q, left, hexit, hleft⟩ := scan_map hsub hmap (Uncovered.self _ _) hlt 0
  rw [hcard, ← walk_packed_of_len hpacked] at hexit
  refine ⟨left, ?_, ?_⟩
  · simp only [readonlyAreaWith, hlen, hstored, hend]
    obtain hexit | hexit := hexit <;> rw [hexit]
  · rw [hleft]
    simp only [Span.mem_addrs, and_imp]

/-- `__readonly_area` returns 1 exactly when each byte of the area is in an entry that is readable
and not writable, and `size` never underflows on the way. -/
theorem readonlyArea_iff {env : VmEnv} {kveLen ptr size : Nat} (map : List (KinfoVmentry H))
    (tail : List UInt8) (hlen : env.vmmapLen = some kveLen)
    (hstored : env.vmmap kveLen = some (mapBytes map ++ tail, (mapBytes map).length))
    (hmap : WellFormedMap abi map) (hwrap : ptr + size < 2 ^ abi.longBits) :
    (∃ r, readonlyArea H abi env ptr size = .returned r none ∧ (r = 1 ∨ r = -1) ∧
      (r = 1 ↔ ∀ a, ptr ≤ a → a < ptr + size → Covers abi map a)) ∧
    readonlyAreaWith H abi checkedSub env ptr size = readonlyArea H abi env ptr size := by
  obtain ⟨left, hreturned, hleft⟩ :=
    readonlyAreaWith_eq (subtracts_wrapSub abi) hlen hstored hmap hwrap
  obtain ⟨left', hreturned', hleft'⟩ :=
    readonlyAreaWith_eq (subtracts_checkedSub abi) hlen hstored hmap hwrap
  -- Both ways of subtracting leave nothing in the same cases.
  have hsame : left' = 0 ↔ left = 0 := hleft'.trans hleft.symm
  refine ⟨⟨_, hreturned, ?_, ?_⟩, ?_⟩
  · split_ifs <;> simp
  · rw [← hleft]
    split_ifs with hzero <;> simp [hzero]
  · rw [hreturned', readonlyArea, hreturned]
    simp only [hsame]

end Loop

/-- A `<sys/user.h>` of the kernel. -/
def userHeaders : Headers where
  kveStructsizeOff := 0
  kveStartOff := 8
  kveEndOff := 16
  kveProtectionOff := 56
  kvePathOff := 136
  kveStructsizeOff_le := by decide
  kveStartOff_le := by decide
  kveEndOff_le := by decide
  kveProtectionOff_le := by decide
  KVME_PROT_READ := 1
  KVME_PROT_WRITE := 2

/-- An entry for the page number `page`. -/
def pageEntry (page protection : UInt8) : KinfoVmentry userHeaders where
  bytes := [144, 0, 0, 0] ++ List.replicate 4 0 ++ [0, page * 16, 64, 0, 0, 0, 0, 0] ++
    [0, (page + 1) * 16, 64, 0, 0, 0, 0, 0] ++ List.replicate 32 0 ++ [protection, 0, 0, 0] ++
    List.replicate 84 0
  structsize := rfl
  pathOff_le := by simp [userHeaders]

/-- A page of a program and one of its data, from `0x400000` on. -/
def twoPages : List (KinfoVmentry userHeaders) := [pageEntry 1 3, pageEntry 0 5]

/-- The kernel that gives them. -/
def twoPagesEnv : VmEnv where
  vmmapLen := some 288
  vmmap _ := some (mapBytes twoPages ++ [], (mapBytes twoPages).length)

/-- Sixteen bytes across the border of the two. -/
theorem readonlyArea_iff_twoPages :
    (∃ r, readonlyArea userHeaders .lp64 twoPagesEnv 0x400ff0 16 = .returned r none ∧
      (r = 1 ∨ r = -1) ∧
      (r = 1 ↔ ∀ a, 0x400ff0 ≤ a → a < 0x400ff0 + 16 → Covers .lp64 twoPages a)) ∧
    readonlyAreaWith userHeaders .lp64 checkedSub twoPagesEnv 0x400ff0 16 =
      readonlyArea userHeaders .lp64 twoPagesEnv 0x400ff0 16 :=
  readonlyArea_iff twoPages [] rfl rfl ⟨by decide, by decide⟩ (by decide)

end GlibcPorts.Vmmap
