import Mathlib.Algebra.GroupWithZero.Nat
import Mathlib.Data.List.Basic

/-!
# `GlibcPorts.Lib.Records`: walks over packed records of varying size

The kernel hands out tables as records of varying size, one behind the other, and C code
walks over them with a cursor:

    while (bufp < buf + len) { ...; bufp += size; }

`walk` is that loop over any state and any body. Its fuel stands for the number of turns, so
that `running` is a loop that has not ended yet. `Packed` says that records lie behind the
cursor, and `walk_packed` that the loop is then a recursion over the list of the records
(`scan`), with any fuel larger than their number. `scan_find` is the case of a loop that looks
for a record.

Records that are not known to be packed still have the cursors of the loop (`cursors`), and
`walk_cursors` says that the loop is a recursion over them (`runOver`).

`intAt` and `readInt` are how such a loop reads an `int` of a record.
-/

set_option autoImplicit false

namespace GlibcPorts.Lib

/-! ### Integers in memory -/

/-- The number that bytes stand for, the least significant one first. -/
def leNat : List UInt8 → Nat
  | [] => 0
  | b :: bs => b.toNat + 256 * leNat bs

/-- The `int` at the offset `p`. -/
def intAt (mem : List UInt8) (p : Nat) : Int :=
  (BitVec.ofNat 32 (leNat ((mem.drop p).take 4))).toInt

/-- The `int` at the offset `p`, if it lies in the memory. -/
def readInt (mem : List UInt8) (p : Nat) : Option Int :=
  if p + 4 ≤ mem.length then some (intAt mem p) else none

/-- The number in the `n` bytes at the offset `p`, if they lie in the memory. -/
def readLe (mem : List UInt8) (p n : Nat) : Option Nat :=
  if p + n ≤ mem.length then some (leNat ((mem.drop p).take n)) else none

section Reads

variable {mem bs tail : List UInt8} {p off n : Nat}

/-- The bytes of a block are at the same place behind the start of the block. -/
theorem take_of_drop (h : mem.drop p = bs ++ tail) (hoff : off + n ≤ bs.length) (hn : 0 < n) :
    p + off + n ≤ mem.length ∧ (mem.drop (p + off)).take n = (bs.drop off).take n := by
  have hlen := congrArg List.length h
  simp only [List.length_drop, List.length_append] at hlen
  refine ⟨by omega, ?_⟩
  rw [← List.drop_drop, h, List.drop_append_of_le_length (by omega),
    List.take_append_of_le_length]
  rw [List.length_drop]
  omega

/-- An `int` of a block is read at the same place behind the start of the block. -/
theorem readInt_of_drop (h : mem.drop p = bs ++ tail) (hoff : off + 4 ≤ bs.length) :
    readInt mem (p + off) = some (intAt bs off) := by
  obtain ⟨hroom, hbytes⟩ := take_of_drop h hoff (by decide)
  rw [readInt, if_pos hroom, intAt, hbytes]
  rfl

theorem readLe_of_drop (h : mem.drop p = bs ++ tail) (hoff : off + n ≤ bs.length)
    (hn : 0 < n) : readLe mem (p + off) n = some (leNat ((bs.drop off).take n)) := by
  obtain ⟨hroom, hbytes⟩ := take_of_drop h hoff hn
  rw [readLe, if_pos hroom, hbytes]

end Reads

/-! ### The loop -/

/-- How a walk ends. -/
inductive Exit (σ ρ : Type) where
  /-- The body left the loop at this cursor. -/
  | stopped (cursor : Nat) (r : ρ)
  /-- The cursor reached the end. -/
  | ended (cursor : Nat) (s : σ)
  /-- A read or a write outside the memory. -/
  | fault
  /-- The loop still runs. -/
  | running
deriving DecidableEq, Repr

variable {α σ ρ : Type}

/-- The loop over a buffer of `len` bytes. `body` and `size` get the cursor. The body leaves the
loop or goes on with a new state, and both are `none` when they read outside the memory. A
cursor before the buffer is a fault: the loop's test still holds of it, and the body reads. -/
def walk (size : Nat → Option Int) (body : σ → Nat → Option (ρ ⊕ σ)) (len : Nat) :
    Nat → σ → Nat → Exit σ ρ
  | 0, _, _ => .running
  | fuel + 1, s, p =>
      if p < len then
        match body s p with
        | none => .fault
        | some (.inl r) => .stopped p r
        | some (.inr s') =>
            match size p with
            | none => .fault
            | some n => if 0 ≤ p + n then walk size body len fuel s' (p + n).toNat else .fault
      else .ended p s

/-- The loop as a recursion over the records from the cursor on. -/
def scan (turn : σ → Nat → α → Option (ρ ⊕ σ)) (width : α → Nat) : σ → Nat → List α → Exit σ ρ
  | s, p, [] => .ended p s
  | s, p, a :: as =>
      match turn s p a with
      | none => .fault
      | some (.inl r) => .stopped p r
      | some (.inr s') => scan turn width s' (p + width a) as

/-- The records lie one behind the other from `p` on, up to `len`: the loop's size of each one is
its width, which is positive, and the body does with it what `turn` says. -/
inductive Packed (size : Nat → Option Int) (body : σ → Nat → Option (ρ ⊕ σ))
    (turn : σ → Nat → α → Option (ρ ⊕ σ)) (width : α → Nat) (len : Nat) : Nat → List α → Prop
  | nil : Packed size body turn width len len []
  | cons {p : Nat} {a : α} {as : List α} (hpos : 0 < width a) (hle : p + width a ≤ len)
      (hsize : size p = some (width a : Int)) (hbody : ∀ s, body s p = turn s p a)
      (hrest : Packed size body turn width len (p + width a) as) :
      Packed size body turn width len p (a :: as)

section Packed

variable {size : Nat → Option Int} {body : σ → Nat → Option (ρ ⊕ σ)}
  {turn : σ → Nat → α → Option (ρ ⊕ σ)} {width : α → Nat} {len p : Nat} {as : List α}

/-- There are at most as many records as bytes. -/
theorem Packed.length_le (h : Packed size body turn width len p as) : p + as.length ≤ len := by
  induction h with
  | nil => exact Nat.le_refl _
  | cons hpos _ _ _ _ ih =>
      rw [List.length_cons]
      omega

/-- Over packed records the loop is the recursion over their list, and it ends. -/
theorem walk_packed (h : Packed size body turn width len p as) {fuel : Nat}
    (hfuel : as.length < fuel) (s : σ) :
    walk size body len fuel s p = scan turn width s p as := by
  induction h generalizing fuel s with
  | nil =>
      cases fuel with
      | zero => omega
      | succ fuel => rw [walk, if_neg (Nat.lt_irrefl _), scan]
  -- One turn, at a record that has its size and lies inside.
  | @cons p a as hpos hle hsize hbody hrest ih =>
      cases fuel with
      | zero => omega
      | succ fuel =>
          rw [List.length_cons] at hfuel
          rw [walk, if_pos (by omega), scan, hbody]
          cases turn s p a with
          | none => rfl
          | some next =>
              cases next with
              | inl r => rfl
              | inr s' =>
                  have hnext : ((p : Int) + (width a : Int)).toNat = p + width a := by omega
                  simp only [hsize]
                  rw [if_pos (by omega), hnext]
                  exact ih (by omega) s'

/-- A turn for each byte of the buffer, and one more, are enough for packed records. -/
theorem walk_packed_of_len (h : Packed size body turn width len p as) (s : σ) :
    walk size body len (len + 1) s p = scan turn width s p as :=
  walk_packed h (Nat.lt_succ_of_le (Nat.le_trans (Nat.le_add_left _ _) h.length_le)) s

end Packed

/-! ### Looking for a record -/

/-- The bytes of the records that `P` is false of before the first that it holds of. -/
def offsetOf (P : α → Bool) (width : α → Nat) (as : List α) : Nat :=
  ((as.takeWhile fun a => !P a).map width).sum

/-- A loop that leaves at the first record with `P` and changes nothing before. -/
theorem scan_find {P : α → Bool} {found : Nat → α → Option ρ} {width : α → Nat} (s : σ) (p : Nat)
    (as : List α) :
    scan (fun s p a => if P a then (found p a).map .inl else some (.inr s)) width s p as =
      match as.find? P with
      | none => .ended (p + (as.map width).sum) s
      | some a =>
          match found (p + offsetOf P width as) a with
          | none => .fault
          | some r => .stopped (p + offsetOf P width as) r := by
  induction as generalizing p with
  | nil => rfl
  | cons a as ih =>
      cases hP : P a with
      -- The scan stops here.
      | true =>
          have hoff : offsetOf P width (a :: as) = 0 := by simp [offsetOf, hP]
          rw [scan, List.find?_cons_of_pos hP, hoff]
          simp only [hP, if_true, Nat.add_zero]
          cases found p a <;> rfl
      | false =>
          have hoff : offsetOf P width (a :: as) = width a + offsetOf P width as := by
            simp [offsetOf, hP]
          rw [scan, List.find?_cons_of_neg (by simp [hP]), hoff]
          simp only [hP, Bool.false_eq_true, if_false]
          rw [ih (p + width a), List.map_cons, List.sum_cons, ← Nat.add_assoc, ← Nat.add_assoc]

/-- What lies before the first record with `P`. -/
theorem takeWhile_of_find {P : α → Bool} {pre post : List α} {a : α} (ha : P a = true)
    (hpre : ∀ b ∈ pre, (!P b) = true) : (pre ++ a :: post).takeWhile (fun a => !P a) = pre := by
  rw [List.takeWhile_append_of_pos hpre, List.takeWhile_cons_of_neg (by simp [ha]),
    List.append_nil]

/-- The record that is found lies inside the records. -/
theorem offsetOf_add_width_le {P : α → Bool} (width : α → Nat) {as : List α} {a : α}
    (h : as.find? P = some a) : offsetOf P width as + width a ≤ (as.map width).sum := by
  obtain ⟨ha, pre, post, rfl, hpre⟩ := List.find?_eq_some_iff_append.mp h
  simp only [offsetOf, takeWhile_of_find ha hpre, List.map_append, List.map_cons, List.sum_append,
    List.sum_cons]
  omega

/-- The bytes of the record that is found stand at its offset. -/
theorem exists_drop_offsetOf {P : α → Bool} (bytes : α → List UInt8) {as : List α} {a : α}
    (h : as.find? P = some a) (tail : List UInt8) :
    ∃ rest, (as.flatMap bytes ++ tail).drop (offsetOf P (fun a => (bytes a).length) as) =
      bytes a ++ rest := by
  obtain ⟨ha, pre, post, rfl, hpre⟩ := List.find?_eq_some_iff_append.mp h
  refine ⟨post.flatMap bytes ++ tail, ?_⟩
  have hlen : offsetOf P (fun a => (bytes a).length) (pre ++ a :: post) =
      (pre.flatMap bytes).length := by
    rw [offsetOf, takeWhile_of_find ha hpre, List.length_flatMap]
  rw [hlen, List.flatMap_append, List.flatMap_cons, List.append_assoc, List.append_assoc]
  exact List.drop_left

/-! ### The cursors of a loop -/

/-- The cursors of a loop over records of these sizes, for so many turns. -/
def cursors (width : Nat → Nat) (len : Nat) : Nat → Nat → List Nat
  | 0, _ => []
  | fuel + 1, p => if p < len then p :: cursors width len fuel (p + width p) else []

/-- The cursors over `n` records of the size `w`. -/
theorem cursors_const {width : Nat → Nat} {w n p fuel : Nat} (hw : 0 < w) (hfuel : n < fuel)
    (hwidth : ∀ i < n, width (p + w * i) = w) :
    cursors width (p + w * n) fuel p = (List.range n).map fun i => p + w * i := by
  induction n generalizing p fuel with
  | zero =>
      obtain ⟨fuel, rfl⟩ := Nat.exists_eq_succ_of_ne_zero (Nat.ne_of_gt hfuel)
      exact if_neg (Nat.lt_irrefl p)
  | succ n ih =>
      obtain ⟨fuel, rfl⟩ := Nat.exists_eq_succ_of_ne_zero (Nat.ne_of_gt (Nat.zero_lt_of_lt hfuel))
      have hfirst : width p = w := hwidth 0 (Nat.succ_pos n)
      have hshift : ∀ i, p + w + w * i = p + w * (i + 1) := fun i => by
        rw [Nat.mul_succ, Nat.add_assoc, Nat.add_comm w]
      have hlt : p < p + w * (n + 1) := Nat.lt_add_of_pos_right (Nat.mul_pos hw (Nat.succ_pos n))
      have hrest := @ih (p + w) fuel (by omega) fun i hi => by
        rw [hshift]
        exact hwidth (i + 1) (Nat.succ_lt_succ hi)
      rw [hshift] at hrest
      rw [Nat.succ_eq_add_one, cursors, if_pos hlt, hfirst, hrest, List.range_succ_eq_map,
        List.map_cons, List.map_map, Nat.mul_zero, Nat.add_zero]
      simp only [hshift, Function.comp_def, Nat.succ_eq_add_one]

/-- The loop as a recursion over its cursors. -/
def runOver (body : σ → Nat → Option (ρ ⊕ σ)) : σ → List Nat → Option (ρ ⊕ σ)
  | s, [] => some (.inr s)
  | s, p :: ps =>
      match body s p with
      | none => none
      | some (.inl r) => some (.inl r)
      | some (.inr s') => runOver body s' ps

/-- How a loop ends, without the cursor. -/
def Exit.outcome : Exit σ ρ → Option (Option (ρ ⊕ σ))
  | .stopped _ r => some (some (.inl r))
  | .ended _ s => some (some (.inr s))
  | .fault => some none
  | .running => none

theorem Exit.eq_ended {exit : Exit σ ρ} {s : σ} (h : exit.outcome = some (some (.inr s))) :
    ∃ p, exit = .ended p s := by
  cases exit with
  | ended p s' =>
      cases h
      exact ⟨p, rfl⟩
  | _ => cases h

theorem Exit.eq_fault {exit : Exit σ ρ} (h : exit.outcome = some none) : exit = .fault := by
  cases exit with
  | fault => rfl
  | _ => cases h

/-- Over records of positive sizes the loop ends, and it does what the recursion over its cursors
does. -/
theorem walk_cursors {width : Nat → Nat} {body : σ → Nat → Option (ρ ⊕ σ)} {len fuel p : Nat}
    (hpos : ∀ q ∈ cursors width len fuel p, 0 < width q) (hturn : 0 < fuel)
    (hfuel : len < p + fuel) (s : σ) :
    (walk (fun p => some (width p : Int)) body len fuel s p).outcome =
      some (runOver body s (cursors width len fuel p)) := by
  induction fuel generalizing s p with
  | zero => exact absurd hturn (Nat.lt_irrefl 0)
  | succ fuel ih =>
      by_cases hp : p < len
      · have hcons : cursors width len (fuel + 1) p =
            p :: cursors width len fuel (p + width p) := if_pos hp
        rw [hcons] at hpos ⊢
        have hwidth : 0 < width p := hpos p List.mem_cons_self
        have hrest : ∀ q ∈ cursors width len fuel (p + width p), 0 < width q := fun q hq =>
          hpos q (List.mem_cons_of_mem p hq)
        have hnext : ((p : Int) + (width p : Int)).toNat = p + width p := by omega
        rw [walk, if_pos hp, runOver]
        -- A turn goes outside, stops, or goes on to the next cursor.
        cases body s p with
        | none => rfl
        | some next =>
            cases next with
            | inl r => rfl
            | inr s' =>
                simp only
                rw [if_pos (by omega), hnext]
                exact ih hrest (by omega) (by omega) s'
      · have hnil : cursors width len (fuel + 1) p = [] := if_neg hp
        rw [walk, if_neg hp, hnil]
        rfl

end GlibcPorts.Lib
