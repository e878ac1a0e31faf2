import GlibcPorts.Interfaces.Ifreq

/-!
# `GlibcPorts.Proofs.Interfaces.Ifreq`: what `__ifreq` returns, and what it leaves

The loop that enlarges the buffer goes from round to round while the kernel fills the buffer up to
less than a record of the largest size (`GoesOn`). `forever_enlargeTurn` says how it ends
(`EnlargeEnd`), and `finishIfreq_cases` what follows.

A kernel that stores the records that fit leaves that much room only if it cut none
(`fitting_eq_self`), so behind the loop all of them are in the buffer: `ifreq_returns_all`.

A call of `realloc` that fails returns NULL and leaves the block, and the code stores the NULL
over its only pointer. `ifreq_clean_iff` says that `__ifreq` fails cleanly exactly when no such
call fails with a block to lose (`KeepsBuffer`).
-/

set_option autoImplicit false

namespace GlibcPorts.Interfaces

open Lib

/-! ### Records in a buffer -/

section Records

variable {env : IfreqEnv}

/-- `__if_nextreq` advances by one record, at each of these. -/
def Records (env : IfreqEnv) (recs : List (List UInt8)) : Prop :=
  ∀ r ∈ recs, 0 < r.length ∧ ∀ tail, env.nextreq (r ++ tail) = r.length

/-- A record is not empty. -/
theorem Records.eq_nil {recs : List (List UInt8)} (hrecs : Records env recs)
    (hnil : recs.flatten = []) : recs = [] := by
  refine List.eq_nil_iff_forall_not_mem.mpr fun r hr => ?_
  have hpos := (hrecs r hr).1
  rw [List.flatten_eq_nil_iff.mp hnil r hr] at hpos
  exact Nat.lt_irrefl 0 hpos

/-- The records of the kernel follow each other in the buffer. -/
theorem packed_records {mem tail : List UInt8} {len : Nat} (recs : List (List UInt8)) {p : Nat}
    (hrecs : Records env recs) (hmem : mem.drop p = recs.flatten ++ tail)
    (hlen : p + recs.flatten.length = len) :
    Packed (fun p => some (env.nextreq (mem.drop p) : Int))
      (fun nifs _ => some (.inr (nifs + 1) : Empty ⊕ Nat)) (fun nifs _ _ => some (.inr (nifs + 1)))
      List.length len p recs := by
  -- `__if_nextreq` goes from each record to the next, by its length.
  induction recs generalizing p with
  | nil =>
      have hp : p = len := hlen
      subst hp
      exact .nil
  | cons r recs ih =>
      obtain ⟨hpos, hnext⟩ := hrecs r List.mem_cons_self
      rw [List.flatten_cons, List.append_assoc] at hmem
      rw [List.flatten_cons, List.length_append] at hlen
      have hsize : env.nextreq (mem.drop p) = r.length := by rw [hmem, hnext]
      refine .cons hpos (by omega) (congrArg some (congrArg Nat.cast hsize)) (fun _ => rfl)
        (ih (fun r' hr' => hrecs r' (List.mem_cons_of_mem r hr')) ?_ (by omega))
      rw [← List.drop_drop, hmem]
      exact List.drop_left

/-- The first pass counts the records. -/
theorem scan_count (recs : List (List UInt8)) (nifs p : Nat) :
    ∃ q, scan (fun nifs _ _ => some (.inr (nifs + 1) : Empty ⊕ Nat)) List.length nifs p recs =
      .ended q (nifs + recs.length) := by
  induction recs generalizing nifs p with
  | nil => exact ⟨p, rfl⟩
  | cons r recs ih =>
      obtain ⟨q, hq⟩ := ih (nifs + 1) (p + r.length)
      refine ⟨q, ?_⟩
      rw [List.length_cons, Nat.add_comm recs.length, ← Nat.add_assoc]
      exact hq

/-- The loop counts the records. -/
theorem countRecords_eq {recs : List (List UInt8)} (hrecs : Records env recs)
    (tail : List UInt8) :
    ∃ q, countRecords env (recs.flatten ++ tail) recs.flatten.length = .ended q recs.length := by
  have hpacked : Packed (fun p => some (env.nextreq ((recs.flatten ++ tail).drop p) : Int)) _ _ _
      recs.flatten.length 0 recs := packed_records recs hrecs rfl (Nat.zero_add _)
  obtain ⟨q, hq⟩ := scan_count recs 0 0
  refine ⟨q, ?_⟩
  rw [countRecords, walk_packed_of_len hpacked, hq, Nat.zero_add]

end Records

/-! ### The loop that enlarges the buffer -/

/-- `rq_len` in a round. -/
def rqLenAt (round : Nat) : Nat := (RQ_IFS * sizeofIfreq + RQ_MAXSIZE) * 2 ^ round

/-- Behind so many rounds `rq_len` overflows. -/
def maxRounds : Nat := 22

/-- What the kernel stores fits, and it is records. -/
def StoresRecords (env : IfreqEnv) : Prop :=
  ∀ k len bytes, env.siocgifconf k len = some bytes →
    bytes.length ≤ len ∧ ∃ recs, bytes = recs.flatten ∧ Records env recs

section Enlarge

variable (env : IfreqEnv)

/-- In this round nothing fails, and there is no room for another record. -/
def GoesOn (k : Nat) : Prop :=
  env.fails k = false ∧
    ∃ bytes, env.siocgifconf k (rqLenAt k) = some bytes ∧ rqLenAt k < bytes.length + RQ_MAXSIZE

/-- The loop gets to this round. -/
def Reaches (k : Nat) : Prop := ∀ j < k, GoesOn env j

/-- The loop gets to this round and ends in it. -/
def Stops (k : Nat) : Prop := Reaches env k ∧ ¬ GoesOn env k

variable {env} {base : Heap UInt8} {s : IfreqState} {k : Nat}

/-- One more round. -/
theorem Reaches.succ (h : Reaches env k) (hk : GoesOn env k) : Reaches env (k + 1) := by
  intro j hj
  by_cases hlt : j < k
  · exact h j hlt
  · have hjk : j = k := by omega
    rw [hjk]
    exact hk

/-- How the loop ends. -/
inductive EnlargeEnd (env : IfreqEnv) (base : Heap UInt8) : Left IfreqState Enlarged → Prop where
  /-- A call of `realloc` fails. The block of the rounds in front stays. -/
  | noMemory {k : Nat} {s : IfreqState} {b : Block UInt8} (hstops : Stops env k)
      (hk : k < maxRounds) (hfails : env.fails k = true)
      (hext : base.Extends s.heap s.ifcBuf b) (hfirst : s.ifcBuf = none ↔ k = 0) :
      EnlargeEnd env base (.left s (.failed s.heap))
  /-- The kernel fails. The block is freed. -/
  | noRecords {k : Nat} {s : IfreqState} (hstops : Stops env k) (hk : k < maxRounds)
      (hfails : env.fails k = false) (hioctl : env.siocgifconf k (rqLenAt k) = none) :
      EnlargeEnd env base (.left s (.failed base))
  | filled {k q : Nat} {s : IfreqState} {bytes : List UInt8} {rest : Block UInt8}
      {heap : Heap UInt8} (hstops : Stops env k) (hk : k < maxRounds)
      (hfails : env.fails k = false) (hioctl : env.siocgifconf k (rqLenAt k) = some bytes)
      (hround : s.round = k) (hext : base.Extends heap (some q) (bytes.map some ++ rest)) :
      EnlargeEnd env base (.left s (.filled q bytes.length heap))
  | overflow (hreaches : Reaches env maxRounds) : EnlargeEnd env base .fault

/-- The state in front of a round. -/
structure Ready (base : Heap UInt8) (k : Nat) (s : IfreqState) : Prop where
  round_eq : s.round = k
  rqLen_eq : s.rqLen = rqLenAt k
  ext : ∃ b, base.Extends s.heap s.ifcBuf b
  first : s.ifcBuf = none ↔ k = 0

/-- The first round begins without a buffer. -/
theorem ready_start (base : Heap UInt8) :
    Ready base 0 ⟨0, RQ_IFS * sizeofIfreq + RQ_MAXSIZE, none, base⟩ where
  round_eq := rfl
  rqLen_eq := rfl
  ext := ⟨[], .null⟩
  first := iff_of_true rfl rfl

/-- The size asked for is never zero. -/
theorem rqLenAt_ne_zero (k : Nat) : rqLenAt k ≠ 0 :=
  Nat.ne_of_gt (Nat.mul_pos (by decide) (Nat.two_pow_pos k))

/-- It doubles. -/
theorem rqLenAt_succ (k : Nat) : rqLenAt (k + 1) = rqLenAt k * 2 := by
  rw [rqLenAt, rqLenAt, Nat.pow_succ, Nat.mul_assoc]

/-- It does not shrink. -/
theorem rqLenAt_mono {j : Nat} (h : j ≤ k) : rqLenAt j ≤ rqLenAt k :=
  Nat.mul_le_mul_left _ (Nat.pow_le_pow_right (by decide) h)

/-- In these rounds `rq_len` is an `int`. -/
theorem rqLenAt_le_iff (k : Nat) : rqLenAt k ≤ INT_MAX ↔ k < maxRounds := by
  constructor
  · intro hle
    by_contra hge
    have hbig : rqLenAt maxRounds ≤ rqLenAt k := rqLenAt_mono (Nat.not_lt.mp hge)
    have hmax : INT_MAX < rqLenAt maxRounds := by decide
    omega
  · intro hlt
    have hsmall : rqLenAt k ≤ rqLenAt 21 := rqLenAt_mono (Nat.le_of_lt_succ hlt)
    have hmax : rqLenAt 21 ≤ INT_MAX := by decide
    omega

/-- A round: a call of `realloc` or the kernel fails, or the records are in the buffer. -/
theorem enlargeTurn_cases (hkernel : StoresRecords env) (hbase : base.Finite)
    (hready : Ready base k s) :
    (env.fails k = true ∧ enlargeTurn env s = some (.inl (.failed s.heap))) ∨
      (env.fails k = false ∧ env.siocgifconf k (rqLenAt k) = none ∧
        enlargeTurn env s = some (.inl (.failed base))) ∨
      ∃ bytes q rest heap, env.fails k = false ∧
        env.siocgifconf k (rqLenAt k) = some bytes ∧
        base.Extends heap (some q) (bytes.map some ++ rest) ∧
        enlargeTurn env s =
          if bytes.length + RQ_MAXSIZE ≤ rqLenAt k then some (.inl (.filled q bytes.length heap))
          else if rqLenAt k * 2 ≤ INT_MAX then
            some (.inr ⟨k + 1, rqLenAt k * 2, some q, heap⟩)
          else none := by
  obtain ⟨b, hext⟩ := hready.ext
  have hne := rqLenAt_ne_zero k
  unfold enlargeTurn
  rw [hready.round_eq, hready.rqLen_eq]
  cases hfails : env.fails k with
  | true =>
      left
      rw [hext.realloc_fails hne hfails]
      exact ⟨rfl, rfl⟩
  | false =>
      right
      -- The block moves, and the kernel stores at its start.
      obtain ⟨q, heap, hrealloc, hext'⟩ := hext.realloc_grow hbase hne hfails (P := env.place)
      rw [hrealloc]
      cases hioctl : env.siocgifconf k (rqLenAt k) with
      | none =>
          left
          have hfree : heap.free q = some base := hext'.freePtr
          simp only [Option.bind_eq_bind, Option.bind_some, hfree]
          exact ⟨trivial, trivial, rfl⟩
      | some bytes =>
          right
          obtain ⟨hfits, -⟩ := hkernel k _ _ hioctl
          have hroom : bytes.length ≤ (b.resize (rqLenAt k)).length := by
            rwa [Block.length_resize]
          obtain ⟨hblock, hstore⟩ :=
            hext'.update (bytes.map some ++ (b.resize (rqLenAt k)).drop bytes.length)
          refine ⟨bytes, q, _, _, rfl, rfl, hstore, ?_⟩
          simp only [Option.bind_eq_bind, Option.bind_some, hblock, Block.storeAt_zero hroom]
          rfl

/-- How the loop ends from a round on. -/
theorem forever_enlargeTurn (hkernel : StoresRecords env) (hbase : base.Finite)
    (hready : Ready base k s) (hreaches : Reaches env k) (hk : k < maxRounds) {fuel : Nat}
    (hfuel : maxRounds ≤ k + fuel) : EnlargeEnd env base (forever (enlargeTurn env) fuel s) := by
  induction fuel generalizing k s with
  | zero => omega
  | succ fuel ih =>
      obtain ⟨hfails, hturn⟩ | ⟨hfails, hioctl, hturn⟩ |
        ⟨bytes, q, rest, heap, hfails, hioctl, hext, hturn⟩ :=
        enlargeTurn_cases hkernel hbase hready
      · obtain ⟨b, hext⟩ := hready.ext
        rw [forever, hturn]
        refine .noMemory ⟨hreaches, fun hgo => ?_⟩ hk hfails hext hready.first
        rw [hgo.1] at hfails
        cases hfails
      · rw [forever, hturn]
        refine .noRecords ⟨hreaches, fun hgo => ?_⟩ hk hfails hioctl
        obtain ⟨bytes, hsome, -⟩ := hgo.2
        rw [hioctl] at hsome
        cases hsome
      · -- The reply was cut off, unless there is room for one more record.
        by_cases hroom : bytes.length + RQ_MAXSIZE ≤ rqLenAt k
        · rw [if_pos hroom] at hturn
          rw [forever, hturn]
          refine .filled ⟨hreaches, fun hgo => ?_⟩ hk hfails hioctl hready.round_eq hext
          obtain ⟨bytes', hsome, hfull⟩ := hgo.2
          rw [hioctl, Option.some.injEq] at hsome
          subst hsome
          omega
        · have hgo : GoesOn env k := ⟨hfails, bytes, hioctl, Nat.not_le.mp hroom⟩
          rw [if_neg hroom] at hturn
          by_cases hint : rqLenAt k * 2 ≤ INT_MAX
          · rw [if_pos hint] at hturn
            rw [forever, hturn]
            have hready' : Ready base (k + 1) ⟨k + 1, rqLenAt k * 2, some q, heap⟩ :=
              ⟨rfl, (rqLenAt_succ k).symm, ⟨_, hext⟩,
                iff_of_false (Option.some_ne_none q) (Nat.succ_ne_zero k)⟩
            have hnext := hint
            rw [← rqLenAt_succ, rqLenAt_le_iff] at hnext
            exact ih hready' (hreaches.succ hgo) hnext (by omega)
          · rw [if_neg hint] at hturn
            rw [forever, hturn]
            rw [← rqLenAt_succ, rqLenAt_le_iff] at hint
            have hlast : k + 1 = maxRounds := by omega
            have hreaches' := hreaches.succ hgo
            rw [hlast] at hreaches'
            exact .overflow hreaches'

/-- The loop ends, from its start. -/
theorem forever_enlargeTurn_start (hkernel : StoresRecords env) (hbase : base.Finite) {fuel : Nat}
    (hfuel : maxRounds ≤ fuel) :
    EnlargeEnd env base (forever (enlargeTurn env) fuel
      ⟨0, RQ_IFS * sizeofIfreq + RQ_MAXSIZE, none, base⟩) := by
  have hreaches : Reaches env 0 := fun j hj => absurd hj (Nat.not_lt_zero j)
  have hfirst : (0 : Nat) < maxRounds := by decide
  exact forever_enlargeTurn hkernel hbase (ready_start base) hreaches hfirst (by omega)

end Enlarge

/-! ### The end of `__ifreq` -/

section Finish

variable {env : IfreqEnv} {base heap : Heap UInt8} {q round : Nat} {closed : List Int}
  {recs : List (List UInt8)} {rest : Block UInt8}

/-- Behind the loop the records are counted, and `realloc` gets the buffer. -/
theorem finishIfreq_of_realloc (hrecs : Records env recs)
    (hext : base.Extends heap (some q) (recs.flatten.map some ++ rest)) {ifreqs : Option Nat}
    {heap' : Heap UInt8} (hrealloc : heap.realloc env.place env.fails (round + 1) (some q)
      recs.flatten.length = some (ifreqs, heap')) :
    finishIfreq env closed round q recs.flatten.length heap =
      .returned ⟨ifreqs, recs.length, heap', closed⟩ := by
  obtain ⟨hblock, -⟩ := hext.update []
  obtain ⟨p, hcount⟩ := countRecords_eq hrecs rest.stored
  simp only [finishIfreq, hblock, Block.stored_append, hcount, hrealloc]

/-- Without records the buffer is freed. With records it is cut to them, or stays if the call of
`realloc` fails. -/
theorem finishIfreq_cases (hbase : base.Finite) (hrecs : Records env recs)
    (hext : base.Extends heap (some q) (recs.flatten.map some ++ rest)) (closed : List Int)
    (round : Nat) :
    (recs.flatten = [] ∧ finishIfreq env closed round q recs.flatten.length heap =
        .returned ⟨none, recs.length, base, closed⟩) ∨
      (recs.flatten ≠ [] ∧ env.fails (round + 1) = true ∧
        finishIfreq env closed round q recs.flatten.length heap =
          .returned ⟨none, recs.length, heap, closed⟩) ∨
      (recs.flatten ≠ [] ∧ env.fails (round + 1) = false ∧
        ∃ q' heap', finishIfreq env closed round q recs.flatten.length heap =
            .returned ⟨some q', recs.length, heap', closed⟩ ∧
          base.Extends heap' (some q') (recs.flatten.map some)) := by
  -- A size of zero frees the block.
  by_cases hnil : recs.flatten = []
  · have hblock := (hext.update []).1
    have hfree : heap.free q = some base := hext.freePtr
    refine .inl ⟨hnil, finishIfreq_of_realloc hrecs hext ?_⟩
    simp only [Heap.realloc, hblock, hnil, List.length_nil, hfree, if_true, Option.map_some]
  · have hne : recs.flatten.length ≠ 0 := mt List.eq_nil_of_length_eq_zero hnil
    cases hfails : env.fails (round + 1) with
    | true =>
        have hrealloc := hext.realloc_fails (P := env.place) hne hfails
        exact .inr (.inl ⟨hnil, rfl, finishIfreq_of_realloc hrecs hext hrealloc⟩)
    | false =>
        obtain ⟨q', heap', hrealloc, hext'⟩ :=
          hext.realloc_grow (P := env.place) hbase hne hfails
        rw [Block.resize_length] at hext'
        exact .inr (.inr ⟨hnil, rfl, q', heap', finishIfreq_of_realloc hrecs hext hrealloc,
          hext'⟩)

end Finish

/-- The sockets that `__ifreq` opens, which are those that it has to close. -/
def openedSockets (env : IfreqEnv) (sockfd : Int) : List Int :=
  if sockfd < 0 ∧ 0 ≤ env.opensock then [env.opensock] else []

/-- There is a socket: the caller's, or a new one. -/
def HasSocket (env : IfreqEnv) (sockfd : Int) : Prop := 0 ≤ sockfd ∨ 0 ≤ env.opensock

section Sockets

variable {env : IfreqEnv} {sockfd : Int}

/-- Without a socket there is no list. -/
theorem ifreq_of_not_hasSocket (h : ¬ HasSocket env sockfd) (fuel : Nat) (heap : Heap UInt8) :
    ifreq env fuel heap sockfd = .returned ⟨none, 0, heap, openedSockets env sockfd⟩ := by
  obtain ⟨hsock, hopen⟩ := not_or.mp h
  have hopened : openedSockets env sockfd = [] := if_neg fun hboth => hopen hboth.2
  rw [hopened, ifreq]
  dsimp only
  rw [if_pos (Int.not_le.mp hsock), if_pos (Int.not_le.mp hopen)]

/-- With a socket the result is that of the loop. -/
theorem ifreq_of_hasSocket (h : HasSocket env sockfd) (fuel : Nat) (heap : Heap UInt8) :
    ifreq env fuel heap sockfd =
      match forever (enlargeTurn env) fuel
        ⟨0, RQ_IFS * sizeofIfreq + RQ_MAXSIZE, none, heap⟩ with
      | .left _ (.failed heap) => .returned ⟨none, 0, heap, openedSockets env sockfd⟩
      | .left s (.filled q len heap) =>
          finishIfreq env (openedSockets env sockfd) s.round q len heap
      | .fault => .fault
      | .running => .running := by
  rw [ifreq]
  dsimp only
  by_cases hsock : sockfd < 0
  · have hopen : 0 ≤ env.opensock := h.resolve_left (Int.not_le.mpr hsock)
    have hne : env.opensock ≠ sockfd := by omega
    have hopened : openedSockets env sockfd = [env.opensock] := if_pos ⟨hsock, hopen⟩
    rewrite [if_pos hsock, if_neg (Int.not_lt.mpr hopen), if_pos hne, hopened]
    rfl
  · have hopened : openedSockets env sockfd = [] := if_neg fun hboth => hsock hboth.1
    rewrite [if_neg hsock, if_neg hsock, if_neg (not_not.mpr rfl), hopened]
    rfl

end Sockets

/-! ### A kernel that stores the records that fit -/

/-- The longest part of the list, from its start on, that fits so many bytes. -/
def fitting : List (List UInt8) → Nat → List (List UInt8)
  | [], _ => []
  | r :: recs, len => if r.length ≤ len then r :: fitting recs (len - r.length) else []

section Fitting

variable {recs : List (List UInt8)} {len m : Nat}

/-- The records that fit are the first ones. -/
theorem fitting_isPrefix (recs : List (List UInt8)) (len : Nat) : fitting recs len <+: recs := by
  induction recs generalizing len with
  | nil => exact List.prefix_refl []
  | cons r recs ih =>
      rw [fitting]
      split_ifs with hfits
      · exact List.cons_prefix_cons.mpr ⟨rfl, ih _⟩
      · exact List.nil_prefix

/-- The records that fit are not longer than all of them. -/
theorem length_fitting_le_all (recs : List (List UInt8)) (len : Nat) :
    (fitting recs len).flatten.length ≤ recs.flatten.length := by
  obtain ⟨cut, hcut⟩ := fitting_isPrefix recs len
  calc (fitting recs len).flatten.length
      ≤ (fitting recs len).flatten.length + cut.flatten.length := Nat.le_add_right _ _
    _ = (fitting recs len ++ cut).flatten.length := by
        rw [List.flatten_append, List.length_append]
    _ = recs.flatten.length := by rw [hcut]

/-- The records that fit do fit. -/
theorem length_fitting_le (recs : List (List UInt8)) (len : Nat) :
    (fitting recs len).flatten.length ≤ len := by
  induction recs generalizing len with
  | nil => exact Nat.zero_le len
  | cons r recs ih =>
      rw [fitting]
      split_ifs with hfits
      · have hrest := ih (len - r.length)
        rw [List.flatten_cons, List.length_append]
        omega
      · exact Nat.zero_le len

/-- If there is room behind the records for one of the largest size, none was cut. -/
theorem fitting_eq_self (hmax : ∀ r ∈ recs, r.length ≤ m)
    (hroom : (fitting recs len).flatten.length + m ≤ len) : fitting recs len = recs := by
  induction recs generalizing len with
  | nil => rfl
  | cons r recs ih =>
      have hr := hmax r List.mem_cons_self
      rw [fitting] at hroom ⊢
      by_cases hfits : r.length ≤ len
      · rw [if_pos hfits] at hroom ⊢
        rw [List.flatten_cons, List.length_append] at hroom
        rw [ih (fun r' hr' => hmax r' (List.mem_cons_of_mem r hr')) (by omega)]
      · rw [if_neg hfits] at hroom
        omega

/-- A list that fits is stored as it is. -/
theorem fitting_of_le (h : recs.flatten.length ≤ len) : fitting recs len = recs := by
  induction recs generalizing len with
  | nil => rfl
  | cons r recs ih =>
      rw [List.flatten_cons, List.length_append] at h
      have hfits : r.length ≤ len := by omega
      rw [fitting, if_pos hfits, ih (by omega)]

/-- A kernel that stores the records that fit. -/
theorem storesRecords_fitting {env : IfreqEnv}
    (hioctl : ∀ k len, env.siocgifconf k len = some (fitting recs len).flatten)
    (hrecs : Records env recs) : StoresRecords env := by
  intro k len bytes hbytes
  rw [hioctl, Option.some.injEq] at hbytes
  subst hbytes
  exact ⟨length_fitting_le recs len, fitting recs len, rfl, fun r hr =>
    hrecs r ((fitting_isPrefix recs len).mem hr)⟩

end Fitting

/-- The buffer that is returned holds these records and nothing else. Without records there is no
buffer. -/
def IfreqResult.HoldsAll (r : IfreqResult) (recs : List (List UInt8)) : Prop :=
  match r.ifreqs with
  | none => recs = []
  | some q => r.heap q = some (recs.flatten.map some)

/-- `__ifreq` returns every interface, for any number of them: the kernel stores the records that
fit, each has a size between those of a `struct ifreq` and of `RQ_MAXSIZE`, and there is an
`rq_len` with room for all of them that is an `int`. -/
theorem ifreq_returns_all {env : IfreqEnv} {heap : Heap UInt8} {fuel : Nat} {sockfd : Int}
    (recs : List (List UInt8))
    (hioctl : ∀ k len, env.siocgifconf k len = some (fitting recs len).flatten)
    (hsize : ∀ r ∈ recs, sizeofIfreq ≤ r.length ∧ r.length ≤ RQ_MAXSIZE)
    (hnext : ∀ r ∈ recs, ∀ tail, env.nextreq (r ++ tail) = r.length)
    (hint : ∃ k, recs.flatten.length + RQ_MAXSIZE ≤ rqLenAt k ∧ rqLenAt k ≤ INT_MAX)
    (hsocket : HasSocket env sockfd) (hfails : ∀ k, env.fails k = false) (hheap : heap.Finite)
    (hfuel : maxRounds ≤ fuel) :
    ∃ r, ifreq env fuel heap sockfd = .returned r ∧ r.numIfs = recs.length ∧ r.HoldsAll recs := by
  have hrecs : Records env recs := fun r hr =>
    ⟨Nat.lt_of_lt_of_le (by decide) (hsize r hr).1, hnext r hr⟩
  have hkernel := storesRecords_fitting hioctl hrecs
  have hend := forever_enlargeTurn_start hkernel hheap hfuel
  rw [ifreq_of_hasSocket hsocket]
  generalize forever (enlargeTurn env) fuel _ = left at hend
  cases hend with
  | @noMemory k s b _ _ hfail =>
      rw [hfails] at hfail
      cases hfail
  | noRecords _ _ _ hnone =>
      rw [hioctl] at hnone
      cases hnone
  | @filled k q s bytes rest heap' hstops _ _ hbytes _ hext =>
      rw [hioctl, Option.some.injEq] at hbytes
      subst hbytes
      -- The loop was left, so there is room for another record, and none was cut.
      have hall : fitting recs (rqLenAt k) = recs := by
        refine fitting_eq_self (fun r hr => (hsize r hr).2) (Nat.not_lt.mp fun hfull => ?_)
        exact hstops.2 ⟨hfails k, _, hioctl k _, hfull⟩
      rw [hall] at hext ⊢
      obtain ⟨hnil, hfinish⟩ | ⟨-, hfail, -⟩ | ⟨-, -, q', heap'', hfinish, hext'⟩ :=
        finishIfreq_cases hheap hrecs hext (openedSockets env sockfd) s.round
      · exact ⟨_, hfinish, rfl, hrecs.eq_nil hnil⟩
      · rw [hfails] at hfail
        cases hfail
      · exact ⟨_, hfinish, rfl, (hext'.update []).1⟩
  | overflow hreaches =>
      -- In a round with room for all records the loop would not go on.
      obtain ⟨k, hroom, hmax⟩ := hint
      obtain ⟨-, bytes, hbytes, hfull⟩ := hreaches k ((rqLenAt_le_iff k).mp hmax)
      rw [hioctl, Option.some.injEq] at hbytes
      have hle := length_fitting_le_all recs (rqLenAt k)
      rw [hbytes] at hle
      omega

/-- The records of `lo0`, with its link-level address, and of `em0`, with an internet address. -/
def lo0Record : List UInt8 :=
  [108, 111, 48] ++ List.replicate 13 0 ++ [54, 18] ++ List.replicate 52 0

/-- The record of the interface `em0`. -/
def em0Record : List UInt8 :=
  [101, 109, 48] ++ List.replicate 13 0 ++ [16, 2] ++ List.replicate 14 0

/-- A kernel with these records. The byte behind the name is the length of the address. -/
noncomputable def kernelOfRecords (recs : List (List UInt8)) (fails : Nat → Bool) : IfreqEnv where
  opensock := 3
  place := .lowest _
  fails := fails
  siocgifconf _ len := some (fitting recs len).flatten
  nextreq mem := max sizeofIfreq (16 + (mem.getD 16 0).toNat)

/-- Two interfaces are returned. -/
theorem ifreq_returns_all_two :
    ∃ r, ifreq (kernelOfRecords [lo0Record, em0Record] fun _ => false) maxRounds (fun _ => none)
        (-1) = .returned r ∧
      r.numIfs = 2 ∧ r.HoldsAll [lo0Record, em0Record] := by
  refine ifreq_returns_all [lo0Record, em0Record] (fun _ _ => rfl) (by decide) ?_
    ⟨0, by decide, by decide⟩ (.inr (by decide)) (fun _ => rfl) ⟨0, fun _ _ => rfl⟩
    (Nat.le_refl _)
  intro r hr tail
  simp only [List.mem_cons, List.not_mem_nil, or_false] at hr
  obtain rfl | rfl := hr <;> rfl

/-! ### Failures -/

/-- `__ifreq` ends cleanly. It closes the sockets that it opened, it returns a block with as many
records as it says, and nothing else is left. -/
def FailsCleanly (env : IfreqEnv) (heap : Heap UInt8) (sockfd : Int) :
    Outcome IfreqResult → Prop
  | .returned r =>
      r.closed = openedSockets env sockfd ∧
        match r.ifreqs with
        | none => r.numIfs = 0 ∧ r.heap = heap
        | some q => ∃ recs, Records env recs ∧ recs.length = r.numIfs ∧ heap q = none ∧
            r.heap = heap.store q (recs.flatten.map some)
  | _ => False

/-- No call of `realloc` fails that gets a block: neither that of a later round nor, with records
in the buffer, the last one. Nor does `rq_len` overflow. -/
structure KeepsBuffer (env : IfreqEnv) : Prop where
  enlarge : ∀ k, Reaches env (k + 1) → env.fails (k + 1) = false
  shrink : ∀ k bytes, Reaches env k → env.fails k = false →
    env.siocgifconf k (rqLenAt k) = some bytes → bytes.length + RQ_MAXSIZE ≤ rqLenAt k →
    bytes ≠ [] → env.fails (k + 1) = false
  overflow : ¬ Reaches env maxRounds

section Failures

variable {env : IfreqEnv} {base heap : Heap UInt8} {sockfd : Int} {k : Nat}

/-- A loop does not go past the round in which it stops. -/
theorem Stops.le_of_reaches {j : Nat} (hstops : Stops env k) (hreaches : Reaches env j) :
    j ≤ k := by
  by_contra hgt
  exact hstops.2 (hreaches k (Nat.not_le.mp hgt))

/-- What the condition says if the loop ends in the round `k`. -/
theorem keepsBuffer_iff (hstops : Stops env k) (hk : k < maxRounds) :
    KeepsBuffer env ↔ (k ≠ 0 → env.fails k = false) ∧
      ∀ bytes, env.fails k = false → env.siocgifconf k (rqLenAt k) = some bytes → bytes ≠ [] →
        env.fails (k + 1) = false := by
  constructor
  · intro h
    refine ⟨fun hne => ?_, fun bytes hfails hioctl hbytes => ?_⟩
    · -- The last round is reached, so its `realloc` counts.
      obtain ⟨j, rfl⟩ := Nat.exists_eq_succ_of_ne_zero hne
      exact h.enlarge j hstops.1
    · refine h.shrink k bytes hstops.1 hfails hioctl (Nat.not_lt.mp fun hfull => ?_) hbytes
      exact hstops.2 ⟨hfails, bytes, hioctl, hfull⟩
  · rintro ⟨henlarge, hshrink⟩
    refine ⟨fun j hreaches => ?_, fun j bytes hreaches hfails hioctl hroom hbytes => ?_,
      fun hreaches => ?_⟩
    · by_cases hjk : j + 1 = k
      · rw [hjk]
        exact henlarge (by omega)
      · have hle := hstops.le_of_reaches hreaches
        exact (hstops.1 (j + 1) (by omega)).1
    · by_cases hjk : j = k
      · subst hjk
        exact hshrink bytes hfails hioctl hbytes
      · -- in front of the last round there is no room
        have hle := hstops.le_of_reaches hreaches
        obtain ⟨-, bytes', hioctl', hfull⟩ := hstops.1 j (by omega)
        rw [hioctl, Option.some.injEq] at hioctl'
        subst hioctl'
        omega
    · have hle := hstops.le_of_reaches hreaches
      omega

/-- Behind the loop, `__ifreq` ends cleanly unless it loses the block with the records. -/
theorem finishIfreq_clean_iff {q round : Nat} {recs : List (List UInt8)} {rest : Block UInt8}
    (hbase : base.Finite) (hrecs : Records env recs)
    (hext : base.Extends heap (some q) (recs.flatten.map some ++ rest)) :
    FailsCleanly env base sockfd (finishIfreq env (openedSockets env sockfd) round q
        recs.flatten.length heap) ↔
      (recs.flatten ≠ [] → env.fails (round + 1) = false) := by
  obtain ⟨hnil, hfinish⟩ | ⟨hne, hfails, hfinish⟩ | ⟨-, hfails, q', heap', hfinish, hext'⟩ :=
    finishIfreq_cases hbase hrecs hext (openedSockets env sockfd) round
  · rw [hfinish]
    refine iff_of_true ⟨rfl, ?_, rfl⟩ fun hne => absurd hnil hne
    rw [hrecs.eq_nil hnil]
    rfl
  · rw [hfinish]
    refine iff_of_false (fun hclean => ?_) fun hkeeps => ?_
    · have hlost := hext.eq_base_iff.mp hclean.2.2
      cases hlost
    · rw [hkeeps hne] at hfails
      cases hfails
  · rw [hfinish]
    refine iff_of_true ⟨rfl, recs, hrecs, rfl, ?_⟩ fun _ => hfails
    cases hext' with
    | block hunused => exact ⟨hunused, rfl⟩

/-- The function is clean exactly when no `realloc` fails after the first. -/
theorem failsCleanly_iff_keepsBuffer {fuel : Nat} (hkernel : StoresRecords env)
    (hsocket : HasSocket env sockfd) (hheap : heap.Finite) (hfuel : maxRounds ≤ fuel) :
    FailsCleanly env heap sockfd (ifreq env fuel heap sockfd) ↔ KeepsBuffer env := by
  have hend := forever_enlargeTurn_start hkernel hheap hfuel
  rw [ifreq_of_hasSocket hsocket]
  generalize forever (enlargeTurn env) fuel _ = left at hend
  cases hend with
  | @noMemory k s b hstops hk hfails hext hfirst =>
      -- Only in the first round there is no block to lose.
      have hclean : FailsCleanly env heap sockfd
          (.returned ⟨none, 0, s.heap, openedSockets env sockfd⟩) ↔ k = 0 :=
        ⟨fun h => hfirst.mp (hext.eq_base_iff.mp h.2.2),
          fun h => ⟨rfl, rfl, hext.eq_base_iff.mpr (hfirst.mpr h)⟩⟩
      rw [keepsBuffer_iff hstops hk]
      refine hclean.trans ⟨fun hzero => ⟨absurd hzero, fun _ hnot => ?_⟩, fun h => ?_⟩
      · rw [hfails] at hnot
        cases hnot
      · by_contra hne
        rw [h.1 hne] at hfails
        cases hfails
  | @noRecords k s hstops hk hfails hnone =>
      rw [keepsBuffer_iff hstops hk]
      refine iff_of_true ⟨rfl, rfl, rfl⟩ ⟨fun _ => hfails, fun bytes _ hsome => ?_⟩
      rw [hnone] at hsome
      cases hsome
  | @filled k q s bytes rest heap' hstops hk hfails hioctl hround hext =>
      obtain ⟨-, recs, hbytes, hrecs⟩ := hkernel k _ _ hioctl
      subst hbytes
      rw [keepsBuffer_iff hstops hk]
      refine (finishIfreq_clean_iff hheap hrecs hext).trans
        ⟨fun h => ⟨fun _ => hfails, fun bytes _ hsome hne => ?_⟩, fun h hne => ?_⟩
      · rw [hioctl, Option.some.injEq] at hsome
        subst hsome
        rw [← hround]
        exact h hne
      · rw [hround]
        exact h.2 _ hfails hioctl hne
  | overflow hreaches => exact iff_of_false id fun h => h.overflow hreaches

/-- `__ifreq` fails cleanly, in any round, if it keeps the buffer. If a call of `realloc` fails
that gets the buffer, the buffer is lost. -/
theorem ifreq_clean_iff {fuel : Nat} (hkernel : StoresRecords env) (hheap : heap.Finite)
    (hfuel : maxRounds ≤ fuel) :
    FailsCleanly env heap sockfd (ifreq env fuel heap sockfd) ↔
      (HasSocket env sockfd → KeepsBuffer env) := by
  by_cases hsocket : HasSocket env sockfd
  · rw [failsCleanly_iff_keepsBuffer hkernel hsocket hheap hfuel]
    exact ⟨fun h _ => h, fun h => h hsocket⟩
  · rw [ifreq_of_not_hasSocket hsocket]
    exact iff_of_true ⟨rfl, rfl, rfl⟩ fun h => absurd h hsocket

end Failures

/-- The kernel of the interface `em0`, any number of times. -/
theorem storesRecords_em0 (n : Nat) (fails : Nat → Bool) :
    StoresRecords (kernelOfRecords (List.replicate n em0Record) fails) := by
  refine storesRecords_fitting (fun _ _ => rfl) fun r hr => ?_
  rw [List.eq_of_mem_replicate hr]
  exact ⟨by decide, fun _ => rfl⟩

/-- One interface, and no `realloc` fails. -/
theorem ifreq_clean_iff_em0 :
    FailsCleanly (kernelOfRecords [em0Record] fun _ => false) (fun _ => none) (-1)
      (ifreq (kernelOfRecords [em0Record] fun _ => false) maxRounds (fun _ => none) (-1)) := by
  refine (ifreq_clean_iff (storesRecords_em0 1 _) ⟨0, fun _ _ => rfl⟩ (Nat.le_refl _)).mpr
    fun _ => ⟨fun _ _ => rfl, fun _ _ _ _ _ _ _ => rfl, fun hreaches => ?_⟩
  obtain ⟨-, bytes, hbytes, hfull⟩ := hreaches 0 (by decide)
  cases hbytes
  exact absurd hfull (by decide)

/-- The call number 1 of `realloc` fails. With 24 records of `em0` it is that of the second round,
with one record it is the last one. -/
theorem ifreq_loses_buffer :
    ¬ FailsCleanly (kernelOfRecords (List.replicate 24 em0Record) (· == 1)) (fun _ => none) (-1)
        (ifreq (kernelOfRecords (List.replicate 24 em0Record) (· == 1)) maxRounds
          (fun _ => none) (-1)) ∧
      ¬ FailsCleanly (kernelOfRecords [em0Record] (· == 1)) (fun _ => none) (-1)
        (ifreq (kernelOfRecords [em0Record] (· == 1)) maxRounds (fun _ => none) (-1)) := by
  have hsocket : ∀ recs, HasSocket (kernelOfRecords recs (· == 1)) (-1) := fun _ =>
    .inr (by decide : (0 : Int) ≤ 3)
  refine ⟨fun hclean => ?_, fun hclean => ?_⟩
  · have hkeeps := (failsCleanly_iff_keepsBuffer (storesRecords_em0 24 _) (hsocket _)
      ⟨0, fun _ _ => rfl⟩ (Nat.le_refl _)).mp hclean
    have hlen : (List.replicate 24 em0Record).flatten.length = rqLenAt 0 := by
      rw [List.length_flatten, List.map_replicate, List.sum_replicate_nat]
      rfl
    have hfails := hkeeps.enlarge 0 fun j hj => by
      have hzero : j = 0 := by omega
      subst hzero
      refine ⟨rfl, _, rfl, ?_⟩
      rw [fitting_of_le (Nat.le_of_eq hlen), hlen]
      decide
    cases hfails
  · have hkeeps := (failsCleanly_iff_keepsBuffer (storesRecords_em0 1 _) (hsocket _)
      ⟨0, fun _ _ => rfl⟩ (Nat.le_refl _)).mp hclean
    have hfails := hkeeps.shrink 0 em0Record (fun j hj => by omega) rfl rfl (by decide)
      (by decide)
    cases hfails

end GlibcPorts.Interfaces
