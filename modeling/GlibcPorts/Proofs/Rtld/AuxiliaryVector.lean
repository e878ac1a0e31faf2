import GlibcPorts.Rtld.AuxiliaryVector

/-!
# `GlibcPorts.Proofs.Rtld.AuxiliaryVector`: the start of a program

`overAuxv_eq_some_iff` reduces the loops over the vector to a fold over the entries in front of
`AT_NULL`, and `foldl_lastEntry` says what the fold leaves in each variable. With these and the
lemmas on the break (`restOfPage`, `pageEnd`) comes `dlSysdepStart_spec`, for any vector.
`start_kernelAuxv` is about a vector that the kernel filled in: it is read back.
-/

set_option autoImplicit false

namespace GlibcPorts.Rtld

open Lib

section Start

variable {abi : Abi}

/-! ### The loops -/

/-- A loop ends if and only if there is an entry `AT_NULL`, and it goes over what is in front of
the first one. -/
theorem overAuxv_eq_some_iff {σ : Type} (body : σ → Auxv abi → σ) (auxv : List (Auxv abi))
    (s t : σ) :
    overAuxv body auxv s = some t ↔ ∃ entries last rest, auxv = entries ++ last :: rest
      ∧ (∀ av ∈ entries, ¬ av.is AT_NULL) ∧ last.is AT_NULL ∧ entries.foldl body s = t := by
  induction auxv generalizing s with
  | nil => simp [overAuxv]
  | cons av auxv ih =>
      rw [overAuxv]
      by_cases hnull : av.is AT_NULL
      · rw [if_pos hnull]
        constructor
        · intro h
          exact ⟨[], av, auxv, rfl, List.forall_mem_nil _, hnull, Option.some.inj h⟩
        · rintro ⟨entries, last, rest, heq, hentries, -, hfold⟩
          cases entries with
          | nil => exact congrArg some hfold
          | cons x entries =>
              cases heq
              exact absurd hnull (hentries _ List.mem_cons_self)
      · rw [if_neg hnull, ih]
        constructor
        · rintro ⟨entries, last, rest, rfl, hentries, hlast, hfold⟩
          exact ⟨av :: entries, last, rest, rfl,
            List.forall_mem_cons.mpr ⟨hnull, hentries⟩, hlast, hfold⟩
        · rintro ⟨entries, last, rest, heq, hentries, hlast, hfold⟩
          cases entries with
          | nil =>
              cases heq
              exact absurd hlast hnull
          | cons x entries =>
              cases heq
              exact ⟨entries, last, rest, rfl, (List.forall_mem_cons.mp hentries).2, hlast,
                hfold⟩

/-- A loop runs over the end if and only if there is no entry `AT_NULL`. -/
theorem overAuxv_eq_none_iff {σ : Type} (body : σ → Auxv abi → σ) (auxv : List (Auxv abi))
    (s : σ) : overAuxv body auxv s = none ↔ ∀ av ∈ auxv, ¬ av.is AT_NULL := by
  induction auxv generalizing s with
  | nil => simp [overAuxv]
  | cons av auxv ih =>
      rw [overAuxv, List.forall_mem_cons]
      by_cases hnull : av.is AT_NULL
      · rw [if_pos hnull]
        exact ⟨fun h => (nomatch h), fun h => absurd hnull h.1⟩
      · rw [if_neg hnull, ih]
        exact ⟨fun h => ⟨hnull, h⟩, fun h => h.2⟩

/-- A loop over entries with an entry `AT_NULL` behind them. -/
theorem overAuxv_append {σ : Type} (body : σ → Auxv abi → σ) {entries : List (Auxv abi)}
    {last : Auxv abi} (rest : List (Auxv abi)) (hentries : ∀ av ∈ entries, ¬ av.is AT_NULL)
    (hlast : last.is AT_NULL) (s : σ) :
    overAuxv body (entries ++ last :: rest) s = some (entries.foldl body s) :=
  (overAuxv_eq_some_iff body _ s _).mpr ⟨entries, last, rest, rfl, hentries, hlast, rfl⟩

/-- An entry has one type. -/
theorem is_eq {av : Auxv abi} {tag : Nat} (h : av.is tag) (tag' : Nat) :
    av.is tag' = decide (tag = tag') := by
  rw [Auxv.is, decide_eq_true_eq] at h
  rw [Auxv.is, h]

/-- One entry sets the variable of its type and no other. -/
theorem StartVars.set_eq (vars : StartVars abi) (av : Auxv abi) :
    vars.set av =
      { phdr := if av.is AT_PHDR then av.a_val else vars.phdr
        phnum := if av.is AT_PHNUM then av.a_val.setWidth 32 else vars.phnum
        dl_pagesize := if av.is AT_PAGESZ then av.a_val else vars.dl_pagesize
        user_entry := if av.is AT_ENTRY then av.a_val else vars.user_entry
        selfName := if av.is AT_EXECPATH then av.a_val else vars.selfName } := by
  unfold StartVars.set
  by_cases hphdr : av.is AT_PHDR
  · simp only [is_eq hphdr]
    rfl
  by_cases hphnum : av.is AT_PHNUM
  · simp only [is_eq hphnum]
    rfl
  by_cases hpagesz : av.is AT_PAGESZ
  · simp only [is_eq hpagesz]
    rfl
  by_cases hentry : av.is AT_ENTRY
  · simp only [is_eq hentry]
    rfl
  by_cases hpath : av.is AT_EXECPATH
  · simp only [is_eq hpath]
    rfl
  simp [hphdr, hphnum, hpagesz, hentry, hpath]

/-- What the loop of `_dl_sysdep_start` leaves. -/
theorem foldl_set (entries : List (Auxv abi)) (vars : StartVars abi) :
    entries.foldl StartVars.set vars =
      { phdr := lastValue AT_PHDR entries vars.phdr
        phnum := ((lastEntry (Auxv.is AT_PHNUM) entries).map
          fun av => av.a_val.setWidth 32).getD vars.phnum
        dl_pagesize := lastValue AT_PAGESZ entries vars.dl_pagesize
        user_entry := lastValue AT_ENTRY entries vars.user_entry
        selfName := lastValue AT_EXECPATH entries vars.selfName } := by
  show StartVars.mk _ _ _ _ _ = _
  congr 1
  · exact foldl_lastEntry StartVars.phdr (fun s x => by rw [StartVars.set_eq]) entries vars
  · exact foldl_lastEntry StartVars.phnum (fun s x => by rw [StartVars.set_eq]) entries vars
  · exact foldl_lastEntry StartVars.dl_pagesize (fun s x => by rw [StartVars.set_eq]) entries vars
  · exact foldl_lastEntry StartVars.user_entry (fun s x => by rw [StartVars.set_eq]) entries vars
  · exact foldl_lastEntry StartVars.selfName (fun s x => by rw [StartVars.set_eq]) entries vars

/-- The program header count is a `Word`. -/
theorem getD_phnum (entries : List (Auxv abi)) :
    ((lastEntry (Auxv.is AT_PHNUM) entries).map fun av => av.a_val.setWidth 32).getD 0
      = (lastValue AT_PHNUM entries 0).setWidth 32 := by
  unfold lastValue
  cases lastEntry (Auxv.is AT_PHNUM) entries with
  | none => simp
  | some av => rfl

/-! ### The break -/

/-- The page size that the linker goes on with. -/
def pageSize (e : StartEnv abi) (entries : List (Auxv abi)) : BitVec abi.longBits :=
  if lastValue AT_PAGESZ entries e.dl_pagesize = 0 then e.getpagesize
  else lastValue AT_PAGESZ entries e.dl_pagesize

/-- With a power of two as the page size, what is left of the page of `_end`. -/
theorem restOfPage {w k : Nat} (hk : k < w) {page bss : BitVec w} (hpage : page.toNat = 2 ^ k) :
    (page - (bss &&& (page - 1))).toNat = 2 ^ k - bss.toNat % 2 ^ k := by
  have hpos := Nat.two_pow_pos k
  have hmask : page - 1 = lowMask w k := by
    apply BitVec.eq_of_toNat_eq
    have hone : (1 : BitVec w).toNat = 1 := by
      show 1 % 2 ^ w = 1
      exact Nat.mod_eq_of_lt (Nat.one_lt_two_pow (by omega))
    have hle : (1 : BitVec w) ≤ page := by
      show (1 : BitVec w).toNat ≤ page.toNat
      omega
    rw [BitVec.toNat_sub_of_le hle, hpage, hone, lowMask, BitVec.toNat_ofNat]
    exact (Nat.mod_eq_of_lt (Nat.lt_of_le_of_lt (Nat.sub_le _ _) (hpage ▸ page.isLt))).symm
  have hlow : (bss &&& (page - 1)).toNat = bss.toNat % 2 ^ k := by
    rw [hmask, toNat_and_lowMask (Nat.le_of_lt hk)]
  have hmod := Nat.mod_lt bss.toNat hpos
  have hle : bss &&& (page - 1) ≤ page := by
    show (bss &&& (page - 1)).toNat ≤ page.toNat
    omega
  rw [BitVec.toNat_sub_of_le hle, hlow, hpage]

/-- Behind it is the first page boundary above `_end`. -/
theorem pageEnd (k n : Nat) :
    2 ^ k ∣ n + (2 ^ k - n % 2 ^ k) ∧ n < n + (2 ^ k - n % 2 ^ k) ∧
      n + (2 ^ k - n % 2 ^ k) ≤ n + 2 ^ k := by
  have hmod := Nat.mod_lt n (Nat.two_pow_pos k)
  have hdiv := Nat.div_add_mod n (2 ^ k)
  refine ⟨⟨n / 2 ^ k + 1, ?_⟩, by omega, by omega⟩
  rw [Nat.mul_succ]
  omega

/-! ### The start of the dynamic linker -/

/-- What the start leaves behind the entries in front of `AT_NULL`: the last value of each type, and
the flag for a program with foreign rights. -/
structure StartsWith (e : StartEnv abi) (entries : List (Auxv abi)) (s : Started abi) : Prop where
  phdr : s.vars.phdr = lastValue AT_PHDR entries 0
  phnum : s.vars.phnum = (lastValue AT_PHNUM entries 0).setWidth 32
  dl_pagesize : s.vars.dl_pagesize = pageSize e entries
  user_entry : s.vars.user_entry = lastValue AT_ENTRY entries e.entryPoint
  selfName : s.vars.selfName = lastValue AT_EXECPATH entries e.selfName
  secure : s.libc_enable_secure ≠ 0 ↔ e.getuid ≠ e.geteuid ∨ e.getgid ≠ e.getegid
  checked : s.checkedStandardFds ↔ s.libc_enable_secure ≠ 0
  result : s.result = e.dl_main s.vars.phdr s.vars.phnum s.vars.user_entry

/-- The start asks the kernel to move the break from `_end` up to a page boundary, by at most one
page. If the kernel refuses, the break stays at `_end`. -/
def BreakAtPage (e : StartEnv abi) (entries : List (Auxv abi)) (s : Started abi) : Prop :=
  ∀ k, k + 1 < abi.longBits → (pageSize e entries).toNat = 2 ^ k →
    e.endOfBss.toNat + 2 ^ k < 2 ^ abi.longBits →
    ∃ addr, 2 ^ k ∣ addr.toNat ∧ e.endOfBss.toNat < addr.toNat ∧
      addr.toNat ≤ e.endOfBss.toNat + 2 ^ k ∧
      s.brk = if e.obreak addr then ⟨addr, e.errno⟩ else ⟨e.endOfBss, ENOMEM⟩

/-- Two pairs of numbers, with the differing bits of each in one word. -/
theorem secure_iff (uid euid gid egid : BitVec 32) :
    (0 ^^^ uid ^^^ euid) ||| (0 ^^^ gid ^^^ egid) ≠ 0 ↔ uid ≠ euid ∨ gid ≠ egid := by
  show ¬ (0#32 ^^^ uid ^^^ euid) ||| (0#32 ^^^ gid ^^^ egid) = 0#32 ↔ _
  rw [BitVec.or_eq_zero_iff, not_and_or, BitVec.zero_xor, BitVec.zero_xor,
    BitVec.xor_eq_zero_iff, BitVec.xor_eq_zero_iff]

/-- The break behind the two calls of `__sbrk`. -/
def brkOf (e : StartEnv abi) (entries : List (Auxv abi)) : BreakState abi :=
  if (e.sbrk ⟨e.endOfBss, e.errno⟩ 0).2 = e.endOfBss then
    (e.sbrk (e.sbrk ⟨e.endOfBss, e.errno⟩ 0).1
      (pageSize e entries - (e.endOfBss &&& (pageSize e entries - 1)))).1
  else (e.sbrk ⟨e.endOfBss, e.errno⟩ 0).1

/-- The start of the dynamic linker goes by the entries in front of `AT_NULL`. -/
theorem dlSysdepStart_append (e : StartEnv abi) {entries : List (Auxv abi)} {last : Auxv abi}
    (rest : List (Auxv abi)) (hentries : ∀ av ∈ entries, ¬ av.is AT_NULL)
    (hlast : last.is AT_NULL) :
    ∃ s, dlSysdepStart e (entries ++ last :: rest) = some s ∧ StartsWith e entries s ∧
      s.brk = brkOf e entries := by
  have hloop := overAuxv_append StartVars.set rest hentries hlast
    ⟨0, 0, e.dl_pagesize, e.entryPoint, e.selfName⟩
  rw [foldl_set, getD_phnum] at hloop
  refine ⟨_, by rw [dlSysdepStart, hloop]; rfl, ?_, rfl⟩
  constructor
  · rfl
  · rfl
  · rfl
  · rfl
  · rfl
  · exact secure_iff _ _ _ _
  · exact decide_eq_true_iff
  · rfl

/-- The break starts at `_end`, so the test of the first call of `__sbrk` always holds. -/
theorem breakAtPage {e : StartEnv abi} (he : e.SbrkWorks) {entries : List (Auxv abi)}
    {s : Started abi} (hs : s.brk = brkOf e entries) : BreakAtPage e entries s := by
  intro k hk hpage hroom
  have hpos := Nat.two_pow_pos k
  have hmod := Nat.mod_lt e.endOfBss.toNat hpos
  have hrest : (pageSize e entries - (e.endOfBss &&& (pageSize e entries - 1))).toNat =
      2 ^ k - e.endOfBss.toNat % 2 ^ k := restOfPage (by omega) hpage
  obtain ⟨hdvd, hlt, hle⟩ := pageEnd k e.endOfBss.toNat
  generalize hinc : pageSize e entries - (e.endOfBss &&& (pageSize e entries - 1)) = increment
    at hrest
  have hhalf : 2 ^ k * 2 ≤ 2 ^ (abi.longBits - 1) := by
    rw [← Nat.pow_succ]
    exact Nat.pow_le_pow_right (by decide) (by omega)
  have hpositive : 0 < increment.toInt := by
    rw [BitVec.toInt_eq_toNat_of_lt]
    · omega
    · have hbits : 2 ^ abi.longBits = 2 * 2 ^ (abi.longBits - 1) := by
        rw [← Nat.pow_succ']
        congr 1
        omega
      omega
  have hsum : (e.endOfBss + increment).toNat =
      e.endOfBss.toNat + (2 ^ k - e.endOfBss.toNat % 2 ^ k) := by
    rw [BitVec.toNat_add, hrest, Nat.mod_eq_of_lt (by omega)]
  refine ⟨e.endOfBss + increment, by rw [hsum]; exact hdvd, by omega, by omega, ?_⟩
  have hup : ¬ e.endOfBss + increment < e.endOfBss := by
    rw [BitVec.lt_def]
    omega
  have hsmall : e.endOfBss.toNat + increment.toNat < 2 ^ abi.longBits := by omega
  rw [hs, brkOf, he.zero, if_pos rfl, hinc, he.moves _ _ hpositive hsmall]
  show (brk e.endOfBss e.obreak _ _).1 = _
  rw [brk, if_neg hup]
  split <;> rfl

/-! ### The vector of the kernel -/

/-- The type of an entry that the kernel makes. -/
theorem is_auxargsEntry {tag : Nat} (htag : tag < 2 ^ 32) (val : BitVec abi.longBits) (tag' : Nat) :
    (auxargsEntry tag val).is tag' = decide (tag = tag') := by
  have hbits : 2 ^ 32 ≤ 2 ^ abi.longBits := by cases abi <;> decide
  rw [Auxv.is, auxargsEntry, BitVec.toNat_ofNat, Nat.mod_eq_of_lt (by omega)]

/-- Only the last entry of the kernel is `AT_NULL`. -/
theorem kernelEntries_ne_null (args : ImageArgs abi) :
    ∀ av ∈ kernelEntries args, ¬ av.is AT_NULL := by
  have hne : ∀ tag < 2 ^ 32, tag ≠ AT_NULL → ∀ val : BitVec abi.longBits,
      ¬ (auxargsEntry tag val).is AT_NULL := by
    intro tag htag hnull val
    rw [is_auxargsEntry htag, decide_eq_true_eq]
    exact hnull
  intro av hav
  rw [kernelEntries, List.mem_append, List.mem_append] at hav
  rcases hav with (hav | hav) | hav
  · obtain ⟨fd, -, rfl⟩ := Option.map_eq_some_iff.mp (Option.mem_toList.mp hav)
    exact hne _ (by decide) (by decide) _
  · simp only [List.mem_cons, List.not_mem_nil, or_false] at hav
    rcases hav with rfl | rfl | rfl | rfl | rfl | rfl | rfl <;>
      exact hne _ (by decide) (by decide) _
  · split at hav
    · rw [List.mem_singleton] at hav
      exact hav ▸ hne _ (by decide) (by decide) _
    · cases hav

/-- The values of the kernel are the last ones of their types. -/
theorem lastValue_kernelEntries (args : ImageArgs abi) (default : BitVec abi.longBits) :
    lastValue AT_PHDR (kernelEntries args) default = args.phdr
    ∧ lastValue AT_PHNUM (kernelEntries args) default = args.phnum
    ∧ lastValue AT_PAGESZ (kernelEntries args) default = args.pagesz
    ∧ lastValue AT_ENTRY (kernelEntries args) default = args.entry
    ∧ lastValue AT_EXECPATH (kernelEntries args) default
      = if args.execpathp ≠ 0 then args.execpathp else default := by
  unfold lastValue kernelEntries
  by_cases hpath : args.execpathp ≠ 0
  · rw [if_pos hpath, if_pos hpath]
    cases args.execfd <;>
      simp (disch := decide) only [Option.map, Option.toList, List.nil_append, List.cons_append,
        lastEntry, is_auxargsEntry] <;>
      exact ⟨rfl, rfl, rfl, rfl, rfl⟩
  · rw [if_neg hpath, if_neg hpath]
    cases args.execfd <;>
      simp (disch := decide) only [Option.map, Option.toList, List.nil_append, List.cons_append,
        List.append_nil, lastEntry, is_auxargsEntry] <;>
      exact ⟨rfl, rfl, rfl, rfl, rfl⟩

/-! ### A static program -/

/-- One entry sets the variable of its type and no other. -/
theorem AuxInit.set_eq (s : AuxInit abi) (av : Auxv abi) :
    s.set av =
      { dl_pagesize := if av.is AT_PAGESZ then av.a_val else s.dl_pagesize
        dl_phdr := if av.is AT_PHDR then av.a_val else s.dl_phdr
        dl_phnum := if av.is AT_PHNUM then av.a_val else s.dl_phnum } := by
  unfold AuxInit.set
  by_cases hpagesz : av.is AT_PAGESZ
  · simp only [is_eq hpagesz]
    rfl
  by_cases hphdr : av.is AT_PHDR
  · simp only [is_eq hphdr]
    rfl
  by_cases hphnum : av.is AT_PHNUM
  · simp only [is_eq hphnum]
    rfl
  simp [hphdr, hphnum, hpagesz]

/-- What the loop of `_dl_aux_init` leaves. -/
theorem foldl_auxInit (entries : List (Auxv abi)) (s : AuxInit abi) :
    entries.foldl AuxInit.set s =
      { dl_pagesize := lastValue AT_PAGESZ entries s.dl_pagesize
        dl_phdr := lastValue AT_PHDR entries s.dl_phdr
        dl_phnum := lastValue AT_PHNUM entries s.dl_phnum } := by
  show AuxInit.mk _ _ _ = _
  congr 1
  · exact foldl_lastEntry AuxInit.dl_pagesize (fun s x => by rw [AuxInit.set_eq]) entries s
  · exact foldl_lastEntry AuxInit.dl_phdr (fun s x => by rw [AuxInit.set_eq]) entries s
  · exact foldl_lastEntry AuxInit.dl_phnum (fun s x => by rw [AuxInit.set_eq]) entries s

/-! ### Both starts -/

/-- A vector without an entry `AT_NULL` runs both starts over its end. For any other vector they go
by the entries in front of the first one: the dynamic linker as `StartsWith` and `BreakAtPage` say,
and a static program with the last values of the three types that it asks for. -/
theorem dlSysdepStart_spec (e : StartEnv abi) (he : e.SbrkWorks) (init : AuxInit abi)
    (auxv : List (Auxv abi)) :
    ((∀ av ∈ auxv, ¬ av.is AT_NULL) ∧ dlSysdepStart e auxv = none ∧ dlAuxInit init auxv = none)
    ∨ ∃ entries last rest s, auxv = entries ++ last :: rest
      ∧ (∀ av ∈ entries, ¬ av.is AT_NULL) ∧ last.is AT_NULL
      ∧ dlSysdepStart e auxv = some s ∧ StartsWith e entries s ∧ BreakAtPage e entries s
      ∧ dlAuxInit init auxv = some
        { dl_pagesize := lastValue AT_PAGESZ entries init.dl_pagesize
          dl_phdr := lastValue AT_PHDR entries init.dl_phdr
          dl_phnum := lastValue AT_PHNUM entries init.dl_phnum } := by
  cases hloop : overAuxv AuxInit.set auxv init with
  | none =>
      have hall := (overAuxv_eq_none_iff _ _ _).mp hloop
      have hstart := (overAuxv_eq_none_iff StartVars.set auxv
        ⟨0, 0, e.dl_pagesize, e.entryPoint, e.selfName⟩).mpr hall
      refine .inl ⟨hall, ?_, hloop⟩
      rw [dlSysdepStart, hstart]
      rfl
  | some _ =>
      obtain ⟨entries, last, rest, rfl, hentries, hlast, -⟩ :=
        (overAuxv_eq_some_iff _ _ _ _).mp hloop
      obtain ⟨s, hstart, hs, hbrk⟩ := dlSysdepStart_append e rest hentries hlast
      refine .inr ⟨entries, last, rest, s, rfl, hentries, hlast, hstart, hs,
        breakAtPage he hbrk, ?_⟩
      rw [dlAuxInit, overAuxv_append AuxInit.set rest hentries hlast, foldl_auxInit]

/-- A linker whose `_end` is 0x1234, on a kernel that moves the break. -/
def linker : StartEnv .lp64 where
  getuid := 1000
  geteuid := 1000
  getgid := 1000
  getegid := 1000
  getpagesize := 4096
  dl_pagesize := 0
  selfName := 0
  errno := 0
  entryPoint := 0x1000
  endOfBss := 0x1234
  obreak _ := true
  sbrk s increment :=
    if increment = 0 then (s, s.curbrk)
    else ((brk 0x1234 (fun _ => true) s (s.curbrk + increment)).1, s.curbrk)
  dl_main _ _ entry := entry

theorem linker_sbrkWorks : linker.SbrkWorks where
  zero _ := rfl
  moves s increment hpos _ := by
    have hne : increment ≠ 0 := by
      rintro rfl
      exact absurd hpos (by decide)
    have hmoved : (brk linker.endOfBss linker.obreak s (s.curbrk + increment)).2 = true := by
      unfold brk
      split <;> rfl
    show (if increment = 0 then _ else _) = _
    rw [if_neg hne]
    simp only [hmoved, if_true]
    rfl

/-- The linker moves its break to the next page. -/
theorem dlSysdepStart_spec_page :
    ∃ s entries, dlSysdepStart linker [⟨6, 4096⟩, ⟨0, 0⟩] = some s ∧ s.brk.curbrk = 0x2000 ∧
      StartsWith linker entries s ∧ BreakAtPage linker entries s := by
  rcases dlSysdepStart_spec linker linker_sbrkWorks ⟨0, 0, 0⟩ [⟨6, 4096⟩, ⟨0, 0⟩] with
    ⟨hnull, -⟩ | ⟨entries, -, -, s, -, -, -, hstart, hs, hbrk, -⟩
  · exact absurd rfl (hnull ⟨0, 0⟩ (by decide))
  · have hmoved : (dlSysdepStart linker [⟨6, 4096⟩, ⟨0, 0⟩]).map (fun s => s.brk.curbrk) =
        some 0x2000 := by decide
    rw [hstart] at hmoved
    exact ⟨s, entries, hstart, Option.some.inj hmoved, hs, hbrk⟩

/-- What the kernel puts into the vector is what both starts find in it, whatever lies behind the
vector. -/
theorem start_kernelAuxv (e : StartEnv abi) (init : AuxInit abi) (args : ImageArgs abi)
    (rest : List (Auxv abi)) :
    ∃ s, dlSysdepStart e (kernelAuxv args ++ rest) = some s
      ∧ s.vars.phdr = args.phdr ∧ s.vars.phnum = args.phnum.setWidth 32
      ∧ s.vars.dl_pagesize = (if args.pagesz = 0 then e.getpagesize else args.pagesz)
      ∧ s.vars.user_entry = args.entry
      ∧ s.vars.selfName = (if args.execpathp ≠ 0 then args.execpathp else e.selfName)
      ∧ s.result = e.dl_main args.phdr (args.phnum.setWidth 32) args.entry
      ∧ dlAuxInit init (kernelAuxv args ++ rest) = some
        { dl_pagesize := args.pagesz, dl_phdr := args.phdr, dl_phnum := args.phnum } := by
  have hlast : (auxargsEntry AT_NULL (0 : BitVec abi.longBits)).is AT_NULL := by
    rw [is_auxargsEntry (by decide)]
    rfl
  have hentries := kernelEntries_ne_null args
  obtain ⟨s, hstart, hs, -⟩ := dlSysdepStart_append e rest hentries hlast
  have happend : kernelAuxv args ++ rest
      = kernelEntries args ++ auxargsEntry AT_NULL 0 :: rest := by
    rw [kernelAuxv, List.append_assoc, List.singleton_append]
  obtain ⟨hphdr, hnum, -⟩ := lastValue_kernelEntries args 0
  obtain ⟨-, -, hpagesz, -, -⟩ := lastValue_kernelEntries args e.dl_pagesize
  obtain ⟨-, -, -, hentry, -⟩ := lastValue_kernelEntries args e.entryPoint
  obtain ⟨-, -, -, -, hname⟩ := lastValue_kernelEntries args e.selfName
  refine ⟨s, by rw [happend, hstart], by rw [hs.phdr, hphdr], by rw [hs.phnum, hnum],
    by rw [hs.dl_pagesize, pageSize, hpagesz], by rw [hs.user_entry, hentry],
    by rw [hs.selfName, hname],
    by rw [hs.result, hs.phdr, hphdr, hs.phnum, hnum, hs.user_entry, hentry], ?_⟩
  rw [happend, dlAuxInit, overAuxv_append AuxInit.set rest hentries hlast, foldl_auxInit,
    (lastValue_kernelEntries args init.dl_pagesize).2.2.1,
    (lastValue_kernelEntries args init.dl_phdr).1, (lastValue_kernelEntries args _).2.1]

end Start

end GlibcPorts.Rtld
