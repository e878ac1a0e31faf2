import GlibcPorts.SystemName.Uname

/-!
# `GlibcPorts.Proofs.SystemName.Uname`: when the names that `uname` returns are terminated

`fetch_eq_some` says what an array holds behind a fetch: the first characters of the string of the
kernel, as many as the array has. A string that leaves no room for its NUL fills the array, and the
function returns 0 all the same (`fetched_iff`).

`tidyVersion_eq_some` is the result on the loops over the version. The trailing tabs, newlines
and blanks become NULs, so a version that fills its array is terminated when its last byte there is
one of these (`tidied_iff`).

`uname_clean_iff` puts the arrays together: all of them are terminated exactly if all the strings
fit (`Fits`).
-/

set_option autoImplicit false

namespace GlibcPorts.SystemName

open Lib
open Lib.CString (upToNul exists_eq_chars_append)

/-! ### A fetch -/

section Fetch

variable {n : Nat} {s : CString} {f g v : ByteField n}

/-- What was behind the bytes stays. -/
theorem bytes_overwrite (f : ByteField n) (bs : List UInt8) :
    (overwrite f bs).bytes = bs.take n ++ f.bytes.drop bs.length := rfl

/-- A string that fits is copied with its NUL. -/
theorem fetch_of_lt (f : ByteField n) (h : s.strlen < n) :
    ∃ g rest, fetch s f = some g ∧ g.bytes = s.bytes ++ rest := by
  have hlen : s.bytes.length = s.strlen + 1 := CString.length_bytes s
  have hfits : s.bytes.length ≤ n := by omega
  have hcopy : (overwrite f s.bytes).bytes = s.bytes ++ f.bytes.drop s.bytes.length := by
    rw [bytes_overwrite, List.take_of_length_le hfits]
  by_cases hroom : s.bytes.length < n
  · -- The code stores another NUL behind the one of the string.
    obtain ⟨g, hstore, hg⟩ :=
      @ByteField.store_of_le n (overwrite f s.bytes) s.bytes.length [0] hroom
    rw [hcopy, List.take_left, List.singleton_append] at hg
    refine ⟨g, _, ?_, hg⟩
    simp only [fetch, sysctlString, if_pos hfits, if_pos hroom]
    exact hstore
  · refine ⟨overwrite f s.bytes, _, ?_, hcopy⟩
    simp only [fetch, sysctlString, if_pos hfits, if_neg hroom]

/-- A string that does not fit fills the array. -/
theorem fetch_of_le (f : ByteField n) (h : n ≤ s.strlen) :
    ∃ g, fetch s f = some g ∧ g.bytes = s.chars.take n := by
  have hlen : s.bytes.length = s.strlen + 1 := CString.length_bytes s
  have hlong : ¬ s.bytes.length ≤ n := by omega
  refine ⟨overwrite f s.bytes, ?_, ?_⟩
  · simp only [fetch, sysctlString, if_neg hlong]
  · have hdrop : f.bytes.drop s.bytes.length = [] :=
      List.drop_eq_nil_of_le (by rw [f.length_bytes]; omega)
    rw [bytes_overwrite, hdrop, List.append_nil, CString.bytes]
    exact List.take_append_of_le_length h

/-- Behind a fetch the array holds the first characters of the string. -/
theorem fetch_eq_some (s : CString) (f : ByteField n) :
    ∃ g, fetch s f = some g ∧ g.str.chars = s.chars.take n := by
  by_cases h : s.strlen < n
  · obtain ⟨g, rest, hfetch, hg⟩ := fetch_of_lt f h
    refine ⟨g, hfetch, ?_⟩
    rw [ByteField.str, hg, CString.upToNul_bytes_append, List.take_of_length_le (Nat.le_of_lt h)]
  · obtain ⟨g, hfetch, hg⟩ := fetch_of_le f (Nat.not_lt.mp h)
    refine ⟨g, hfetch, ?_⟩
    have hnoNul : 0 ∉ s.chars.take n := fun hmem => s.noNul (List.mem_of_mem_take hmem)
    rw [ByteField.str, hg, CString.upToNul_eq_self_of_noNul hnoNul]

/-- The array is terminated, and it holds the string or a prefix of it. -/
def Fetched (s : CString) (f : ByteField n) : Prop := 0 ∈ f.bytes ∧ f.str.chars <+: s.chars

/-- All of the string arrives when the field is larger. -/
theorem fetched_iff (hg : g.str.chars = s.chars.take n) : Fetched s g ↔ s.strlen < n := by
  have hlen : g.str.strlen = min n s.strlen := by
    rw [CString.strlen, hg, List.length_take, CString.strlen]
  rw [Fetched, hg, ← ByteField.strlen_str_lt_iff, hlen, and_iff_left (List.take_prefix n s.chars)]
  omega

end Fetch

/-! ### The version -/

/-- A string without its trailing tabs, newlines and blanks, and with a blank in the place of each
other tab or newline. -/
def tidy (chars : List UInt8) : List UInt8 := (chars.rdropWhile isBlank).map turnBlank

section Version

variable {n : Nat} {s : CString} {g v : ByteField n}

/-- Nothing is added. -/
theorem length_tidy_le (chars : List UInt8) : (tidy chars).length ≤ chars.length := by
  have hsub : chars.rdropWhile isBlank <+: chars := List.rdropWhile_prefix isBlank chars
  rw [tidy, List.length_map]
  exact hsub.length_le

/-- The loops bring no NUL into a string. -/
theorem noNul_tidy (s : CString) : 0 ∉ tidy s.chars := by
  intro hmem
  obtain ⟨c, hc, hzero⟩ := List.mem_map.mp hmem
  have hsub : s.chars.rdropWhile isBlank <+: s.chars := List.rdropWhile_prefix isBlank _
  have hne : c ≠ 0 := by
    rintro rfl
    exact s.noNul (hsub.mem hc)
  unfold turnBlank at hzero
  split at hzero
  · exact absurd hzero (by decide)
  · exact hne hzero

/-- The string is tidied up, NULs are in the place of what was removed, and what was behind the
string stays. -/
theorem tidyBytes_append (s : CString) {tail : List UInt8} (h : ∀ b ∈ tail.head?, b = 0) :
    tidyBytes (s.chars ++ tail) = some (tidy s.chars ++
      (List.replicate (s.strlen - (tidy s.chars).length) 0 ++ tail)) := by
  have hlen : (tidy s.chars).length = (s.chars.rdropWhile isBlank).length := List.length_map _
  have hclear := clearBack_append isBlank 0 s.chars tail
  rw [tidyBytes, CString.upToNul_chars_append s tail h, hlen, CString.strlen, hclear]
  exact mapBack_append turnBlank _ _

/-- The loops leave the string of the array, tidied up. -/
theorem tidyVersion_eq_some (g : ByteField n) :
    ∃ v, tidyVersion g = some v ∧ v.str.chars = tidy g.str.chars := by
  obtain ⟨tail, hbytes, hhead⟩ := exists_eq_chars_append g.bytes
  have htidy := (congrArg tidyBytes hbytes).trans (tidyBytes_append g.str hhead)
  generalize hcount : g.str.strlen - (tidy g.str.chars).length = count at htidy
  have hrest : ∀ b ∈ (List.replicate count 0 ++ tail).head?, b = (0 : UInt8) := by
    cases count with
    | zero => exact hhead
    | succ count => simp [List.replicate_succ]
  unfold tidyVersion
  split
  · rename_i hnone
    rw [htidy] at hnone
    cases hnone
  · rename_i bs hsome
    rw [htidy] at hsome
    cases hsome
    refine ⟨_, rfl, ?_⟩
    exact congrArg CString.chars
      (CString.upToNul_chars_append ⟨tidy g.str.chars, noNul_tidy g.str⟩ _ hrest)

/-- The array is terminated, and it holds the string or a prefix of it, tidied up. -/
def Tidied (s : CString) (f : ByteField n) : Prop :=
  0 ∈ f.bytes ∧ ∃ part, part <+: s.chars ∧ f.str.chars = tidy part

/-- The string fits with its NUL, or the last byte that fits is one that is removed. -/
def VersionFits (n : Nat) (s : CString) : Prop :=
  s.strlen < n ∨ ∃ c ∈ s.chars[n - 1]?, isBlank c = true

/-- Something is removed from the bytes that fit, or they leave room. -/
theorem length_tidy_take_lt_iff (hn : 0 < n) :
    (tidy (s.chars.take n)).length < n ↔ VersionFits n s := by
  cases n with
  | zero => exact absurd hn (Nat.lt_irrefl 0)
  | succ m =>
      by_cases hshort : s.strlen < m + 1
      · have hle := length_tidy_le (s.chars.take (m + 1))
        rw [List.length_take, ← CString.strlen] at hle
        exact iff_of_true (by omega) (.inl hshort)
      · -- The bytes that fit are the first `m` and one more.
        have hlt : m < s.chars.length := Nat.not_lt.mp hshort
        have htake : s.chars.take (m + 1) = s.chars.take m ++ [s.chars[m]] :=
          List.take_succ_eq_append_getElem hlt
        have hfits : VersionFits (m + 1) s ↔ isBlank s.chars[m] = true := by
          have hcell : s.chars[m + 1 - 1]? = some s.chars[m] := List.getElem?_eq_getElem hlt
          rw [VersionFits, hcell, or_iff_right hshort]
          simp
        rw [hfits, tidy, List.length_map, htake, List.rdropWhile_concat]
        by_cases hblank : isBlank s.chars[m] = true
        · have hsub : (s.chars.take m).rdropWhile isBlank <+: s.chars.take m :=
            List.rdropWhile_prefix isBlank _
          have hle := hsub.length_le
          rw [List.length_take] at hle
          rw [if_pos hblank]
          exact iff_of_true (by omega) hblank
        · rw [if_neg hblank, List.length_append, List.length_take, List.length_singleton]
          exact iff_of_false (by omega) hblank

/-- The tidied version is terminated exactly if it fits. -/
theorem tidied_iff (hn : 0 < n) (hv : v.str.chars = tidy (s.chars.take n)) :
    Tidied s v ↔ VersionFits n s := by
  have hpart : ∃ part, part <+: s.chars ∧ v.str.chars = tidy part :=
    ⟨s.chars.take n, List.take_prefix n s.chars, hv⟩
  rw [Tidied, and_iff_left hpart, ← ByteField.strlen_str_lt_iff, CString.strlen, hv]
  exact length_tidy_take_lt_iff hn

end Version

/-! ### `uname` -/

/-- The arrays that `uname` fetches are terminated and hold what the kernel has. -/
structure Clean (cpu : Cpu) (kernel : KernelStrings) (name : Utsname) : Prop where
  nodename : Fetched kernel.hostname name.nodename
  release : Fetched kernel.osrelease name.release
  version : Tidied kernel.version name.version
  machine : cpu = .other → Fetched kernel.machine name.machine

/-- The strings of the kernel fit their arrays. -/
structure Fits (cpu : Cpu) (kernel : KernelStrings) : Prop where
  hostname : kernel.hostname.strlen < UTSNAME_LENGTH
  osrelease : kernel.osrelease.strlen < UTSNAME_LENGTH
  version : VersionFits UTSNAME_VERSION_LENGTH kernel.version
  machine : cpu = .other → kernel.machine.strlen < UTSNAME_LENGTH

/-- Where the name of the machine is fetched, its array holds the first characters. -/
theorem fillMachine_eq_some (cpu : Cpu) (s : CString) (f : ByteField UTSNAME_LENGTH) :
    ∃ g, fillMachine cpu s f = some g ∧
      (cpu = .other → g.str.chars = s.chars.take UTSNAME_LENGTH) := by
  cases cpu with
  | x86_64 =>
      obtain ⟨g, hstore, -⟩ := @ByteField.store_of_le _ f 0 (literal "x86_64") (by decide)
      exact ⟨g, hstore, by simp⟩
  | other =>
      obtain ⟨g, hfetch, hg⟩ := fetch_eq_some s f
      exact ⟨g, hfetch, fun _ => hg⟩

/-- What the arrays hold behind the function. -/
theorem uname_eq_some (cpu : Cpu) (kernel : KernelStrings) (name : Utsname) :
    ∃ name', uname cpu kernel name = some (0, name') ∧
      name'.nodename.str.chars = kernel.hostname.chars.take UTSNAME_LENGTH ∧
      name'.release.str.chars = kernel.osrelease.chars.take UTSNAME_LENGTH ∧
      name'.version.str.chars = tidy (kernel.version.chars.take UTSNAME_VERSION_LENGTH) ∧
      (cpu = .other → name'.machine.str.chars = kernel.machine.chars.take UTSNAME_LENGTH) := by
  obtain ⟨sysname, hsysname, -⟩ := @ByteField.store_of_le _ name.sysname 0
    (literal "GNU/kFreeBSD") (by decide)
  obtain ⟨nodename, hnodename, hnode⟩ := fetch_eq_some kernel.hostname name.nodename
  obtain ⟨release, hrelease, hrel⟩ := fetch_eq_some kernel.osrelease name.release
  obtain ⟨fetched, hfetched, hstr⟩ := fetch_eq_some kernel.version name.version
  obtain ⟨version, hversion, hver⟩ := tidyVersion_eq_some fetched
  obtain ⟨machine, hmachine, hmach⟩ := fillMachine_eq_some cpu kernel.machine name.machine
  refine ⟨⟨sysname, nodename, release, version, machine⟩, ?_, hnode, hrel, hstr ▸ hver, hmach⟩
  simp only [uname, hsysname, hnodename, hrelease, hfetched, hversion, hmachine,
    Option.bind_eq_bind, Option.bind_some]
  rfl

/-- `uname` returns 0, and the arrays that it fetches are terminated and hold what the kernel has
exactly if the strings of the kernel fit. -/
theorem uname_clean_iff (cpu : Cpu) (kernel : KernelStrings) (name : Utsname) :
    ∃ name', uname cpu kernel name = some (0, name') ∧
      (Clean cpu kernel name' ↔ Fits cpu kernel) := by
  obtain ⟨name', huname, hnode, hrel, hver, hmach⟩ := uname_eq_some cpu kernel name
  have hnodeFits := fetched_iff hnode
  have hrelFits := fetched_iff hrel
  have hverFits := tidied_iff (by decide) hver
  refine ⟨name', huname, ?_⟩
  constructor
  · intro hclean
    exact ⟨hnodeFits.mp hclean.nodename, hrelFits.mp hclean.release, hverFits.mp hclean.version,
      fun hcpu => (fetched_iff (hmach hcpu)).mp (hclean.machine hcpu)⟩
  · intro hfits
    exact ⟨hnodeFits.mpr hfits.hostname, hrelFits.mpr hfits.osrelease,
      hverFits.mpr hfits.version,
      fun hcpu => (fetched_iff (hmach hcpu)).mpr (hfits.machine hcpu)⟩

/-- A string of so many letters `a`. -/
def letters (n : Nat) : CString :=
  ⟨List.replicate n 97, fun h => absurd (List.eq_of_mem_replicate h) (by decide)⟩

/-- A kernel whose host has a name of 32 letters. -/
def longHostname : KernelStrings := ⟨letters 32, letters 3, letters 3, letters 3⟩

/-- A structure of NULs. -/
def emptyName : Utsname := ⟨.zero _, .zero _, .zero _, .zero _, .zero _⟩

/-- The name fills its array, which has no NUL, and `uname` returns 0. -/
theorem uname_unterminated :
    ∃ name', uname .x86_64 longHostname emptyName = some (0, name') ∧
      ¬ Clean .x86_64 longHostname name' := by
  obtain ⟨name', huname, hnode, -⟩ := uname_eq_some .x86_64 longHostname emptyName
  refine ⟨name', huname, fun hclean => ?_⟩
  have hfetched := hclean.nodename
  rw [fetched_iff hnode] at hfetched
  exact absurd hfetched (by decide)

end GlibcPorts.SystemName
