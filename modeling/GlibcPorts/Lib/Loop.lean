/-!
# `GlibcPorts.Lib.Loop`: loops that only a return leaves

`forever` is the loop `for (;;)` over any state and any body. It reports the state at the start
of the turn that returned, and its fuel stands for the number of turns. `of_forever_left` is the
rule for such a loop: what holds at its start and is kept by every turn that goes on holds at the
start of the last turn, and that turn returned. `forever_eq_left` is the rule for its end: a loop
whose states are known returns once the fuel is enough for them.
-/

set_option autoImplicit false

namespace GlibcPorts.Lib

variable {σ ρ : Type}

/-- How a loop ends. -/
inductive Left (σ ρ : Type) where
  /-- The turn that started in `s` returned `r`. -/
  | left (s : σ) (r : ρ)
  /-- A read or a write outside the memory. -/
  | fault
  /-- The loop still runs. -/
  | running
deriving DecidableEq, Repr

/-- The loop `for (;;) body`. The body returns or goes on with a new state, and it is `none` when
it reads or writes outside the memory. -/
def forever (body : σ → Option (ρ ⊕ σ)) : Nat → σ → Left σ ρ
  | 0, _ => .running
  | fuel + 1, s =>
      match body s with
      | none => .fault
      | some (.inl r) => .left s r
      | some (.inr s') => forever body fuel s'

/-- The rule for a loop that returns. -/
theorem of_forever_left {body : σ → Option (ρ ⊕ σ)} {I : σ → Prop}
    (hkeep : ∀ s s', I s → body s = some (.inr s') → I s') {fuel : Nat} {s t : σ} {r : ρ}
    (hI : I s) (h : forever body fuel s = .left t r) : I t ∧ body t = some (.inl r) := by
  induction fuel generalizing s with
  | zero => cases h
  | succ fuel ih =>
      rw [forever] at h
      cases hbody : body s with
      | none => simp [hbody] at h
      | some next =>
          cases next with
          | inl r' =>
              simp only [hbody, Left.left.injEq] at h
              obtain ⟨rfl, rfl⟩ := h
              exact ⟨hI, hbody⟩
          | inr s' =>
              simp only [hbody] at h
              exact ih (hkeep s s' hI hbody) h

/-- The rule for the end of a loop that goes through the states `f 0`, .., `f n`. -/
theorem forever_eq_left {body : σ → Option (ρ ⊕ σ)} {f : Nat → σ} {n : Nat} {r : ρ}
    (hon : ∀ k < n, body (f k) = some (.inr (f (k + 1)))) (hend : body (f n) = some (.inl r))
    {fuel : Nat} (hfuel : n < fuel) : forever body fuel (f 0) = .left (f n) r := by
  have hfrom : ∀ fuel k, k ≤ n → n < k + fuel → forever body fuel (f k) = .left (f n) r := by
    intro fuel
    induction fuel with
    | zero =>
        intro k hk hlt
        omega
    | succ fuel ih =>
        intro k hk hlt
        rw [forever]
        rcases Nat.lt_or_eq_of_le hk with hlt' | rfl
        · rw [hon k hlt']
          exact ih (k + 1) hlt' (by omega)
        · rw [hend]
  exact hfrom fuel 0 (Nat.zero_le n) (by omega)

end GlibcPorts.Lib
