import Mathlib.Data.Nat.Basic

/-!
# What an infinite run comes to

A run is a sequence of states, and what is said of it is said of its points in
time.  `LeadsTo` relates two such things: whenever the first holds, the second
holds then or later.  The rules follow how progress is argued: one thing after
the other, and a rank that falls until there is nothing left to do.
-/

namespace Mews

variable {p q r : ℕ → Prop}

/-- Whenever `p` holds, `q` holds then or later. -/
def LeadsTo (p q : ℕ → Prop) : Prop :=
  ∀ n, p n → ∃ m, n ≤ m ∧ q m

namespace LeadsTo

theorem trans (hpq : LeadsTo p q) (hqr : LeadsTo q r) : LeadsTo p r := by
  intro n hp
  obtain ⟨m, hnm, hq⟩ := hpq n hp
  obtain ⟨l, hml, hr⟩ := hqr m hq
  exact ⟨l, Nat.le_trans hnm hml, hr⟩

theorem or (hpr : LeadsTo p r) (hqr : LeadsTo q r) : LeadsTo (fun n => p n ∨ q n) r := by
  intro n hn
  obtain hp | hq := hn
  · exact hpr n hp
  · exact hqr n hq

theorem refl : LeadsTo p p := fun n hp => ⟨n, Nat.le_refl n, hp⟩

/-- A rank that can always be lowered as long as the goal is not reached. -/
theorem of_rank (rank : ℕ → ℕ)
    (hlower : ∀ n, p n → ∃ m, n ≤ m ∧ (q m ∨ p m ∧ rank m < rank n)) :
    LeadsTo p q := by
  intro n hp
  induction hrank : rank n using Nat.strongRecOn generalizing n with
  | ind bound ih =>
      obtain ⟨m, hnm, hq | ⟨hpm, hless⟩⟩ := hlower n hp
      · exact ⟨m, hnm, hq⟩
      · obtain ⟨l, hml, hq⟩ := ih (rank m) (hrank ▸ hless) m hpm rfl
        exact ⟨l, Nat.le_trans hnm hml, hq⟩

/-- A rank that never rises, and that cannot stay where it is for ever. -/
theorem of_unstalled (rank : ℕ → ℕ)
    (hkeep : ∀ n, p n → q (n + 1) ∨ p (n + 1) ∧ rank (n + 1) ≤ rank n)
    (hunstalled : ∀ n, ¬∀ m, n ≤ m → p m ∧ ¬q m ∧ rank m = rank n) : LeadsTo p q := by
  apply of_rank rank
  intro n hp
  by_contra hnone
  have hnever : ∀ m, n ≤ m → ¬q m ∧ (p m → rank n ≤ rank m) := by
    intro m hnm
    constructor
    · intro hq
      exact hnone ⟨m, hnm, Or.inl hq⟩
    · intro hpm
      by_contra hless
      exact hnone ⟨m, hnm, Or.inr ⟨hpm, Nat.lt_of_not_le hless⟩⟩
  apply hunstalled n
  intro m hnm
  induction hnm with
  | refl => exact ⟨hp, (hnever n (Nat.le_refl n)).1, rfl⟩
  | @step m hnm ih =>
      obtain ⟨hpm, -, hrank⟩ := ih
      obtain ⟨hnot, hfloor⟩ := hnever (m + 1) (Nat.le_succ_of_le hnm)
      obtain hq | ⟨hpm', hrank'⟩ := hkeep m hpm
      · exact absurd hq hnot
      · exact ⟨hpm', hnot, Nat.le_antisymm (hrank ▸ hrank') (hfloor hpm')⟩

end LeadsTo

/-- What every step keeps unless it reaches the goal is there until the goal is. -/
theorem holds_until (hkeep : ∀ n, p n → p (n + 1) ∨ q (n + 1)) {n m : ℕ}
    (hnm : n ≤ m) (hp : p n) : p m ∨ ∃ l, n ≤ l ∧ l ≤ m ∧ q l := by
  induction hnm with
  | refl => exact Or.inl hp
  | step hle ih =>
      obtain hpm | ⟨l, hnl, hlm, hq⟩ := ih
      · obtain hp' | hq' := hkeep _ hpm
        · exact Or.inl hp'
        · exact Or.inr ⟨_, Nat.le_trans hle (Nat.le_succ _), Nat.le_refl _, hq'⟩
      · exact Or.inr ⟨l, hnl, Nat.le_trans hlm (Nat.le_succ _), hq⟩

/-- Finitely many things that each stay true from some point on are all true from
some point on. -/
theorem eventually_all {R : Type} {holds : R → ℕ → Prop} (items : List R)
    (hitem : ∀ item ∈ items, ∃ n, ∀ m, n ≤ m → holds item m) :
    ∃ n, ∀ m, n ≤ m → ∀ item ∈ items, holds item m := by
  induction items with
  | nil => exact ⟨0, fun _ _ item hitem => absurd hitem List.not_mem_nil⟩
  | cons item items ih =>
      obtain ⟨first, hfirst⟩ := hitem item List.mem_cons_self
      obtain ⟨rest, hrest⟩ := ih fun other hother => hitem other (List.mem_cons_of_mem _ hother)
      refine ⟨max first rest, fun m hm other hother => ?_⟩
      rw [List.mem_cons] at hother
      obtain rfl | hother := hother
      · exact hfirst m (Nat.le_trans (Nat.le_max_left _ _) hm)
      · exact hrest m (Nat.le_trans (Nat.le_max_right _ _) hm) other hother

end Mews
