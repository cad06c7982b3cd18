import Mathlib.Data.List.Sort
import Mathlib.Data.List.Perm.Subperm
import Mathlib.Logic.Relation

/-!
# Ancestors in a finite forest

A forest is a list of nodes with a parent function that stays inside the list
and decreases a rank.  `climb` follows the parents with a bound on the number of
nodes; with the length of the list as the bound it reaches the root, and sorting
what it visited by rank turns the nearest-first order around.
-/

namespace Mews.Ancestry

variable {N : Type} (parent : N → Option N)

/-- At most `fuel` nodes, starting with `node` and going up. -/
def climb : Nat → N → List N
  | 0, _ => []
  | fuel + 1, node =>
      node :: match parent node with
        | none => []
        | some above => climb fuel above

/-- The node and all its ancestors, nearest first. -/
inductive Lineage : N → List N → Prop
  | root {node : N} (hroot : parent node = none) : Lineage node [node]
  | step {node above : N} {chain : List N} (hparent : parent node = some above)
      (habove : Lineage above chain) : Lineage node (node :: chain)

/-- Every parent of a node is a node of smaller rank. -/
def Ranked (rank : N → Nat) (nodes : List N) : Prop :=
  ∀ node ∈ nodes, ∀ above, parent node = some above → above ∈ nodes ∧ rank above < rank node

variable {parent} {rank : N → Nat} {nodes chain : List N} {node : N}

theorem Lineage.unique (hchain : Lineage parent node chain) {chain' : List N}
    (hchain' : Lineage parent node chain') : chain = chain' := by
  induction hchain generalizing chain' with
  | root hroot =>
      cases hchain' with
      | root => rfl
      | step hparent => simp [hroot] at hparent
  | step hparent _ ih =>
      cases hchain' with
      | root hroot => simp [hroot] at hparent
      | step hparent' habove =>
          rw [hparent, Option.some.injEq] at hparent'
          subst hparent'
          rw [ih habove]

theorem Lineage.climb_eq (hchain : Lineage parent node chain) {fuel : Nat}
    (hfuel : chain.length ≤ fuel) : climb parent fuel node = chain := by
  induction hchain generalizing fuel with
  | root hroot =>
      obtain ⟨fuel, rfl⟩ := Nat.exists_eq_add_of_le' hfuel
      simp [climb, hroot]
  | step hparent _ ih =>
      rw [List.length_cons] at hfuel
      obtain ⟨fuel, rfl⟩ := Nat.exists_eq_add_of_le' (Nat.le_trans (Nat.le_add_left 1 _) hfuel)
      simp only [climb, hparent]
      rw [ih (Nat.le_of_succ_le_succ hfuel)]

/-- The lineage of an ancestor is what follows it. -/
theorem Lineage.of_append (hchain : Lineage parent node chain) {below : List N} {above : N}
    {rest : List N} (hsplit : chain = below ++ above :: rest) :
    Lineage parent above (above :: rest) := by
  induction hchain generalizing below with
  | root hroot =>
      cases below with
      | nil =>
          obtain ⟨rfl, rfl⟩ := List.cons.inj hsplit
          exact .root hroot
      | cons first below => simp at hsplit
  | step hparent habove ih =>
      cases below with
      | nil =>
          obtain ⟨rfl, rfl⟩ := List.cons.inj hsplit
          exact .step hparent habove
      | cons first below => exact ih (List.cons.inj hsplit).2

theorem Lineage.mem_iff (hchain : Lineage parent node chain) {above : N} :
    above ∈ chain ↔ Relation.ReflTransGen (fun node above => parent node = some above) node above := by
  induction hchain with
  | @root node hroot =>
      rw [List.mem_singleton]
      constructor
      · rintro rfl
        exact .refl
      · intro hreach
        cases hreach.cases_head with
        | inl hsame => exact hsame.symm
        | inr hstep =>
            obtain ⟨_, hparent, -⟩ := hstep
            rw [hroot] at hparent
            cases hparent
  | @step node next chain hparent _ ih =>
      rw [List.mem_cons, ih]
      constructor
      · rintro (rfl | hreach)
        · exact .refl
        · exact .head hparent hreach
      · intro hreach
        cases hreach.cases_head with
        | inl hsame => exact .inl hsame.symm
        | inr hstep =>
            obtain ⟨_, hparent', hreach⟩ := hstep
            rw [hparent, Option.some.injEq] at hparent'
            subst hparent'
            exact .inr hreach

/-- What stands above a node comes after it in its lineage. -/
theorem Lineage.mem_of_above {rest : List N} (hchain : Lineage parent node (node :: rest)) {above : N}
    (habove : Relation.TransGen (fun node above => parent node = some above) node above) :
    above ∈ rest := by
  obtain ⟨next, hnext, hreach⟩ := Relation.TransGen.head'_iff.mp habove
  cases hchain with
  | root hroot =>
      rw [hroot] at hnext
      cases hnext
  | step hparent hrest =>
      rw [hparent, Option.some.injEq] at hnext
      subst hnext
      exact hrest.mem_iff.mpr hreach

section Ranked

variable (hranked : Ranked parent rank nodes)
include hranked

/-- Going up ends, since the rank decreases. -/
theorem Ranked.exists_lineage (hnode : node ∈ nodes) : ∃ chain, Lineage parent node chain := by
  induction hrank : rank node using Nat.strong_induction_on generalizing node with
  | h bound ih =>
      cases hparent : parent node with
      | none => exact ⟨[node], .root hparent⟩
      | some above =>
          obtain ⟨habove, hlt⟩ := hranked node hnode above hparent
          obtain ⟨chain, hchain⟩ := ih (rank above) (hrank ▸ hlt) habove rfl
          exact ⟨node :: chain, .step hparent hchain⟩

theorem Ranked.lineage_subset (hnode : node ∈ nodes) (hchain : Lineage parent node chain) :
    chain ⊆ nodes := by
  induction hchain with
  | root => simpa using hnode
  | step hparent _ ih =>
      rw [List.cons_subset]
      exact ⟨hnode, ih (hranked _ hnode _ hparent).1⟩

theorem Ranked.rank_le (hnode : node ∈ nodes) (hchain : Lineage parent node chain) :
    ∀ other ∈ chain, rank other ≤ rank node := by
  induction hchain with
  | root => simp
  | step hparent _ ih =>
      obtain ⟨habove, hlt⟩ := hranked _ hnode _ hparent
      intro other hother
      rcases List.mem_cons.mp hother with rfl | hother
      · exact Nat.le_refl _
      · exact Nat.le_trans (ih habove other hother) (Nat.le_of_lt hlt)

theorem Ranked.pairwise (hnode : node ∈ nodes) (hchain : Lineage parent node chain) :
    chain.Pairwise fun left right => rank right < rank left := by
  induction hchain with
  | root => simp
  | step hparent habove ih =>
      obtain ⟨hmem, hlt⟩ := hranked _ hnode _ hparent
      rw [List.pairwise_cons]
      refine ⟨fun other hother => ?_, ih hmem⟩
      exact Nat.lt_of_le_of_lt (hranked.rank_le hmem habove other hother) hlt

theorem Ranked.length_le (hnode : node ∈ nodes) (hchain : Lineage parent node chain) :
    chain.length ≤ nodes.length := by
  have hnodup : chain.Nodup := by
    refine (hranked.pairwise hnode hchain).imp ?_
    rintro left _ hlt rfl
    exact Nat.lt_irrefl _ hlt
  exact (List.subperm_of_subset hnodup (hranked.lineage_subset hnode hchain)).length_le

/-- Sorting a lineage by rank puts the root first. -/
theorem Ranked.insertionSort_eq (hnode : node ∈ nodes) (hchain : Lineage parent node chain) :
    chain.insertionSort (fun left right => rank left ≤ rank right) = chain.reverse := by
  have hlt := hranked.pairwise hnode hchain
  have hsorted : (chain.insertionSort fun left right => rank left ≤ rank right).Pairwise
      fun left right => rank left ≤ rank right := by
    have : Std.Total fun left right : N => rank left ≤ rank right := ⟨fun _ _ => Nat.le_total _ _⟩
    have : IsTrans N fun left right => rank left ≤ rank right := ⟨fun _ _ _ => Nat.le_trans⟩
    exact List.pairwise_insertionSort _ chain
  have hreverse : chain.reverse.Pairwise fun left right => rank left ≤ rank right := by
    rw [List.pairwise_reverse]
    exact hlt.imp Nat.le_of_lt
  have hperm := List.perm_insertionSort (fun left right => rank left ≤ rank right) chain
  have hnodup : (chain.map rank).Nodup := by
    rw [List.Nodup, List.pairwise_map]
    exact hlt.imp fun h => Nat.ne_of_gt h
  refine List.Perm.eq_of_pairwise ?_ hsorted hreverse (hperm.trans chain.reverse_perm.symm)
  intro left right hleft hright hle hge
  exact List.inj_on_of_nodup_map hnodup (hperm.subset hleft) (List.mem_reverse.mp hright)
    (Nat.le_antisymm hle hge)

end Ranked

end Mews.Ancestry
