import Mathlib.Data.List.Sort
import Mathlib.Algebra.BigOperators.Group.List.Basic
import Mathlib.Tactic.Ring

/-!
# Ordered maps

A map whose rows are kept in the order of their keys, as an iteration over it
returns them.  `upsert` changes the value of one key; the lemmas say what that
does to the other keys and to a total over all rows.
-/

namespace Mews

variable {K V : Type} [LinearOrder K]

namespace OrderedRows

/-- The rows after the value of `key` has been changed, inserted in its place if
the key is new. -/
def upsert (key : K) (change : Option V → V) : List (K × V) → List (K × V)
  | [] => [(key, change none)]
  | (other, value) :: rows =>
      if key < other then (key, change none) :: (other, value) :: rows
      else if key = other then (other, change (some value)) :: rows
      else (other, value) :: upsert key change rows

attribute [local simp] upsert

/-- The keys of the rows are in order, none of them twice. -/
def Ordered (rows : List (K × V)) : Prop := (rows.map Prod.fst).Pairwise (· < ·)

variable {key other : K} {change : Option V → V} {value : V} {row : K × V} {rows : List (K × V)}

theorem ordered_cons :
    Ordered (row :: rows) ↔ (∀ later ∈ rows.map Prod.fst, row.1 < later) ∧ Ordered rows :=
  List.pairwise_cons

theorem lookup_cons :
    (row :: rows).lookup key = if key = row.1 then some row.2 else rows.lookup key := by
  rw [List.lookup_cons]
  by_cases hkey : key = row.1
  · simp [hkey]
  · rw [if_neg hkey, beq_false_of_ne hkey]

/-- A key before the first one has no value. -/
theorem lookup_eq_none_of_before (hrows : Ordered (row :: rows)) (hbefore : key < row.1) :
    (row :: rows).lookup key = none := by
  obtain ⟨hlater, -⟩ := ordered_cons.mp hrows
  rw [List.lookup_eq_none_iff]
  intro later hmem
  rcases List.mem_cons.mp hmem with rfl | hmem
  · simpa using hbefore.ne
  · have hlt := hbefore.trans (hlater later.1 (List.mem_map_of_mem hmem))
    simpa using hlt.ne

theorem mem_keys_upsert :
    other ∈ (upsert key change rows).map Prod.fst ↔ other = key ∨ other ∈ rows.map Prod.fst := by
  induction rows with
  | nil => simp
  | cons row rows ih =>
      rw [upsert]
      split_ifs with hbefore hsame
      · simp
      · subst hsame
        simp
      · rw [List.map_cons, List.mem_cons, ih, List.map_cons, List.mem_cons]
        tauto

theorem ordered_upsert (hrows : Ordered rows) : Ordered (upsert key change rows) := by
  induction rows with
  | nil => simp [Ordered]
  | cons row rows ih =>
      obtain ⟨hlater, htail⟩ := ordered_cons.mp hrows
      rw [upsert]
      split_ifs with hbefore hsame
      · apply ordered_cons.mpr ⟨_, hrows⟩
        intro later hmem
        rcases List.mem_cons.mp hmem with rfl | hmem
        · exact hbefore
        · exact hbefore.trans (hlater later hmem)
      · exact hrows
      · apply ordered_cons.mpr ⟨_, ih htail⟩
        intro later hmem
        rcases mem_keys_upsert.mp hmem with rfl | hmem
        · exact lt_of_le_of_ne (not_lt.mp hbefore) (Ne.symm hsame)
        · exact hlater later hmem

theorem lookup_upsert (hrows : Ordered rows) :
    (upsert key change rows).lookup other =
      if other = key then some (change (rows.lookup key)) else rows.lookup other := by
  induction rows with
  | nil => rw [upsert, lookup_cons, List.lookup_nil, List.lookup_nil]
  | cons row rows ih =>
      obtain ⟨hlater, htail⟩ := ordered_cons.mp hrows
      rw [upsert]
      rcases lt_trichotomy key row.1 with hbefore | hsame | hafter
      · rw [if_pos hbefore, lookup_cons, lookup_eq_none_of_before hrows hbefore]
      · rw [if_neg hsame.not_lt, if_pos hsame, lookup_cons, lookup_cons, if_pos hsame,
          lookup_cons, hsame]
        split_ifs
        · rfl
        · rfl
      · rw [if_neg hafter.not_gt, if_neg hafter.ne', lookup_cons, ih htail,
          lookup_cons, if_neg hafter.ne', lookup_cons]
        by_cases hother : other = row.1
        · rw [if_pos hother, if_neg (hother ▸ hafter.ne), if_pos hother]
        · rw [if_neg hother, if_neg hother]

/-- What a change of one value does to a total over all of them. -/
theorem sum_upsert (weight : V → Nat) (hrows : Ordered rows) :
    ((upsert key change rows).map fun row => weight row.2).sum + (rows.lookup key).elim 0 weight =
      (rows.map fun row => weight row.2).sum + weight (change (rows.lookup key)) := by
  induction rows with
  | nil => simp
  | cons row rows ih =>
      obtain ⟨hlater, htail⟩ := ordered_cons.mp hrows
      have htotal := ih htail
      rw [upsert]
      split_ifs with hbefore hsame
      · rw [lookup_eq_none_of_before hrows hbefore]
        simp only [List.map_cons, List.sum_cons, Option.elim_none]
        ring
      · rw [lookup_cons, if_pos hsame]
        simp only [List.map_cons, List.sum_cons, Option.elim_some]
        ring
      · rw [lookup_cons, if_neg hsame]
        simp only [List.map_cons, List.sum_cons]
        omega

end OrderedRows

/-- A map that is iterated in the order of its keys. -/
structure OrderedMap (K V : Type) [LinearOrder K] where
  rows : List (K × V)
  ordered : OrderedRows.Ordered rows

namespace OrderedMap

variable {key other : K} {change : Option V → V}

def empty : OrderedMap K V := ⟨[], List.Pairwise.nil⟩

def get (map : OrderedMap K V) (key : K) : Option V := map.rows.lookup key

def upsert (map : OrderedMap K V) (key : K) (change : Option V → V) : OrderedMap K V :=
  ⟨OrderedRows.upsert key change map.rows, OrderedRows.ordered_upsert map.ordered⟩

/-- The total weight of the values. -/
def total (map : OrderedMap K V) (weight : V → Nat) : Nat :=
  (map.rows.map fun row => weight row.2).sum

theorem get_upsert (map : OrderedMap K V) :
    (map.upsert key change).get other =
      if other = key then some (change (map.get key)) else map.get other :=
  OrderedRows.lookup_upsert map.ordered

theorem total_upsert (map : OrderedMap K V) (weight : V → Nat) :
    (map.upsert key change).total weight + (map.get key).elim 0 weight =
      map.total weight + weight (change (map.get key)) :=
  OrderedRows.sum_upsert weight map.ordered

end OrderedMap

end Mews
