import Mathlib.Data.List.Chain
import Mathlib.Data.List.Induction

/-!
# Runs of equal keys

Items with keys are collected in order, an item with the key of the last run in that
run.  The runs hold the items as they came, no two runs next to each other have one key,
and where the key changes one run ends and the next begins.
-/

namespace Mews.Runs

variable {K A : Type} [DecidableEq K]

/-- The runs with one more item. -/
def push (runs : List (K × List A)) (item : K × A) : List (K × List A) :=
  match runs.getLast? with
  | some (key, items) =>
      if key = item.1 then runs.dropLast ++ [(key, items ++ [item.2])]
      else runs ++ [(item.1, [item.2])]
  | none => [(item.1, [item.2])]

def merge (items : List (K × A)) : List (K × List A) := items.foldl push []

/-- The items of the runs, with their keys. -/
def expand (runs : List (K × List A)) : List (K × A) :=
  runs.flatMap fun run => run.2.map (run.1, ·)

section Push

variable {runs before : List (K × List A)} {key other : K} {items : List A} {item : A}

theorem push_nil : push [] (key, item) = [(key, [item])] := rfl

theorem push_snoc_same :
    push (runs ++ [(key, items)]) (key, item) = runs ++ [(key, items ++ [item])] := by
  rw [push, List.getLast?_append_of_ne_nil _ (by simp), List.getLast?_singleton]
  simp

theorem push_snoc_of_ne (hkey : other ≠ key) :
    push (runs ++ [(other, items)]) (key, item) =
      runs ++ [(other, items)] ++ [(key, [item])] := by
  rw [push, List.getLast?_append_of_ne_nil _ (by simp), List.getLast?_singleton]
  simp [hkey]

/-- A run is not touched by what comes after the run that follows it. -/
theorem push_append (hruns : runs ≠ []) :
    push (before ++ runs) (key, item) = before ++ push runs (key, item) := by
  induction runs using List.reverseRecOn with
  | nil => exact absurd rfl hruns
  | append_singleton runs last =>
      obtain ⟨other, items⟩ := last
      rw [← List.append_assoc]
      by_cases hkey : other = key
      · subst hkey
        rw [push_snoc_same, push_snoc_same, List.append_assoc]
      · rw [push_snoc_of_ne hkey, push_snoc_of_ne hkey]
        simp only [List.append_assoc]

theorem getLast?_push (runs : List (K × List A)) (key : K) (item : A) :
    (push runs (key, item)).getLast?.map Prod.fst = some key := by
  induction runs using List.reverseRecOn with
  | nil => rfl
  | append_singleton runs last =>
      obtain ⟨other, items⟩ := last
      by_cases hkey : other = key
      · subst hkey
        rw [push_snoc_same, List.getLast?_concat]
        rfl
      · rw [push_snoc_of_ne hkey, List.getLast?_concat]
        rfl

theorem push_ne_nil : push runs (key, item) ≠ [] := by
  induction runs using List.reverseRecOn with
  | nil => simp [push_nil]
  | append_singleton runs last =>
      obtain ⟨other, items⟩ := last
      by_cases hkey : other = key
      · subst hkey
        simp [push_snoc_same]
      · simp [push_snoc_of_ne hkey]

theorem expand_push : expand (push runs (key, item)) = expand runs ++ [(key, item)] := by
  induction runs using List.reverseRecOn with
  | nil => rfl
  | append_singleton runs last =>
      obtain ⟨other, items⟩ := last
      by_cases hkey : other = key
      · subst hkey
        rw [push_snoc_same]
        simp [expand]
      · rw [push_snoc_of_ne hkey]
        simp [expand]

end Push

section Merge

variable {items left right : List (K × A)} {key : K} {item : A}

@[simp] theorem merge_nil : merge ([] : List (K × A)) = [] := rfl

theorem merge_snoc : merge (items ++ [(key, item)]) = push (merge items) (key, item) :=
  List.foldl_append

/-- Nothing is lost or put elsewhere. -/
theorem expand_merge (items : List (K × A)) : expand (merge items) = items := by
  induction items using List.reverseRecOn with
  | nil => rfl
  | append_singleton items last ih => rw [merge_snoc, expand_push, ih]

/-- No two runs next to each other have the same key. -/
theorem isChain_merge (items : List (K × A)) :
    (merge items).IsChain fun run next => run.1 ≠ next.1 := by
  induction items using List.reverseRecOn with
  | nil => exact List.isChain_nil
  | append_singleton items last ih =>
      obtain ⟨key, item⟩ := last
      rw [merge_snoc]
      cases hruns : merge items using List.reverseRecOn with
      | nil => exact List.isChain_singleton _
      | append_singleton runs last =>
          obtain ⟨other, collected⟩ := last
          rw [hruns] at ih
          obtain ⟨hchain, -, hlast⟩ := List.isChain_append.mp ih
          by_cases hkey : other = key
          · subst hkey
            rw [push_snoc_same]
            apply List.isChain_append.mpr ⟨hchain, List.isChain_singleton _, _⟩
            intro run hrun next hnext
            rw [List.head?_cons, Option.mem_some_iff] at hnext
            rw [← hnext]
            exact hlast run hrun (other, collected) rfl
          · rw [push_snoc_of_ne hkey]
            apply List.isChain_append.mpr ⟨ih, List.isChain_singleton _, _⟩
            intro run hrun next hnext
            rw [List.getLast?_concat, Option.mem_some_iff] at hrun
            rw [List.head?_cons, Option.mem_some_iff] at hnext
            rw [← hrun, ← hnext]
            exact hkey

/-- Items of one key make one run. -/
theorem merge_map (key : K) {values : List A} (hvalues : values ≠ []) :
    merge (values.map (key, ·)) = [(key, values)] := by
  induction values using List.reverseRecOn with
  | nil => exact absurd rfl hvalues
  | append_singleton values value ih =>
      rw [List.map_append, List.map_singleton, merge_snoc]
      cases values with
      | nil => rfl
      | cons first values =>
          rw [ih (by simp)]
          exact @push_snoc_same _ _ _ [] _ _ _

/-- The last run ends with the items of its key that come last. -/
theorem exists_merge_append_map (left : List (K × A)) (key : K) {values : List A}
    (hvalues : values ≠ []) : ∃ runs collected,
      merge (left ++ values.map (key, ·)) = runs ++ [(key, collected ++ values)] ∧
        expand runs ++ collected.map (key, ·) = left := by
  induction values using List.reverseRecOn with
  | nil => exact absurd rfl hvalues
  | append_singleton values value ih =>
      rw [List.map_append, List.map_singleton, ← List.append_assoc, merge_snoc]
      cases values with
      | nil =>
          have hexpand := expand_merge left
          rw [List.map_nil, List.append_nil, List.nil_append]
          cases hruns : merge left using List.reverseRecOn with
          | nil =>
              rw [hruns] at hexpand
              exact ⟨[], [], rfl, hexpand⟩
          | append_singleton runs last =>
              obtain ⟨other, collected⟩ := last
              rw [hruns] at hexpand
              by_cases hkey : other = key
              · subst hkey
                exact ⟨runs, collected, push_snoc_same, by simpa [expand] using hexpand⟩
              · exact ⟨runs ++ [(other, collected)], [], push_snoc_of_ne hkey,
                  (List.append_nil _).trans hexpand⟩
      | cons first values =>
          obtain ⟨runs, collected, hmerge, hexpand⟩ := ih (by simp)
          exact ⟨runs, collected, by rw [hmerge, push_snoc_same, List.append_assoc], hexpand⟩

/-- The first run begins with the items of its key that come first. -/
theorem exists_merge_map_append (key : K) {values : List A} (hvalues : values ≠ [])
    (right : List (K × A)) : ∃ collected runs,
      merge (values.map (key, ·) ++ right) = (key, values ++ collected) :: runs ∧
        collected.map (key, ·) ++ expand runs = right := by
  induction right using List.reverseRecOn with
  | nil => exact ⟨[], [], by rw [List.append_nil, merge_map key hvalues, List.append_nil], rfl⟩
  | append_singleton right item ih =>
      obtain ⟨other, item⟩ := item
      obtain ⟨collected, runs, hmerge, hexpand⟩ := ih
      rw [← List.append_assoc, merge_snoc, hmerge]
      cases runs using List.reverseRecOn with
      | nil =>
          by_cases hkey : key = other
          · subst hkey
            refine ⟨collected ++ [item], [], ?_, ?_⟩
            · rw [← List.append_assoc]
              exact @push_snoc_same _ _ _ [] _ _ _
            · rw [← hexpand]
              simp [expand]
          · refine ⟨collected, [(other, [item])], @push_snoc_of_ne _ _ _ [] _ _ _ _ hkey, ?_⟩
            rw [← hexpand]
            simp [expand]
      | append_singleton runs last =>
          rw [← List.singleton_append, push_append (by simp)]
          refine ⟨collected, push (runs ++ [last]) (other, item), rfl, ?_⟩
          rw [← hexpand, expand_push, List.append_assoc]

/-- Where the key changes one run ends and the next begins. -/
theorem merge_append_of_ne
    (hkeys : ∀ last ∈ left.getLast?, ∀ first ∈ right.head?, last.1 ≠ first.1) :
    merge (left ++ right) = merge left ++ merge right := by
  induction right using List.reverseRecOn with
  | nil => simp
  | append_singleton right item ih =>
      obtain ⟨key, item⟩ := item
      rw [← List.append_assoc, merge_snoc, merge_snoc]
      cases right with
      | nil =>
          cases left using List.reverseRecOn with
          | nil => rfl
          | append_singleton left last =>
              have hlast := getLast?_push (merge left) last.1 last.2
              have hkey := hkeys last List.getLast?_concat (key, item) rfl
              rw [List.append_nil, merge_snoc, merge_nil, push_nil]
              cases hruns : push (merge left) (last.1, last.2) using List.reverseRecOn with
              | nil => exact absurd hruns push_ne_nil
              | append_singleton runs run =>
                  rw [hruns, List.getLast?_concat, Option.map_some, Option.some.injEq] at hlast
                  exact push_snoc_of_ne (hlast ▸ hkey)
      | cons first right =>
          rw [ih (by simpa using hkeys)]
          apply push_append
          cases hright : merge (first :: right) with
          | nil =>
              have hexpand := expand_merge (first :: right)
              rw [hright] at hexpand
              exact absurd hexpand (by simp [expand])
          | cons run runs => simp

/-- Items of one key and then of another are the end of one run and the beginning of the
next. -/
theorem exists_merge_change (left right : List (K × A)) {key next : K} (hkeys : key ≠ next)
    {values nextValues : List A} (hvalues : values ≠ []) (hnext : nextValues ≠ []) :
    ∃ runs collected nextCollected nextRuns,
      merge (left ++ values.map (key, ·) ++ (nextValues.map (next, ·) ++ right)) =
        runs ++ (key, collected ++ values) :: (next, nextValues ++ nextCollected) :: nextRuns ∧
      expand runs ++ collected.map (key, ·) = left ∧
      nextCollected.map (next, ·) ++ expand nextRuns = right := by
  obtain ⟨runs, collected, hleft, hbefore⟩ := exists_merge_append_map left key hvalues
  obtain ⟨nextCollected, nextRuns, hright, hafter⟩ := exists_merge_map_append next hnext right
  refine ⟨runs, collected, nextCollected, nextRuns, ?_, hbefore, hafter⟩
  rw [merge_append_of_ne, hleft, hright, List.append_assoc, List.singleton_append]
  intro last hlast first hfirst
  have hkey : last.1 = key := by
    rw [List.getLast?_append_of_ne_nil _ (by simpa using hvalues), List.getLast?_map] at hlast
    obtain ⟨value, -, hvalue⟩ := Option.map_eq_some_iff.mp hlast
    rw [← hvalue]
  have hfirstKey : first.1 = next := by
    rw [List.head?_append_of_ne_nil _ (by simpa using hnext), List.head?_map] at hfirst
    obtain ⟨value, -, hvalue⟩ := Option.map_eq_some_iff.mp hfirst
    rw [← hvalue]
  rw [hkey, hfirstKey]
  exact hkeys

end Merge

/-! ## The runs of a list -/

section Stretches

variable {B : Type} {runs : List (K × List A)}

theorem push_ne_nil_of_mem {key : K} {item : A} (hruns : ∀ run ∈ runs, run.2 ≠ []) :
    ∀ run ∈ push runs (key, item), run.2 ≠ [] := by
  induction runs using List.reverseRecOn with
  | nil => simp [push_nil]
  | append_singleton runs last =>
      obtain ⟨other, items⟩ := last
      rw [List.forall_mem_append] at hruns
      by_cases hkey : other = key
      · subst hkey
        rw [push_snoc_same, List.forall_mem_append]
        exact ⟨hruns.1, by simp⟩
      · rw [push_snoc_of_ne hkey, List.forall_mem_append, List.forall_mem_append]
        exact ⟨hruns, by simp⟩

/-- No run is empty. -/
theorem ne_nil_of_mem_merge (items : List (K × A)) : ∀ run ∈ merge items, run.2 ≠ [] := by
  induction items using List.reverseRecOn with
  | nil => simp
  | append_singleton items last ih =>
      rw [merge_snoc]
      exact push_ne_nil_of_mem ih

omit [DecidableEq K] in
theorem mem_expand {key : K} {item : A} :
    (key, item) ∈ expand runs ↔ ∃ items, (key, items) ∈ runs ∧ item ∈ items := by
  rw [expand, List.mem_flatMap]
  constructor
  · rintro ⟨⟨other, items⟩, hrun, hitem⟩
    obtain ⟨value, hvalue, heq⟩ := List.mem_map.mp hitem
    cases heq
    exact ⟨items, hrun, hvalue⟩
  · rintro ⟨items, hrun, hitem⟩
    exact ⟨(key, items), hrun, List.mem_map_of_mem hitem⟩

omit [DecidableEq K] in
theorem expand_append (runs runs' : List (K × List A)) :
    expand (runs ++ runs') = expand runs ++ expand runs' :=
  List.flatMap_append

omit [DecidableEq K] in
/-- The last item has the key of the last run. -/
theorem exists_getLast_expand (hruns : ∀ run ∈ runs, run.2 ≠ []) {item : K × A}
    (hitem : item ∈ (expand runs).getLast?) : ∃ run ∈ runs.getLast?, run.1 = item.1 := by
  cases runs using List.reverseRecOn with
  | nil => cases hitem
  | append_singleton runs last =>
      rw [List.forall_mem_append, List.forall_mem_singleton] at hruns
      have hexpand : expand [last] = last.2.map (last.1, ·) := List.flatMap_singleton ..
      rw [expand_append, hexpand, List.getLast?_append_of_ne_nil _ (by simpa using hruns.2),
        List.getLast?_map] at hitem
      obtain ⟨value, -, hvalue⟩ := Option.map_eq_some_iff.mp hitem
      exact ⟨last, List.getLast?_concat, by rw [← hvalue]⟩

/-- Runs that could have been collected are collected from what they hold. -/
theorem merge_expand (hchain : runs.IsChain fun run next => run.1 ≠ next.1)
    (hruns : ∀ run ∈ runs, run.2 ≠ []) : merge (expand runs) = runs := by
  induction runs using List.reverseRecOn with
  | nil => rfl
  | append_singleton runs last ih =>
      obtain ⟨key, items⟩ := last
      obtain ⟨hbefore, -, hlast⟩ := List.isChain_append.mp hchain
      rw [List.forall_mem_append, List.forall_mem_singleton] at hruns
      have hexpand : expand [(key, items)] = items.map (key, ·) := List.flatMap_singleton ..
      rw [expand_append, hexpand, merge_append_of_ne, ih hbefore hruns.1, merge_map key hruns.2]
      intro item hitem first hfirst
      rw [List.head?_map] at hfirst
      obtain ⟨value, -, hvalue⟩ := Option.map_eq_some_iff.mp hfirst
      obtain ⟨run, hrun, hkey⟩ := exists_getLast_expand hruns.1 hitem
      rw [← hvalue, ← hkey]
      exact hlast run hrun _ rfl

/-- Changing the items changes no run. -/
theorem merge_map_snd (change : A → B) (items : List (K × A)) :
    merge (items.map (Prod.map id change)) = (merge items).map (Prod.map id (List.map change)) := by
  induction items using List.reverseRecOn with
  | nil => rfl
  | append_singleton items last ih =>
      obtain ⟨key, item⟩ := last
      rw [List.map_append, List.map_singleton, Prod.map_apply, merge_snoc, merge_snoc, ih]
      cases hruns : merge items using List.reverseRecOn with
      | nil => rfl
      | append_singleton runs last =>
          obtain ⟨other, collected⟩ := last
          rw [List.map_append, List.map_singleton, Prod.map_apply]
          by_cases hkey : other = key
          · subst hkey
            rw [push_snoc_same, id, push_snoc_same]
            simp
          · rw [push_snoc_of_ne hkey]
            simp only [id]
            rw [push_snoc_of_ne hkey]
            simp

end Stretches

end Mews.Runs
