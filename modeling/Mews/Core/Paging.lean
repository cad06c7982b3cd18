import Mathlib.Data.List.Basic
import Mathlib.Order.Lattice

/-!
# Pages of an ordered sequence

A reader takes a sequence, ordered by a key, in pages.  Its cursor is the key it
has read up to; the sequence may grow at its end between two pages.
-/

namespace Mews.Paging

variable {α κ : Type*} [LinearOrder κ] {key : α → κ}
variable {items added read page : List α} {lower start cursor upper : κ} {more : Bool}

def Ordered (key : α → κ) (items : List α) : Prop :=
  items.Pairwise fun left right => key left < key right

/-- The items in the half-open interval `(lower, upper]`. -/
def between (key : α → κ) (lower upper : κ) (items : List α) : List α :=
  items.filter fun item => lower < key item ∧ key item ≤ upper

def beyond (key : α → κ) (cursor : κ) (items : List α) : List α :=
  items.filter fun item => cursor < key item

@[simp]
theorem mem_between {item : α} :
    item ∈ between key lower upper items ↔ item ∈ items ∧ lower < key item ∧ key item ≤ upper := by
  simp [between]

@[simp]
theorem mem_beyond {item : α} :
    item ∈ beyond key cursor items ↔ item ∈ items ∧ cursor < key item := by
  simp [beyond]

theorem between_self : between key cursor cursor items = [] := by
  rw [between, List.filter_eq_nil_iff]
  intro item _
  simp

/-- A threshold cuts an ordered sequence in two. -/
theorem Ordered.filter_cut (hordered : Ordered key items) (p : α → Prop) [DecidablePred p]
    (cursor : κ) :
    (items.filter fun item => p item ∧ key item ≤ cursor) ++
      (items.filter fun item => p item ∧ cursor < key item) = items.filter fun item => p item := by
  induction items with
  | nil => rfl
  | cons item items ih =>
      obtain ⟨hbefore, hrest⟩ := List.pairwise_cons.mp hordered
      by_cases hle : key item ≤ cursor
      · have hnot : ¬cursor < key item := not_lt.mpr hle
        by_cases hp : p item
        · simpa [hle, hnot, hp] using ih hrest
        · simpa [hp] using ih hrest
      · have hlt : cursor < key item := not_le.mp hle
        have hnone : (items.filter fun other => p other ∧ key other ≤ cursor) = [] := by
          rw [List.filter_eq_nil_iff]
          intro other hother
          have := hlt.trans (hbefore other hother)
          simp [not_le.mpr this]
        have hrest' := ih hrest
        rw [hnone, List.nil_append] at hrest'
        simp only [Bool.decide_and] at hnone hrest'
        by_cases hp : p item
        · simp [hle, hlt, hp, hnone, hrest']
        · simp [hp, hnone, hrest']

theorem Ordered.between_append_beyond (hordered : Ordered key items) (hle : lower ≤ cursor) :
    between key lower cursor items ++ beyond key cursor items = beyond key lower items := by
  have hcut := hordered.filter_cut (lower < key ·) cursor
  have hbeyond : (items.filter fun item => lower < key item ∧ cursor < key item) =
      beyond key cursor items := by
    apply List.filter_congr
    intro item _
    simpa using hle.trans_lt
  rwa [hbeyond] at hcut

theorem Ordered.between_append_between (hordered : Ordered key items) (hle : lower ≤ cursor)
    (hle' : cursor ≤ upper) :
    between key lower cursor items ++ between key cursor upper items =
      between key lower upper items := by
  have hcut := hordered.filter_cut (fun item => lower < key item ∧ key item ≤ upper) cursor
  have hfirst : (items.filter fun item =>
      (lower < key item ∧ key item ≤ upper) ∧ key item ≤ cursor) = between key lower cursor items := by
    apply List.filter_congr
    intro item _
    simp only [decide_eq_decide]
    exact ⟨fun h => ⟨h.1.1, h.2⟩, fun h => ⟨⟨h.1, h.2.trans hle'⟩, h.2⟩⟩
  have hsecond : (items.filter fun item =>
      (lower < key item ∧ key item ≤ upper) ∧ cursor < key item) = between key cursor upper items := by
    apply List.filter_congr
    intro item _
    simp only [decide_eq_decide]
    exact ⟨fun h => ⟨h.2, h.1.2⟩, fun h => ⟨⟨hle.trans_lt h.1, h.2⟩, h.1⟩⟩
  rwa [hfirst, hsecond] at hcut

theorem Ordered.between (hordered : Ordered key items) :
    Ordered key (between key lower upper items) :=
  List.Pairwise.filter _ hordered

theorem Ordered.beyond (hordered : Ordered key items) : Ordered key (beyond key cursor items) :=
  List.Pairwise.filter _ hordered

theorem beyond_beyond (hle : lower ≤ cursor) :
    Paging.beyond key cursor (Paging.beyond key lower items) = Paging.beyond key cursor items := by
  rw [Paging.beyond, Paging.beyond, Paging.beyond, List.filter_filter]
  apply List.filter_congr
  intro item _
  simpa using hle.trans_lt

theorem between_filter (p : α → Bool) :
    Paging.between key lower upper (items.filter p) =
      (Paging.between key lower upper items).filter p := by
  rw [Paging.between, Paging.between, List.filter_filter, List.filter_filter]
  simp only [Bool.and_comm]

/-- The first item beyond a cursor is all there is up to it. -/
theorem Ordered.beyond_cons (hordered : Ordered key items) {item : α} {rest : List α}
    (hbeyond : Paging.beyond key cursor items = item :: rest) :
    cursor < key item ∧ Paging.between key cursor (key item) items = [item] ∧
      Paging.beyond key (key item) items = rest := by
  have hmem : item ∈ Paging.beyond key cursor items := by
    rw [hbeyond]
    exact List.mem_cons_self
  have hlt : cursor < key item := (mem_beyond.mp hmem).2
  have hsorted : Ordered key (item :: rest) := by
    rw [← hbeyond]
    exact hordered.beyond
  have hrest : Paging.beyond key (key item) items = rest := by
    rw [← beyond_beyond hlt.le, hbeyond]
    have hall : ∀ other ∈ rest, key item < key other := (List.pairwise_cons.mp hsorted).1
    simpa [Paging.beyond, List.filter_eq_self] using hall
  have hcut := hordered.between_append_beyond hlt.le
  rw [hrest, hbeyond] at hcut
  exact ⟨hlt, List.append_cancel_right hcut, hrest⟩

/-- What is added behind the cursor leaves everything up to the cursor alone. -/
theorem between_append_of_lt (hadded : ∀ item ∈ added, cursor < key item) :
    Paging.between key lower cursor (items ++ added) = Paging.between key lower cursor items := by
  have hnone : Paging.between key lower cursor added = [] := by
    rw [Paging.between, List.filter_eq_nil_iff]
    intro item hitem
    simp [hadded item hitem]
  rw [Paging.between, List.filter_append]
  simpa [Paging.between] using hnone

/-- A page read after `start`: it holds what lies between the cursors, and tells
truly whether anything follows. -/
structure ExactPage (key : α → κ) (items : List α) (start : κ) (page : List α) (cursor : κ)
    (more : Bool) : Prop where
  advances : start ≤ cursor
  page_eq : page = between key start cursor items
  more_iff : more = true ↔ ∃ item ∈ items, cursor < key item
  progress : more = true → page ≠ []

namespace ExactPage

/-- A page extends what has been read by exactly what lies up to its cursor. -/
theorem collect (hpage : ExactPage key items start page cursor more) (hordered : Ordered key items)
    (hle : lower ≤ start) (hread : read = Paging.between key lower start items) :
    read ++ page = Paging.between key lower cursor items := by
  rw [hread, hpage.page_eq]
  exact hordered.between_append_between hle hpage.advances

/-- After the last page nothing is left. -/
theorem last (hpage : ExactPage key items start page cursor false) :
    Paging.beyond key cursor items = [] := by
  rw [Paging.beyond, List.filter_eq_nil_iff]
  intro item hitem
  have hnone := hpage.more_iff.not.mp Bool.false_ne_true
  simpa using fun hlt => hnone ⟨item, hitem, hlt⟩

/-- A page leaves less than there was, as long as there was anything. -/
theorem remaining (hpage : ExactPage key items start page cursor more)
    (hordered : Ordered key items) :
    (Paging.beyond key cursor items).length ≤ (Paging.beyond key start items).length - 1 := by
  cases more with
  | false => simp [hpage.last]
  | true =>
      have hpos : 0 < page.length := List.length_pos_iff.mpr (hpage.progress rfl)
      have hcut := congrArg List.length (hordered.between_append_beyond hpage.advances)
      rw [← hpage.page_eq, List.length_append] at hcut
      omega

/-- An empty page counts as not read, also when the sequence has grown since. -/
theorem after_empty (hfirst : ExactPage key items start [] lower more)
    (hadded : ∀ item ∈ added, lower < key item) {more' : Bool}
    (hordered : Ordered key (items ++ added))
    (hpage : ExactPage key (items ++ added) lower page cursor more') :
    ExactPage key (items ++ added) start page cursor more' where
  advances := hfirst.advances.trans hpage.advances
  page_eq := by
    have hempty : ([] : List α) = Paging.between key start lower (items ++ added) := by
      rw [between_append_of_lt hadded]
      exact hfirst.page_eq
    exact hpage.collect hordered hfirst.advances hempty
  more_iff := hpage.more_iff
  progress := hpage.progress

end ExactPage

end Mews.Paging
