import Mews.Core.Transaction

/-!
# What a computation leaves alone

A computation frames a view of the state when none of its outcomes changes what the view
shows.
-/

namespace Mews

namespace Tx

variable {S E A B V : Type} {view : S → V}

def SameView (view : S → V) (before after : S) : Prop := view after = view before

theorem sameView_refl (state : S) : SameView view state state := rfl

theorem SameView.trans (first second third : S) (hfirst : SameView view first second)
    (hsecond : SameView view second third) : SameView view first third :=
  Eq.trans hsecond hfirst

abbrev Frames (view : S → V) (body : Tx S E A) : Prop := Preserves (SameView view) body

theorem frames_pure (value : A) : Frames view (pure value : Tx S E A) :=
  preserves_pure sameView_refl value

theorem frames_ret (value : A) : Frames view (ret value : Tx S E A) := frames_pure value

theorem frames_fail (error : E) : Frames view (fail error : Tx S E A) :=
  preserves_fail sameView_refl error

theorem frames_reads (query : S → A) : Frames view (reads query : Tx S E A) :=
  preserves_reads sameView_refl query

theorem frames_lift (outcome : Except E A) : Frames view (lift outcome : Tx S E A) :=
  preserves_lift sameView_refl outcome

theorem frames_require (condition : Prop) [Decidable condition] (error : E) :
    Frames view (require condition error : Tx S E Unit) :=
  preserves_require sameView_refl condition error

theorem frames_expect (value : Option A) (error : E) :
    Frames view (expect value error : Tx S E A) :=
  preserves_expect sameView_refl value error

theorem frames_modify {change : S → S} (hchange : ∀ state, view (change state) = view state) :
    Frames view (modify change : Tx S E Unit) := hchange

section Compose

variable {first body : Tx S E A} {next : A → Tx S E B}

theorem Frames.andThen (hfirst : Frames view first) (hnext : ∀ value, Frames view (next value)) :
    Frames view (Tx.andThen first next) :=
  Preserves.andThen SameView.trans hfirst hnext

theorem Frames.bind (hfirst : Frames view first) (hnext : ∀ value, Frames view (next value)) :
    Frames view (first >>= next) :=
  hfirst.andThen hnext

theorem Frames.ite {condition : Prop} [Decidable condition] {other : Tx S E A}
    (hbody : Frames view body) (hother : Frames view other) :
    Frames view (if condition then body else other) := by
  by_cases hcondition : condition
  · rw [if_pos hcondition]
    exact hbody
  · rw [if_neg hcondition]
    exact hother

/-- An undone computation has to leave what the view shows. -/
theorem Frames.atomically {undo : S → S → S}
    (hundo : ∀ before reached, view (undo before reached) = view before)
    (hbody : Frames view body) : Frames view (Tx.atomically undo body) := by
  intro state
  have hrun := hbody state
  rw [Tx.atomically]
  cases houtcome : body state with
  | mk outcome state' =>
      rw [houtcome] at hrun
      cases outcome with
      | ok value => exact hrun
      | error error => exact hundo state state'

theorem frames_each {items : List B} {each : B → Tx S E Unit}
    (heach : ∀ item, Frames view (each item)) : Frames view (Tx.each items each) := by
  induction items with
  | nil => exact frames_ret ()
  | cons item items ih => exact (heach item).andThen fun _ => ih

end Compose

end Tx

end Mews
