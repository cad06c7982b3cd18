import Mathlib.Data.List.Basic

/-!
# Computations over durable state

A computation of type `Durable S E A` tells the states it leaves behind, one
after the other, and how it ends.  A crash stops it in any of these states, so
`holds` is a precondition for two things at once: what is true of every state
on the way, and what is true of the value and the state at the end.
-/

namespace Mews

variable {S E A B : Type}

/-- The states a computation goes through after the first, and its outcome. -/
structure Trace (S E A : Type) where
  visited : List S
  outcome : Except E A

namespace Trace

/-- The state a computation that started in `start` ends in. -/
def last (trace : Trace S E A) (start : S) : S := trace.visited.getLastD start

end Trace

def Durable (S E A : Type) := S → Trace S E A

namespace Durable

def ret (value : A) : Durable S E A := fun _ => { visited := [], outcome := .ok value }

def andThen (first : Durable S E A) (next : A → Durable S E B) : Durable S E B := fun state =>
  let trace := first state
  match trace.outcome with
  | .ok value =>
      let rest := next value (trace.last state)
      { visited := trace.visited ++ rest.visited, outcome := rest.outcome }
  | .error error => { visited := trace.visited, outcome := .error error }

instance : Monad (Durable S E) where
  pure := ret
  bind := andThen

def fail (error : E) : Durable S E A := fun _ => { visited := [], outcome := .error error }

def reads (view : S → A) : Durable S E A := fun state =>
  { visited := [], outcome := .ok (view state) }

/-- One durable step. -/
def write (change : S → S) : Durable S E Unit := fun state =>
  { visited := [change state], outcome := .ok () }

def lift (outcome : Except E A) : Durable S E A := fun _ => { visited := [], outcome }

def require (condition : Prop) [Decidable condition] (error : E) : Durable S E Unit :=
  if condition then ret () else fail error

def expect (value : Option A) (error : E) : Durable S E A :=
  match value with
  | some value => ret value
  | none => fail error

def each (items : List A) (body : A → Durable S E Unit) : Durable S E Unit :=
  match items with
  | [] => ret ()
  | item :: rest => andThen (body item) fun _ => each rest body

/-- Runs `body` and goes on whether or not it failed. -/
def attempt (body : Durable S E A) : Durable S E (Except E A) := fun state =>
  let trace := body state
  { visited := trace.visited, outcome := .ok trace.outcome }

/-- Runs a computation over a part of the state. -/
def within {P : Type} (view : S → P) (put : P → S → S) (body : Durable P E A) : Durable S E A :=
  fun state =>
    let trace := body (view state)
    { visited := trace.visited.map fun part => put part state, outcome := trace.outcome }

/-- The states a crash can leave: the first and every one on the way. -/
def crashes (body : Durable S E A) (state : S) : List S := state :: (body state).visited

def after (body : Durable S E A) (state : S) : S := (body state).last state

theorem after_mem_crashes (body : Durable S E A) (state : S) :
    body.after state ∈ body.crashes state := by
  rw [after, Trace.last, List.getLastD_eq_getLast?, crashes]
  cases hvisited : (body state).visited.getLast? with
  | none => exact List.mem_cons_self
  | some reached => exact List.mem_cons_of_mem _ (List.mem_of_getLast? hvisited)

/-! ## What holds on the way and at the end -/

/-- Every state on the way satisfies `along`; a value is returned only where
`post` holds of it, and a failure only where `failed` holds. -/
def holds (body : Durable S E A) (state : S) (along : S → Prop) (post : A → S → Prop)
    (failed : E → S → Prop) : Prop :=
  (∀ reached ∈ (body state).visited, along reached) ∧
  match (body state).outcome with
  | .ok value => post value (body.after state)
  | .error error => failed error (body.after state)

section Rules

variable {state : S} {along : S → Prop} {failed : E → S → Prop}

@[simp] theorem holds_pure (value : A) (post : A → S → Prop) :
    holds (pure value : Durable S E A) state along post failed ↔ post value state :=
  ⟨fun h => h.2, fun h => ⟨fun _ hmem => (List.not_mem_nil hmem).elim, h⟩⟩

@[simp] theorem holds_ret (value : A) (post : A → S → Prop) :
    holds (ret value : Durable S E A) state along post failed ↔ post value state :=
  holds_pure value post

@[simp] theorem holds_fail (error : E) (post : A → S → Prop) :
    holds (fail error : Durable S E A) state along post failed ↔ failed error state :=
  ⟨fun h => h.2, fun h => ⟨fun _ hmem => (List.not_mem_nil hmem).elim, h⟩⟩

@[simp] theorem holds_reads (view : S → A) (post : A → S → Prop) :
    holds (reads view : Durable S E A) state along post failed ↔ post (view state) state :=
  ⟨fun h => h.2, fun h => ⟨fun _ hmem => (List.not_mem_nil hmem).elim, h⟩⟩

@[simp] theorem holds_write (change : S → S) (post : Unit → S → Prop) :
    holds (write change : Durable S E Unit) state along post failed ↔
      along (change state) ∧ post () (change state) := by
  constructor
  · rintro ⟨hvisited, hpost⟩
    exact ⟨hvisited _ List.mem_cons_self, hpost⟩
  · rintro ⟨halong, hpost⟩
    refine ⟨?_, hpost⟩
    intro reached hmem
    obtain rfl := List.mem_singleton.mp hmem
    exact halong

@[simp] theorem holds_require (condition : Prop) [Decidable condition] (error : E)
    (post : Unit → S → Prop) :
    holds (require condition error : Durable S E Unit) state along post failed ↔
      (condition → post () state) ∧ (¬condition → failed error state) := by
  by_cases hcondition : condition <;> simp [require, hcondition]

@[simp] theorem holds_expect (value : Option A) (error : E) (post : A → S → Prop) :
    holds (expect value error : Durable S E A) state along post failed ↔
      (∀ found, value = some found → post found state) ∧
      (value = none → failed error state) := by
  cases value <;> simp [expect]

@[simp] theorem holds_lift (outcome : Except E A) (post : A → S → Prop) :
    holds (lift outcome : Durable S E A) state along post failed ↔
      (∀ value, outcome = .ok value → post value state) ∧
      (∀ error, outcome = .error error → failed error state) := by
  cases outcome with
  | ok value =>
      constructor
      · rintro ⟨-, hpost⟩
        exact ⟨by rintro _ ⟨⟩; exact hpost, by rintro _ ⟨⟩⟩
      · rintro ⟨hpost, -⟩
        exact ⟨fun _ hmem => (List.not_mem_nil hmem).elim, hpost value rfl⟩
  | error error =>
      constructor
      · rintro ⟨-, hfailed⟩
        exact ⟨by rintro _ ⟨⟩, by rintro _ ⟨⟩; exact hfailed⟩
      · rintro ⟨-, hfailed⟩
        exact ⟨fun _ hmem => (List.not_mem_nil hmem).elim, hfailed error rfl⟩

theorem getLastD_append (front back : List S) (start : S) :
    (front ++ back).getLastD start = back.getLastD (front.getLastD start) := by
  simp only [List.getLastD_eq_getLast?, List.getLast?_append]
  cases back.getLast? <;> rfl

@[simp] theorem holds_andThen (first : Durable S E A) (next : A → Durable S E B)
    (post : B → S → Prop) :
    holds (andThen first next) state along post failed ↔
      holds first state along (fun value reached => holds (next value) reached along post failed)
        failed := by
  cases houtcome : (first state).outcome with
  | error error => simp only [holds, after, andThen, houtcome, Trace.last]
  | ok value =>
      simp only [holds, after, andThen, houtcome, Trace.last, getLastD_append, List.mem_append]
      constructor
      · rintro ⟨hvisited, hend⟩
        exact ⟨fun reached hmem => hvisited reached (.inl hmem),
          fun reached hmem => hvisited reached (.inr hmem), hend⟩
      · rintro ⟨hfirst, hnext, hend⟩
        refine ⟨?_, hend⟩
        rintro reached (hmem | hmem)
        · exact hfirst reached hmem
        · exact hnext reached hmem

@[simp] theorem holds_bind (first : Durable S E A) (next : A → Durable S E B)
    (post : B → S → Prop) :
    holds (first >>= next) state along post failed ↔
      holds first state along (fun value reached => holds (next value) reached along post failed)
        failed :=
  holds_andThen first next post

@[simp] theorem holds_ite (condition : Prop) [Decidable condition] (left right : Durable S E A)
    (post : A → S → Prop) :
    holds (if condition then left else right) state along post failed ↔
      (condition → holds left state along post failed) ∧
      (¬condition → holds right state along post failed) := by
  by_cases hcondition : condition <;> simp [hcondition]

theorem holds_mono {body : Durable S E A} {along' : S → Prop} {post post' : A → S → Prop}
    {failed' : E → S → Prop} (hbody : holds body state along post failed)
    (halong : ∀ reached, along reached → along' reached)
    (hpost : ∀ value reached, post value reached → post' value reached)
    (hfailed : ∀ error reached, failed error reached → failed' error reached) :
    holds body state along' post' failed' := by
  obtain ⟨hvisited, hend⟩ := hbody
  refine ⟨fun reached hmem => halong reached (hvisited reached hmem), ?_⟩
  split at hend
  · exact hpost _ _ hend
  · exact hfailed _ _ hend

theorem holds_each {items : List A} {body : A → Durable S E Unit} (inv : List A → S → Prop)
    (hinit : inv items state)
    (hstep : ∀ item rest reached, inv (item :: rest) reached →
      holds (body item) reached along (fun _ next => inv rest next) failed) :
    holds (each items body) state along (fun _ reached => inv [] reached) failed := by
  induction items generalizing state with
  | nil =>
      rw [each, holds_ret]
      exact hinit
  | cons item rest ih =>
      rw [each, holds_andThen]
      exact holds_mono (hstep item rest state hinit) (fun _ h => h) (fun _ _ h => ih h)
        fun _ _ h => h

/-- `body` keeps `inv`, wherever it stops. -/
def Keeps (inv : S → Prop) (body : Durable S E A) : Prop :=
  ∀ state, inv state → holds body state inv (fun _ reached => inv reached) fun _ => inv

section Keeps

variable {inv : S → Prop}

@[simp] theorem keeps_pure (value : A) : Keeps inv (pure value : Durable S E A) := by
  intro state hinv
  simpa using hinv

@[simp] theorem keeps_reads (view : S → A) : Keeps inv (reads view : Durable S E A) := by
  intro state hinv
  simpa using hinv

@[simp] theorem keeps_lift (outcome : Except E A) : Keeps inv (lift outcome : Durable S E A) := by
  intro state hinv
  simp [hinv]

@[simp] theorem keeps_require (condition : Prop) [Decidable condition] (error : E) :
    Keeps inv (require condition error : Durable S E Unit) := by
  intro state hinv
  simp [hinv]

@[simp] theorem keeps_expect (value : Option A) (error : E) : Keeps inv (expect value error : Durable S E A) := by
  intro state hinv
  simp [hinv]

theorem keeps_write {change : S → S} (hchange : ∀ state, inv state → inv (change state)) :
    Keeps inv (write change : Durable S E Unit) := by
  intro state hinv
  simp [hchange state hinv]

theorem keeps_bind {first : Durable S E A} {next : A → Durable S E B} (hfirst : Keeps inv first)
    (hnext : ∀ value, Keeps inv (next value)) : Keeps inv (first >>= next) := by
  intro state hinv
  rw [holds_bind]
  exact holds_mono (hfirst state hinv) (fun _ h => h) (fun value reached h => hnext value reached h)
    fun _ _ h => h

theorem keeps_ite {condition : Prop} [Decidable condition] {left right : Durable S E A}
    (hleft : condition → Keeps inv left) (hright : ¬condition → Keeps inv right) :
    Keeps inv (if condition then left else right) := by
  intro state hinv
  rw [holds_ite]
  exact ⟨fun h => hleft h state hinv, fun h => hright h state hinv⟩

theorem keeps_each {items : List A} {body : A → Durable S E Unit}
    (hbody : ∀ item ∈ items, Keeps inv (body item)) : Keeps inv (each items body) := by
  intro state hinv
  apply holds_mono (holds_each (fun rest reached => rest ⊆ items ∧ inv reached) ?_ ?_)
  · exact fun _ h => h
  · exact fun _ _ h => h.2
  · exact fun _ _ h => h
  · exact ⟨fun _ hmem => hmem, hinv⟩
  · rintro item rest reached ⟨hsubset, hreached⟩
    apply holds_mono (hbody item (hsubset List.mem_cons_self) reached hreached)
    · exact fun _ h => h
    · exact fun _ _ h => ⟨fun _ hmem => hsubset (List.mem_cons_of_mem _ hmem), h⟩
    · exact fun _ _ h => h

end Keeps

/-- What holds on the way and at the start holds of every state a crash can leave. -/
theorem of_mem_crashes {body : Durable S E A} {post : A → S → Prop}
    (hbody : holds body state along post failed) (hstart : along state) {reached : S}
    (hmem : reached ∈ body.crashes state) : along reached := by
  rcases List.mem_cons.mp hmem with rfl | hmem
  · exact hstart
  · exact hbody.1 reached hmem

end Rules

end Durable

end Mews
