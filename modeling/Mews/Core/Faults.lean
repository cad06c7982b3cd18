import Mathlib.Data.Option.Basic

/-!
# Computations whose steps can fail

A computation of type `Faulty O W S E A` takes named steps on a state of type `S`.  One of
them can fail, with what it leaves half done, and the computation handles the failure as it
can, or the process stops there.  `ensures` is the weakest precondition: what is true where
the computation is done, where it has failed, and where it has stopped.
-/

namespace Mews

variable {O W S E A B : Type}

/-- How a computation ends. -/
inductive Ending (E A : Type) where
  | done (value : A)
  | failed (error : E)
  | stopped
  deriving DecidableEq

/-- The step that fails.  The process may stop with it. -/
structure Fault (O W : Type) where
  operation : O
  stops : Bool
  wreck : W

/-- A state, and the fault that is still to come. -/
structure Drive (O W S : Type) where
  state : S
  fault : Option (Fault O W)

def Faulty (O W S E A : Type) := Drive O W S → Ending E A × Drive O W S

namespace Drive

variable [DecidableEq O]

/-- The fault of a step that is taken now. -/
def strikes (drive : Drive O W S) (operation : O) : Option (Fault O W) :=
  drive.fault.filter fun fault => fault.operation = operation

theorem strikes_eq_none_iff {drive : Drive O W S} {operation : O} :
    drive.strikes operation = none ↔ ∀ fault ∈ drive.fault, fault.operation ≠ operation := by
  rw [strikes, Option.filter_eq_none_iff]
  simp

theorem strikes_eq_some_iff {drive : Drive O W S} {operation : O} {fault : Fault O W} :
    drive.strikes operation = some fault ↔
      drive.fault = some fault ∧ fault.operation = operation := by
  rw [strikes, Option.filter_eq_some_iff, decide_eq_true_iff]

end Drive

namespace Faulty

def ret (value : A) : Faulty O W S E A := fun drive => (.done value, drive)

def andThen (first : Faulty O W S E A) (next : A → Faulty O W S E B) : Faulty O W S E B :=
  fun drive =>
    match first drive with
    | (.done value, drive) => next value drive
    | (.failed error, drive) => (.failed error, drive)
    | (.stopped, drive) => (.stopped, drive)

instance : Monad (Faulty O W S E) where
  pure := ret
  bind := andThen

def fail (error : E) : Faulty O W S E A := fun drive => (.failed error, drive)

def reads (view : S → A) : Faulty O W S E A := fun drive => (.done (view drive.state), drive)

/-- One step.  It can also be refused where the state does not admit it. -/
def step [DecidableEq O] (operation : O) (error : E) (change : S → Option (A × S))
    (spoil : W → S → S) : Faulty O W S E A := fun drive =>
  match drive.strikes operation with
  | some fault =>
      (if fault.stops then .stopped else .failed error,
        { state := spoil fault.wreck drive.state, fault := none })
  | none =>
      match change drive.state with
      | none => (.failed error, drive)
      | some (value, state) => (.done value, { drive with state })

/-- Goes on with `recover` where `body` has failed. -/
def handle (body : Faulty O W S E A) (recover : E → Faulty O W S E A) : Faulty O W S E A :=
  fun drive =>
    match body drive with
    | (.failed error, drive) => recover error drive
    | (.done value, drive) => (.done value, drive)
    | (.stopped, drive) => (.stopped, drive)

/-- Goes on whether or not `body` has failed. -/
def ignore (body : Faulty O W S E Unit) : Faulty O W S E Unit := handle body fun _ => ret ()

def each (items : List A) (body : A → Faulty O W S E Unit) : Faulty O W S E Unit :=
  match items with
  | [] => ret ()
  | item :: rest => andThen (body item) fun _ => each rest body

/-- What holds where the computation is done, has failed, or has stopped. -/
def ensures (body : Faulty O W S E A) (drive : Drive O W S) (post : A → Drive O W S → Prop)
    (failed : E → Drive O W S → Prop) (stopped : Drive O W S → Prop) : Prop :=
  match body drive with
  | (.done value, drive) => post value drive
  | (.failed error, drive) => failed error drive
  | (.stopped, drive) => stopped drive

section Rules

variable {drive : Drive O W S} {post : A → Drive O W S → Prop} {failed : E → Drive O W S → Prop}
  {stopped : Drive O W S → Prop}

@[simp] theorem ensures_pure (value : A) :
    ensures (pure value : Faulty O W S E A) drive post failed stopped ↔ post value drive := Iff.rfl

@[simp] theorem ensures_ret (value : A) :
    ensures (ret value : Faulty O W S E A) drive post failed stopped ↔ post value drive := Iff.rfl

@[simp] theorem ensures_reads (view : S → A) :
    ensures (reads view : Faulty O W S E A) drive post failed stopped ↔
      post (view drive.state) drive := Iff.rfl

@[simp] theorem ensures_andThen (first : Faulty O W S E A) (next : A → Faulty O W S E B)
    {post : B → Drive O W S → Prop} :
    ensures (andThen first next) drive post failed stopped ↔
      ensures first drive (fun value reached => ensures (next value) reached post failed stopped)
        failed stopped := by
  rw [ensures, ensures, andThen]
  rcases first drive with ⟨value | error | _, reached⟩
  · rfl
  · rfl
  · rfl

@[simp] theorem ensures_bind (first : Faulty O W S E A) (next : A → Faulty O W S E B)
    {post : B → Drive O W S → Prop} :
    ensures (first >>= next) drive post failed stopped ↔
      ensures first drive (fun value reached => ensures (next value) reached post failed stopped)
        failed stopped := ensures_andThen first next

@[simp] theorem ensures_handle (body : Faulty O W S E A) (recover : E → Faulty O W S E A) :
    ensures (handle body recover) drive post failed stopped ↔
      ensures body drive post
        (fun error reached => ensures (recover error) reached post failed stopped) stopped := by
  rw [ensures, ensures, handle]
  rcases body drive with ⟨value | error | _, reached⟩
  · rfl
  · rfl
  · rfl

@[simp] theorem ensures_ignore (body : Faulty O W S E Unit)
    {post : Unit → Drive O W S → Prop} :
    ensures (ignore body) drive post failed stopped ↔
      ensures body drive post (fun _ reached => post () reached) stopped :=
  ensures_handle body _

theorem ensures_step [DecidableEq O] {operation : O} {error : E} {change : S → Option (A × S)}
    {spoil : W → S → S}
    (hfault : ∀ fault, drive.strikes operation = some fault →
      if fault.stops then stopped ⟨spoil fault.wreck drive.state, none⟩
      else failed error ⟨spoil fault.wreck drive.state, none⟩)
    (hrefused : drive.strikes operation = none → change drive.state = none → failed error drive)
    (hchange : drive.strikes operation = none → ∀ value state,
      change drive.state = some (value, state) → post value { drive with state }) :
    ensures (step operation error change spoil) drive post failed stopped := by
  rw [ensures, step]
  cases hstrikes : drive.strikes operation with
  | some fault =>
      have hwrecked := hfault fault hstrikes
      cases hstops : fault.stops with
      | true => simpa [hstops] using hwrecked
      | false => simpa [hstops] using hwrecked
  | none =>
      cases hchanged : change drive.state with
      | none => exact hrefused hstrikes hchanged
      | some changed => exact hchange hstrikes _ _ hchanged

theorem ensures_mono {body : Faulty O W S E A} {post' : A → Drive O W S → Prop}
    {failed' : E → Drive O W S → Prop} {stopped' : Drive O W S → Prop}
    (hbody : ensures body drive post failed stopped)
    (hpost : ∀ value reached, post value reached → post' value reached)
    (hfailed : ∀ error reached, failed error reached → failed' error reached)
    (hstopped : ∀ reached, stopped reached → stopped' reached) :
    ensures body drive post' failed' stopped' := by
  rw [ensures] at hbody ⊢
  rcases hresult : body drive with ⟨value | error | _, reached⟩
  · rw [hresult] at hbody
    exact hpost value reached hbody
  · rw [hresult] at hbody
    exact hfailed error reached hbody
  · rw [hresult] at hbody
    exact hstopped reached hbody

theorem ensures_each {items : List A} {body : A → Faulty O W S E Unit}
    (inv : List A → Drive O W S → Prop) (hinit : inv items drive)
    (hstep : ∀ item rest reached, inv (item :: rest) reached →
      ensures (body item) reached (fun _ next => inv rest next) failed stopped) :
    ensures (each items body) drive (fun _ reached => inv [] reached) failed stopped := by
  induction items generalizing drive with
  | nil => exact hinit
  | cons item rest ih =>
      rw [each, ensures_andThen]
      apply ensures_mono (hstep item rest drive hinit)
      · intro _ reached hinv
        exact ih hinv
      · intro _ _ herror
        exact herror
      · intro _ hstopped
        exact hstopped

end Rules

end Faulty

end Mews
