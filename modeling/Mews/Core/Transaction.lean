import Mathlib.Logic.Relation

/-!
# Failing computations over a state

A computation of type `Tx S E A` reads and writes a state and either returns a
value or fails.  A failure keeps the state it reached; `atomically` is the
combinator that undoes it, with the part of the state that survives a rollback
given by the caller.  `ensures` is the weakest precondition for the successful
outcomes, and `Preserves` collects the computations every outcome of which is
related to the state they started from.
-/

namespace Mews

variable {S E A B : Type}

def Tx (S E A : Type) : Type := S → Except E A × S

namespace Tx

def ret (value : A) : Tx S E A := fun state => (.ok value, state)

def andThen (first : Tx S E A) (next : A → Tx S E B) : Tx S E B := fun state =>
  match first state with
  | (.ok value, state') => next value state'
  | (.error error, state') => (.error error, state')

instance : Monad (Tx S E) where
  pure := ret
  bind := andThen

instance : LawfulMonad (Tx S E) := by
  refine LawfulMonad.mk' (Tx S E) ?_ ?_ ?_
  · intro A body
    funext state
    change andThen body (fun value => ret value) state = body state
    cases hbody : body state with
    | mk outcome state' => cases outcome <;> simp [andThen, hbody, ret]
  · exact fun _ _ => rfl
  · intro A B C body next last
    funext state
    change andThen (andThen body next) last state =
      andThen body (fun value => andThen (next value) last) state
    cases hbody : body state with
    | mk outcome state' => cases outcome <;> simp [andThen, hbody]

def fail (error : E) : Tx S E A := fun state => (.error error, state)

/-- Reads a part of the state. -/
def reads (view : S → A) : Tx S E A := fun state => (.ok (view state), state)

def modify (change : S → S) : Tx S E Unit := fun state => (.ok (), change state)

/-- Lifts a computation that does not touch the state. -/
def lift (outcome : Except E A) : Tx S E A := fun state => (outcome, state)

def require (condition : Prop) [Decidable condition] (error : E) : Tx S E Unit :=
  if condition then ret () else fail error

def expect (value : Option A) (error : E) : Tx S E A :=
  match value with
  | some value => ret value
  | none => fail error

/-- Runs `body`; a failure leaves the state `undo before reached`. -/
def atomically (undo : S → S → S) (body : Tx S E A) : Tx S E A := fun state =>
  match body state with
  | (.ok value, state') => (.ok value, state')
  | (.error error, state') => (.error error, undo state state')

/-- Runs `body` and goes on whether or not it failed. -/
def attempt (body : Tx S E A) : Tx S E (Except E A) := fun state =>
  (.ok (body state).1, (body state).2)

def each (items : List A) (body : A → Tx S E Unit) : Tx S E Unit :=
  match items with
  | [] => ret ()
  | item :: rest => andThen (body item) fun _ => each rest body

/-! ## Successful runs -/

/-- The run of `body` from `state` returns `value` and ends in `state'`. -/
def Runs (body : Tx S E A) (state : S) (value : A) (state' : S) : Prop :=
  body state = (.ok value, state')

theorem runs_pure (value : A) (state : S) : Runs (pure value : Tx S E A) state value state := rfl

theorem runs_reads (view : S → A) (state : S) :
    Runs (reads view : Tx S E A) state (view state) state := rfl

theorem runs_modify (change : S → S) (state : S) :
    Runs (modify change : Tx S E Unit) state () (change state) := rfl

theorem lift_ok (value : A) : (lift (.ok value) : Tx S E A) = pure value := rfl

theorem lift_bind (first : Except E A) (next : A → Except E B) :
    (lift (first >>= next) : Tx S E B) = lift first >>= fun value => lift (next value) := by
  cases first <;> rfl

theorem runs_lift {outcome : Except E A} {value : A} (houtcome : outcome = .ok value) (state : S) :
    Runs (lift outcome) state value state := by
  rw [Runs, lift, houtcome]

theorem runs_require {condition : Prop} [Decidable condition] {error : E}
    (hcondition : condition) (state : S) : Runs (require condition error) state () state := by
  rw [require, if_pos hcondition]
  rfl

theorem runs_expect {found : Option A} {value : A} {error : E} (hfound : found = some value)
    (state : S) : Runs (expect found error) state value state := by
  rw [hfound]
  rfl

theorem Runs.andThen {first : Tx S E A} {next : A → Tx S E B} {state middle state' : S}
    {value : A} {result : B} (hfirst : Runs first state value middle)
    (hnext : Runs (next value) middle result state') :
    Runs (Tx.andThen first next) state result state' := by
  rw [Runs, Tx.andThen, hfirst]
  exact hnext

theorem Runs.bind {first : Tx S E A} {next : A → Tx S E B} {state middle state' : S}
    {value : A} {result : B} (hfirst : Runs first state value middle)
    (hnext : Runs (next value) middle result state') : Runs (first >>= next) state result state' :=
  hfirst.andThen hnext

theorem Runs.atomically {undo : S → S → S} {body : Tx S E A} {state state' : S} {value : A}
    (hbody : Runs body state value state') : Runs (atomically undo body) state value state' := by
  rw [Runs, Tx.atomically, hbody]

theorem runs_each_cons {item : A} {items : List A} {body : A → Tx S E Unit} {state state' : S} :
    Runs (each (item :: items) body) state () state' ↔
      ∃ middle, Runs (body item) state () middle ∧ Runs (each items body) middle () state' := by
  constructor
  · intro hrun
    cases hitem : body item state with
    | mk outcome middle =>
        cases outcome with
        | ok value =>
            refine ⟨middle, hitem, ?_⟩
            simpa [Runs, each, Tx.andThen, hitem] using hrun
        | error error => simp [Runs, each, Tx.andThen, hitem] at hrun
  · rintro ⟨middle, hitem, hitems⟩
    exact hitem.andThen hitems

theorem Runs.each_append {items rest : List A} {body : A → Tx S E Unit} {state middle state' : S}
    (hitems : Runs (each items body) state () middle) (hrest : Runs (each rest body) middle () state') :
    Runs (each (items ++ rest) body) state () state' := by
  induction items generalizing state with
  | nil =>
      cases hitems
      exact hrest
  | cons item items ih =>
      obtain ⟨reached, hitem, hitems⟩ := runs_each_cons.mp hitems
      exact runs_each_cons.mpr ⟨reached, hitem, ih hitems⟩

theorem runs_each_singleton {item : A} {body : A → Tx S E Unit} {state state' : S}
    (hitem : Runs (body item) state () state') : Runs (each [item] body) state () state' :=
  runs_each_cons.mpr ⟨state', hitem, rfl⟩

/-! ## Failed runs -/

/-- The run of `body` from `state` fails with `error` in `state'`. -/
def Fails (body : Tx S E A) (state : S) (error : E) (state' : S) : Prop :=
  body state = (.error error, state')

theorem fails_require {condition : Prop} [Decidable condition] {error : E}
    (hcondition : ¬condition) (state : S) : Fails (require condition error) state error state := by
  rw [require, if_neg hcondition]
  rfl

theorem Fails.bind {first : Tx S E A} {error : E} {state state' : S}
    (hfirst : Fails first state error state') (next : A → Tx S E B) :
    Fails (first >>= next) state error state' := by
  change Tx.andThen first next state = _
  rw [Tx.andThen, hfirst]

theorem Runs.fails {first : Tx S E A} {next : A → Tx S E B} {state middle state' : S} {value : A}
    {error : E} (hfirst : Runs first state value middle)
    (hnext : Fails (next value) middle error state') : Fails (first >>= next) state error state' := by
  change Tx.andThen first next state = _
  rw [Tx.andThen, hfirst]
  exact hnext

theorem Fails.atomically {undo : S → S → S} {body : Tx S E A} {state state' : S} {error : E}
    (hbody : Fails body state error state') :
    Fails (atomically undo body) state error (undo state state') := by
  rw [Fails, Tx.atomically, hbody]

theorem runs_bind {first : Tx S E A} {next : A → Tx S E B} {state state' : S} {result : B} :
    Runs (first >>= next) state result state' ↔
      ∃ value middle, Runs first state value middle ∧ Runs (next value) middle result state' := by
  constructor
  · intro hrun
    change Tx.andThen first next state = _ at hrun
    cases hfirst : first state with
    | mk outcome middle =>
        cases outcome with
        | ok value => exact ⟨value, middle, hfirst, by simpa [Runs, Tx.andThen, hfirst] using hrun⟩
        | error error => simp [Tx.andThen, hfirst] at hrun
  · rintro ⟨value, middle, hfirst, hnext⟩
    exact hfirst.bind hnext

theorem runs_pure_iff {value result : A} {state state' : S} :
    Runs (pure value : Tx S E A) state result state' ↔ value = result ∧ state = state' := by
  simp [Runs, pure, ret]

theorem runs_reads_iff {view : S → A} {result : A} {state state' : S} :
    Runs (reads view : Tx S E A) state result state' ↔ view state = result ∧ state = state' := by
  simp [Runs, reads]

theorem runs_modify_iff {change : S → S} {result : Unit} {state state' : S} :
    Runs (modify change : Tx S E Unit) state result state' ↔ change state = state' := by
  simp [Runs, modify]

theorem runs_lift_iff {outcome : Except E A} {result : A} {state state' : S} :
    Runs (lift outcome) state result state' ↔ outcome = .ok result ∧ state = state' := by
  simp [Runs, lift]

theorem runs_require_iff {condition : Prop} [Decidable condition] {error : E} {result : Unit}
    {state state' : S} :
    Runs (require condition error) state result state' ↔ condition ∧ state = state' := by
  by_cases hcondition : condition <;> simp [Runs, require, ret, fail, hcondition]

theorem runs_expect_iff {found : Option A} {error : E} {result : A} {state state' : S} :
    Runs (expect found error) state result state' ↔ found = some result ∧ state = state' := by
  cases found <;> simp [Runs, expect, ret, fail]

theorem runs_atomically_iff {undo : S → S → S} {body : Tx S E A} {result : A} {state state' : S} :
    Runs (atomically undo body) state result state' ↔ Runs body state result state' := by
  rw [Runs, atomically, Runs]
  split <;> rename_i hbody <;> simp [hbody]

theorem fails_bind {first : Tx S E A} {next : A → Tx S E B} {state state' : S} {error : E} :
    Fails (first >>= next) state error state' ↔
      Fails first state error state' ∨
      ∃ value middle, Runs first state value middle ∧ Fails (next value) middle error state' := by
  constructor
  · intro hrun
    change Tx.andThen first next state = _ at hrun
    cases hfirst : first state with
    | mk outcome middle =>
        cases outcome with
        | ok value => exact .inr ⟨value, middle, hfirst, by simpa [Fails, Tx.andThen, hfirst] using hrun⟩
        | error error => exact .inl (by simpa [Fails, Tx.andThen, hfirst] using hrun)
  · rintro (hfirst | ⟨value, middle, hfirst, hnext⟩)
    · exact hfirst.bind next
    · exact hfirst.fails hnext

theorem fails_lift {outcome : Except E A} {state state' : S} {error : E} :
    Fails (lift outcome) state error state' ↔ outcome = .error error ∧ state' = state := by
  rw [Fails, lift, Prod.mk.injEq, @eq_comm _ state]

/-! ## Weakest preconditions of the successful outcomes -/

/-- Every successful outcome of `body` from `state` satisfies `post`. -/
def ensures (body : Tx S E A) (state : S) (post : A → S → Prop) : Prop :=
  ∀ value state', body state = (.ok value, state') → post value state'

theorem ensures_mono {body : Tx S E A} {state : S} {post post' : A → S → Prop}
    (hbody : ensures body state post) (himp : ∀ value state', post value state' → post' value state') :
    ensures body state post' :=
  fun value state' hrun => himp value state' (hbody value state' hrun)

/-- Two computations agree if they go on alike from every value of their first part. -/
theorem bind_eq_of_ensures {first : Tx S E A} {next next' : A → Tx S E B} {state : S}
    (hnext : ensures first state fun value state' => next value state' = next' value state') :
    (first >>= next) state = (first >>= next') state := by
  change andThen first next state = andThen first next' state
  rw [andThen, andThen]
  cases hfirst : first state with
  | mk outcome state' =>
      cases outcome with
      | ok value => exact hnext value state' hfirst
      | error error => rfl

/-- The run of `body` from `state` returns a value. -/
def succeeds (body : Tx S E A) (state : S) : Prop := (body state).1.isOk = true

instance (body : Tx S E A) (state : S) : Decidable (succeeds body state) :=
  inferInstanceAs (Decidable (_ = true))

theorem succeeds_iff {body : Tx S E A} {state : S} :
    succeeds body state ↔ ∃ value state', Runs body state value state' := by
  cases hrun : body state with
  | mk outcome state' => cases outcome <;> simp [succeeds, Runs, hrun, Except.isOk, Except.toBool]

/-- What the successful outcomes say of the state holds after a run that succeeds. -/
theorem succeeds.of_ensures {body : Tx S E A} {state : S} {post : S → Prop}
    (hsucceeds : succeeds body state) (hensures : ensures body state fun _ => post) :
    post (body state).2 := by
  obtain ⟨value, state', hrun⟩ := succeeds_iff.mp hsucceeds
  rw [hrun]
  exact hensures value state' hrun

@[simp] theorem ensures_pure (value : A) (state : S) (post : A → S → Prop) :
    ensures (pure value : Tx S E A) state post ↔ post value state := by
  constructor
  · intro h
    exact h value state rfl
  · intro h value' state' hrun
    cases hrun
    exact h

@[simp] theorem ensures_ret (value : A) (state : S) (post : A → S → Prop) :
    ensures (ret value : Tx S E A) state post ↔ post value state :=
  ensures_pure value state post

@[simp] theorem ensures_andThen (first : Tx S E A) (next : A → Tx S E B) (state : S)
    (post : B → S → Prop) :
    ensures (andThen first next) state post ↔
      ensures first state fun value state' => ensures (next value) state' post := by
  constructor
  · intro h value state' hfirst result state'' hnext
    refine h result state'' ?_
    simp only [andThen, hfirst, hnext]
  · intro h result state'' hrun
    cases hfirst : first state with
    | mk outcome state' =>
        cases outcome with
        | error error => simp [andThen, hfirst] at hrun
        | ok value =>
            simp only [andThen, hfirst] at hrun
            exact h value state' hfirst result state'' hrun

@[simp] theorem ensures_bind (first : Tx S E A) (next : A → Tx S E B) (state : S)
    (post : B → S → Prop) :
    ensures (first >>= next) state post ↔
      ensures first state fun value state' => ensures (next value) state' post :=
  ensures_andThen first next state post

@[simp] theorem ensures_map (body : Tx S E A) (f : A → B) (state : S) (post : B → S → Prop) :
    ensures (f <$> body) state post ↔ ensures body state fun value state' => post (f value) state' :=
  ensures_andThen body (fun value => ret (f value)) state post |>.trans <| by simp

@[simp] theorem ensures_fail (error : E) (state : S) (post : A → S → Prop) :
    ensures (fail error) state post := by
  intro value state' hrun
  simp [fail] at hrun

@[simp] theorem ensures_reads (view : S → A) (state : S) (post : A → S → Prop) :
    ensures (reads view : Tx S E A) state post ↔ post (view state) state :=
  @ensures_ret S E A (view state) state post

@[simp] theorem ensures_modify (change : S → S) (state : S) (post : Unit → S → Prop) :
    ensures (modify change : Tx S E Unit) state post ↔ post () (change state) := by
  constructor
  · intro h
    exact h () (change state) rfl
  · intro h value state' hrun
    cases hrun
    exact h

@[simp] theorem ensures_lift (outcome : Except E A) (state : S) (post : A → S → Prop) :
    ensures (lift outcome) state post ↔ ∀ value, outcome = .ok value → post value state := by
  constructor
  · intro h value hvalue
    exact h value state (by rw [lift, hvalue])
  · intro h value state' hrun
    simp only [lift, Prod.mk.injEq] at hrun
    obtain ⟨hvalue, rfl⟩ := hrun
    exact h value hvalue

@[simp] theorem ensures_require (condition : Prop) [Decidable condition] (error : E)
    (state : S) (post : Unit → S → Prop) :
    ensures (require condition error) state post ↔ (condition → post () state) := by
  by_cases hcondition : condition <;> simp [require, hcondition]

@[simp] theorem ensures_expect (value : Option A) (error : E) (state : S)
    (post : A → S → Prop) :
    ensures (expect value error) state post ↔ ∀ found, value = some found → post found state := by
  cases value <;> simp [expect]

@[simp] theorem ensures_ite (condition : Prop) [Decidable condition]
    (left right : Tx S E A) (state : S) (post : A → S → Prop) :
    ensures (if condition then left else right) state post ↔
      (condition → ensures left state post) ∧ (¬condition → ensures right state post) := by
  by_cases hcondition : condition <;> simp [hcondition]

@[simp] theorem ensures_atomically (undo : S → S → S) (body : Tx S E A) (state : S)
    (post : A → S → Prop) :
    ensures (atomically undo body) state post ↔ ensures body state post := by
  have hiff : ∀ value state',
      atomically undo body state = (.ok value, state') ↔ body state = (.ok value, state') := by
    intro value state'
    cases hbody : body state with
    | mk outcome reached => cases outcome <;> simp [atomically, hbody]
  simp only [ensures, hiff]

private theorem ensures_each_from {body : A → Tx S E Unit} {items : List A}
    (inv : List A → S → Prop)
    (hstep : ∀ done item rest state, items = done ++ item :: rest → inv done state →
      ensures (body item) state fun _ state' => inv (done ++ [item]) state') :
    ∀ (rest done : List A) (state : S), items = done ++ rest → inv done state →
      ensures (each rest body) state fun _ state' => inv items state' := by
  intro rest
  induction rest with
  | nil =>
      intro done state hitems hinv
      rw [hitems, List.append_nil]
      simpa [each] using hinv
  | cons item rest ih =>
      intro done state hitems hinv
      simp only [each, ensures_andThen]
      refine ensures_mono (hstep done item rest state hitems hinv) ?_
      intro _ state' hinv'
      exact ih (done ++ [item]) state' (by simp [hitems]) hinv'

/-- The loop rule, with an invariant over the items already processed. -/
theorem ensures_each {body : A → Tx S E Unit} {items : List A} {state : S}
    (inv : List A → S → Prop) (hinit : inv [] state)
    (hstep : ∀ done item rest state, items = done ++ item :: rest → inv done state →
      ensures (body item) state fun _ state' => inv (done ++ [item]) state') :
    ensures (each items body) state fun _ state' => inv items state' :=
  ensures_each_from inv hstep items [] state rfl hinit

theorem Runs.ensures {body : Tx S E A} {state state' : S} {value : A} {post : A → S → Prop}
    (hrun : Runs body state value state') : ensures body state post ↔ post value state' := by
  constructor
  · intro h
    exact h value state' hrun
  · intro h value' reached hrun'
    cases hrun.symm.trans hrun'
    exact h

theorem Runs.not_fails {body : Tx S E A} {state state' reached : S} {value : A} {error : E}
    (hrun : Runs body state value state') : ¬Fails body state error reached := by
  intro hfails
  cases hrun.symm.trans hfails

/-! ## Weakest preconditions of the failures -/

/-- Every failure of `body` from `state` satisfies `post`. -/
def refuses (body : Tx S E A) (state : S) (post : E → Prop) : Prop :=
  ∀ error state', Fails body state error state' → post error

@[simp] theorem refuses_pure (value : A) (state : S) (post : E → Prop) :
    refuses (pure value : Tx S E A) state post := by
  intro error state' hrun
  cases hrun

@[simp] theorem refuses_reads (view : S → A) (state : S) (post : E → Prop) :
    refuses (reads view : Tx S E A) state post :=
  refuses_pure (view state) state post

@[simp] theorem refuses_modify (change : S → S) (state : S) (post : E → Prop) :
    refuses (modify change : Tx S E Unit) state post := by
  intro error state' hrun
  cases hrun

@[simp] theorem refuses_bind (first : Tx S E A) (next : A → Tx S E B) (state : S)
    (post : E → Prop) :
    refuses (first >>= next) state post ↔
      refuses first state post ∧
      ensures first state fun value state' => refuses (next value) state' post := by
  simp only [refuses, fails_bind, ensures]
  constructor
  · intro h
    exact ⟨fun error state' hfirst => h error state' (.inl hfirst),
      fun value middle hfirst error state' hnext => h error state' (.inr ⟨value, middle, hfirst, hnext⟩)⟩
  · rintro ⟨hfirst, hnext⟩ error state' (hrun | ⟨value, middle, hrun, hrun'⟩)
    · exact hfirst error state' hrun
    · exact hnext value middle hrun error state' hrun'

@[simp] theorem refuses_lift (outcome : Except E A) (state : S) (post : E → Prop) :
    refuses (lift outcome) state post ↔ ∀ error, outcome = .error error → post error := by
  simp [refuses, fails_lift]

@[simp] theorem refuses_require (condition : Prop) [Decidable condition] (error : E) (state : S)
    (post : E → Prop) :
    refuses (require condition error) state post ↔ (¬condition → post error) := by
  by_cases hcondition : condition
  · simp [require, hcondition, refuses, Fails, ret]
  · simp [require, hcondition, refuses, Fails, fail]

@[simp] theorem refuses_expect (value : Option A) (error : E) (state : S) (post : E → Prop) :
    refuses (expect value error) state post ↔ (value = none → post error) := by
  cases value with
  | none => simp [expect, refuses, Fails, fail]
  | some value => simp [expect, refuses, Fails, ret]

theorem refuses_atomically {undo : S → S → S} {body : Tx S E A} {state : S} {post : E → Prop}
    (hbody : refuses body state post) : refuses (atomically undo body) state post := by
  intro error state' hrun
  cases hresult : body state with
  | mk outcome reached =>
      cases outcome with
      | ok value => simp [Fails, atomically, hresult] at hrun
      | error error' =>
          simp only [Fails, atomically, hresult, Prod.mk.injEq, Except.error.injEq] at hrun
          exact hrun.1 ▸ hbody error' reached hresult

theorem refuses_each_singleton {item : A} {body : A → Tx S E Unit} {state : S} {post : E → Prop}
    (hbody : refuses (body item) state post) : refuses (each [item] body) state post := by
  change refuses (body item >>= fun _ => pure ()) state post
  rw [refuses_bind]
  exact ⟨hbody, fun _ _ _ => refuses_pure () _ post⟩

/-! ## Failures that undo -/

/-- A failed run leaves what `undo` keeps of the state it reached. -/
def RollsBack (undo : S → S → S) (body : Tx S E A) : Prop :=
  ∀ state error state', body state = (.error error, state') → ∃ reached, state' = undo state reached

section RollsBack

variable {undo : S → S → S}

theorem rollsBack_atomically (body : Tx S E A) : RollsBack undo (atomically undo body) := by
  intro state error state' hrun
  cases hbody : body state with
  | mk outcome reached =>
      cases outcome with
      | ok value => simp [atomically, hbody] at hrun
      | error error =>
          simp only [atomically, hbody, Prod.mk.injEq] at hrun
          exact ⟨reached, hrun.2.symm⟩

/-- Every end of the computation is one that `undo` leaves. -/
def Undone (undo : S → S → S) (body : Tx S E A) : Prop :=
  ∀ state, ∃ reached, (body state).2 = undo state reached

/-- Checks and draws made before a computation that rolls back do not spoil it. -/
theorem RollsBack.after {first : Tx S E A} {next : A → Tx S E B}
    (hundo : ∀ state reached reached', undo (undo state reached) reached' = undo state reached')
    (hfirst : Undone undo first) (hnext : ∀ value, RollsBack undo (next value)) :
    RollsBack undo (first >>= next) := by
  intro state error state' hrun
  obtain ⟨reached, hreached⟩ := hfirst state
  cases hrun' : first state with
  | mk outcome middle =>
      rw [hrun'] at hreached
      change andThen first next state = _ at hrun
      cases outcome with
      | ok value =>
          simp only [andThen, hrun'] at hrun hreached
          obtain ⟨reached', hreached'⟩ := hnext value middle error state' hrun
          exact ⟨reached', by rw [hreached', hreached, hundo]⟩
      | error error =>
          simp only [andThen, hrun', Prod.mk.injEq] at hrun hreached
          exact ⟨reached, by rw [← hrun.2, hreached]⟩

/-- A relation that holds of the successful ends and of the undone states holds
of every end. -/
theorem RollsBack.related (R : S → S → Prop) {body : Tx S E A} {state : S}
    (hbody : RollsBack undo body) (hok : ensures body state fun _ state' => R state state')
    (hundo : ∀ reached, R state (undo state reached)) : R state (body state).2 := by
  cases hrun : body state with
  | mk outcome state' =>
      cases outcome with
      | ok value => exact hok value state' hrun
      | error error =>
          obtain ⟨reached, rfl⟩ := hbody state error state' hrun
          exact hundo reached

section Checks

variable (hundo : ∀ state, undo state state = state)
include hundo

theorem undone_lift (outcome : Except E A) : Undone undo (lift outcome : Tx S E A) :=
  fun state => ⟨state, (hundo state).symm⟩

theorem undone_reads (view : S → A) : Undone undo (reads view : Tx S E A) :=
  fun state => ⟨state, (hundo state).symm⟩

theorem undone_require (condition : Prop) [Decidable condition] (error : E) :
    Undone undo (require condition error : Tx S E Unit) := by
  intro state
  refine ⟨state, ?_⟩
  by_cases hcondition : condition <;> simp [require, hcondition, ret, fail, hundo]

theorem undone_expect (value : Option A) (error : E) :
    Undone undo (expect value error : Tx S E A) := by
  intro state
  refine ⟨state, ?_⟩
  cases value <;> exact (hundo state).symm

end Checks

end RollsBack

/-! ## Both outcomes -/

/-- A value is returned only where `post` holds, and a failure only where `failed`
holds. -/
def settles (body : Tx S E A) (state : S) (post : A → S → Prop) (failed : E → S → Prop) : Prop :=
  match body state with
  | (.ok value, state') => post value state'
  | (.error error, state') => failed error state'

section Settles

variable {state : S} {failed : E → S → Prop}

theorem settles_mono {body : Tx S E A} {post post' : A → S → Prop} {failed' : E → S → Prop}
    (hpost : ∀ value state', post value state' → post' value state')
    (hfailed : ∀ error state', failed error state' → failed' error state')
    (h : settles body state post failed) : settles body state post' failed' := by
  rw [settles] at h ⊢
  cases hrun : body state with
  | mk outcome state' =>
      rw [hrun] at h
      cases outcome with
      | ok value => exact hpost value state' h
      | error error => exact hfailed error state' h

theorem settles.cases {body : Tx S E A} {post : A → S → Prop} (h : settles body state post failed) :
    (∃ value, (body state).1 = .ok value ∧ post value (body state).2) ∨
      ∃ error, (body state).1 = .error error ∧ failed error (body state).2 := by
  rw [settles] at h
  cases hrun : body state with
  | mk outcome state' =>
      rw [hrun] at h
      cases outcome with
      | ok value => exact .inl ⟨value, rfl, h⟩
      | error error => exact .inr ⟨error, rfl, h⟩

@[simp] theorem settles_pure (value : A) (post : A → S → Prop) :
    settles (pure value : Tx S E A) state post failed ↔ post value state := Iff.rfl

@[simp] theorem settles_fail (error : E) (post : A → S → Prop) :
    settles (fail error : Tx S E A) state post failed ↔ failed error state := Iff.rfl

@[simp] theorem settles_reads (view : S → A) (post : A → S → Prop) :
    settles (reads view : Tx S E A) state post failed ↔ post (view state) state := Iff.rfl

@[simp] theorem settles_modify (change : S → S) (post : Unit → S → Prop) :
    settles (modify change : Tx S E Unit) state post failed ↔ post () (change state) := Iff.rfl

@[simp] theorem settles_lift (outcome : Except E A) (post : A → S → Prop) :
    settles (lift outcome : Tx S E A) state post failed ↔
      match outcome with
      | .ok value => post value state
      | .error error => failed error state := by
  cases outcome <;> rfl

/-- An attempt goes on from where its computation ended. -/
theorem settles_attempt_bind (body : Tx S E A) (next : Except E A → Tx S E B)
    (post : B → S → Prop) :
    settles (attempt body >>= next) state post failed ↔
      settles (next (body state).1) (body state).2 post failed := Iff.rfl

@[simp] theorem settles_bind (first : Tx S E A) (next : A → Tx S E B) (post : B → S → Prop) :
    settles (first >>= next) state post failed ↔
      settles first state (fun value state' => settles (next value) state' post failed) failed := by
  change settles (andThen first next) state post failed ↔ _
  rw [settles, settles, andThen]
  cases hrun : first state with
  | mk outcome state' => cases outcome <;> rfl

/-- What the values of the first part and the failures of both say. -/
theorem settles_then {first : Tx S E A} {next : A → Tx S E B} {invariant : S → Prop}
    {post : B → S → Prop} (hfirst : settles first state (fun _ => invariant) failed)
    (hnext : ∀ value reached, invariant reached → settles (next value) reached post failed) :
    settles (first >>= next) state post failed := by
  rw [settles_bind]
  exact settles_mono hnext (fun _ _ h => h) hfirst

theorem settles_each {body : B → Tx S E Unit} {items : List B} {invariant : S → Prop}
    (hstep : ∀ item reached, invariant reached →
      settles (body item) reached (fun _ => invariant) failed)
    (hstate : invariant state) : settles (each items body) state (fun _ => invariant) failed := by
  induction items generalizing state with
  | nil => exact hstate
  | cons item items ih => exact settles_then (hstep item state hstate) fun _ _ h => ih h

end Settles

/-! ## Computations every outcome of which keeps a relation -/

/-- Successful and failed runs alike end in a state related to the first. -/
def Preserves (R : S → S → Prop) (body : Tx S E A) : Prop :=
  ∀ state, R state (body state).2

theorem Preserves.andThen {R : S → S → Prop} (htrans : ∀ a b c, R a b → R b c → R a c)
    {first : Tx S E A} {next : A → Tx S E B} (hfirst : Preserves R first)
    (hnext : ∀ value, Preserves R (next value)) : Preserves R (Tx.andThen first next) := by
  intro state
  have hstep := hfirst state
  cases hrun : first state with
  | mk outcome state' =>
      rw [hrun] at hstep
      cases outcome with
      | ok value => simpa [Tx.andThen, hrun] using htrans _ _ _ hstep (hnext value state')
      | error error => simpa [Tx.andThen, hrun] using hstep

theorem Preserves.bind {R : S → S → Prop} (htrans : ∀ a b c, R a b → R b c → R a c)
    {first : Tx S E A} {next : A → Tx S E B} (hfirst : Preserves R first)
    (hnext : ∀ value, Preserves R (next value)) : Preserves R (first >>= next) :=
  Preserves.andThen htrans hfirst hnext

/-- What the first part leads to, and the rest from there, wherever it stops. -/
theorem related_bind {R Q : S → S → Prop} (htrans : ∀ a b c, R a b → Q b c → R a c)
    {first : Tx S E A} {next : A → Tx S E B} {state : S} (hfirst : R state (first state).2)
    (hnext : ∀ value, Preserves Q (next value)) : R state ((first >>= next) state).2 := by
  change R state (Tx.andThen first next state).2
  cases hrun : first state with
  | mk outcome state' =>
      rw [hrun] at hfirst
      rw [Tx.andThen, hrun]
      cases outcome with
      | ok value => exact htrans _ _ _ hfirst (hnext value state')
      | error error => exact hfirst

section Reflexive

variable {R : S → S → Prop} (hrefl : ∀ state, R state state)
include hrefl

theorem preserves_pure (value : A) : Preserves R (pure value : Tx S E A) := hrefl

theorem preserves_fail (error : E) : Preserves R (fail error : Tx S E A) := hrefl

theorem preserves_reads (view : S → A) : Preserves R (reads view : Tx S E A) := hrefl

theorem preserves_lift (outcome : Except E A) : Preserves R (lift outcome : Tx S E A) := hrefl

theorem preserves_require (condition : Prop) [Decidable condition] (error : E) :
    Preserves R (require condition error : Tx S E Unit) := by
  intro state
  by_cases hcondition : condition <;> simpa [require, hcondition, ret, fail] using hrefl state

theorem preserves_expect (value : Option A) (error : E) :
    Preserves R (expect value error : Tx S E A) := by
  intro state
  cases value <;> exact hrefl state

end Reflexive

end Tx

end Mews
