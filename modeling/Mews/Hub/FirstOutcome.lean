import Mews.Hub.ActiveTurns
import Mews.Store.TurnOutcomes

/-!
# The first outcome

The completion, the failure, the cancellation and the guard of a Turn, and the recovery of the
Hub, all try to end it, in whatever order.  An attempt that the Store refuses changes nothing.
The first that it takes decides what has become of the Turn, and none of the later ones
changes that.
-/

namespace Mews

open Protocol Tx

/-! ## Attempts -/

/-- What tries to end a Turn: the runtime with a status of its own, CancelTurn, the guard and
the recovery. -/
inductive FinishAttempt where
  | finish (status : TurnStatus) (error stopReason : Option String)
  | cancel
  | guard (cancelled : Bool)
  | recover
  deriving DecidableEq, Repr

namespace FinishAttempt

/-- The command of the Store that the attempt comes down to. -/
def op (turnId : TurnId) : FinishAttempt → StoreOp
  | .finish status error stopReason => .finishTurnWithStopReason turnId status error stopReason
  | .cancel => .finishTurnWithStopReason turnId .cancelled (some "cancelled by client") none
  | .guard cancelled =>
      .finishTurnWithStopReason turnId (if cancelled then .cancelled else .failed)
        (if cancelled then none
          else some "Turn execution stopped before producing a terminal outcome") none
  | .recover => .recoverInterruptedWork

def exec (world : World) (turnId : TurnId) : FinishAttempt → Store.Action Unit
  | .finish status error stopReason =>
      Store.finishTurnWithStopReason world turnId status error stopReason
  | .cancel => cancelTurn world turnId
  | .guard cancelled => dropTerminalGuard world turnId cancelled
  | .recover => Store.recoverInterruptedWork world

def status : FinishAttempt → TurnStatus
  | .finish status .. => status
  | .cancel => .cancelled
  | .guard cancelled => if cancelled then .cancelled else .failed
  | .recover => .failed

/-- The event that an attempt ends the Turn with. -/
def Ends (turnId : TurnId) (attempt : FinishAttempt) (payload : JournalEvent) : Prop :=
  (attempt.op turnId).produces payload ∧
    ∃ error entry, payload.turnEnd = some (turnId, attempt.status, error, entry)

end FinishAttempt

/-- Of a transaction that is rolled back nothing is left but the draws it made. -/
def Untouched (store store' : Store) : Prop := ∃ reached, store' = Store.rollback store reached

def Running (store : Store) (turnId : TurnId) : Prop :=
  ∃ row ∈ store.projection.turns, row.turn.id = turnId ∧ row.turn.completedAt = none

/-- An attempt on the Turn, or any other command of the Store. -/
inductive FinishStep (turnId : TurnId) where
  | finish (tried : FinishAttempt)
  | other (op : StoreOp) (hother : ¬op.closing turnId)

def FinishStep.exec (world : World) {turnId : TurnId} (store : Store) :
    FinishStep turnId → Store
  | .finish tried => (tried.exec world turnId store).2
  | .other op _ => Store.step world store op

def runSteps (world : World) {turnId : TurnId} (store : Store) (steps : List (FinishStep turnId)) :
    Store :=
  steps.foldl (FinishStep.exec world) store

section Attempts

variable {world : World} {store : Store} {turnId : TurnId} {attempt : FinishAttempt}

theorem Running.not_ended (hreached : Reached world store) (hrunning : Running store turnId) :
    ¬store.projection.TurnEnded turnId := by
  obtain ⟨row, hrow, hid, hactive⟩ := hrunning
  rintro ⟨other, hother, hotherId, hcompleted⟩
  obtain rfl := hreached.lifecycle.keyed.turns.eq_of_mem hrow hother (hid.trans hotherId.symm)
  exact hcompleted hactive

theorem runs_turn {row : TurnRow} (hreached : Reached world store)
    (hrow : row ∈ store.projection.turns) :
    Runs (Store.turn row.turn.id) store row.turn store := by
  have hselect : store.projection.selectTurn row.turn.id = .ok row.turn := by
    rw [Projection.selectTurn, hreached.lifecycle.keyed.turns.find?_eq_some hrow]
  exact (runs_reads _ store).bind (runs_lift hselect store)

/-- On a running Turn every attempt is its command. -/
theorem exec_running (hreached : Reached world store) (hrunning : Running store turnId)
    (attempt : FinishAttempt) :
    (attempt.exec world turnId store).2 = Store.step world store (attempt.op turnId) := by
  obtain ⟨row, hrow, rfl, hactive⟩ := hrunning
  have hturn := runs_turn hreached hrow
  cases attempt with
  | finish status error stopReason => rfl
  | cancel =>
      change (andThen _ _ store).2 = _
      rw [andThen, hturn]
      simp only [hactive]
      rfl
  | guard cancelled =>
      change (guardFound world row.turn.id cancelled (Store.turn row.turn.id store).1
        (Store.turn row.turn.id store).2).2 = _
      rw [hturn]
      simp only [guardFound, hactive]
      rfl
  | recover => rfl

/-- On a Turn that has ended CancelTurn and the guard do nothing. -/
theorem runs_cancelTurn_ended (hreached : Reached world store)
    (hended : store.projection.TurnEnded turnId) : Runs (cancelTurn world turnId) store () store := by
  obtain ⟨row, hrow, rfl, hcompleted⟩ := hended
  apply (runs_turn hreached hrow).bind
  rw [if_pos (Option.isSome_iff_ne_none.mpr hcompleted)]
  rfl

theorem runs_dropTerminalGuard_ended (hreached : Reached world store)
    (hended : store.projection.TurnEnded turnId) (cancelled : Bool) :
    Runs (dropTerminalGuard world turnId cancelled) store () store := by
  obtain ⟨row, hrow, rfl, hcompleted⟩ := hended
  have hturn := runs_turn hreached hrow
  change guardFound world row.turn.id cancelled (Store.turn row.turn.id store).1
    (Store.turn row.turn.id store).2 = _
  rw [hturn]
  simp only [guardFound, if_pos (Option.isSome_iff_ne_none.mpr hcompleted)]
  rfl

/-- `finish_turn` answers by the status of a Turn that has ended. -/
theorem finish_ended (hreached : Reached world store) {row : TurnRow}
    (hrow : row ∈ store.projection.turns) (hcompleted : row.turn.completedAt ≠ none)
    (status : TurnStatus) (error stopReason : Option String) :
    (row.turn.status = status →
      Runs (Store.finishTurnWithStopReason world row.turn.id status error stopReason) store ()
        store) ∧
    (row.turn.status ≠ status → ∃ failure,
      Fails (Store.finishTurnWithStopReason world row.turn.id status error stopReason) store failure
        store) := by
  have hstatus := mt (hreached.lifecycle.status row hrow).mp hcompleted
  have hnone : (store.projection.turns.find? fun other =>
      other.turn.id = row.turn.id ∧ other.turn.completedAt = none) = none := by
    rw [List.find?_eq_none]
    intro other hother hfound
    obtain ⟨hid, hactive⟩ := of_decide_eq_true hfound
    rw [hreached.lifecycle.keyed.turns.eq_of_mem hother hrow hid] at hactive
    exact hcompleted hactive
  have hturn := runs_turn hreached hrow
  have hselect : Runs (Store.select id) store store.projection store := rfl
  constructor
  · intro hsame
    obtain ⟨event, hevent⟩ : ∃ event, Store.terminalEvent row.turn.id error stopReason status =
        some event := by
      cases status with
      | running => exact absurd hsame hstatus
      | completed | failed | cancelled => exact ⟨_, rfl⟩
    apply (runs_expect hevent store).bind
    apply Runs.atomically
    apply hselect.bind
    rw [hnone]
    exact hturn.bind (runs_require hsame store)
  · intro hother
    cases hevent : Store.terminalEvent row.turn.id error stopReason status with
    | none =>
        refine ⟨.invalidData "a finished Turn cannot remain running", ?_⟩
        rw [Store.finishTurnWithStopReason, hevent]
        rfl
    | some event =>
        refine ⟨.invalidData
          s!"Turn already finished with status {Store.statusName row.turn.status}", ?_⟩
        apply (runs_expect hevent store).fails
        change Fails _ store _ (Store.rollback store store)
        apply Fails.atomically
        apply hselect.fails
        rw [hnone]
        exact hturn.fails (fails_require hother store)

/-- What `finish_turn` refuses of a running Turn, it refuses without a change. -/
theorem fails_finish_running (error stopReason : Option String) :
    Fails (Store.finishTurnWithStopReason world turnId .running error stopReason) store
      (.invalidData "a finished Turn cannot remain running") store := rfl

theorem fails_finish_open (hrunning : Running store turnId)
    (hopen : store.projection.openEffects turnId ≠ []) (error stopReason : Option String) :
    Fails (Store.finishTurnWithStopReason world turnId .completed error stopReason) store
      (.invalidData "a Turn cannot complete while it has open effects") store := by
  obtain ⟨row, hrow, hid, hactive⟩ := hrunning
  obtain ⟨found, hfound⟩ : ∃ found, (store.projection.turns.find? fun other =>
      other.turn.id = turnId ∧ other.turn.completedAt = none) = some found :=
    Option.isSome_iff_exists.mp (List.find?_isSome.mpr
      ⟨row, hrow, decide_eq_true ⟨hid, hactive⟩⟩)
  have hselect : Runs (Store.select id) store store.projection store := rfl
  apply (runs_expect rfl store).fails
  change Fails _ store _ (Store.rollback store store)
  apply Fails.atomically
  apply hselect.fails
  rw [hfound]
  exact (fails_require (fun hallowed => hallowed ⟨rfl, hopen⟩) store).bind _

/-! ## An attempt on a running Turn -/

/-- A command that ends a Turn, when it is rolled back or not. -/
theorem untouched_or_ended {action : Store.Action Unit}
    (hrolls : RollsBack Store.rollback action)
    (hensures : ensures action store fun _ store' => store'.projection.TurnEnded turnId) :
    Untouched store (action store).2 ∨ (action store).2.projection.TurnEnded turnId := by
  apply RollsBack.related (fun store store' =>
    Untouched store store' ∨ store'.projection.TurnEnded turnId) hrolls
  · exact ensures_mono hensures fun _ _ hended => .inr hended
  · exact fun reached => .inl ⟨reached, rfl⟩

theorem untouched_or_ended_step (hreached : Reached world store) (hrunning : Running store turnId)
    (attempt : FinishAttempt) :
    Untouched store (Store.step world store (attempt.op turnId)) ∨
      (Store.step world store (attempt.op turnId)).projection.TurnEnded turnId := by
  have hkeyed := hreached.lifecycle.keyed
  cases attempt with
  | finish | cancel | guard =>
      exact untouched_or_ended Store.rollsBack_finishTurn
        (Store.ensures_finishTurn_turnEnded hkeyed)
  | recover =>
      have hclosable : ∀ turnId,
          Store.Closable StoreOp.recoverInterruptedWork.footprint turnId := fun turnId =>
        Store.closable_of_produces trivial fun _ hclosing => ⟨turnId, .inl hclosing⟩
      apply untouched_or_ended (Store.rollsBack_transaction _)
      refine ensures_mono (Store.ensures_recoverInterruptedWork hkeyed hclosable
        fun turnId reason => ⟨turnId, .inr ⟨reason, rfl⟩⟩) ?_
      rintro _ store' ⟨hmoves, hended⟩
      obtain ⟨row, hrow, hid, -⟩ := hrunning
      obtain ⟨row', hrow', hcontinues⟩ := (hmoves.advances hkeyed).turns row hrow
      exact ⟨row', hrow', hcontinues.id.trans hid, hended row' hrow'⟩

theorem turnEnd_closingPayload {payload : JournalEvent} (hclosing : closingPayload turnId payload) :
    payload.turnEnd = none := by
  rcases hclosing with ⟨_, _, rfl⟩ | ⟨row, rfl⟩
  · rfl
  · rw [Store.closingEvent]
    split_ifs <;> rfl

/-- The status that a Turn ends with is that of the attempt. -/
theorem status_of_produces {payload : JournalEvent} {status : TurnStatus} {error : Option String}
    {entry : SessionEntryPayload} (hproduces : (attempt.op turnId).produces payload)
    (hend : payload.turnEnd = some (turnId, status, error, entry)) : status = attempt.status := by
  cases attempt with
  | finish | cancel | guard =>
      rcases hproduces with hclosing | hterminal
      · rw [turnEnd_closingPayload hclosing] at hend
        cases hend
      · obtain ⟨_, _, hterminalEnd⟩ := Store.turnEnd_terminalEvent hterminal
        rw [hterminalEnd] at hend
        exact (congrArg (fun found => found.2.1) (Option.some.inj hend)).symm
  | recover =>
      obtain ⟨_, hclosing | ⟨_, rfl⟩⟩ := hproduces
      · rw [turnEnd_closingPayload hclosing] at hend
        cases hend
      · cases hend
        rfl

theorem Reached.noEarlyEnding (hreached : Reached world store) :
    store.projection.NoEarlyEnding := by
  obtain ⟨ops, rfl⟩ := hreached
  exact Store.run_noEarlyEnding world ops

/-- An attempt on a running Turn ends it with its own status, or changes nothing. -/
theorem exec_attempted (hreached : Reached world store) (hrunning : Running store turnId)
    (attempt : FinishAttempt) :
    Untouched store (attempt.exec world turnId store).2 ∨ ∃ payload,
      attempt.Ends turnId payload ∧
        (attempt.exec world turnId store).2.projection.EndedBy turnId payload := by
  rw [exec_running hreached hrunning]
  rcases untouched_or_ended_step hreached hrunning attempt with huntouched | hended
  · exact .inl huntouched
  · have hmoves := Store.step_moves world hreached.lifecycle.keyed (attempt.op turnId)
    have hnot := hrunning.not_ended hreached
    rcases hmoves.endedBy hreached.lifecycle hnot (hreached.noEarlyEnding turnId hnot) with
      ⟨payload, hproduces, hby⟩ | ⟨hlater, -⟩
    · right
      obtain ⟨status, error, entry, hend, -⟩ := hby.decided
      obtain rfl := status_of_produces hproduces hend
      exact ⟨payload, ⟨hproduces, error, entry, hend⟩, hby⟩
    · exact absurd hended hlater

/-! ## Runs -/

variable (world) in
theorem exec_runFrom (store : Store) (step : FinishStep turnId) :
    ∃ ops, step.exec world store = Store.runFrom world store ops := by
  cases step with
  | finish tried =>
      cases tried with
      | finish status error stopReason =>
          exact ⟨[.finishTurnWithStopReason turnId status error stopReason], rfl⟩
      | cancel =>
          have hcommands : Preserves (Commands world) (cancelTurn world turnId) :=
            commands_cancelTurn turnId
          obtain ⟨ops, -, hops⟩ := hcommands store
          exact ⟨ops, hops⟩
      | guard cancelled =>
          have hcommands : Preserves (Commands world) (dropTerminalGuard world turnId cancelled) :=
            commands_dropTerminalGuard turnId cancelled
          obtain ⟨ops, -, hops⟩ := hcommands store
          exact ⟨ops, hops⟩
      | recover => exact ⟨[.recoverInterruptedWork], rfl⟩
  | other op hother => exact ⟨[op], rfl⟩

variable (world) in
theorem runSteps_runFrom (store : Store) (steps : List (FinishStep turnId)) :
    ∃ ops, runSteps world store steps = Store.runFrom world store ops := by
  induction steps generalizing store with
  | nil => exact ⟨[], rfl⟩
  | cons step steps ih =>
      obtain ⟨ops, hops⟩ := exec_runFrom world store step
      obtain ⟨later, hlater⟩ := ih (step.exec world store)
      refine ⟨ops ++ later, ?_⟩
      rw [Store.runFrom_append, ← hops, ← hlater]
      rfl

theorem Reached.exec (hreached : Reached world store) (step : FinishStep turnId) :
    Reached world (step.exec world store) := by
  obtain ⟨ops, hops⟩ := exec_runFrom world store step
  rw [hops]
  exact hreached.runFrom ops

/-- Whatever comes later, what has been decided of a Turn that has ended stays. -/
theorem outcome_runSteps (hreached : Reached world store)
    (hended : store.projection.TurnEnded turnId) (steps : List (FinishStep turnId)) :
    (runSteps world store steps).projection.TurnEnded turnId ∧
      (runSteps world store steps).projection.outcome turnId = store.projection.outcome turnId := by
  obtain ⟨ops, hops⟩ := runSteps_runFrom world store steps
  rw [hops]
  constructor
  · exact hended.advances (Store.runFrom_advances world hreached.lifecycle ops)
  · exact (Store.runFrom_moves world hreached.lifecycle.keyed ops).outcome_eq hreached.lifecycle
      hended

theorem turnEnd_cases {payload : JournalEvent} {status : TurnStatus} {error : Option String}
    {entry : SessionEntryPayload} (hend : payload.turnEnd = some (turnId, status, error, entry)) :
    (∃ stopReason, payload = .turnCompleted turnId stopReason) ∨
      (∃ error, payload = .turnFailed turnId error) ∨ payload = .turnCancelled turnId ∨
        ∃ reason, payload = .turnInterrupted turnId reason := by
  cases payload with
  | turnCompleted other stopReason =>
      cases hend
      exact .inl ⟨stopReason, rfl⟩
  | turnFailed other error =>
      cases hend
      exact .inr (.inl ⟨error, rfl⟩)
  | turnCancelled other =>
      cases hend
      exact .inr (.inr (.inl rfl))
  | turnInterrupted other reason =>
      cases hend
      exact .inr (.inr (.inr ⟨reason, rfl⟩))
  | _ => cases hend

/-- Only the commands that may end a Turn record its end. -/
theorem closing_of_produces {op : StoreOp} {payload : JournalEvent} {status : TurnStatus}
    {error : Option String} {entry : SessionEntryPayload} (hproduces : op.produces payload)
    (hend : payload.turnEnd = some (turnId, status, error, entry)) : op.closing turnId := by
  cases op with
  | finishTurnWithStopReason other status' error' stopReason =>
      rcases hproduces with hclosing | hterminal
      · rw [turnEnd_closingPayload hclosing] at hend
        cases hend
      · obtain ⟨_, _, hterminalEnd⟩ := Store.turnEnd_terminalEvent hterminal
        rw [hterminalEnd] at hend
        exact (congrArg Prod.fst (Option.some.inj hend)).symm
  | recoverInterruptedWork => trivial
  | finishEffect sessionId other operationId result =>
      rw [show payload = _ from hproduces] at hend
      cases result <;> cases hend
  | _ =>
      rcases turnEnd_cases hend with ⟨_, rfl⟩ | ⟨_, rfl⟩ | rfl | ⟨_, rfl⟩ <;>
        simp only [StoreOp.produces, observationPayload, reduceCtorEq, exists_false, and_false,
          or_self] at hproduces

/-- A running Turn is still running after a step unless that was the attempt that ended it. -/
theorem running_exec (hreached : Reached world store) (hrunning : Running store turnId)
    (step : FinishStep turnId) :
    Running (step.exec world store) turnId ∨ ∃ tried payload, step = .finish tried ∧
      tried.Ends turnId payload ∧ (step.exec world store).projection.EndedBy turnId payload := by
  cases step with
  | finish tried =>
      rcases exec_attempted hreached hrunning tried with ⟨reached, hreach⟩ | ⟨payload, hends, hby⟩
      · left
        rw [FinishStep.exec, hreach]
        exact hrunning
      · exact .inr ⟨tried, payload, rfl, hends, hby⟩
  | other op hother =>
      left
      have hkeyed := hreached.lifecycle.keyed
      have hmoves := Store.step_moves world hkeyed op
      have hnot := hrunning.not_ended hreached
      rcases hmoves.endedBy hreached.lifecycle hnot (hreached.noEarlyEnding turnId hnot) with
        ⟨payload, hproduces, hby⟩ | ⟨hlater, -⟩
      · obtain ⟨_, _, _, hend, -⟩ := hby.decided
        exact absurd (closing_of_produces hproduces hend) hother
      · obtain ⟨row, hrow, hid, -⟩ := hrunning
        obtain ⟨row', hrow', hcontinues⟩ := (hmoves.advances hkeyed).turns row hrow
        refine ⟨row', hrow', hcontinues.id.trans hid, ?_⟩
        by_contra hcompleted
        exact hlater ⟨row', hrow', hcontinues.id.trans hid, hcompleted⟩

/-- Some step of the run is the first attempt that the Store takes.  Up to it the Turn is
running, and after it nothing of what the attempt has decided changes. -/
def DecidedIn (world : World) (store : Store) (steps : List (FinishStep turnId)) : Prop :=
  ∃ before tried after payload, steps = before ++ .finish tried :: after ∧
    Running (runSteps world store before) turnId ∧
    tried.Ends turnId payload ∧
    (tried.exec world turnId (runSteps world store before)).2.projection.EndedBy turnId payload ∧
    (runSteps world store steps).projection.outcome turnId =
      (tried.exec world turnId (runSteps world store before)).2.projection.outcome turnId

theorem running_or_decidedIn (hreached : Reached world store) (hrunning : Running store turnId)
    (steps : List (FinishStep turnId)) :
    Running (runSteps world store steps) turnId ∨ DecidedIn world store steps := by
  induction steps generalizing store with
  | nil => exact .inl hrunning
  | cons step steps ih =>
      rcases running_exec hreached hrunning step with hstill | ⟨tried, payload, rfl, hends, hby⟩
      · rcases ih (hreached.exec step) hstill with hlater |
          ⟨before, tried, after, payload, rfl, hbefore, hends, hby, houtcome⟩
        · exact .inl hlater
        · exact .inr ⟨step :: before, tried, after, payload, rfl, hbefore, hends, hby, houtcome⟩
      · right
        refine ⟨[], tried, steps, payload, rfl, hrunning, hends, hby, ?_⟩
        exact (outcome_runSteps (hreached.exec (.finish tried)) hby.ended steps).2

end Attempts

/-! ## The first outcome wins -/

/-- What the attempts to end a Turn come to. -/
structure FirstOutcomeWins (world : World) (store : Store) (turnId : TurnId) : Prop where
  /-- An attempt on a running Turn ends it with its own status, or changes nothing. -/
  attempted : Running store turnId → ∀ attempt : FinishAttempt,
    Untouched store (attempt.exec world turnId store).2 ∨ ∃ payload,
      attempt.Ends turnId payload ∧
        (attempt.exec world turnId store).2.projection.EndedBy turnId payload
  /-- A Turn cannot end as running, nor complete while it has open effects. -/
  refused : Running store turnId → ∀ status error stopReason,
    status = .running ∨ status = .completed ∧ store.projection.openEffects turnId ≠ [] →
      ∃ failure, Fails (Store.finishTurnWithStopReason world turnId status error stopReason) store
        failure store
  /-- `finish_turn` on a Turn that has ended changes nothing, and succeeds with its status. -/
  repeated : ∀ row ∈ store.projection.turns, row.turn.id = turnId →
    row.turn.completedAt ≠ none → ∀ status error stopReason,
      (row.turn.status = status →
        Runs (Store.finishTurnWithStopReason world turnId status error stopReason) store () store) ∧
      (row.turn.status ≠ status → ∃ failure,
        Fails (Store.finishTurnWithStopReason world turnId status error stopReason) store failure
          store)
  /-- CancelTurn and the guard leave a Turn that has ended alone, whatever its status. -/
  ignored : store.projection.TurnEnded turnId →
    Runs (cancelTurn world turnId) store () store ∧
      ∀ cancelled, Runs (dropTerminalGuard world turnId cancelled) store () store
  /-- In every run one attempt at most decides, and it is the first that is taken. -/
  decided : Running store turnId → ∀ steps : List (FinishStep turnId),
    Running (runSteps world store steps) turnId ∨ DecidedIn world store steps
  kept : store.projection.TurnEnded turnId → ∀ steps : List (FinishStep turnId),
    (runSteps world store steps).projection.outcome turnId = store.projection.outcome turnId

theorem first_outcome_wins (world : World) (ops : List StoreOp) (turnId : TurnId) :
    FirstOutcomeWins world (Store.run world ops) turnId := by
  have hreached : Reached world (Store.run world ops) := ⟨ops, rfl⟩
  constructor
  · exact exec_attempted hreached
  · rintro hrunning status error stopReason (rfl | ⟨rfl, hopen⟩)
    · exact ⟨_, fails_finish_running error stopReason⟩
    · exact ⟨_, fails_finish_open hrunning hopen error stopReason⟩
  · rintro row hrow rfl hcompleted
    exact finish_ended hreached hrow hcompleted
  · intro hended
    exact ⟨runs_cancelTurn_ended hreached hended, runs_dropTerminalGuard_ended hreached hended⟩
  · exact running_or_decidedIn hreached
  · exact fun hended steps => (outcome_runSteps hreached hended steps).2

/-! ## A cancellation that comes late -/

namespace LateCancel

/-- A Turn that is accepted. -/
def accepted : List StoreOp :=
  let context : CommandContext := { commandId := "1", actor := .system, correlationId := none }
  let source : MessageSource := { kind := .client, id := "cli", channelOrigin := none }
  [.initializeHub context "hub" "a" "b" "c", .createAgent context "mews" "soul" "native" ⟨"1"⟩,
    .createSession ⟨"7"⟩ ⟨"1"⟩ "/",
    .acceptTurnIdempotent ⟨"10"⟩ "key" (.text "hi") (.text "hi") .null source]

/-- The first attempt ends the Turn, whatever it is, and a later one answers by its status. -/
def FirstAttemptDecides (world : World) (store : Store) (turnId : TurnId) : Prop :=
  Running store turnId → ∀ first later : FinishAttempt,
    let decided := (first.exec world turnId store).2
    decided.projection.TurnEnded turnId ∧
      (later.status = first.status → Runs (later.exec world turnId) decided () decided) ∧
      (later.status ≠ first.status →
        ∃ failure, Fails (later.exec world turnId) decided failure decided)

/-- A Turn has completed, and its cancellation succeeds. -/
theorem late_cancel_succeeds : ¬∀ (world : World) (ops : List StoreOp) (turnId : TurnId),
    FirstAttemptDecides world (Store.run world ops) turnId := by
  intro hdecides
  have hrunning : Running (Store.run World.numbered accepted) ⟨"14"⟩ := by
    change ∃ row ∈ _, _
    decide +kernel
  have hanswer : ((FinishAttempt.cancel.exec World.numbered ⟨"14"⟩
      ((FinishAttempt.finish .completed none none).exec World.numbered ⟨"14"⟩
        (Store.run World.numbered accepted)).2)).1.isOk = true := by
    decide +kernel
  obtain ⟨-, -, hother⟩ := hdecides World.numbered accepted ⟨"14"⟩ hrunning
    (.finish .completed none none) .cancel
  obtain ⟨failure, hfails⟩ := hother (by decide)
  rw [hfails] at hanswer
  exact Bool.false_ne_true hanswer

end LateCancel

end Mews
