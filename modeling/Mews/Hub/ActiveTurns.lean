import Mews.Hub.Root
import Mews.Store.TurnRows

/-!
# The Turns a running Hub executes

`start_turn` commits the acceptance of a Turn, waits for the registry of Turn
tasks and spawns the executor; `cancel_turn` takes the task out of the registry,
cancels its token, waits for it and aborts it.  The request of a Host is dropped
at whatever await point it stands when the link of the Host is lost.  A step is
what one task does between two await points.
-/

namespace Mews

open Protocol Tx

/-! ## What ends a Turn -/

section Endings

variable (world : World)

/-- `Mews::cancel_turn`. -/
def cancelTurn (turnId : TurnId) : Store.Action Unit := do
  let turn ← Store.turn turnId
  if turn.completedAt.isSome then return ()
  Store.finishTurn world turnId .cancelled (some "cancelled by client")

/-- `Mews::fail_turn`. -/
def failTurn (turnId : TurnId) (error : String) : Store.Action Unit :=
  Store.finishTurn world turnId .failed (some error)

/-- The terminal entry that a `TurnTerminalGuard` writes for a Turn without one. -/
def guardTurn (turnId : TurnId) (cancelled : Bool) : Store.Action Unit :=
  Store.finishTurn world turnId (if cancelled then .cancelled else .failed)
    (if cancelled then none
      else some "Turn execution stopped before producing a terminal outcome")

/-- What a `TurnTerminalGuard` does with the Turn it has read. -/
def guardFound (turnId : TurnId) (cancelled : Bool) : Except StoreError Turn → Store.Action Unit
  | .error _ => return ()
  | .ok turn =>
      if turn.completedAt.isSome then return ()
      else do let _ ← attempt (guardTurn world turnId cancelled)

/-- The drop of a `TurnTerminalGuard`, which ignores every error. -/
def dropTerminalGuard (turnId : TurnId) (cancelled : Bool) : Store.Action Unit := do
  let turn ← attempt (Store.turn turnId)
  guardFound world turnId cancelled turn

end Endings

/-! ## StartTurn -/

structure StartTurn where
  idempotencyKey : String
  sessionId : SessionId
  prompt : String
  metadata : Value
  source : Option MessageSource
  deriving DecidableEq, Repr

namespace StartTurn

def messageSource (request : StartTurn) : MessageSource :=
  request.source.getD { kind := .client, id := "client", channelOrigin := none }

def turnRequest (request : StartTurn) : TurnRequest where
  sessionId := request.sessionId
  key := request.idempotencyKey
  content := .text request.prompt
  metadata := request.metadata
  source := request.messageSource

end StartTurn

/-- A request that found no earlier acceptance and synchronises the Agent with
the Host of the Session. -/
structure TurnStart where
  request : StartTurn
  session : Session
  hubHostId : HostId
  deriving DecidableEq, Repr

/-- A request that has committed its Turn and waits for the registry. -/
structure AcceptedTurn where
  turnId : TurnId
  start : TurnStart
  deriving DecidableEq, Repr

/-- Whether the Session runs on the Hub itself or on a Host that is connected. -/
def hostOnline (session : Session) (hubHostId : HostId) (remoteHosts : List HostId) : Bool :=
  session.hostId = hubHostId || remoteHosts.contains session.hostId

def hostOffline (session : Session) : HubError :=
  .bail s!"Session Host {session.hostId.asStr} is offline"

/-- `start_turn` up to the synchronisation of the Agent: the Turn of an earlier
request, or what the request goes on with. -/
def StartTurn.open (world : World) (request : StartTurn) (remoteHosts : List HostId)
    (store : Store) : Except HubError (Turn ⊕ TurnStart) := do
  let source := request.messageSource
  if source.id = "" ∨ 256 < source.id.utf8ByteSize then
    throw (.bail "message source ID must contain 1 to 256 bytes")
  if source.kind ≠ .client ∧ source.kind ≠ .channel then
    throw (.bail "user messages may only be attributed to a client or channel")
  match ← (request.turnRequest.replay world store).1.mapError HubError.store with
  | some (turn, _) => return .inl turn
  | none =>
      let session ← (Store.session request.sessionId store).1.mapError HubError.store
      if ¬store.projection.agentExists session.agentId then
        throw (.bail "Session Agent no longer exists")
      match store.projection.installation with
      | none => throw (.bail "MEWS is not set up; run `mews setup`")
      | some installation =>
          if hostOnline session installation.hubHostId remoteHosts then
            return .inr { request, session, hubHostId := installation.hubHostId }
          throw (hostOffline session)

/-! ## Executors -/

/-- The spawned task of a Turn: its cancellation token, whether its
`TurnTerminalGuard` exists, and whether `abort` was called on it. -/
structure TurnExecutor where
  turnId : TurnId
  session : Session
  hubHostId : HostId
  cancelled : Bool
  guarded : Bool
  aborted : Bool
  deriving DecidableEq, Repr

namespace TurnExecutor

def spawn (accepted : AcceptedTurn) : TurnExecutor where
  turnId := accepted.turnId
  session := accepted.start.session
  hubHostId := accepted.start.hubHostId
  cancelled := false
  guarded := false
  aborted := false

/-- Its code goes on running, or its drop still ends the Turn. -/
def live (executor : TurnExecutor) : Bool := executor.guarded || !executor.aborted

def of (turnId : TurnId) (executor : TurnExecutor) : Bool := executor.turnId = turnId

/-- The guard is dropped when `execute_send` returns or the task is. -/
def dropGuard (world : World) (executor : TurnExecutor) : Store.Action Unit :=
  if executor.guarded then dropTerminalGuard world executor.turnId executor.cancelled
  else return ()

/-- An error is recorded unless the token was cancelled or no connection to the
database can be opened. -/
def recordError (world : World) (executor : TurnExecutor) (error : Option String)
    (reopens : Bool) : Store.Action Unit :=
  match error with
  | none => return ()
  | some error =>
      if executor.cancelled ∨ ¬reopens then return ()
      else do let _ ← attempt (failTurn world executor.turnId error)

/-- What an executor still writes once `execute_send` has returned. -/
def conclude (world : World) (executor : TurnExecutor) (error : Option String) (reopens : Bool) :
    Store.Action Unit := do
  executor.dropGuard world
  executor.recordError world error reopens

end TurnExecutor

/-! ## The Hub -/

structure ActiveTurns where
  store : Store
  /-- The connected Hosts. -/
  remoteHosts : List HostId
  /-- The StartTurn requests that synchronise an Agent. -/
  synchronizing : List TurnStart
  accepted : List AcceptedTurn
  /-- The registry, `turn_tasks`. -/
  turnTasks : List TurnId
  executors : List TurnExecutor
  /-- The CancelTurn requests that wait for an executor to finish. -/
  cancelling : List TurnId
  /-- The Turns that CancelTurn answered Ack for. -/
  acknowledged : List TurnId

inductive TurnEvent where
  | connect (hostId : HostId)
  | disconnect (hostId : HostId)
  | start (request : StartTurn)
  /-- The Agent has been synchronised. -/
  | accept (start : TurnStart)
  /-- The Agent cannot be synchronised, or the link of the request is lost. -/
  | giveUp (start : TurnStart)
  | register (turnId : TurnId)
  /-- The link is lost while an acceptance waits for the registry. -/
  | dropStart (turnId : TurnId)
  /-- The executor has its Session lock, a connection and a Host. -/
  | enter (turnId : TurnId)
  | returned (turnId : TurnId) (error : Option String) (reopens : Bool)
  /-- The runtime drops an executor that was aborted. -/
  | dropExecutor (turnId : TurnId)
  /-- Any other command of the Store, the writes of executors included. -/
  | command (op : StoreOp)
  | cancel (turnId : TurnId)
  /-- The executor has finished, or the wait of five seconds is over. -/
  | waited (turnId : TurnId)
  /-- The link is lost while a CancelTurn waits. -/
  | dropCancel (turnId : TurnId)
  deriving DecidableEq

namespace ActiveTurns

variable (world : World) (state : ActiveTurns)

/-- A Hub that has just been opened. -/
def opened (store : Store) : ActiveTurns where
  store
  remoteHosts := []
  synchronizing := []
  accepted := []
  turnTasks := []
  executors := []
  cancelling := []
  acknowledged := []

def updateExecutor (turnId : TurnId) (change : TurnExecutor → TurnExecutor) : ActiveTurns :=
  { state with executors := Table.updateWhere (TurnExecutor.of turnId) change state.executors }

def removeExecutor (turnId : TurnId) : ActiveTurns :=
  { state with
    executors := state.executors.filter fun executor => executor.turnId ≠ turnId
    turnTasks := state.turnTasks.filter fun other => other ≠ turnId }

/-- No other executor holds the lock of the Session. -/
def sessionFree (executor : TurnExecutor) : Bool :=
  state.executors.all fun other =>
    other.turnId = executor.turnId || other.session.id ≠ executor.session.id || !other.guarded

/-- The commit of an acceptance; only one that created the Turn goes on. -/
def accept (start : TurnStart) : ActiveTurns :=
  let synchronizing := state.synchronizing.erase start
  match start.request.turnRequest.accept world (.text start.request.prompt) state.store with
  | (.ok (turn, _, true), store) => { state with
      store, synchronizing, accepted := { turnId := turn.id, start } :: state.accepted }
  | (_, store) => { state with store, synchronizing }

/-- A CancelTurn stops waiting and calls `abort`. -/
def abortExecutor (turnId : TurnId) : ActiveTurns :=
  { state.updateExecutor turnId fun executor => { executor with aborted := true } with
    cancelling := state.cancelling.filter fun other => other ≠ turnId }

/-- The end of CancelTurn: the Store ends the Turn and the request is answered. -/
def answerCancel (turnId : TurnId) : ActiveTurns :=
  match cancelTurn world turnId state.store with
  | (.ok (), store) => { state with store, acknowledged := turnId :: state.acknowledged }
  | (.error _, store) => { state with store }

def step : TurnEvent → Option ActiveTurns
  | .connect hostId => some { state with remoteHosts := hostId :: state.remoteHosts }
  | .disconnect hostId => some { state with
      remoteHosts := state.remoteHosts.filter fun other => other ≠ hostId }
  | .start request =>
      match request.open world state.remoteHosts state.store with
      | .ok (.inr start) => some { state with synchronizing := start :: state.synchronizing }
      | _ => some state
  | .accept start =>
      if start ∈ state.synchronizing then some (state.accept world start) else none
  | .giveUp start =>
      if start ∈ state.synchronizing then
        some { state with synchronizing := state.synchronizing.erase start }
      else none
  | .register turnId =>
      (state.accepted.find? fun other => other.turnId = turnId).map fun accepted => { state with
        accepted := state.accepted.filter fun other => other.turnId ≠ turnId
        executors := TurnExecutor.spawn accepted :: state.executors
        turnTasks := turnId :: state.turnTasks }
  | .dropStart turnId =>
      (state.accepted.find? fun other => other.turnId = turnId).map fun _ => { state with
        accepted := state.accepted.filter fun other => other.turnId ≠ turnId }
  | .enter turnId => do
      let executor ← state.executors.find? (TurnExecutor.of turnId)
      if ¬executor.aborted ∧ ¬executor.guarded ∧ state.sessionFree executor ∧
          hostOnline executor.session executor.hubHostId state.remoteHosts then
        some (state.updateExecutor turnId fun executor => { executor with guarded := true })
      else none
  | .returned turnId error reopens => do
      let executor ← state.executors.find? (TurnExecutor.of turnId)
      if ¬executor.aborted ∧ (executor.guarded ∨ error.isSome ∧ state.sessionFree executor) then
        let store := (executor.conclude world error reopens state.store).2
        some { state.removeExecutor turnId with store }
      else none
  | .dropExecutor turnId => do
      let executor ← state.executors.find? (TurnExecutor.of turnId)
      if executor.aborted then
        let store := (executor.conclude world none false state.store).2
        some { state.removeExecutor turnId with store }
      else none
  | .command op =>
      if op.accepts then none else some { state with store := Store.step world state.store op }
  | .cancel turnId =>
      if turnId ∈ state.turnTasks then
        some { state.updateExecutor turnId fun executor => { executor with cancelled := true } with
          turnTasks := state.turnTasks.filter fun other => other ≠ turnId
          cancelling := turnId :: state.cancelling }
      else some (state.answerCancel world turnId)
  | .waited turnId =>
      if turnId ∈ state.cancelling then
        some ((state.abortExecutor turnId).answerCancel world turnId)
      else none
  | .dropCancel turnId =>
      if turnId ∈ state.cancelling then some { state with
        cancelling := state.cancelling.filter fun other => other ≠ turnId }
      else none

/-- Somebody is going to end the Turn: the request that spawns its executor, the
executor, or a CancelTurn that waits for it. -/
def Attended (turnId : TurnId) : Prop :=
  (∃ accepted ∈ state.accepted, accepted.turnId = turnId) ∨
  (∃ executor ∈ state.executors, executor.turnId = turnId ∧ executor.live = true) ∨
  turnId ∈ state.cancelling

instance (turnId : TurnId) : Decidable (state.Attended turnId) :=
  inferInstanceAs (Decidable (_ ∨ _ ∨ _))

def Ended (turnId : TurnId) : Prop := state.store.projection.TurnEnded turnId

instance (turnId : TurnId) : Decidable (state.Ended turnId) :=
  inferInstanceAs (Decidable (∃ row ∈ _, _))

end ActiveTurns

/-- An executor that stops writes the end of its Turn: its guard does, or the
record of its error. -/
def TurnExecutor.Concludes (world : World) (executor : TurnExecutor) (error : Option String)
    (reopens : Bool) (store : Store) : Prop :=
  (executor.guarded = true ∧ succeeds (guardTurn world executor.turnId executor.cancelled) store) ∨
  ∃ text ∈ error, executor.cancelled = false ∧ reopens = true ∧
    succeeds (failTurn world executor.turnId text) (executor.dropGuard world store).2

instance (world : World) (executor : TurnExecutor) (error : Option String) (reopens : Bool)
    (store : Store) : Decidable (executor.Concludes world error reopens store) :=
  inferInstanceAs (Decidable (_ ∨ ∃ text ∈ error, _))

/-- The step does not let go of a Turn that has not ended.  Four kinds of steps
can: the link is lost between a commit and the registry, or during the wait of a
CancelTurn whose executor is gone; an executor without a guard stops with its
token cancelled and no CancelTurn behind it; the Store refuses the last write. -/
def TurnEvent.Tends (world : World) (state : ActiveTurns) : TurnEvent → Prop
  | .dropStart turnId => state.Ended turnId
  | .returned turnId error reopens => state.Ended turnId ∨ turnId ∈ state.cancelling ∨
      ∀ executor ∈ state.executors.find? (TurnExecutor.of turnId),
        executor.Concludes world error reopens state.store
  | .dropExecutor turnId => state.Ended turnId ∨ turnId ∈ state.cancelling ∨
      (∀ executor ∈ state.executors, executor.turnId = turnId → executor.live = false) ∨
      ∀ executor ∈ state.executors.find? (TurnExecutor.of turnId),
        executor.Concludes world none false state.store
  | .waited turnId => succeeds (cancelTurn world turnId) state.store ∨
      ∃ executor ∈ state.executors, executor.turnId = turnId ∧ executor.guarded = true
  | .dropCancel turnId => state.Ended turnId ∨
      ∃ executor ∈ state.executors, executor.turnId = turnId ∧ executor.live = true
  | _ => True

instance (world : World) (state : ActiveTurns) : (event : TurnEvent) →
    Decidable (event.Tends world state)
  | .dropStart turnId => inferInstanceAs (Decidable (state.Ended turnId))
  | .returned _ _ _ => inferInstanceAs (Decidable (_ ∨ _ ∨ ∀ executor ∈ _, _))
  | .dropExecutor _ => inferInstanceAs (Decidable (_ ∨ _ ∨ _ ∨ ∀ executor ∈ _, _))
  | .waited _ => inferInstanceAs (Decidable (_ ∨ ∃ executor ∈ _, _))
  | .dropCancel _ => inferInstanceAs (Decidable (_ ∨ ∃ executor ∈ _, _))
  | .connect _ | .disconnect _ | .start _ | .accept _ | .giveUp _ | .register _ | .enter _
  | .command _ | .cancel _ => isTrue trivial

namespace ActiveTurns

variable (world : World)

/-- The state a sequence of steps leads to. -/
def run (state : ActiveTurns) : List TurnEvent → Option ActiveTurns
  | [] => some state
  | event :: rest => do
      let next ← state.step world event
      next.run rest

/-- Every step of the run tends the Turns. -/
def Tended (state : ActiveTurns) : List TurnEvent → Prop
  | [] => True
  | event :: rest => event.Tends world state ∧ ∀ next ∈ state.step world event, next.Tended rest

instance decidableTended (state : ActiveTurns) : (events : List TurnEvent) →
    Decidable (state.Tended world events)
  | [] => isTrue trivial
  | event :: rest =>
      have : ∀ next : ActiveTurns, Decidable (next.Tended world rest) := fun next =>
        decidableTended next rest
      inferInstanceAs (Decidable (event.Tends world state ∧ ∀ next ∈ state.step world event,
        next.Tended world rest))

end ActiveTurns

/-! ## What the writes leave -/

section Commands

variable {world : World} {turnId : TurnId} {store store' : Store}

/-- The second store follows from the first by commands that accept no Turn. -/
def Commands (world : World) (store store' : Store) : Prop :=
  ∃ ops : List StoreOp, (∀ op ∈ ops, op.accepts = false) ∧ store' = Store.runFrom world store ops

theorem commands_refl (store : Store) : Commands world store store :=
  ⟨[], by simp, rfl⟩

theorem commands_trans (first second third : Store) (hfirst : Commands world first second)
    (hsecond : Commands world second third) : Commands world first third := by
  obtain ⟨ops, hops, rfl⟩ := hfirst
  obtain ⟨later, hlater, rfl⟩ := hsecond
  refine ⟨ops ++ later, fun op hop => ?_, (Store.runFrom_append world first ops later).symm⟩
  exact (List.mem_append.mp hop).elim (hops op) (hlater op)

theorem commands_step {op : StoreOp} (hop : op.accepts = false) :
    Commands world store (Store.step world store op) :=
  ⟨[op], by simpa using hop, rfl⟩

theorem Commands.turnIds_eq (hcommands : Commands world store store')
    (hkeyed : store.projection.Keyed) :
    store'.projection.turnIds = store.projection.turnIds := by
  obtain ⟨ops, hops, rfl⟩ := hcommands
  induction ops generalizing store with
  | nil => rfl
  | cons op ops ih =>
      have hkeyed' : (Store.step world store op).projection.Keyed := Store.step_keyed hkeyed op
      have hrest := ih hkeyed' fun other hother => hops other (List.mem_cons_of_mem _ hother)
      exact hrest.trans (Store.step_turnIds hkeyed (hops op List.mem_cons_self))

theorem Commands.turnEnded (hcommands : Commands world store store')
    (hlifecycle : store.projection.Lifecycle) (hended : store.projection.TurnEnded turnId) :
    store'.projection.TurnEnded turnId := by
  obtain ⟨ops, -, rfl⟩ := hcommands
  exact hended.advances (Store.runFrom_advances world hlifecycle ops)

theorem commands_finishTurn (turnId : TurnId) (status : TurnStatus) (error : Option String) :
    Preserves (Commands world) (Store.finishTurn world turnId status error) := by
  intro store
  exact @commands_step world store (.finishTurnWithStopReason turnId status error none) rfl

theorem commands_turn (turnId : TurnId) : Preserves (Commands world) (Store.turn turnId) := by
  apply Preserves.bind commands_trans
  · exact preserves_reads commands_refl _
  · intro found
    exact preserves_lift commands_refl found

theorem commands_attempt {action : Store.Action Unit} (haction : Preserves (Commands world) action) :
    Preserves (Commands world) (do let _ ← attempt action) :=
  fun store => haction store

theorem commands_cancelTurn (turnId : TurnId) :
    Preserves (Commands world) (cancelTurn world turnId) := by
  apply Preserves.bind commands_trans (commands_turn turnId)
  intro turn
  split
  · exact preserves_pure commands_refl _
  · exact commands_finishTurn turnId _ _

theorem commands_dropTerminalGuard (turnId : TurnId) (cancelled : Bool) :
    Preserves (Commands world) (dropTerminalGuard world turnId cancelled) := by
  apply Preserves.bind commands_trans
  · exact fun store => commands_turn turnId store
  · intro found
    rw [guardFound.eq_def]
    split
    · exact preserves_pure commands_refl _
    · split
      · exact preserves_pure commands_refl _
      · exact commands_attempt (commands_finishTurn turnId _ _)

namespace TurnExecutor

variable (executor : TurnExecutor)

theorem commands_dropGuard : Preserves (Commands world) (executor.dropGuard world) := by
  rw [dropGuard]
  split
  · exact commands_dropTerminalGuard _ _
  · exact preserves_pure commands_refl _

theorem commands_recordError (error : Option String) (reopens : Bool) :
    Preserves (Commands world) (executor.recordError world error reopens) := by
  rw [recordError.eq_def]
  split
  · exact preserves_pure commands_refl _
  · split
    · exact preserves_pure commands_refl _
    · exact commands_attempt (commands_finishTurn executor.turnId _ _)

theorem commands_conclude (error : Option String) (reopens : Bool) :
    Preserves (Commands world) (executor.conclude world error reopens) := by
  apply Preserves.bind commands_trans executor.commands_dropGuard
  intro _
  exact executor.commands_recordError error reopens

end TurnExecutor

/-! ## Stores of a running Hub -/

/-- The store of some run of commands. -/
def Reached (world : World) (store : Store) : Prop := ∃ ops, store = Store.run world ops

namespace Reached

theorem lifecycle (hreached : Reached world store) : store.projection.Lifecycle := by
  obtain ⟨ops, rfl⟩ := hreached
  exact Store.run_lifecycle world ops

theorem retryable (hreached : Reached world store) : store.Retryable := by
  obtain ⟨ops, rfl⟩ := hreached
  exact Store.run_retryable world ops

theorem runFrom (hreached : Reached world store) (later : List StoreOp) :
    Reached world (Store.runFrom world store later) := by
  obtain ⟨ops, rfl⟩ := hreached
  exact ⟨ops ++ later, (Store.run_append world ops later).symm⟩

theorem commands (hreached : Reached world store) (hcommands : Commands world store store') :
    Reached world store' := by
  obtain ⟨ops, -, rfl⟩ := hcommands
  exact hreached.runFrom ops

end Reached

/-- The Store takes the end of a Turn, and it has ended. -/
theorem turnEnded_of_finishTurn {status : TurnStatus} {error : Option String}
    (hwrites : succeeds (Store.finishTurn world turnId status error) store)
    (hreached : Reached world store) :
    (Store.finishTurn world turnId status error store).2.projection.TurnEnded turnId := by
  have hensures : ensures (Store.finishTurn world turnId status error) store
      (fun _ store' => store'.projection.TurnEnded turnId) :=
    Store.ensures_finishTurn_turnEnded hreached.lifecycle.keyed
  exact hwrites.of_ensures hensures

theorem turnEnded_of_completed {turn : Turn} (hselect : store.projection.selectTurn turnId = .ok turn)
    (hcompleted : turn.completedAt.isSome = true) : store.projection.TurnEnded turnId := by
  rw [Projection.selectTurn] at hselect
  cases hfind : store.projection.turns.find? fun row => row.turn.id = turnId with
  | none => simp [hfind] at hselect
  | some row =>
      obtain rfl : row.turn = turn := by simpa [hfind] using hselect
      refine ⟨row, List.mem_of_find?_eq_some hfind, by simpa using List.find?_some hfind, ?_⟩
      exact Option.isSome_iff_ne_none.mp hcompleted

/-- CancelTurn succeeds only on a Turn that has ended, or ends it. -/
theorem turnEnded_of_cancelTurn (hwrites : succeeds (cancelTurn world turnId) store)
    (hreached : Reached world store) :
    (cancelTurn world turnId store).2.projection.TurnEnded turnId := by
  have hensures : ensures (cancelTurn world turnId) store
      (fun _ store' => store'.projection.TurnEnded turnId) := by
    simp only [cancelTurn, Store.turn, ensures_bind, Store.ensures_select, ensures_lift,
      ensures_ite, ensures_pure]
    intro turn hselect
    constructor
    · intro hcompleted
      exact turnEnded_of_completed hselect hcompleted
    · intro _
      exact Store.ensures_finishTurn_turnEnded hreached.lifecycle.keyed
  exact hwrites.of_ensures hensures

theorem dropTerminalGuard_of_selectTurn {turn : Turn} {cancelled : Bool}
    (hselect : store.projection.selectTurn turnId = .ok turn) :
    dropTerminalGuard world turnId cancelled store =
      guardFound world turnId cancelled (.ok turn) store := by
  have hturn : Runs (Store.turn turnId) store turn store :=
    (runs_reads _ store).bind (runs_lift hselect store)
  change guardFound world turnId cancelled (Store.turn turnId store).1 (Store.turn turnId store).2 = _
  rw [hturn]

theorem runs_dropTerminalGuard (cancelled : Bool) :
    Runs (dropTerminalGuard world turnId cancelled) store ()
      (dropTerminalGuard world turnId cancelled store).2 := by
  refine Prod.ext ?_ rfl
  change (guardFound world turnId cancelled (Store.turn turnId store).1
    (Store.turn turnId store).2).1 = .ok ()
  cases (Store.turn turnId store).1 with
  | error error => rfl
  | ok turn =>
      rw [guardFound]
      split <;> rfl

namespace TurnExecutor

variable {executor : TurnExecutor} {error : Option String} {reopens : Bool}

theorem runs_dropGuard (executor : TurnExecutor) :
    Runs (executor.dropGuard world) store () (executor.dropGuard world store).2 := by
  rw [dropGuard]
  split
  · exact runs_dropTerminalGuard _
  · rfl

theorem turnEnded_dropGuard (hreached : Reached world store) (hguarded : executor.guarded = true)
    (hwrites : succeeds (guardTurn world executor.turnId executor.cancelled) store) :
    (executor.dropGuard world store).2.projection.TurnEnded executor.turnId := by
  have hended := turnEnded_of_finishTurn hwrites hreached
  obtain ⟨row, hrow, hid, -⟩ := hended
  have hmem : executor.turnId ∈ store.projection.turnIds := by
    rw [← (commands_finishTurn _ _ _ store).turnIds_eq hreached.lifecycle.keyed]
    exact Projection.mem_turnIds.mpr ⟨row, hrow, hid⟩
  obtain ⟨row, hrow, hid⟩ := Projection.mem_turnIds.mp hmem
  have hselect : store.projection.selectTurn executor.turnId = .ok row.turn := by
    rw [← hid, Projection.selectTurn, hreached.lifecycle.keyed.turns.find?_eq_some hrow]
  rw [dropGuard, if_pos hguarded, dropTerminalGuard_of_selectTurn hselect, guardFound]
  split
  · rename_i hcompleted
    exact turnEnded_of_completed hselect hcompleted
  · exact turnEnded_of_finishTurn hwrites hreached

theorem turnEnded_recordError {text : String} (hreached : Reached world store)
    (hcancelled : executor.cancelled = false) (hreopens : reopens = true)
    (hwrites : succeeds (failTurn world executor.turnId text) store) :
    (executor.recordError world (some text) reopens store).2.projection.TurnEnded
      executor.turnId := by
  rw [recordError, if_neg (by simp [hcancelled, hreopens])]
  exact turnEnded_of_finishTurn hwrites hreached

/-- An executor that concludes ends its Turn. -/
theorem Concludes.turnEnded (hconcludes : executor.Concludes world error reopens store)
    (hreached : Reached world store) :
    (executor.conclude world error reopens store).2.projection.TurnEnded executor.turnId := by
  have hguard := @commands_dropGuard world executor store
  have hreached' := hreached.commands hguard
  have hthen : (executor.conclude world error reopens store).2 =
      (executor.recordError world error reopens (executor.dropGuard world store).2).2 := by
    rw [conclude]
    change (andThen _ _ store).2 = _
    rw [andThen, executor.runs_dropGuard]
  rw [hthen]
  rcases hconcludes with ⟨hguarded, hwrites⟩ | ⟨text, rfl, hcancelled, hreopens, hwrites⟩
  · have hended := turnEnded_dropGuard hreached hguarded hwrites
    exact (executor.commands_recordError error reopens _).turnEnded hreached'.lifecycle hended
  · exact turnEnded_recordError hreached' hcancelled hreopens hwrites

end TurnExecutor

end Commands

/-! ## One step -/

namespace ActiveTurns

variable {world : World} {state state' : ActiveTurns} {event : TurnEvent} {turnId : TurnId}

/-- What a step keeps, whatever it does: Turns that have ended stay so, a Turn is
added only with the request that will spawn its executor, and an Ack is true. -/
structure Moved (world : World) (state state' : ActiveTurns) : Prop where
  reached : Reached world state'.store
  ended : ∀ turnId, state.Ended turnId → state'.Ended turnId
  added : ∀ turnId ∈ state'.store.projection.turnIds,
    turnId ∈ state.store.projection.turnIds ∨ state'.Attended turnId
  acknowledged : ∀ turnId ∈ state'.acknowledged, turnId ∈ state.acknowledged ∨ state'.Ended turnId

theorem Moved.of_commands (hreached : Reached world state.store)
    (hcommands : Commands world state.store state'.store)
    (hacknowledged : ∀ turnId ∈ state'.acknowledged,
      turnId ∈ state.acknowledged ∨ state'.Ended turnId) : Moved world state state' where
  reached := hreached.commands hcommands
  ended := fun _ hended => hcommands.turnEnded hreached.lifecycle hended
  added := by
    intro turnId hmem
    rw [hcommands.turnIds_eq hreached.lifecycle.keyed] at hmem
    exact .inl hmem
  acknowledged := hacknowledged

/-- A step that writes nothing. -/
theorem Moved.of_same (hreached : Reached world state.store) (hstore : state'.store = state.store)
    (hacknowledged : state'.acknowledged = state.acknowledged) : Moved world state state' := by
  apply Moved.of_commands hreached
  · rw [hstore]
    exact commands_refl _
  · intro turnId hmem
    rw [hacknowledged] at hmem
    exact .inl hmem

theorem Moved.accept (hreached : Reached world state.store) (start : TurnStart) :
    Moved world state (state.accept world start) := by
  let op : StoreOp := .acceptTurnIdempotent start.request.turnRequest.sessionId
    start.request.turnRequest.key start.request.turnRequest.content (.text start.request.prompt)
    start.request.turnRequest.metadata start.request.turnRequest.source
  have hstep : Store.step world state.store op =
      (start.request.turnRequest.accept world (.text start.request.prompt) state.store).2 := by
    rw [Store.step, Store.exec, Store.discard_snd]
    rfl
  have hstore : (state.accept world start).store = Store.step world state.store op := by
    rw [hstep, ActiveTurns.accept]
    split <;> simp [*]
  have hended : ∀ turnId, state.Ended turnId → (state.accept world start).Ended turnId := by
    intro turnId hended
    rw [Ended, hstore]
    exact Store.step_turnEnded hreached.lifecycle hended op
  refine ⟨?_, hended, ?_, ?_⟩
  · rw [hstore]
    exact hreached.runFrom [op]
  · intro turnId hmem
    cases hrun : start.request.turnRequest.accept world (.text start.request.prompt) state.store with
    | mk outcome store' =>
        rw [hstore, hstep, hrun] at hmem
        cases outcome with
        | error error =>
            rw [hreached.retryable.rollback_of_fails_accept hrun] at hmem
            exact .inl hmem
        | ok outcome =>
            rcases hreached.retryable.ensures_accept_turnIds outcome store' hrun turnId hmem with
              hmem | ⟨hid, hcreated⟩
            · exact .inl hmem
            · obtain ⟨turn, message, created⟩ := outcome
              obtain rfl : created = true := hcreated
              refine .inr (.inl ⟨{ turnId := turn.id, start }, ?_, hid⟩)
              simp [ActiveTurns.accept, hrun]
  · intro turnId hmem
    have hsame : (state.accept world start).acknowledged = state.acknowledged := by
      rw [ActiveTurns.accept]
      split <;> rfl
    rw [hsame] at hmem
    exact .inl hmem

theorem answerCancel_store :
    (state.answerCancel world turnId).store = (cancelTurn world turnId state.store).2 := by
  rw [answerCancel]
  split <;> simp [*]

/-- An Ack is given once the Turn has ended. -/
theorem Moved.answerCancel (hreached : Reached world state.store) (turnId : TurnId) :
    Moved world state (state.answerCancel world turnId) := by
  apply Moved.of_commands hreached
  · rw [answerCancel_store]
    exact commands_cancelTurn turnId state.store
  · intro other hmem
    cases hrun : cancelTurn world turnId state.store with
    | mk outcome store' =>
        cases outcome with
        | error error =>
            rw [ActiveTurns.answerCancel, hrun] at hmem
            exact .inl hmem
        | ok value =>
            have hwrites : succeeds (cancelTurn world turnId) state.store :=
              succeeds_iff.mpr ⟨value, store', hrun⟩
            simp only [ActiveTurns.answerCancel, hrun, List.mem_cons] at hmem
            rcases hmem with rfl | hmem
            · right
              rw [Ended, answerCancel_store]
              exact turnEnded_of_cancelTurn hwrites hreached
            · exact .inl hmem

/-- A step of another kind first changes what is not stored. -/
theorem Moved.after {middle : ActiveTurns} (hmoved : Moved world middle state')
    (hstore : middle.store = state.store) (hacknowledged : middle.acknowledged = state.acknowledged) :
    Moved world state state' where
  reached := hmoved.reached
  ended := by
    intro turnId hended
    apply hmoved.ended
    rwa [Ended, hstore]
  added := by
    rw [← hstore]
    exact hmoved.added
  acknowledged := by
    rw [← hacknowledged]
    exact hmoved.acknowledged

theorem step_moved (hreached : Reached world state.store)
    (hstep : state.step world event = some state') : Moved world state state' := by
  cases event with
  | connect hostId | disconnect hostId =>
      cases hstep
      exact .of_same hreached rfl rfl
  | start request =>
      rw [ActiveTurns.step] at hstep
      split at hstep <;> cases hstep <;> exact .of_same hreached rfl rfl
  | accept start =>
      rw [ActiveTurns.step, Option.ite_none_right_eq_some] at hstep
      obtain ⟨-, ⟨⟩⟩ := hstep
      exact .accept hreached start
  | giveUp start =>
      rw [ActiveTurns.step, Option.ite_none_right_eq_some] at hstep
      obtain ⟨-, ⟨⟩⟩ := hstep
      exact .of_same hreached rfl rfl
  | register turnId | dropStart turnId =>
      obtain ⟨accepted, -, rfl⟩ := Option.map_eq_some_iff.mp hstep
      exact .of_same hreached rfl rfl
  | enter turnId =>
      obtain ⟨executor, -, hstep⟩ := Option.bind_eq_some_iff.mp hstep
      rw [Option.ite_none_right_eq_some] at hstep
      obtain ⟨-, ⟨⟩⟩ := hstep
      exact .of_same hreached rfl rfl
  | returned turnId error reopens =>
      obtain ⟨executor, -, hstep⟩ := Option.bind_eq_some_iff.mp hstep
      rw [Option.ite_none_right_eq_some] at hstep
      obtain ⟨-, ⟨⟩⟩ := hstep
      exact .of_commands hreached (executor.commands_conclude error reopens _) fun _ h => .inl h
  | dropExecutor turnId =>
      obtain ⟨executor, -, hstep⟩ := Option.bind_eq_some_iff.mp hstep
      rw [Option.ite_none_right_eq_some] at hstep
      obtain ⟨-, ⟨⟩⟩ := hstep
      exact .of_commands hreached (executor.commands_conclude none false _) fun _ h => .inl h
  | command op =>
      rw [ActiveTurns.step, Option.ite_none_left_eq_some] at hstep
      obtain ⟨hop, ⟨⟩⟩ := hstep
      exact .of_commands hreached (commands_step (by simpa using hop)) fun _ h => .inl h
  | cancel turnId =>
      rw [ActiveTurns.step] at hstep
      split at hstep <;> cases hstep
      · exact .of_same hreached rfl rfl
      · exact .answerCancel hreached turnId
  | waited turnId =>
      rw [ActiveTurns.step, Option.ite_none_right_eq_some] at hstep
      obtain ⟨-, ⟨⟩⟩ := hstep
      have hreached' : Reached world (state.abortExecutor turnId).store := hreached
      exact (Moved.answerCancel hreached' turnId).after rfl rfl
  | dropCancel turnId =>
      rw [ActiveTurns.step, Option.ite_none_right_eq_some] at hstep
      obtain ⟨-, ⟨⟩⟩ := hstep
      exact .of_same hreached rfl rfl

/-! ## Turns that are attended -/

section Attended

/-- Requests, executors and waiting CancelTurns all stay. -/
theorem Attended.mono (hattended : state.Attended turnId)
    (haccepted : state.accepted ⊆ state'.accepted)
    (hexecutors : ∀ executor ∈ state.executors, executor.turnId = turnId → executor.live = true →
      ∃ executor' ∈ state'.executors, executor'.turnId = turnId ∧ executor'.live = true)
    (hcancelling : state.cancelling ⊆ state'.cancelling) : state'.Attended turnId := by
  rcases hattended with ⟨accepted, hmem, hid⟩ | ⟨executor, hmem, hid, hlive⟩ | hmem
  · exact .inl ⟨accepted, haccepted hmem, hid⟩
  · exact .inr (.inl (hexecutors executor hmem hid hlive))
  · exact .inr (.inr (hcancelling hmem))

/-- What is stored does not matter for who attends a Turn. -/
theorem Attended.congr (hattended : state.Attended turnId)
    (haccepted : state'.accepted = state.accepted) (hexecutors : state'.executors = state.executors)
    (hcancelling : state'.cancelling = state.cancelling) : state'.Attended turnId := by
  rwa [Attended, haccepted, hexecutors, hcancelling]

/-- Removing what attends one Turn leaves the others attended. -/
theorem Attended.other {other : TurnId} (hattended : state.Attended other) (hother : other ≠ turnId)
    (haccepted : ∀ accepted ∈ state.accepted, accepted.turnId ≠ turnId →
      accepted ∈ state'.accepted)
    (hexecutors : ∀ executor ∈ state.executors, executor.turnId ≠ turnId →
      executor ∈ state'.executors)
    (hcancelling : ∀ waiting ∈ state.cancelling, waiting ≠ turnId → waiting ∈ state'.cancelling) :
    state'.Attended other := by
  rcases hattended with ⟨accepted, hmem, rfl⟩ | ⟨executor, hmem, rfl, hlive⟩ | hmem
  · exact .inl ⟨accepted, haccepted accepted hmem hother, rfl⟩
  · exact .inr (.inl ⟨executor, hexecutors executor hmem hother, rfl, hlive⟩)
  · exact .inr (.inr (hcancelling _ hmem hother))

/-- A change of executors that keeps them alive. -/
theorem Attended.updateExecutor {updated : TurnId} {change : TurnExecutor → TurnExecutor}
    (hattended : state.Attended turnId)
    (hchange : ∀ executor, (change executor).turnId = executor.turnId ∧
      (executor.live = true → (change executor).live = true)) :
    (state.updateExecutor updated change).Attended turnId := by
  refine hattended.mono (fun _ h => h) ?_ fun _ h => h
  intro executor hmem hid hlive
  by_cases hof : TurnExecutor.of updated executor = true
  · refine ⟨change executor, ?_, (hchange executor).1.trans hid, (hchange executor).2 hlive⟩
    exact Table.mem_updateWhere.mpr ⟨executor, hmem, if_pos hof⟩
  · exact ⟨executor, Table.mem_updateWhere.mpr ⟨executor, hmem, if_neg hof⟩, hid, hlive⟩

theorem Attended.answerCancel (hattended : state.Attended turnId) (cancelled : TurnId) :
    (state.answerCancel world cancelled).Attended turnId := by
  rw [ActiveTurns.answerCancel]
  split <;> exact hattended.congr rfl rfl rfl

/-- Removing an executor only concerns its own Turn. -/
theorem Attended.removeExecutor {other : TurnId} {store : Store} (hattended : state.Attended other)
    (hother : other ≠ turnId) :
    ActiveTurns.Attended { state.removeExecutor turnId with store } other := by
  refine hattended.other hother (fun _ h _ => h) ?_ fun _ h _ => h
  intro executor hmem hne
  exact List.mem_filter.mpr ⟨hmem, by simpa using hne⟩

/-- A step that tends the Turns lets go of none that has not ended. -/
theorem step_attended (hreached : Reached world state.store)
    (hstep : state.step world event = some state') (htends : event.Tends world state)
    (hattended : state.Attended turnId) : state'.Ended turnId ∨ state'.Attended turnId := by
  have hmoved := step_moved hreached hstep
  cases event with
  | connect hostId | disconnect hostId =>
      cases hstep
      exact .inr hattended
  | start request =>
      rw [ActiveTurns.step] at hstep
      split at hstep <;> cases hstep <;> exact .inr hattended
  | accept start =>
      rw [ActiveTurns.step, Option.ite_none_right_eq_some] at hstep
      obtain ⟨-, ⟨⟩⟩ := hstep
      right
      rw [ActiveTurns.accept]
      split
      · exact hattended.mono (fun _ h => List.mem_cons_of_mem _ h)
          (fun executor h hid hlive => ⟨executor, h, hid, hlive⟩) fun _ h => h
      · exact hattended
  | giveUp start =>
      rw [ActiveTurns.step, Option.ite_none_right_eq_some] at hstep
      obtain ⟨-, ⟨⟩⟩ := hstep
      exact .inr hattended
  | register registered =>
      obtain ⟨accepted, hfind, rfl⟩ := Option.map_eq_some_iff.mp hstep
      right
      by_cases hother : turnId = registered
      · subst hother
        have hid : accepted.turnId = turnId := by simpa using List.find?_some hfind
        exact .inr (.inl ⟨.spawn accepted, List.mem_cons_self, hid, rfl⟩)
      · refine hattended.other hother ?_ (fun _ h _ => List.mem_cons_of_mem _ h) fun _ h _ => h
        intro other hmem hne
        exact List.mem_filter.mpr ⟨hmem, by simpa using hne⟩
  | dropStart dropped =>
      obtain ⟨accepted, -, rfl⟩ := Option.map_eq_some_iff.mp hstep
      by_cases hother : turnId = dropped
      · subst hother
        exact .inl (hmoved.ended turnId htends)
      · refine .inr (hattended.other hother ?_ (fun _ h _ => h) fun _ h _ => h)
        intro other hmem hne
        exact List.mem_filter.mpr ⟨hmem, by simpa using hne⟩
  | enter entered =>
      obtain ⟨executor, -, hstep⟩ := Option.bind_eq_some_iff.mp hstep
      rw [Option.ite_none_right_eq_some] at hstep
      obtain ⟨-, ⟨⟩⟩ := hstep
      exact .inr (hattended.updateExecutor fun _ => ⟨rfl, fun _ => rfl⟩)
  | returned stopped error reopens =>
      obtain ⟨executor, hfind, hstep⟩ := Option.bind_eq_some_iff.mp hstep
      rw [Option.ite_none_right_eq_some] at hstep
      obtain ⟨-, ⟨⟩⟩ := hstep
      by_cases hother : turnId = stopped
      · subst hother
        have hid : executor.turnId = turnId := by simpa [TurnExecutor.of] using List.find?_some hfind
        rcases htends with hended | hcancelling | hconcludes
        · exact .inl (hmoved.ended turnId hended)
        · exact .inr (.inr (.inr hcancelling))
        · left
          have hended := (hconcludes executor hfind).turnEnded hreached
          rwa [hid] at hended
      · exact .inr (hattended.removeExecutor hother)
  | dropExecutor stopped =>
      obtain ⟨executor, hfind, hstep⟩ := Option.bind_eq_some_iff.mp hstep
      rw [Option.ite_none_right_eq_some] at hstep
      obtain ⟨-, ⟨⟩⟩ := hstep
      by_cases hother : turnId = stopped
      · subst hother
        have hid : executor.turnId = turnId := by simpa [TurnExecutor.of] using List.find?_some hfind
        rcases htends with hended | hcancelling | hdead | hconcludes
        · exact .inl (hmoved.ended turnId hended)
        · exact .inr (.inr (.inr hcancelling))
        · -- Nobody was relying on the executor.
          rcases hattended with haccepted | ⟨other, hmem, hid', hlive⟩ | hcancelling
          · exact .inr (.inl haccepted)
          · rw [hdead other hmem hid'] at hlive
            cases hlive
          · exact .inr (.inr (.inr hcancelling))
        · left
          have hended := (hconcludes executor hfind).turnEnded hreached
          rwa [hid] at hended
      · exact .inr (hattended.removeExecutor hother)
  | command op =>
      rw [ActiveTurns.step, Option.ite_none_left_eq_some] at hstep
      obtain ⟨-, ⟨⟩⟩ := hstep
      exact .inr (hattended.congr rfl rfl rfl)
  | cancel cancelled =>
      rw [ActiveTurns.step] at hstep
      split at hstep <;> cases hstep
      · have hupdated : (state.updateExecutor cancelled fun executor =>
            { executor with cancelled := true }).Attended turnId :=
          hattended.updateExecutor fun _ => ⟨rfl, fun h => h⟩
        exact .inr (hupdated.mono (fun _ h => h)
          (fun executor h hid hlive => ⟨executor, h, hid, hlive⟩) fun _ h => List.mem_cons_of_mem _ h)
      · exact .inr (hattended.answerCancel cancelled)
  | waited cancelled =>
      rw [ActiveTurns.step, Option.ite_none_right_eq_some] at hstep
      obtain ⟨-, ⟨⟩⟩ := hstep
      by_cases hother : turnId = cancelled
      · subst hother
        rcases htends with hwrites | ⟨executor, hmem, hid, hguarded⟩
        · left
          rw [Ended, answerCancel_store]
          exact turnEnded_of_cancelTurn hwrites hreached
        · -- The guard of the aborted executor is still to be dropped.
          have haborted : (state.abortExecutor turnId).Attended turnId := by
            refine .inr (.inl ⟨{ executor with aborted := true }, ?_, hid, ?_⟩)
            · refine Table.mem_updateWhere.mpr ⟨executor, hmem, if_pos ?_⟩
              simpa [TurnExecutor.of] using hid
            · simp [TurnExecutor.live, hguarded]
          exact .inr (haborted.answerCancel turnId)
      · have haborted : (state.abortExecutor cancelled).Attended turnId := by
          refine hattended.other hother (fun _ h _ => h) ?_ ?_
          · intro executor hmem hne
            refine Table.mem_updateWhere.mpr ⟨executor, hmem, if_neg ?_⟩
            simpa [TurnExecutor.of] using hne
          · intro waiting hmem hne
            exact List.mem_filter.mpr ⟨hmem, by simpa using hne⟩
        exact .inr (haborted.answerCancel cancelled)
  | dropCancel dropped =>
      rw [ActiveTurns.step, Option.ite_none_right_eq_some] at hstep
      obtain ⟨-, ⟨⟩⟩ := hstep
      by_cases hother : turnId = dropped
      · subst hother
        rcases htends with hended | hlive
        · exact .inl (hmoved.ended turnId hended)
        · exact .inr (.inr (.inl hlive))
      · refine .inr (hattended.other hother (fun _ h _ => h) (fun _ h _ => h) ?_)
        intro waiting hmem hne
        exact List.mem_filter.mpr ⟨hmem, by simpa using hne⟩

end Attended

/-! ## Runs -/

/-- Every Turn has ended or is attended. -/
def AllTended (state : ActiveTurns) : Prop :=
  ∀ turnId ∈ state.store.projection.turnIds, state.Ended turnId ∨ state.Attended turnId

theorem AllTended.step (htended : state.AllTended) (hreached : Reached world state.store)
    (hstep : state.step world event = some state') (htends : event.Tends world state) :
    state'.AllTended := by
  have hmoved := step_moved hreached hstep
  intro turnId hmem
  rcases hmoved.added turnId hmem with hold | hattended
  · rcases htended turnId hold with hended | hattended
    · exact .inl (hmoved.ended turnId hended)
    · exact step_attended hreached hstep htends hattended
  · exact .inr hattended

theorem run_acknowledged {events : List TurnEvent} (hreached : Reached world state.store)
    (hrun : state.run world events = some state')
    (hacknowledged : ∀ turnId ∈ state.acknowledged, state.Ended turnId) :
    Reached world state'.store ∧ ∀ turnId ∈ state'.acknowledged, state'.Ended turnId := by
  induction events generalizing state with
  | nil =>
      cases hrun
      exact ⟨hreached, hacknowledged⟩
  | cons event rest ih =>
      obtain ⟨next, hstep, hrun⟩ := Option.bind_eq_some_iff.mp hrun
      have hmoved := step_moved hreached hstep
      apply ih hmoved.reached hrun
      intro turnId hmem
      rcases hmoved.acknowledged turnId hmem with hold | hended
      · exact hmoved.ended turnId (hacknowledged turnId hold)
      · exact hended

theorem run_tended {events : List TurnEvent} (hreached : Reached world state.store)
    (hrun : state.run world events = some state') (hevents : state.Tended world events)
    (htended : state.AllTended) : state'.AllTended := by
  induction events generalizing state with
  | nil =>
      cases hrun
      exact htended
  | cons event rest ih =>
      obtain ⟨next, hstep, hrun⟩ := Option.bind_eq_some_iff.mp hrun
      obtain ⟨htends, hrest⟩ := hevents
      have hnext := htended.step hreached hstep htends
      exact ih (step_moved hreached hstep).reached hrun (hrest next hstep) hnext

theorem reached_of_recovered {ops : List StoreOp} {store : Store}
    (hopened : Runs (Store.recoverInterruptedWork world) (Store.run world ops) () store) :
    Reached world store := by
  refine ⟨ops ++ [.recoverInterruptedWork], ?_⟩
  rw [Store.run_append]
  exact (congrArg Prod.snd hopened).symm

/-- A Hub opens with no active Turn. -/
theorem opened_tended {ops : List StoreOp} {store : Store}
    (hopened : Runs (Store.recoverInterruptedWork world) (Store.run world ops) () store) :
    (opened store).AllTended := by
  have hclosable : ∀ turnId, Store.Closable Store.Footprint.unrestricted turnId :=
    fun _ => Store.closable_of_produces trivial fun _ _ => trivial
  have hrecovered := Store.ensures_recoverInterruptedWork (Store.run_keyed world ops) hclosable
    (fun _ _ => trivial) () store hopened
  intro turnId hmem
  obtain ⟨row, hrow, hid⟩ := Projection.mem_turnIds.mp hmem
  exact .inl ⟨row, hrow, hid, hrecovered.2 row hrow⟩

end ActiveTurns

/-! ## Turns that nobody executes -/

namespace StrandedTurn

open ActiveTurns

def context (commandId : String) : CommandContext :=
  { commandId, actor := .system, correlationId := none }

/-- A Hub with an Agent and a Session on a Host that has joined it. -/
def ops : List StoreOp :=
  [.initializeHub (context "1") "hub" "a" "b" "c",
    .createAgent (context "2") "mews" "soul" "native" ⟨"1"⟩,
    .createInvitation (context "3") 100,
    .consumeInvitation (context "4") ⟨"12"⟩ "13" "laptop" "d" "e" "wss://relay",
    .createSession ⟨"7"⟩ ⟨"17"⟩ "/"]

def store : Store := (Store.recoverInterruptedWork World.numbered (Store.run World.numbered ops)).2

def request (key : String) : StartTurn where
  idempotencyKey := key
  sessionId := ⟨"22"⟩
  prompt := "hello"
  metadata := .null
  source := none

def session : Session where
  id := ⟨"22"⟩
  agentId := ⟨"7"⟩
  hostId := ⟨"17"⟩
  workingDirectory := "/"
  modelOverride := none
  leafEntryId := none
  createdAt := 23

def start (key : String) : TurnStart where
  request := request key
  session
  hubHostId := ⟨"1"⟩

/-- The link of the client is lost while the acceptance waits for the registry. -/
def lostStart : List TurnEvent :=
  [.connect ⟨"17"⟩, .start (request "key"), .accept (start "key"), .dropStart ⟨"26"⟩]

/-- The link of the client is lost while its CancelTurn waits for an executor
that then finds the Host of the Session gone. -/
def lostCancel : List TurnEvent :=
  [.connect ⟨"17"⟩, .start (request "key"), .accept (start "key"), .register ⟨"26"⟩,
    .cancel ⟨"26"⟩, .dropCancel ⟨"26"⟩, .disconnect ⟨"17"⟩,
    .returned ⟨"26"⟩ (some "Session Host 17 is offline") true]

/-- CancelTurn ends a Turn whose executor it aborts. -/
def cancelled : List TurnEvent :=
  [.connect ⟨"17"⟩, .start (request "key"), .accept (start "key"), .register ⟨"26"⟩,
    .cancel ⟨"26"⟩, .waited ⟨"26"⟩]

/-- A Turn is active and nobody is going to end it: the request made again returns
it, and no other Turn is accepted in its Session. -/
def Stranded (state : ActiveTurns) : Prop :=
  ∃ row ∈ state.store.projection.turns, row.turn.completedAt = none ∧
    ¬state.Attended row.turn.id ∧
    ((request "key").open World.numbered [⟨"17"⟩] state.store).toOption = some (.inl row.turn) ∧
    ((request "other").turnRequest.accept World.numbered (.text "hello") state.store).1.isOk = false

instance (state : ActiveTurns) : Decidable (Stranded state) :=
  inferInstanceAs (Decidable (∃ row ∈ _, _))

/-- What the runs come to, evaluated once. -/
theorem evaluated :
    (Store.recoverInterruptedWork World.numbered (Store.run World.numbered ops)).1 = .ok () ∧
    (∀ events ∈ [lostStart, lostCancel], ((opened store).run World.numbered events).any
      (fun state => decide (Stranded state)) = true) ∧
    ((opened store).run World.numbered cancelled).any (fun state =>
      decide (state.acknowledged = [⟨"26"⟩] ∧
        state.store.projection.turnIds = [⟨"26"⟩])) = true ∧
    (opened store).Tended World.numbered cancelled := by
  refine ⟨?_, ?_, ?_, ?_⟩ <;> decide +kernel

theorem runs_recover :
    Runs (Store.recoverInterruptedWork World.numbered) (Store.run World.numbered ops) () store := by
  rw [Runs, ← evaluated.1, store]

theorem run_cancelled : ∃ state, (opened store).run World.numbered cancelled = some state ∧
    state.acknowledged = [⟨"26"⟩] ∧ state.store.projection.turnIds = [⟨"26"⟩] := by
  obtain ⟨state, hrun, hstate⟩ := (Option.any_eq_true _ _).mp evaluated.2.2.1
  exact ⟨state, hrun, of_decide_eq_true hstate⟩

end StrandedTurn

end Mews
