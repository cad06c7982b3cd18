import Mews.Store.Aggregates

/-!
# Runs of the Store

One constructor for each public command of the Store that can write, what it
does, and the states a sequence of commands leads to.  A command that fails is
a step too: it leaves whatever it did not roll back.
-/

namespace Mews

open Protocol

inductive StoreOp where
  | scheduleEffect (sessionId : SessionId) (turnId : TurnId) (effect : EffectRequest)
  | markEffectStarted (sessionId : SessionId) (turnId : TurnId) (operationId : OperationId)
  | startEffect (sessionId : SessionId) (turnId : TurnId) (effect : EffectRequest)
  | finishEffect (sessionId : SessionId) (turnId : TurnId) (operationId : OperationId)
      (outcome : EffectOutcome)
  | startToolEffect (sessionId : SessionId) (turnId : TurnId) (call : ToolCall)
  | acceptTurnIdempotent (sessionId : SessionId) (key : String)
      (requestContent resolvedContent : MessageContent) (metadata : Value)
      (source : MessageSource)
  | bindAcpSession (sessionId : SessionId) (input : AcpBindingInput)
  | bindAcpSessionWithObservations (sessionId : SessionId) (input : AcpBindingInput)
      (turnId : TurnId)
  | markAcpContextDispatchedWithObservation (sessionId : SessionId) (turnId : TurnId)
      (acpSessionId : String)
  | createSession (agentId : AgentId) (hostId : HostId) (workingDirectory : String)
  | setSessionModel (sessionId : SessionId) (model : Option String)
  | appendMessage (sessionId : SessionId) (role : MessageRole) (content : MessageContent)
      (metadata : Value) (source : MessageSource)
  | appendMessageChecked (sessionId : SessionId) (expectedLeaf : Option MessageId)
      (role : MessageRole) (content : MessageContent) (metadata : Value)
      (source : MessageSource)
  | appendAssistantResponseWithToolCalls (sessionId : SessionId) (turnId : TurnId)
      (response : AssistantResponse) (calls : List ToolCall)
  | appendToolResult (sessionId : SessionId) (turnId : TurnId) (result : ToolResult)
  | completeToolExecution (sessionId : SessionId) (turnId : TurnId) (result : ToolResult)
  | appendToolRequested (sessionId : SessionId) (turnId : TurnId) (call : ToolCall)
  | appendReasoning (sessionId : SessionId) (turnId : TurnId) (text : String)
      (visibility : ReasoningVisibility) (provenance : ReasoningProvenance)
      (idempotencyKey : Option String)
  | appendHarnessObservations (sessionId : SessionId) (turnId : TurnId)
      (observations : List HarnessObservationInput)
  | appendContextCompaction (sessionId : SessionId) (summary : String)
      (firstKeptEntryId : MessageId) (tokensBefore : Nat)
  | appendAcpObservation (sessionId : SessionId) (turnId : TurnId)
      (acpSessionId eventKey : Option String) (observation : AcpObservation)
  | setSessionLeafChecked (sessionId : SessionId) (expectedLeaf newLeaf : Option MessageId)
  | finishTurnWithStopReason (turnId : TurnId) (status : TurnStatus)
      (error stopReason : Option String)
  | recordTurnHarness (turnId : TurnId) (harness definitionHash : String)
      (version : Option String)
  | recoverInterruptedWork
  | emitRuntimeSignal (sessionId : SessionId) (turnId : TurnId)
      (payload : RuntimeSignalPayload)
  | appendRuntimeSignal (signal : RuntimeSignal)
  | appendAcpObservationWithClientEvent (sessionId : SessionId) (turnId : TurnId)
      (acpSessionId eventKey : Option String) (observation : AcpObservation)
      (event : ClientEventKind)
  | subscribeSession (consumerId : ConsumerId) (sessionId : SessionId) (kind : ConsumerKind)
  | deleteConsumer (consumerId : ConsumerId)
  | unsubscribeSession (consumerId : ConsumerId) (sessionId : SessionId)
  | clientEvents (consumerId : ConsumerId) (limit : Nat)
  | acknowledgeEvents (consumerId : ConsumerId) (checkpoint : Nat)
  | pruneClientEvents
  | createAgent (context : CommandContext) (slug soul configToml : String)
      (authorHostId : HostId)
  | renameAgent (context : CommandContext) (slug newSlug : String)
  | rollbackAgentRename (context : CommandContext) (slug newSlug : String)
  | archiveAgent (context : CommandContext) (slug : String)
  | updateAgent (context : CommandContext) (agentId : AgentId) (expectedRevision : Nat)
      (soul configToml : String) (authorHostId : HostId)
  | revokeHost (context : CommandContext) (id : HostId)
  | createInvitation (context : CommandContext) (expiresAt : DateTime)
  | consumeInvitation (context : CommandContext) (invitationId : InvitationId)
      (secret name publicKey noisePublicKey relayUrl : String)
  | initializeHub (context : CommandContext)
      (hostName hostPublicKey hostNoisePublicKey installationPublicKey : String)
  | setRelayUrl (context : CommandContext) (relayUrl : String)
  | setInstallationRelayUrl (context : CommandContext) (relayUrl : String)
  | setDefaultModel (context : CommandContext) (model : String)
  | setDefaultReasoning (context : CommandContext) (reasoning : Option ReasoningEffort)
  | moveHub (context : CommandContext) (expected target : HostId)
  deriving DecidableEq

namespace Store

variable (world : World)

/-- Runs a command and forgets what it returned. -/
def discard {A : Type} (action : Action A) : Action Unit := do
  let _ ← action

def exec : StoreOp → Action Unit
  | .scheduleEffect sessionId turnId effect =>
      discard (scheduleEffect world sessionId turnId effect)
  | .markEffectStarted sessionId turnId operationId =>
      markEffectStarted world sessionId turnId operationId
  | .startEffect sessionId turnId effect => discard (startEffect world sessionId turnId effect)
  | .finishEffect sessionId turnId operationId outcome =>
      finishEffect world sessionId turnId operationId outcome
  | .startToolEffect sessionId turnId call =>
      discard (startToolEffect world sessionId turnId call)
  | .acceptTurnIdempotent sessionId key requestContent resolvedContent metadata source =>
      discard (acceptTurnIdempotent world sessionId key requestContent resolvedContent metadata
        source)
  | .bindAcpSession sessionId input => discard (bindAcpSession world sessionId input)
  | .bindAcpSessionWithObservations sessionId input turnId =>
      bindAcpSessionWithObservations world sessionId input turnId
  | .markAcpContextDispatchedWithObservation sessionId turnId acpSessionId =>
      markAcpContextDispatchedWithObservation world sessionId turnId acpSessionId
  | .createSession agentId hostId workingDirectory =>
      discard (createSession world agentId hostId workingDirectory)
  | .setSessionModel sessionId model => discard (setSessionModel world sessionId model)
  | .appendMessage sessionId role content metadata source =>
      discard (appendMessage world sessionId role content metadata source)
  | .appendMessageChecked sessionId expectedLeaf role content metadata source =>
      discard (appendMessageChecked world sessionId expectedLeaf role content metadata source)
  | .appendAssistantResponseWithToolCalls sessionId turnId response calls =>
      discard (appendAssistantResponseWithToolCalls world sessionId turnId response calls)
  | .appendToolResult sessionId turnId result =>
      discard (appendToolResult world sessionId turnId result)
  | .completeToolExecution sessionId turnId result =>
      completeToolExecution world sessionId turnId result
  | .appendToolRequested sessionId turnId call =>
      discard (appendToolRequested world sessionId turnId call)
  | .appendReasoning sessionId turnId text visibility provenance idempotencyKey =>
      appendReasoning world sessionId turnId text visibility provenance idempotencyKey
  | .appendHarnessObservations sessionId turnId observations =>
      appendHarnessObservations world sessionId turnId observations
  | .appendContextCompaction sessionId summary firstKeptEntryId tokensBefore =>
      discard (appendContextCompaction world sessionId summary firstKeptEntryId tokensBefore)
  | .appendAcpObservation sessionId turnId acpSessionId eventKey observation =>
      appendAcpObservation world sessionId turnId acpSessionId eventKey observation
  | .setSessionLeafChecked sessionId expectedLeaf newLeaf =>
      discard (setSessionLeafChecked world sessionId expectedLeaf newLeaf)
  | .finishTurnWithStopReason turnId status error stopReason =>
      finishTurnWithStopReason world turnId status error stopReason
  | .recordTurnHarness turnId harness definitionHash version =>
      recordTurnHarness world turnId harness definitionHash version
  | .recoverInterruptedWork => recoverInterruptedWork world
  | .emitRuntimeSignal sessionId turnId payload =>
      emitRuntimeSignal world sessionId turnId payload
  | .appendRuntimeSignal signal => appendRuntimeSignal world signal
  | .appendAcpObservationWithClientEvent sessionId turnId acpSessionId eventKey observation
      event =>
      appendAcpObservationWithClientEvent world sessionId turnId acpSessionId eventKey
        observation event
  | .subscribeSession consumerId sessionId kind =>
      subscribeSession world consumerId sessionId kind
  | .deleteConsumer consumerId => deleteConsumer world consumerId
  | .unsubscribeSession consumerId sessionId => unsubscribeSession world consumerId sessionId
  | .clientEvents consumerId limit => discard (pollClientEvents world consumerId limit)
  | .acknowledgeEvents consumerId checkpoint => acknowledgeEvents world consumerId checkpoint
  | .pruneClientEvents => pruneClientEvents world
  | .createAgent context slug soul configToml authorHostId =>
      discard (createAgent world context slug soul configToml authorHostId)
  | .renameAgent context slug newSlug => discard (renameAgent world context slug newSlug)
  | .rollbackAgentRename context slug newSlug =>
      discard (rollbackAgentRename world context slug newSlug)
  | .archiveAgent context slug => archiveAgent world context slug
  | .updateAgent context agentId expectedRevision soul configToml authorHostId =>
      discard (updateAgent world context agentId expectedRevision soul configToml authorHostId)
  | .revokeHost context id => revokeHost world context id
  | .createInvitation context expiresAt => discard (createInvitation world context expiresAt)
  | .consumeInvitation context invitationId secret name publicKey noisePublicKey relayUrl =>
      discard (consumeInvitation world context invitationId secret name publicKey
        noisePublicKey relayUrl)
  | .initializeHub context hostName hostPublicKey hostNoisePublicKey installationPublicKey =>
      discard (initializeHub world context hostName hostPublicKey hostNoisePublicKey
        installationPublicKey)
  | .setRelayUrl context relayUrl => setRelayUrl world context relayUrl
  | .setInstallationRelayUrl context relayUrl => setInstallationRelayUrl world context relayUrl
  | .setDefaultModel context model => setDefaultModel world context model
  | .setDefaultReasoning context reasoning => setDefaultReasoning world context reasoning
  | .moveHub context expected target => discard (moveHub world context expected target)

/-- The state one command leaves, whether or not it succeeds. -/
def step (store : Store) (op : StoreOp) : Store := (exec world op store).2

def runFrom (store : Store) (ops : List StoreOp) : Store := ops.foldl (step world) store

/-- The state a sequence of commands leads to from a new database. -/
def run (ops : List StoreOp) : Store := runFrom world empty ops

theorem runFrom_append (store : Store) (first second : List StoreOp) :
    runFrom world store (first ++ second) = runFrom world (runFrom world store first) second :=
  List.foldl_append

theorem run_append (first second : List StoreOp) :
    run world (first ++ second) = runFrom world (run world first) second :=
  runFrom_append world empty first second

/-- What every command keeps related holds between the ends of any run. -/
theorem runFrom_related (R : Store → Store → Prop) (hrefl : ∀ store, R store store)
    (htrans : ∀ a b c, R a b → R b c → R a c) (hstep : ∀ store op, R store (step world store op))
    (store : Store) (ops : List StoreOp) : R store (runFrom world store ops) := by
  induction ops generalizing store with
  | nil => exact hrefl store
  | cons op ops ih => exact htrans _ _ _ (hstep store op) (ih (step world store op))

/-- An invariant of every command that holds of the new database holds in every
reachable state. -/
theorem run_invariant (Inv : Store → Prop) (hinit : Inv empty)
    (hstep : ∀ store op, Inv store → Inv (step world store op)) (ops : List StoreOp) :
    Inv (run world ops) := by
  have hrun : ∀ store, Inv store → Inv (runFrom world store ops) := by
    induction ops with
    | nil => exact fun store hstore => hstore
    | cons op ops ih => exact fun store hstore => ih _ (hstep store op hstore)
  exact hrun empty hinit

end Store

end Mews
