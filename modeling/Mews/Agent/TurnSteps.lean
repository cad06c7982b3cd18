import Mews.Agent.IdentityHook

/-!
# What a step adds

The steps that a Turn comes to, with the record of those that went before: what was injected,
what the provider answered, what its calls returned and what followed.
-/

namespace Mews

open Protocol HostProtocol

structure StepRecord where
  /-- The step before its `before_model` hook. -/
  begun : TurnState
  request : ModelRequest
  steering : List ModelMessage
  response : AssistantResponse
  requested : List AgentToolCall
  outcome : BatchOutcome
  followUps : List ModelMessage

namespace StepRecord

variable (step : StepRecord)

def tools : ToolCatalog :=
  { generation := step.begun.catalog.generation, definitions := step.request.tools }

def calls : List AgentToolCall := step.requested.map step.tools.stamp

/-- What is added to the request that was sent. -/
def added : List ModelMessage :=
  responseMessages step.response ++ step.outcome.completed.map resultMessage ++ step.followUps

def messages : List ModelMessage := step.steering ++ step.added

end StepRecord

namespace TurnWorld

variable (world : TurnWorld)

/-- The step went from one log to the other. -/
structure Performed (index : Nat) (state : TurnState) (log log' : List CallEvent)
    (step : StepRecord) : Prop where
  begun : world.beginStep index state log = (.ok step.begun, log)
  steering : world.steeringMessages index log = .ok step.steering
  request : ∃ hooked, world.beforeModel index log step.begun.request = .ok hooked ∧
    world.checkRequest step.begun.catalog hooked = .ok step.request
  response : world.provider.streamResponse step.request log =
    (.ok (step.response, step.requested), log')
  outcome : world.executed index log' step.tools step.calls = .ok step.outcome
  followUps : step.outcome.completed = [] → world.followUpMessages index log' = .ok step.followUps
  noFollowUps : step.outcome.completed ≠ [] → step.followUps = []

/-- The steps that a Turn comes to. -/
inductive Reached : Nat → TurnState → List CallEvent → List StepRecord → Prop
  | opened {state : TurnState} {log : List CallEvent}
      (hopen : world.openTurn [] = (.ok state, log)) : Reached 0 state log []
  | stepped {index : Nat} {state next : TurnState} {log log' : List CallEvent}
      {steps : List StepRecord} {step : StepRecord} (hreached : Reached index state log steps)
      (hstep : world.runStep index state log = (.ok (.next next), log'))
      (hperformed : world.Performed index state log log' step) :
      Reached (index + 1) next log' (steps ++ [step])

variable {world} {index : Nat} {state : TurnState} {log : List CallEvent}

/-! ## One step -/

theorem ensures_inject_messages (injected : List CallEvent → ModelMessage → Except Failure Unit)
    (request : ModelRequest) (messages : List ModelMessage) (log : List CallEvent) :
    Tx.ensures (inject injected request messages) log fun injected log' =>
      injected = { request with messages := request.messages ++ messages } ∧ log' = log := by
  induction messages generalizing request with
  | nil => exact (Tx.ensures_pure _ _ _).mpr ⟨by rw [List.append_nil], rfl⟩
  | cons message messages ih =>
      rw [inject]
      simp only [Tx.ensures_bind, Tx.ensures_reads]
      apply ensures_answer
      intro value _ result reached hrun
      obtain ⟨hresult, hlog⟩ := ih _ result reached hrun
      refine ⟨?_, hlog⟩
      rw [hresult, List.append_assoc, List.singleton_append]

/-- The step goes on with the catalog and the messages that are injected. -/
theorem ensures_beginStep_request (index : Nat) (state : TurnState) (log : List CallEvent) :
    Tx.ensures (world.beginStep index state) log fun begun log' =>
      ∃ steering, world.steeringMessages index log = .ok steering ∧
        begun.request.continuation = state.request.continuation ∧
        begun.request.messages = state.request.messages ++ steering ∧ log' = log := by
  rw [beginStep]
  simp only [Tx.ensures_bind, Tx.ensures_reads]
  by_cases hcancelled : world.cancelled index log = true
  · rw [if_pos hcancelled]
    exact Tx.ensures_fail _ _ _
  · rw [if_neg hcancelled]
    simp only [Tx.ensures_bind, Tx.ensures_reads]
    intro catalog reached hcatalog
    obtain rfl : reached = log := by
      have hsilent : Silent (world.stepCatalog index state) := by
        rw [stepCatalog]
        split_ifs
        · exact fun _ => rfl
        · exact Silent.bind (fun _ => rfl) silent_answer
      have hsame := hsilent log
      rw [hcatalog] at hsame
      exact hsame
    apply ensures_answer
    intro steering hsteering injected reached' hrun
    obtain ⟨hinjected, rfl⟩ := ensures_inject_messages _ _ steering reached injected reached' hrun
    have hcontinuation : injected.continuation = state.request.continuation := by
      rw [hinjected]
      split_ifs <;> rfl
    have hmessages : injected.messages = state.request.messages ++ steering := by
      rw [hinjected]
      split_ifs <;> rfl
    exact (Tx.ensures_pure _ _ _).mpr ⟨steering, hsteering, hcontinuation, hmessages, rfl⟩

/-- A step that is followed by another keeps its messages and adds those that follow. -/
theorem ensures_endStep_next {text : String} {outcome : BatchOutcome} :
    Tx.ensures (world.endStep index state text outcome) log fun ended log' =>
      ∀ next, ended = .next next →
        ∃ followUps, next.request.messages = state.request.messages ++ followUps ∧
          next.request.continuation = state.request.continuation ∧ log' = log ∧
          (outcome.completed = [] → world.followUpMessages index log = .ok followUps) ∧
          (outcome.completed ≠ [] → followUps = []) := by
  rw [endStep]
  cases outcome.terminalError with
  | some failure => exact Tx.ensures_fail _ _ _
  | none =>
      rw [Tx.ensures_bind, Tx.ensures_reads]
      cases uncertainReason outcome.completed with
      | some reason =>
          cases world.afterStep index log state.request with
          | ok decision => exact Tx.ensures_fail _ _ _
          | error failure => exact Tx.ensures_fail _ _ _
      | none =>
          rw [Tx.ensures_bind]
          apply ensures_answer
          intro decision _
          by_cases hstop : ((outcome.completed.any fun item => item.2.terminate) ||
            decision = .stop) = true
          · rw [if_pos hstop]
            exact (Tx.ensures_pure _ _ _).mpr fun next hnext => by cases hnext
          · rw [if_neg hstop]
            simp only [Tx.ensures_bind, Tx.ensures_reads]
            apply ensures_answer
            intro update _
            by_cases hempty : outcome.completed.isEmpty = true
            · rw [if_pos hempty]
              simp only [Tx.ensures_bind, Tx.ensures_reads]
              apply ensures_answer
              intro followUps hfollowUps
              by_cases hnone : followUps.isEmpty = true
              · rw [if_pos hnone]
                exact (Tx.ensures_pure _ _ _).mpr fun next hnext => by cases hnext
              · rw [if_neg hnone, Tx.ensures_bind]
                intro injected reached hrun
                obtain ⟨hinjected, hlog⟩ :=
                  ensures_inject_messages _ _ followUps log injected reached hrun
                have hcontinuation : injected.continuation = state.request.continuation := by
                  rw [hinjected]
                  rfl
                have hmessages : injected.messages = state.request.messages ++ followUps := by
                  rw [hinjected]
                  rfl
                refine (Tx.ensures_pure _ _ _).mpr fun next hnext => ?_
                cases hnext
                exact ⟨followUps, hmessages, hcontinuation, hlog, fun _ => hfollowUps,
                  fun hsome => absurd (List.isEmpty_iff.mp hempty) hsome⟩
            · rw [if_neg hempty]
              refine (Tx.ensures_pure _ _ _).mpr fun next hnext => ?_
              cases hnext
              exact ⟨[], (List.append_nil _).symm, rfl, rfl,
                fun hnone => absurd (List.isEmpty_iff.mpr hnone) hempty, fun _ => rfl⟩

/-- The step ends where the response was read, and goes on with the messages it has added. -/
theorem ensures_callModel_next (index : Nat) (begun : TurnState) (request : ModelRequest)
    (log : List CallEvent) :
    Tx.ensures (world.callModel index begun request) log fun ended log' =>
      ∀ next, ended = .next next →
        ∃ response calls outcome followUps,
          world.provider.streamResponse request log = (.ok (response, calls), log') ∧
          world.executed index log'
            { generation := begun.catalog.generation, definitions := request.tools }
            (calls.map (ToolCatalog.stamp
              { generation := begun.catalog.generation, definitions := request.tools })) =
            .ok outcome ∧
          (outcome.completed = [] → world.followUpMessages index log' = .ok followUps) ∧
          (outcome.completed ≠ [] → followUps = []) ∧
          next.request.messages = request.messages ++ responseMessages response ++
            outcome.completed.map resultMessage ++ followUps ∧
          next.request.continuation = none := by
  rw [callModel, Tx.ensures_bind]
  intro answered reached hanswered
  obtain ⟨response, calls⟩ := answered
  dsimp only
  by_cases hmany : maxToolCallsPerStep < calls.length
  · rw [if_pos hmany]
    exact Tx.ensures_fail _ _ _
  · rw [if_neg hmany]
    cases validateToolCallIds world.library.debug begun.acceptedCallIds calls [] with
    | error text => exact Tx.ensures_fail _ _ _
    | ok value =>
        dsimp only
        split
        · exact Tx.ensures_fail _ _ _
        · simp only [Tx.ensures_bind, Tx.ensures_reads]
          apply ensures_answer
          intro value _
          apply ensures_answer
          intro outcome houtcome ended reached' hended next hnext
          obtain ⟨followUps, hmessages, hcontinuation, rfl, hempty, hsome⟩ :=
            ensures_endStep_next ended reached' hended next hnext
          exact ⟨response, calls, outcome, followUps, hanswered, houtcome, hempty, hsome,
            hmessages, hcontinuation⟩

/-- Every step that is followed by another has a record, and what follows goes on with it. -/
theorem exists_performed {next : TurnState} {log' : List CallEvent}
    (hstep : world.runStep index state log = (.ok (.next next), log')) :
    ∃ step, world.Performed index state log log' step ∧
      step.begun.request.messages = state.request.messages ++ step.steering ∧
      next.request.messages = step.request.messages ++ step.added ∧
      next.request.continuation = none := by
  have hrun : Tx.ensures (world.runStep index state) log fun ended log' =>
      ∀ next, ended = .next next → ∃ step, world.Performed index state log log' step ∧
        step.begun.request.messages = state.request.messages ++ step.steering ∧
        next.request.messages = step.request.messages ++ step.added ∧
        next.request.continuation = none := by
    rw [runStep, Tx.ensures_bind]
    intro begun reached hbegin
    obtain ⟨steering, hsteering, -, hbegun, rfl⟩ :=
      ensures_beginStep_request index state log begun reached hbegin
    simp only [Tx.ensures_bind, Tx.ensures_reads, Tx.ensures_lift]
    apply ensures_answer
    intro hooked hhook checked hcheck ended log' hended next hnext
    obtain ⟨response, requested, outcome, followUps, hresponse, houtcome, hempty, hsome,
      hmessages, hcontinuation⟩ := ensures_callModel_next index begun checked _ ended log' hended
        next hnext
    let step : StepRecord :=
      { begun, request := checked, steering, response, requested, outcome, followUps }
    have hperformed : world.Performed index state reached log' step :=
      { begun := hbegin
        steering := hsteering
        request := ⟨hooked, hhook, hcheck⟩
        response := hresponse
        outcome := houtcome
        followUps := hempty
        noFollowUps := hsome }
    refine ⟨step, hperformed, hbegun, ?_, hcontinuation⟩
    rw [hmessages, StepRecord.added, List.append_assoc, List.append_assoc, List.append_assoc]
  exact hrun _ log' hstep next rfl

/-- There is one record of a step. -/
theorem Performed.unique {log' : List CallEvent} {step other : StepRecord}
    (hstep : world.Performed index state log log' step)
    (hother : world.Performed index state log log' other) : step = other := by
  obtain ⟨begun, request, steering, response, requested, outcome, followUps⟩ := step
  obtain ⟨begun', request', steering', response', requested', outcome', followUps'⟩ := other
  obtain rfl : begun = begun' := by
    have hsame := hstep.begun.symm.trans hother.begun
    exact Except.ok.inj (Prod.mk.inj hsame).1
  obtain rfl : steering = steering' := Except.ok.inj (hstep.steering.symm.trans hother.steering)
  obtain rfl : request = request' := by
    obtain ⟨hooked, hhook, hcheck⟩ := hstep.request
    obtain ⟨hooked', hhook', hcheck'⟩ := hother.request
    obtain rfl : hooked = hooked' := Except.ok.inj (hhook.symm.trans hhook')
    exact Except.ok.inj (hcheck.symm.trans hcheck')
  obtain ⟨rfl, rfl⟩ : response = response' ∧ requested = requested' := by
    have hsame := hstep.response.symm.trans hother.response
    exact Prod.mk.inj (Except.ok.inj (Prod.mk.inj hsame).1)
  obtain rfl : outcome = outcome' := Except.ok.inj (hstep.outcome.symm.trans hother.outcome)
  have hfollowUps : followUps = followUps' := by
    by_cases hnone : outcome.completed = []
    · exact Except.ok.inj ((hstep.followUps hnone).symm.trans (hother.followUps hnone))
    · exact (hstep.noFollowUps hnone).trans (hother.noFollowUps hnone).symm
  rw [hfollowUps]

end TurnWorld

end Mews
