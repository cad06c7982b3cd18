import Mews.Agent.Turns

/-!
# A hook that changes nothing

`MewsRuntime::before_model` hands the request to the hooks of the Agent as a value and reads
back what they return.  The history that a continuation keeps for its fallback is not part of
the value, so that a Turn whose cursor is refused replays nothing.
-/

namespace Mews

open Protocol HostProtocol

/-- `MewsRuntime::before_model`; `unreadable` is the error for what is no request. -/
def MewsRuntime.beforeModel (unreadable : Value → Failure) (hook : Value → Except Failure Value)
    (request : ModelRequest) : Except Failure ModelRequest :=
  match hook request.toValue with
  | .error failure => .error failure
  | .ok .null => .ok request
  | .ok payload =>
      match ModelRequest.ofValue payload with
      | some request => .ok request
      | none => .error (unreadable payload)

theorem MewsRuntime.beforeModel_identity (unreadable : Value → Failure) (request : ModelRequest) :
    beforeModel unreadable .ok request = .ok request.serialized := by
  have hvalue : beforeModel unreadable .ok request =
      match ModelRequest.ofValue request.toValue with
      | some request => .ok request
      | none => .error (unreadable request.toValue) := rfl
  rw [hvalue, ModelRequest.ofValue_toValue]

namespace TurnWorld

variable (world : TurnWorld)

/-- Requests are sent as they are. -/
def hookless : TurnWorld := { world with beforeModel := fun _ _ request => .ok request }

/-- Requests pass through a hook that returns its input. -/
def hooked (unreadable : Value → Failure) : TurnWorld :=
  { world with beforeModel := fun _ _ request => MewsRuntime.beforeModel unreadable .ok request }

/-- The request that the first step sends, before anything is asked of the provider. -/
def firstRequest (maxSteps : Nat) : Except CallFailure ModelRequest :=
  if maxSteps = 0 then .error (.failure (.msg ""))
  else
    (Tx.andThen world.openTurn (fun state =>
      Tx.andThen (world.beginStep 0 state) fun state =>
        Tx.lift (world.checkRequest state.catalog state.request)) []).1

variable {world} {unreadable : Value → Failure}

/-! ## Requests that lose nothing -/

theorem ensures_inject (injected : List CallEvent → ModelMessage → Except Failure Unit)
    (request : ModelRequest) (messages : List ModelMessage) (log : List CallEvent) :
    Tx.ensures (inject injected request messages) log fun injected _ =>
      injected.continuation = request.continuation := by
  induction messages generalizing request log with
  | nil => exact (Tx.ensures_pure _ _ _).mpr rfl
  | cons message messages ih =>
      rw [inject]
      simp only [Tx.ensures_bind, Tx.ensures_reads]
      intro value reached hanswer
      exact ih _ reached

theorem ensures_answer {A : Type} (result : Except Failure A) (log : List CallEvent)
    (post : A → List CallEvent → Prop) (hpost : ∀ value, result = .ok value → post value log) :
    Tx.ensures (ProviderWorld.answer result) log post := by
  cases result with
  | ok value => exact (Tx.ensures_pure _ _ _).mpr (hpost value rfl)
  | error failure => exact Tx.ensures_fail _ _ _

theorem ensures_beginStep (index : Nat) (state : TurnState) (log : List CallEvent) :
    Tx.ensures (world.beginStep index state) log fun begun _ =>
      begun.request.continuation = state.request.continuation := by
  rw [beginStep]
  simp only [Tx.ensures_bind, Tx.ensures_reads]
  by_cases hcancelled : world.cancelled index log = true
  · rw [if_pos hcancelled]
    exact Tx.ensures_fail _ _ _
  · rw [if_neg hcancelled]
    simp only [Tx.ensures_bind, Tx.ensures_reads]
    intro catalog reached _
    apply ensures_answer
    intro steering _ injected reached' hrun
    have hinjected : injected.continuation = state.request.continuation := by
      rw [ensures_inject _ _ steering reached injected reached' hrun]
      split_ifs <;> rfl
    exact (Tx.ensures_pure _ _ _).mpr hinjected

/-- Whatever the next step goes on with has no cursor. -/
def StepEnd.Cursorless : StepEnd → Prop
  | .answered _ => True
  | .next state => state.request.continuation = none

theorem ensures_endStep {index : Nat} {state : TurnState} {text : String} {outcome : BatchOutcome}
    (hcursorless : state.request.continuation = none) (log : List CallEvent) :
    Tx.ensures (world.endStep index state text outcome) log fun ended _ =>
      StepEnd.Cursorless ended := by
  rw [endStep]
  cases outcome.terminalError with
  | some failure => exact Tx.ensures_fail _ _ _
  | none =>
      rw [Tx.ensures_bind, Tx.ensures_reads]
      cases uncertainReason outcome.completed with
      | some reason =>
          cases world.afterStep index log state.request with
          | ok decision => exact Tx.ensures_fail _ _ _
          | error failure => exact Tx.ensures_fail _ _ _
      | none =>
          rw [Tx.ensures_bind]
          apply ensures_answer
          intro decision _
          by_cases hstop : ((outcome.completed.any fun item => item.2.terminate) ||
            decision = .stop) = true
          · rw [if_pos hstop]
            exact (Tx.ensures_pure _ _ _).mpr trivial
          · rw [if_neg hstop]
            simp only [Tx.ensures_bind, Tx.ensures_reads]
            apply ensures_answer
            intro update _
            by_cases hempty : outcome.completed.isEmpty = true
            · rw [if_pos hempty]
              simp only [Tx.ensures_bind, Tx.ensures_reads]
              apply ensures_answer
              intro followUps _
              by_cases hfollowUps : followUps.isEmpty = true
              · rw [if_pos hfollowUps]
                exact (Tx.ensures_pure _ _ _).mpr trivial
              · rw [if_neg hfollowUps, Tx.ensures_bind]
                intro injected reached hrun
                have hinjected := ensures_inject _ _ followUps log injected reached hrun
                exact (Tx.ensures_pure _ _ _).mpr (hinjected.trans hcursorless)
            · rw [if_neg hempty]
              exact (Tx.ensures_pure _ _ _).mpr hcursorless

theorem ensures_callModel (index : Nat) (state : TurnState) (request : ModelRequest)
    (log : List CallEvent) :
    Tx.ensures (world.callModel index state request) log fun ended _ =>
      StepEnd.Cursorless ended := by
  rw [callModel, Tx.ensures_bind]
  intro answered reached _
  obtain ⟨response, calls⟩ := answered
  dsimp only
  by_cases hmany : maxToolCallsPerStep < calls.length
  · rw [if_pos hmany]
    exact Tx.ensures_fail _ _ _
  · rw [if_neg hmany]
    cases validateToolCallIds world.library.debug state.acceptedCallIds calls [] with
    | error text => exact Tx.ensures_fail _ _ _
    | ok value =>
        dsimp only
        split
        · exact Tx.ensures_fail _ _ _
        · simp only [Tx.ensures_bind, Tx.ensures_reads]
          apply ensures_answer
          intro value _
          apply ensures_answer
          intro outcome _
          exact ensures_endStep rfl reached

/-! ## Turns that are the same -/

theorem reads_answer {A B : Type} (view : List CallEvent → Except Failure A)
    (next : A → Calling B) (log : List CallEvent) :
    (Tx.reads view >>= fun result => ProviderWorld.answer result >>= next) log =
      match view log with
      | .ok value => next value log
      | .error failure => (.error (.failure failure), log) := by
  change Tx.andThen (ProviderWorld.answer (view log)) next log = _
  cases view log with
  | ok value => rfl
  | error failure => rfl

theorem checkRequest_serialized (catalog : ToolCatalogSnapshot) (request : ModelRequest) :
    world.checkRequest catalog request.serialized =
      (world.checkRequest catalog request).map (·.serialized) := by
  rw [checkRequest, checkRequest, ModelRequest.applyContextBudget_serialized]
  cases request.applyContextBudget with
  | error text => rfl
  | ok trimmed =>
      have htools : trimmed.serialized.tools = trimmed.tools := rfl
      dsimp only [Except.map]
      rw [htools]
      cases world.checkTools catalog trimmed.tools with
      | error failure => rfl
      | ok value => rfl

/-- The step is the same if the request that it sends keeps nothing for a fallback. -/
theorem runStep_hooked (index : Nat) (state : TurnState) (log : List CallEvent)
    (hsent : ∀ begun reached first, world.beginStep index state log = (.ok begun, reached) →
      world.checkRequest begun.catalog begun.request = .ok first → first.serialized = first) :
    (world.hooked unreadable).runStep index state log = world.hookless.runStep index state log := by
  have hbegin : (world.hooked unreadable).beginStep index state = world.beginStep index state := rfl
  have hbegin' : world.hookless.beginStep index state = world.beginStep index state := rfl
  rw [runStep, runStep, hbegin, hbegin']
  apply Tx.bind_eq_of_ensures
  intro begun reached hrun
  rw [reads_answer, reads_answer]
  dsimp only [hooked, hookless]
  rw [MewsRuntime.beforeModel_identity]
  change (Tx.lift (world.checkRequest begun.catalog begun.request.serialized) >>= _) reached =
    (Tx.lift (world.checkRequest begun.catalog begun.request) >>= _) reached
  rw [checkRequest_serialized]
  cases hcheck : world.checkRequest begun.catalog begun.request with
  | error failure => rfl
  | ok first =>
      rw [Except.map, hsent begun reached first hrun hcheck]
      rfl

theorem continuation_of_checkRequest {catalog : ToolCatalogSnapshot}
    {request checked : ModelRequest} (hcheck : world.checkRequest catalog request = .ok checked) :
    checked.continuation = request.continuation := by
  rw [checkRequest] at hcheck
  cases htrimmed : request.applyContextBudget with
  | error text =>
      rw [htrimmed] at hcheck
      cases hcheck
  | ok trimmed =>
      rw [htrimmed] at hcheck
      have hsame := (ModelRequest.applyContextBudget_ok htrimmed).1
      cases htools : world.checkTools catalog trimmed.tools with
      | error failure => simp [htools, Except.map] at hcheck
      | ok value =>
          obtain rfl : trimmed = checked := by simpa [htools, Except.map] using hcheck
          rw [hsame]

theorem ensures_runStep (index : Nat) (state : TurnState) (log : List CallEvent) :
    Tx.ensures (world.runStep index state) log fun ended _ => StepEnd.Cursorless ended := by
  rw [runStep]
  simp only [Tx.ensures_bind, Tx.ensures_reads]
  intro begun reached _ request reached' _ checked reached'' _
  exact ensures_callModel index begun checked reached''

/-- Steps that are the same are followed by the same steps. -/
theorem after_runStep {maxSteps steps index : Nat} {state : TurnState} {log : List CallEvent}
    (hstep : (world.hooked unreadable).runStep index state log =
      world.hookless.runStep index state log)
    (hnext : ∀ state, state.request.continuation = none → ∀ log,
      (world.hooked unreadable).runSteps maxSteps steps (index + 1) state log =
        world.hookless.runSteps maxSteps steps (index + 1) state log) :
    (world.hooked unreadable).runSteps maxSteps (steps + 1) index state log =
      world.hookless.runSteps maxSteps (steps + 1) index state log := by
  have hensures := @ensures_runStep world.hookless index state log
  change Tx.andThen _ _ log = Tx.andThen _ _ log
  rw [Tx.andThen, Tx.andThen, hstep]
  cases hrun : world.hookless.runStep index state log with
  | mk outcome reached =>
      cases outcome with
      | error failure => rfl
      | ok ended =>
          cases ended with
          | answered text => rfl
          | next next => exact hnext next (hensures _ _ hrun) reached

theorem runSteps_hooked {maxSteps : Nat} (steps index : Nat) {state : TurnState}
    (hstate : state.request.continuation = none) (log : List CallEvent) :
    (world.hooked unreadable).runSteps maxSteps steps index state log =
      world.hookless.runSteps maxSteps steps index state log := by
  induction steps generalizing index state log with
  | zero => rfl
  | succ steps ih =>
      apply after_runStep
      · apply runStep_hooked
        intro begun reached first hrun hcheck
        apply ModelRequest.serialized_of_cursorless
        rw [continuation_of_checkRequest hcheck]
        exact (ensures_beginStep index state log begun reached hrun).trans hstate
      · exact fun next hnext reached => ih (index + 1) hnext reached

/-! ## The first step -/

/-- The computation asks the world and leaves the log as it is. -/
def Silent {A : Type} (body : Calling A) : Prop := Tx.Preserves (fun log log' => log' = log) body

theorem Silent.bind {A B : Type} {first : Calling A} {next : A → Calling B} (hfirst : Silent first)
    (hnext : ∀ value, Silent (next value)) : Silent (first >>= next) :=
  Tx.Preserves.bind (fun _ _ _ hleft hright => hright.trans hleft) hfirst hnext

theorem silent_answer {A : Type} (result : Except Failure A) :
    Silent (ProviderWorld.answer result) := by
  intro log
  cases result <;> rfl

theorem silent_inject (injected : List CallEvent → ModelMessage → Except Failure Unit)
    (request : ModelRequest) (messages : List ModelMessage) :
    Silent (inject injected request messages) := by
  induction messages generalizing request with
  | nil => exact fun _ => rfl
  | cons message messages ih =>
      rw [inject]
      apply Silent.bind (fun _ => rfl)
      intro result
      exact (silent_answer result).bind fun _ => ih _

theorem silent_openTurn : Silent world.openTurn := by
  apply Silent.bind (fun _ => rfl)
  intro result
  apply (silent_answer result).bind
  intro catalog
  exact (silent_answer _).bind fun request _ => rfl

theorem silent_beginStep (index : Nat) (state : TurnState) :
    Silent (world.beginStep index state) := by
  rw [beginStep]
  apply Silent.bind (fun _ => rfl)
  intro cancelled
  by_cases hcancelled : cancelled = true
  · rw [if_pos hcancelled]
    exact fun _ => rfl
  · rw [if_neg hcancelled]
    have hcatalog : Silent (world.stepCatalog index state) := by
      rw [stepCatalog]
      split_ifs
      · exact fun _ => rfl
      · exact Silent.bind (fun _ => rfl) silent_answer
    apply hcatalog.bind
    intro catalog
    apply Silent.bind (fun _ => rfl)
    intro result
    apply (silent_answer result).bind
    intro steering
    exact (silent_inject _ _ steering).bind fun request _ => rfl

theorem firstRequest_eq {steps : Nat} {state begun : TurnState}
    (hopen : world.openTurn [] = (.ok state, []))
    (hbegin : world.beginStep 0 state [] = (.ok begun, [])) :
    world.firstRequest (steps + 1) = world.checkRequest begun.catalog begun.request := by
  rw [firstRequest, if_neg (Nat.succ_ne_zero steps), Tx.andThen, hopen]
  dsimp only
  rw [Tx.andThen, hbegin]
  rfl

theorem executeTurn_hooked {maxSteps : Nat}
    (hsent : ∀ first, world.firstRequest maxSteps = .ok first → first.serialized = first) :
    (world.hooked unreadable).executeTurn maxSteps [] = world.hookless.executeTurn maxSteps [] := by
  have hopen : (world.hooked unreadable).openTurn = world.openTurn := rfl
  have hopen' : world.hookless.openTurn = world.openTurn := rfl
  rw [executeTurn, executeTurn, hopen, hopen']
  apply Tx.bind_eq_of_ensures
  intro state reached hrun
  have hsilent := @silent_openTurn world []
  rw [hrun] at hsilent
  obtain rfl : reached = [] := hsilent
  cases maxSteps with
  | zero => rfl
  | succ steps =>
      apply after_runStep
      · apply runStep_hooked
        intro begun reached first hbegin hcheck
        have hsilent := @silent_beginStep world 0 state []
        rw [hbegin] at hsilent
        obtain rfl : reached = [] := hsilent
        apply hsent
        rw [firstRequest_eq hrun hbegin]
        exact hcheck
      · exact fun next hnext log => runSteps_hooked steps 1 hnext log

/-! ## A cursor that is refused -/

end TurnWorld

namespace ProviderWorld

/-- Whatever it is asked with, the provider refuses the cursor. -/
def rejecting : ProviderWorld where
  cancelled := fun _ => false
  callStarted := fun _ _ => .ok none
  callFinished := fun _ _ _ => .ok ()
  signal := fun _ _ => .ok ()
  stream := fun _ _ => .failed (.cursorRejected "")
  debug := id

theorem dispatchedRequests_append (log later : List CallEvent) :
    dispatchedRequests (log ++ later) = dispatchedRequests log ++ dispatchedRequests later :=
  List.filterMap_append

/-- The request is sent, and then the history of its fallback if it is within the budget. -/
theorem dispatchedRequests_rejecting {request : ModelRequest} {cursor : ResponseContinuation}
    (hcursor : request.continuation = some cursor) :
    (∃ failure, (rejecting.streamResponse request []).1 = .error failure) ∧
      dispatchedRequests (rejecting.streamResponse request []).2 =
        request.serialized ::
          match (request.cursorless cursor.fallbackMessages).applyContextBudget with
          | .ok replay => [replay.serialized]
          | .error _ => [] := by
  have hfallback : (request.continuation.isSome &&
      CallFailure.isCursorRejected (.provider (.cursorRejected ""))) = true := by
    rw [hcursor]
    rfl
  have hcall : rejecting.streamResponse request [] =
      Tx.andThen (rejecting.replayCall request (Reading.initial request))
        (fun reading => Tx.ret (reading.response, reading.calls))
        ([.started request.serialized none] ++ [.dispatched request.serialized] ++
          [.refused (.cursorRejected "")]) := by
    change Tx.andThen (rejecting.firstCall request) _ [] = _
    rw [Tx.andThen, Tx.andThen]
    have hfirst : rejecting.firstCall request [] =
        rejecting.replayCall request (Reading.initial request)
          ([.started request.serialized none] ++ [.dispatched request.serialized] ++
            [.refused (.cursorRejected "")]) := by
      change (if (request.continuation.isSome && CallFailure.isCursorRejected
        (.provider (.cursorRejected ""))) = true then _ else _ : Calling Reading) _ = _
      rw [if_pos hfallback]
      rfl
    rw [hfirst]
    rfl
  rw [hcall, Tx.andThen, replayCall, fullReplay, hcursor]
  dsimp only
  cases (request.cursorless cursor.fallbackMessages).applyContextBudget with
  | error text => exact ⟨⟨_, rfl⟩, rfl⟩
  | ok replay => exact ⟨⟨_, rfl⟩, rfl⟩

end ProviderWorld

namespace ModelRequest

/-- What is kept of a history is not empty. -/
theorem messages_ne_nil {request trimmed : ModelRequest}
    (htrim : request.applyContextBudget = .ok trimmed) (hmessages : request.messages ≠ []) :
    trimmed.messages ≠ [] := by
  rw [applyContextBudget] at htrim
  split_ifs at htrim with hfixed
  dsimp only at htrim
  split_ifs at htrim with hfits
  · obtain rfl := Except.ok.inj htrim
    exact hmessages
  · cases hstart : retainedStart (contextBudgetBytes request.model - request.fixedBytes)
        request.messages.zipIdx.reverse 2 none with
    | none => simp [hstart] at htrim
    | some start =>
        rw [hstart] at htrim
        obtain rfl := Except.ok.inj htrim
        have hkeeps := @keeps_of_retainedStart _ start request.messages request.messages [] none
          (List.append_nil _).symm (fun _ hnone => by cases hnone) hstart
        obtain ⟨message, hmessage, -⟩ := hkeeps.2
        intro hempty
        have hlength := List.drop_eq_nil_iff.mp hempty
        rw [List.getElem?_eq_none hlength] at hmessage
        cases hmessage

/-- An empty history is within the budget of whatever else is. -/
theorem applyContextBudget_empty {request trimmed : ModelRequest}
    (htrim : request.applyContextBudget = .ok trimmed) :
    (trimmed.cursorless []).applyContextBudget = .ok (trimmed.cursorless []) := by
  have hbudget := (applyContextBudget_ok htrim).2.2
  have hhistory := two_le_historyBytes trimmed.messages
  have hempty : historyBytes [] = 2 := by decide
  have hfixed : (trimmed.cursorless []).fixedBytes = trimmed.fixedBytes := rfl
  have hmodel : (trimmed.cursorless []).model = trimmed.model := rfl
  have hmessages : (trimmed.cursorless []).messages = [] := rfl
  rw [applyContextBudget, hfixed, hmodel, hmessages, hempty, if_neg (by omega)]
  dsimp only
  rw [if_pos (by omega)]

end ModelRequest

namespace TurnWorld

variable {world : TurnWorld} {unreadable : Value → Failure}

theorem budget_of_checkRequest {catalog : ToolCatalogSnapshot} {request checked : ModelRequest}
    (hcheck : world.checkRequest catalog request = .ok checked) :
    request.applyContextBudget = .ok checked := by
  rw [checkRequest] at hcheck
  cases htrimmed : request.applyContextBudget with
  | error text =>
      rw [htrimmed] at hcheck
      cases hcheck
  | ok trimmed =>
      rw [htrimmed] at hcheck
      cases htools : world.checkTools catalog trimmed.tools with
      | error failure => simp [htools, Except.map] at hcheck
      | ok value => simpa [htools, Except.map] using hcheck

/-- A Turn ends with the failure of its first response. -/
theorem executeTurn_failed {steps : Nat} {state begun : TurnState} {request first : ModelRequest}
    {failure : CallFailure} (hopen : world.openTurn [] = (.ok state, []))
    (hbegin : world.beginStep 0 state [] = (.ok begun, []))
    (hhook : world.beforeModel 0 [] begun.request = .ok request)
    (hcheck : world.checkRequest begun.catalog request = .ok first)
    (hfailed : (world.provider.streamResponse first []).1 = .error failure) :
    (world.executeTurn (steps + 1) []).2 = (world.provider.streamResponse first []).2 := by
  have hcall : world.callModel 0 begun first [] =
      (.error failure, (world.provider.streamResponse first []).2) := by
    change Tx.andThen (world.provider.streamResponse first) _ [] = _
    rw [Tx.andThen]
    cases hrun : world.provider.streamResponse first [] with
    | mk outcome reached =>
        rw [hrun] at hfailed
        obtain rfl : outcome = .error failure := hfailed
        rfl
  have hstep : world.runStep 0 state [] =
      (.error failure, (world.provider.streamResponse first []).2) := by
    rw [← hcall]
    change Tx.andThen (world.beginStep 0 state) _ [] = _
    rw [Tx.andThen, hbegin]
    dsimp only
    rw [reads_answer, hhook]
    change Tx.andThen (Tx.lift (world.checkRequest begun.catalog request)) _ [] = _
    rw [hcheck]
    rfl
  change (Tx.andThen world.openTurn _ []).2 = _
  rw [Tx.andThen, hopen]
  change (Tx.andThen (world.runStep 0 state) _ []).2 = _
  rw [Tx.andThen, hstep]

/-- The request of the first step, as the step has come to it. -/
theorem of_firstRequest {maxSteps : Nat} {first : ModelRequest}
    (hfirst : world.firstRequest maxSteps = .ok first) :
    ∃ steps state begun, maxSteps = steps + 1 ∧ world.openTurn [] = (.ok state, []) ∧
      world.beginStep 0 state [] = (.ok begun, []) ∧
      world.checkRequest begun.catalog begun.request = .ok first := by
  cases maxSteps with
  | zero => cases hfirst
  | succ steps =>
      have hopened := @silent_openTurn world []
      cases hopen : world.openTurn [] with
      | mk outcome reached =>
          rw [hopen] at hopened
          obtain rfl : reached = [] := hopened
          cases outcome with
          | error failure => simp [firstRequest, Tx.andThen, hopen] at hfirst
          | ok state =>
              have hbegun := @silent_beginStep world 0 state []
              cases hbegin : world.beginStep 0 state [] with
              | mk outcome reached =>
                  rw [hbegin] at hbegun
                  obtain rfl : reached = [] := hbegun
                  cases outcome with
                  | error failure => simp [firstRequest, Tx.andThen, hopen, hbegin] at hfirst
                  | ok begun =>
                      rw [firstRequest_eq hopen hbegin] at hfirst
                      exact ⟨steps, state, begun, rfl, rfl, hbegin, hfirst⟩

/-- The hook shows in nothing that a Turn sends if and only if the request of its first step
keeps no history for a fallback. -/
theorem identity_hook_transparent_iff (world : TurnWorld) (unreadable : Value → Failure)
    (maxSteps : Nat) :
    (∀ provider : ProviderWorld,
      dispatchedRequests
          ((({ world with provider } : TurnWorld).hooked unreadable).executeTurn maxSteps []).2 =
        dispatchedRequests
          (({ world with provider } : TurnWorld).hookless.executeTurn maxSteps []).2) ↔
    ∀ first cursor, world.firstRequest maxSteps = .ok first → first.continuation = some cursor →
      cursor.fallbackMessages = [] := by
  constructor
  · intro hsame first cursor hfirst hcursor
    obtain ⟨steps, state, begun, rfl, hopen, hbegin, hcheck⟩ := of_firstRequest hfirst
    have hsent := hsame .rejecting
    have hcursor' :
        first.serialized.continuation = some { cursor with fallbackMessages := [] } := by
      rw [ModelRequest.serialized, hcursor]
      rfl
    obtain ⟨⟨failure, hfailed⟩, hplain⟩ := ProviderWorld.dispatchedRequests_rejecting hcursor
    obtain ⟨⟨failure', hfailed'⟩, hhooked⟩ := ProviderWorld.dispatchedRequests_rejecting hcursor'
    have hbudget := budget_of_checkRequest hcheck
    have hcleared : first.serialized.cursorless [] = first.cursorless [] := rfl
    have hchecked : world.checkRequest begun.catalog begun.request.serialized =
        .ok first.serialized := by
      rw [checkRequest_serialized, hcheck]
      rfl
    have hhook := MewsRuntime.beforeModel_identity unreadable begun.request
    let refusing : TurnWorld := { world with provider := .rejecting }
    have hhookedTurn := @executeTurn_failed (refusing.hooked unreadable) steps state begun _ _ _
      hopen hbegin hhook hchecked hfailed'
    have hplainTurn := @executeTurn_failed refusing.hookless steps state begun _ _ _
      hopen hbegin rfl hcheck hfailed
    change dispatchedRequests ((refusing.hooked unreadable).executeTurn (steps + 1) []).2 =
      dispatchedRequests (refusing.hookless.executeTurn (steps + 1) []).2 at hsent
    rw [hhookedTurn, hplainTurn] at hsent
    change dispatchedRequests (ProviderWorld.rejecting.streamResponse first.serialized []).2 =
      dispatchedRequests (ProviderWorld.rejecting.streamResponse first []).2 at hsent
    rw [hhooked, hplain] at hsent
    dsimp only at hsent
    rw [hcleared, ModelRequest.applyContextBudget_empty hbudget] at hsent
    by_contra hkept
    cases hreplay : (first.cursorless cursor.fallbackMessages).applyContextBudget with
    | error text =>
        rw [hreplay] at hsent
        cases (List.cons.inj hsent).2
    | ok replay =>
        rw [hreplay] at hsent
        have hsecond := (List.cons.inj (List.cons.inj hsent).2).1
        apply ModelRequest.messages_ne_nil hreplay hkept
        exact (congrArg ModelRequest.messages hsecond).symm
  · intro hfallback provider
    have hsent : ∀ first, world.firstRequest maxSteps = .ok first → first.serialized = first :=
      fun first hfirst =>
        ModelRequest.serialized_eq_self fun cursor => hfallback first cursor hfirst
    have hturn := @executeTurn_hooked { world with provider } unreadable maxSteps hsent
    rw [hturn]

end TurnWorld

namespace TurnWorld.RefusedCursor

def message (text : String) : ModelMessage := { role := .user, content := .text text }

/-- The Session goes on after a response that the provider no longer has. -/
def request : ModelRequest :=
  { model := "openai/m", reasoning := none, system := "", messages := [message "and now?"],
    tools := [],
    continuation := some
      { responseId := "r", provider := "openai", model := "m", api := "responses",
        fallbackMessages := [message "hello", message "and now?"] } }

def world : TurnWorld where
  provider := .rejecting
  library :=
    { readBack := some, fromSlice := fun _ => none, fromValue := ModelRequest.ofValue,
      toStringPretty := fun _ => "", validSchema := fun _ => true, debug := id }
  capability := fun _ => .responseId "openai" "responses"
  cancelled := fun _ _ => false
  tools := fun _ _ => .ok { generation := 1, tools := [] }
  request := fun _ => .ok request
  steeringMessages := fun _ _ => .ok []
  followUpMessages := fun _ _ => .ok []
  injected := fun _ _ _ => .ok ()
  beforeModel := fun _ _ request => .ok request
  responded := fun _ _ _ _ => .ok ()
  executed := fun _ _ _ _ => .ok { completed := [], terminalError := none }
  afterStep := fun _ _ _ => .ok .goOn
  prepareNextStep := fun _ _ _ => .ok { model := none, reasoning := none, system := none }

/-- The hook returns its input, and the replay is of nothing. -/
theorem replays_nothing :
    dispatchedRequests ((world.hooked fun _ => .msg "").executeTurn 1 []).2 =
        [request.serialized, request.cursorless []] ∧
      dispatchedRequests (world.hookless.executeTurn 1 []).2 =
        [request.serialized, request.cursorless [message "hello", message "and now?"]] := by
  decide

end TurnWorld.RefusedCursor

end Mews
