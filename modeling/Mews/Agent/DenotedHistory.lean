import Mews.Agent.Continuations
import Mews.Agent.ProviderAttempts
import Mews.Agent.TurnSteps

/-!
# The history that a request denotes

A request with a cursor stands for the history that the provider keeps under it, followed by
its own messages.  The cursor goes with the first request of a Turn, and the messages that
were sent with it stay.
-/

namespace Mews

open Protocol HostProtocol Store

/-- The history of a request, where `chain` is what the provider keeps. -/
def denoted (chain : String → List ModelMessage) (request : ModelRequest) : List ModelMessage :=
  (match request.continuation with
    | some cursor => chain cursor.responseId
    | none => []) ++ request.messages

namespace TurnWorld

variable (world : TurnWorld)

/-- The budget trims neither a request nor the history that is sent in its place. -/
def Untrimmed : Prop :=
  ∀ index state log steps begun, world.Reached index state log steps →
    world.beginStep index state log = (.ok begun, log) →
      begun.request.applyContextBudget = .ok begun.request ∧
      ∀ cursor, begun.request.continuation = some cursor →
        (begun.request.cursorless cursor.fallbackMessages).applyContextBudget =
          .ok (begun.request.cursorless cursor.fallbackMessages)

/-- The hook changes nothing. -/
def Unhooked : Prop := ∀ index log request, world.beforeModel index log request = .ok request

/-- The requests that the step sends. -/
def stepRequests (index : Nat) (state : TurnState) (log : List CallEvent) : List ModelRequest :=
  (dispatchedRequests (world.runStep index state log).2).drop (dispatchedRequests log).length

variable {world} {index : Nat} {state : TurnState} {log : List CallEvent}

/-! ## What a step sends -/

theorem runStep_of_begun {begun : TurnState} (hunhooked : world.Unhooked)
    (hbegin : world.beginStep index state log = (.ok begun, log))
    (hbudget : begun.request.applyContextBudget = .ok begun.request) :
    world.runStep index state log =
      match world.checkTools begun.catalog begun.request.tools with
      | .ok _ => world.callModel index begun begun.request log
      | .error failure => (.error failure, log) := by
  change Tx.andThen (world.beginStep index state) _ log = _
  rw [Tx.andThen, hbegin]
  dsimp only
  rw [reads_answer, hunhooked]
  change Tx.andThen (Tx.lift (world.checkRequest begun.catalog begun.request)) _ log = _
  rw [checkRequest, hbudget]
  dsimp only
  cases world.checkTools begun.catalog begun.request.tools with
  | ok value => rfl
  | error failure => rfl

theorem runStep_of_failed {failure : CallFailure} {reached : List CallEvent}
    (hbegin : world.beginStep index state log = (.error failure, reached)) :
    (world.runStep index state log).2 = log := by
  have hsilent := @silent_beginStep world index state log
  rw [hbegin] at hsilent
  obtain rfl : reached = log := hsilent
  change (Tx.andThen (world.beginStep index state) _ reached).2 = _
  rw [Tx.andThen, hbegin]

theorem dispatchedRequests_closing (operation : Option OperationId)
    (outcome : Option ProviderCallOutcome) :
    dispatchedRequests (ProviderWorld.closing operation outcome) = [] := by
  cases operation <;> cases outcome <;> rfl

theorem dispatchedRequests_attempt {attempt : ProviderAttempt} (haccounted : attempt.Accounted) :
    dispatchedRequests attempt.log = [attempt.request] := by
  have hseen : dispatchedRequests attempt.seen = [] := by
    rw [dispatchedRequests, List.filterMap_eq_nil_iff]
    intro event hevent
    have hobserved := haccounted.seen event hevent
    cases event <;> simp_all [CallEvent.isObservation]
  rw [ProviderAttempt.log, ProviderWorld.dispatchedRequests_append,
    ProviderWorld.dispatchedRequests_append, hseen, dispatchedRequests_closing]
  rfl

/-- What a response costs is sent as it is, or as the full history that its cursor keeps. -/
theorem dispatched_streamResponse (request : ModelRequest) (log : List CallEvent)
    (hreplay : ∀ cursor, request.continuation = some cursor →
      (request.cursorless cursor.fallbackMessages).applyContextBudget =
        .ok (request.cursorless cursor.fallbackMessages)) :
    ∃ sent, dispatchedRequests (world.provider.streamResponse request log).2 =
        dispatchedRequests log ++ sent ∧
      ∀ other ∈ sent, other = request.serialized ∨
        ∃ cursor, request.continuation = some cursor ∧
          other = request.cursorless cursor.fallbackMessages := by
  obtain ⟨attempts, hserved, hdispatched⟩ :=
    @ProviderWorld.served_firstCall world.provider request log
  have hlog : (world.provider.streamResponse request log).2 =
      log ++ attempts.flatMap (·.log) := by
    rw [← hserved.logged]
    change (Tx.andThen (world.provider.firstCall request) _ log).2 = _
    rw [Tx.andThen]
    cases world.provider.firstCall request log with
    | mk outcome reached => cases outcome <;> rfl
  have haccounted := hserved.accounted
  refine ⟨attempts.map (·.request), ?_, ?_⟩
  · rw [hlog, ProviderWorld.dispatchedRequests_append]
    congr 1
    clear hlog hdispatched hserved
    induction attempts with
    | nil => rfl
    | cons attempt attempts ih =>
        obtain ⟨hattempt, hattempts⟩ := List.forall_mem_cons.mp haccounted
        rw [List.flatMap_cons, ProviderWorld.dispatchedRequests_append, ih hattempts,
          dispatchedRequests_attempt hattempt]
        rfl
  · intro other hother
    cases hdispatched with
    | none => cases hother
    | once first hrequest =>
        rw [List.map_singleton, List.mem_singleton] at hother
        exact .inl (hother.trans hrequest)
    | again first second cursor hrequest hcursor hrejected hcleared hbudget =>
        rw [hreplay cursor hcursor] at hbudget
        rw [List.map_cons, List.map_singleton, List.mem_cons, List.mem_singleton] at hother
        rcases hother with hfirst | hsecond
        · exact .inl (hfirst.trans hrequest)
        · exact .inr ⟨cursor, hcursor, hsecond.trans (Except.ok.inj hbudget).symm⟩

theorem snd_bind_of_silent {A B : Type} {first : Calling A} {next : A → Calling B}
    (hnext : ∀ value, Silent (next value)) (log : List CallEvent) :
    ((first >>= next) log).2 = (first log).2 := by
  change (Tx.andThen first next log).2 = _
  rw [Tx.andThen]
  cases first log with
  | mk outcome reached =>
      cases outcome with
      | error failure => rfl
      | ok value => exact hnext value reached

theorem silent_endStep (index : Nat) (state : TurnState) (text : String) (outcome : BatchOutcome) :
    Silent (world.endStep index state text outcome) := by
  rw [endStep]
  cases outcome.terminalError with
  | some failure => exact fun _ => rfl
  | none =>
      apply Silent.bind (fun _ => rfl)
      intro afterStep
      cases uncertainReason outcome.completed with
      | some reason => cases afterStep <;> exact fun _ => rfl
      | none =>
          apply (silent_answer afterStep).bind
          intro decision
          split_ifs
          · exact fun _ => rfl
          · apply Silent.bind (fun _ => rfl)
            intro update
            apply (silent_answer update).bind
            intro update
            apply Silent.bind (fun _ => rfl)
            intro followUps
            apply (silent_answer followUps).bind
            intro followUps
            split_ifs
            · exact fun _ => rfl
            · exact (silent_inject _ _ followUps).bind fun request _ => rfl
          · apply Silent.bind (fun _ => rfl)
            intro update
            exact (silent_answer update).bind fun update _ => rfl

/-- Only the provider is called. -/
theorem callModel_log (index : Nat) (begun : TurnState) (request : ModelRequest)
    (log : List CallEvent) :
    (world.callModel index begun request log).2 =
      (world.provider.streamResponse request log).2 := by
  rw [callModel]
  apply snd_bind_of_silent
  rintro ⟨response, calls⟩
  dsimp only
  by_cases hmany : maxToolCallsPerStep < calls.length
  · rw [if_pos hmany]
    exact fun _ => rfl
  · rw [if_neg hmany]
    cases validateToolCallIds world.library.debug begun.acceptedCallIds calls [] with
    | error text => exact fun _ => rfl
    | ok value =>
        dsimp only
        split
        · exact fun _ => rfl
        · apply Silent.bind (fun _ => rfl)
          intro responded
          apply (silent_answer responded).bind
          intro value
          apply Silent.bind (fun _ => rfl)
          intro outcome
          apply (silent_answer outcome).bind
          intro outcome
          exact silent_endStep _ _ _ _

/-- What a step sends is its request, or the history that the cursor of its request keeps. -/
theorem mem_stepRequests {steps : List StepRecord} {sent : ModelRequest}
    (hunhooked : world.Unhooked) (huntrimmed : world.Untrimmed)
    (hreached : world.Reached index state log steps)
    (hsent : sent ∈ world.stepRequests index state log) :
    ∃ begun, world.beginStep index state log = (.ok begun, log) ∧
      (sent = begun.request.serialized ∨
        ∃ cursor, begun.request.continuation = some cursor ∧
          sent = begun.request.cursorless cursor.fallbackMessages) := by
  have hsilent := @silent_beginStep world index state log
  rw [stepRequests] at hsent
  cases hbegin : world.beginStep index state log with
  | mk outcome reached =>
      rw [hbegin] at hsilent
      obtain rfl : reached = log := hsilent
      cases outcome with
      | error failure =>
          rw [runStep_of_failed hbegin, List.drop_length] at hsent
          cases hsent
      | ok begun =>
          obtain ⟨hbudget, hreplay⟩ := huntrimmed _ _ _ _ _ hreached hbegin
          rw [runStep_of_begun hunhooked hbegin hbudget] at hsent
          cases hcheck : world.checkTools begun.catalog begun.request.tools with
          | error failure =>
              rw [hcheck] at hsent
              simp only [List.drop_length] at hsent
              cases hsent
          | ok value =>
              obtain ⟨requests, hrequests, hkinds⟩ :=
                @dispatched_streamResponse world begun.request reached hreplay
              rw [hcheck] at hsent
              simp only [callModel_log, hrequests, List.drop_left] at hsent
              exact ⟨begun, rfl, hkinds sent hsent⟩

/-! ## What a Turn accumulates -/

/-- A step goes on with the messages of its record. -/
theorem next_messages {steps : List StepRecord} {step : StepRecord} {next : TurnState}
    {log' : List CallEvent} (hunhooked : world.Unhooked) (huntrimmed : world.Untrimmed)
    (hreached : world.Reached index state log steps)
    (hstep : world.runStep index state log = (.ok (.next next), log'))
    (hperformed : world.Performed index state log log' step) :
    next.request.messages = state.request.messages ++ step.messages ∧
      next.request.continuation = none := by
  obtain ⟨other, hother, hbegun, hnext, hcontinuation⟩ := exists_performed hstep
  obtain rfl := hperformed.unique hother
  obtain ⟨hbudget, -⟩ := huntrimmed _ _ _ _ _ hreached hperformed.begun
  obtain ⟨hooked, hhook, hcheck⟩ := hperformed.request
  rw [hunhooked] at hhook
  obtain rfl := Except.ok.inj hhook
  have hsame : step.request = step.begun.request := by
    rw [checkRequest, hbudget] at hcheck
    dsimp only at hcheck
    cases htools : world.checkTools step.begun.catalog step.begun.request.tools with
    | error failure =>
        rw [htools] at hcheck
        cases hcheck
    | ok value =>
        rw [htools] at hcheck
        exact (Except.ok.inj hcheck).symm
  refine ⟨?_, hcontinuation⟩
  rw [hnext, hsame, hbegun, StepRecord.messages, List.append_assoc]

/-- The history that a Turn opens with stays, and its cursor goes with the first request. -/
theorem Reached.accumulates {steps : List StepRecord} (hunhooked : world.Unhooked)
    (huntrimmed : world.Untrimmed) (hreached : world.Reached index state log steps) :
    ∃ opened reached, world.openTurn [] = (.ok opened, reached) ∧
      state.request.messages = opened.request.messages ++ steps.flatMap StepRecord.messages ∧
      (index = 0 → state = opened ∧ steps = []) ∧
      (index ≠ 0 → state.request.continuation = none) := by
  induction hreached with
  | opened hopen =>
      exact ⟨_, _, hopen, (List.append_nil _).symm, fun _ => ⟨rfl, rfl⟩,
        fun hindex => absurd rfl hindex⟩
  | stepped hreached hstep hperformed ih =>
      obtain ⟨opened, reached, hopen, hmessages, -, -⟩ := ih
      obtain ⟨hnext, hcontinuation⟩ :=
        next_messages hunhooked huntrimmed hreached hstep hperformed
      refine ⟨opened, reached, hopen, ?_, fun hindex => absurd hindex (Nat.succ_ne_zero _),
        fun _ => hcontinuation⟩
      rw [hnext, hmessages, List.flatMap_append, List.flatMap_singleton, List.append_assoc]

end TurnWorld

/-! ## The history of a Session -/

/-- `MewsRuntime::request`, with the instructions that it is made of. -/
def MewsRuntime.request (world : World) (json : Value → String) (store : Store)
    (sessionId : SessionId) (model : String) (reasoning : Option ReasoningEffort)
    (system : String) (tools : List ToolDefinition) : ModelRequest where
  model := model
  reasoning := reasoning
  system := system
  messages := sessionHistory world json store sessionId model
  tools := tools
  continuation := continuation (store.projection.activeEntries sessionId) model

/-- What the provider keeps under the cursor of the Session is its history up to the response
that the cursor names. -/
def Chained (chain : String → List ModelMessage) (entries : List SessionEntry) (model : String) :
    Prop :=
  ∀ index entry responseId, continuationAnchor entries model = some index →
    entries[index]? = some entry → resumesAt model entry = some responseId →
      chain responseId = nativeReplay (entries.take (index + 1)) model

/-- The entry is sent after a cursor as it is sent without one. -/
def Protocol.SessionEntry.plainFor (model : String) (entry : SessionEntry) : Bool :=
  replayedMessages (replayTarget model).1 (replayTarget model).2 entry = portableMessages entry

/-- The request stands for the history of the Session and of the Turn so far. -/
def Denotes (turn : TurnWorld) (chain : String → List ModelMessage) (entries : List SessionEntry)
    (model : String) (index : Nat) (log : List CallEvent) (steps : List StepRecord)
    (sent : ModelRequest) : Prop :=
  ∃ steering, turn.steeringMessages index log = .ok steering ∧
    denoted chain sent =
      nativeReplay entries model ++ steps.flatMap StepRecord.messages ++ steering

/-- Where the provider continues at a response of the Session, nothing of the history is lost
with the cursor: in the first step what follows the response is sent as in a replay, or nothing
is injected where the cursor was refused; in a later one there is no history up to the
response. -/
def Covered (turn : TurnWorld) (entries : List SessionEntry) (model : String) (index : Nat)
    (log : List CallEvent) (sent : ModelRequest) : Prop :=
  ∀ anchor, continuationAnchor entries model = some anchor →
    turn.capability model = .responseId "openai" "responses" →
      if index = 0 then
        if sent.continuation.isSome then
          ∀ entry ∈ entries.drop (anchor + 1), entry.plainFor model = true
        else turn.steeringMessages index log = .ok []
      else
        (∀ entry ∈ entries.take (anchor + 1),
          replayedMessages (replayTarget model).1 (replayTarget model).2 entry = []) ∧
        ∀ entry ∈ entries.drop (anchor + 1), entry.plainFor model = true

section Session

variable {entries : List SessionEntry} {model : String}

/-- The cursor is there with its anchor, and keeps the whole history. -/
theorem continuation_cases (entries : List SessionEntry) (model : String) :
    (continuationAnchor entries model = none ∧ continuation entries model = none) ∨
      ∃ index entry cursor, continuationAnchor entries model = some index ∧
        entries[index]? = some entry ∧ resumesAt model entry = some cursor.responseId ∧
        continuation entries model = some cursor ∧
        cursor.fallbackMessages = nativeReplay entries model ∧
        cursor.provider = "openai" ∧ cursor.api = "responses" := by
  have hid := continuation_eq entries model
  rw [continuationAnchor_eq]
  cases hanchor : anchor entries model with
  | none =>
      rw [hanchor] at hid
      exact .inl ⟨rfl, Option.map_eq_none_iff.mp hid⟩
  | some found =>
      obtain ⟨entry, index⟩ := found
      obtain ⟨hentry, hresumes⟩ := anchor_spec hanchor
      obtain ⟨responseId, hresponseId⟩ := Option.isSome_iff_exists.mp hresumes
      rw [hanchor, Option.bind_some, hresponseId, Option.map_eq_some_iff] at hid
      obtain ⟨cursor, hcursor, rfl⟩ := hid
      refine .inr ⟨index, entry, cursor, rfl, hentry, hresponseId, hcursor, ?_⟩
      rw [continuation] at hcursor
      cases hsplit : splitModel model with
      | none =>
          rw [hsplit] at hcursor
          cases hcursor
      | some parts =>
          obtain ⟨provider, providerModel⟩ := parts
          rw [hsplit] at hcursor
          simp only at hcursor
          split_ifs at hcursor with hprovider
          obtain ⟨response, -, hselected⟩ := List.exists_of_findSome?_eq_some hcursor
          split at hselected
          · split_ifs at hselected
            obtain ⟨responseId, -, rfl⟩ := Option.map_eq_some_iff.mp hselected
            exact ⟨rfl, not_not.mp hprovider, rfl⟩
          · cases hselected

theorem length_portableMessages_le (model : String) (entry : SessionEntry) :
    (portableMessages entry).length ≤
      (replayedMessages (replayTarget model).1 (replayTarget model).2 entry).length := by
  rw [portableMessages, List.length_map]
  exact (portableItems_sublist _ _ entry).length_le.trans (List.length_filterMap_le _ _)

theorem replay_eq_suffix_iff (kept : List SessionEntry) (model : String) :
    nativeReplay kept model = kept.flatMap portableMessages ↔
      ∀ entry ∈ kept, entry.plainFor model = true := by
  have hiff := @flatMap_eq_iff_of_length_le _ _ portableMessages
    (replayedMessages (replayTarget model).1 (replayTarget model).2) kept
    (length_portableMessages_le model)
  rw [show nativeReplay kept model =
    kept.flatMap (replayedMessages (replayTarget model).1 (replayTarget model).2) from rfl, hiff]
  apply forall₂_congr
  intro entry _
  rw [SessionEntry.plainFor, decide_eq_true_iff]

theorem nativeReplay_append (first later : List SessionEntry) (model : String) :
    nativeReplay (first ++ later) model = nativeReplay first model ++ nativeReplay later model :=
  List.flatMap_append

theorem length_suffix_le (kept : List SessionEntry) (model : String) :
    (kept.flatMap portableMessages).length ≤ (nativeReplay kept model).length := by
  change _ ≤ (kept.flatMap _).length
  rw [List.length_flatMap, List.length_flatMap]
  exact List.sum_le_sum fun entry _ => length_portableMessages_le model entry

/-- The suffix is the whole history only where nothing stands before it. -/
theorem replay_eq_later_iff (first later : List SessionEntry) (model : String) :
    nativeReplay (first ++ later) model = later.flatMap portableMessages ↔
      (∀ entry ∈ first,
        replayedMessages (replayTarget model).1 (replayTarget model).2 entry = []) ∧
      ∀ entry ∈ later, entry.plainFor model = true := by
  rw [nativeReplay_append, ← replay_eq_suffix_iff, ← List.flatMap_eq_nil_iff]
  change _ ↔ nativeReplay first model = [] ∧ _
  constructor
  · intro hequal
    have hlengths := congrArg List.length hequal
    rw [List.length_append] at hlengths
    have hlater := length_suffix_le later model
    have hfirst : nativeReplay first model = [] := List.length_eq_zero_iff.mp (by omega)
    rw [hfirst, List.nil_append] at hequal
    exact ⟨hfirst, hequal⟩
  · rintro ⟨hfirst, hlater⟩
    rw [hfirst, hlater, List.nil_append]

end Session

namespace TurnWorld

/-- The Turn opens with this request, and hooks change nothing. -/
def inSession (turn : TurnWorld) (request : List ToolDefinition → ModelRequest) : TurnWorld :=
  { turn with
    request := fun tools => .ok (request tools)
    beforeModel := fun _ _ request => .ok request }

theorem openTurn_inSession {turn : TurnWorld} {request : List ToolDefinition → ModelRequest}
    {opened : TurnState} {reached : List CallEvent}
    (hopen : (turn.inSession request).openTurn [] = (.ok opened, reached)) :
    ∃ tools, opened.request = turn.dropIncompatible (request tools) := by
  change Tx.andThen (ProviderWorld.answer (turn.tools 0 [])) _ [] = _ at hopen
  cases htools : turn.tools 0 [] with
  | error failure =>
      rw [htools] at hopen
      cases hopen
  | ok catalog =>
      rw [htools] at hopen
      cases hopen
      exact ⟨catalog.tools, rfl⟩

end TurnWorld

theorem denoted_serialized (chain : String → List ModelMessage) (request : ModelRequest) :
    denoted chain request.serialized = denoted chain request := by
  rw [denoted, denoted, ModelRequest.serialized]
  cases request.continuation <;> rfl

theorem isSome_serialized (request : ModelRequest) :
    request.serialized.continuation.isSome = request.continuation.isSome := by
  rw [ModelRequest.serialized]
  cases request.continuation <;> rfl

section Turn

variable {turn : TurnWorld} {world : World} {json : Value → String} {store : Store}
  {sessionId : SessionId} {model : String} {reasoning : Option ReasoningEffort}
  {system : String} {chain : String → List ModelMessage} {opened : TurnState}
  {reached : List CallEvent}

/-- A Turn opens with the whole history, or with a cursor and what follows its response. -/
theorem opened_cases
    (hopen : (turn.inSession (MewsRuntime.request world json store sessionId model reasoning
      system)).openTurn [] = (.ok opened, reached)) :
    let entries := store.projection.activeEntries sessionId
    (opened.request.messages = nativeReplay entries model ∧
        opened.request.continuation = none ∧
        ∀ anchor, continuationAnchor entries model = some anchor →
          turn.capability model ≠ .responseId "openai" "responses") ∨
      ∃ anchor entry cursor, continuationAnchor entries model = some anchor ∧
        turn.capability model = .responseId "openai" "responses" ∧
        entries[anchor]? = some entry ∧ resumesAt model entry = some cursor.responseId ∧
        opened.request.messages = (entries.drop (anchor + 1)).flatMap portableMessages ∧
        opened.request.continuation = some cursor ∧
        cursor.fallbackMessages = nativeReplay entries model := by
  intro entries
  obtain ⟨tools, hopened⟩ := TurnWorld.openTurn_inSession hopen
  have hmodel : (MewsRuntime.request world json store sessionId model reasoning system
      tools).model = model := rfl
  have hnext : (MewsRuntime.request world json store sessionId model reasoning system
      tools).continuation = continuation entries model := rfl
  have hsession : (MewsRuntime.request world json store sessionId model reasoning system
      tools).messages = sessionHistory world json store sessionId model := rfl
  rw [TurnWorld.dropIncompatible] at hopened
  rw [sessionHistory] at hsession
  rcases continuation_cases entries model with ⟨hanchor, hcontinuation⟩ |
    ⟨anchor, entry, cursor, hanchor, hentry, hresumes, hcontinuation, hfallback, hprovider, hapi⟩
  · rw [hanchor] at hsession
    rw [hnext, hcontinuation] at hopened
    refine .inl ⟨?_, ?_, ?_⟩
    · rw [hopened]
      exact hsession
    · rw [hopened]
      exact hcontinuation
    · rw [hanchor]
      exact fun anchor hsome => absurd hsome.symm (Option.some_ne_none anchor)
  · rw [hanchor] at hsession
    dsimp only at hsession
    rw [suffixMessages_eq, map_snd_projected] at hsession
    rw [hnext, hcontinuation] at hopened
    dsimp only at hopened
    rw [hmodel, hprovider, hapi] at hopened
    by_cases hcompatible : turn.capability model = .responseId "openai" "responses"
    · rw [if_pos hcompatible] at hopened
      refine .inr ⟨anchor, entry, cursor, hanchor, hcompatible, hentry, hresumes, ?_, ?_,
        hfallback⟩
      · rw [hopened]
        exact hsession
      · rw [hopened]
        exact hcontinuation
    · rw [if_neg hcompatible] at hopened
      refine .inl ⟨?_, ?_, fun _ _ => hcompatible⟩
      · rw [hopened]
        exact hfallback
      · rw [hopened]
        rfl

end Turn

/-- What goes on after a step. -/
def following (ended : Except CallFailure StepEnd) : Option TurnState :=
  match ended with
  | .ok (.next state) => some state
  | _ => none

theorem run_of_following {ended : Except CallFailure StepEnd × List CallEvent}
    (default : TurnState) (hfollowing : (following ended.1).isSome = true) :
    ended = (.ok (.next ((following ended.1).getD default)), ended.2) := by
  obtain ⟨outcome, log⟩ := ended
  cases outcome with
  | error failure => cases hfollowing
  | ok ended =>
      cases ended with
      | answered text => cases hfollowing
      | next state => rfl

theorem TurnWorld.inSession_openTurn {turn : TurnWorld}
    {request : List ToolDefinition → ModelRequest} {catalog : ToolCatalogSnapshot}
    (htools : turn.tools 0 [] = .ok catalog) :
    (turn.inSession request).openTurn [] =
      (.ok
        { catalog, request := turn.dropIncompatible (request catalog.tools), acceptedCallIds := [] },
        []) := by
  change Tx.andThen (ProviderWorld.answer (turn.tools 0 [])) _ [] = _
  rw [htools]
  rfl

/-- A Turn that ends with its second step. -/
theorem TurnWorld.reached_of_last {turn : TurnWorld} {first second : TurnState}
    {called : List CallEvent} (hopen : turn.openTurn [] = (.ok first, []))
    (hstep : turn.runStep 0 first [] = (.ok (.next second), called))
    (hlast : following (turn.runStep 1 second called).1 = none) {index : Nat} {state : TurnState}
    {log : List CallEvent} {steps : List StepRecord}
    (hreached : turn.Reached index state log steps) :
    (index = 0 ∧ state = first ∧ log = []) ∨ (index = 1 ∧ state = second ∧ log = called) := by
  induction hreached with
  | opened hopened =>
      obtain ⟨hstate, hlog⟩ := Prod.mk.inj (hopened.symm.trans hopen)
      exact .inl ⟨rfl, Except.ok.inj hstate, hlog⟩
  | stepped hreached hnext hperformed ih =>
      rcases ih with ⟨rfl, rfl, rfl⟩ | ⟨rfl, rfl, rfl⟩
      · obtain ⟨hsame, hlog⟩ := Prod.mk.inj (hnext.symm.trans hstep)
        exact .inr ⟨rfl, StepEnd.next.inj (Except.ok.inj hsame), hlog⟩
      · rw [hnext] at hlast
        cases hlast

namespace ContinuedSession

/-- A Turn is answered, and another is accepted. -/
def ops : List StoreOp :=
  let source : MessageSource := { kind := .client, id := "cli", channelOrigin := none }
  AnsweredCall.accepted ++
    [.appendAssistantResponseWithToolCalls ⟨"10"⟩ ⟨"14"⟩ KeptResponse.response [],
    .finishTurnWithStopReason ⟨"14"⟩ .completed none none,
    .acceptTurnIdempotent ⟨"10"⟩ "later" (.text "and now?") (.text "and now?") .null source]

def entries : List SessionEntry := (run World.numbered ops).projection.activeEntries ⟨"10"⟩

/-- The provider continues with a tool call and answers its result. -/
def provider : ProviderWorld where
  cancelled := fun _ => false
  callStarted := fun _ _ => .ok none
  callFinished := fun _ _ _ => .ok ()
  signal := fun _ _ => .ok ()
  stream := fun _ request =>
    if request.continuation.isSome then
      .streaming [.item (.ok (.toolCall "call" "read" .null none)),
        .item (.ok (.responseCompleted none none))]
    else
      .streaming [.item (.ok (.textDelta "read")), .item (.ok (.responseCompleted none none))]
  debug := id

def turn : TurnWorld where
  provider := provider
  library :=
    { readBack := some, fromSlice := fun _ => none, fromValue := ModelRequest.ofValue,
      toStringPretty := fun _ => "", validSchema := fun _ => true, debug := id }
  capability := fun _ => .responseId "openai" "responses"
  cancelled := fun _ _ => false
  tools := fun _ _ => .ok { generation := 1, tools := [] }
  request := fun _ => .error (.msg "")
  steeringMessages := fun _ _ => .ok []
  followUpMessages := fun _ _ => .ok []
  injected := fun _ _ _ => .ok ()
  beforeModel := fun _ _ request => .ok request
  responded := fun _ _ _ _ => .ok ()
  executed := fun _ _ _ calls =>
    .ok
      { completed := calls.map fun call => (call, .success .null)
        terminalError := none }
  afterStep := fun _ _ _ => .ok .goOn
  prepareNextStep := fun _ _ _ => .ok { model := none, reasoning := none, system := none }

def session : TurnWorld :=
  turn.inSession (MewsRuntime.request World.numbered (fun _ => "") (run World.numbered ops) ⟨"10"⟩
    "openai/gpt" none "")

def first : TurnState where
  catalog := { generation := 1, tools := [] }
  request := turn.dropIncompatible (MewsRuntime.request World.numbered (fun _ => "")
    (run World.numbered ops) ⟨"10"⟩ "openai/gpt" none "" [])
  acceptedCallIds := []

/-- The step after the call has been answered. -/
def second : TurnState := (following (session.runStep 0 first []).1).getD first

def called : List CallEvent := (session.runStep 0 first []).2

def Roomy (index : Nat) (state : TurnState) (log : List CallEvent) : Prop :=
  ∀ begun ∈ (session.beginStep index state log).1.toOption,
    begun.request.applyContextBudget = .ok begun.request ∧
      ∀ cursor ∈ begun.request.continuation,
        (begun.request.cursorless cursor.fallbackMessages).applyContextBudget =
          .ok (begun.request.cursorless cursor.fallbackMessages)

instance (index : Nat) (state : TurnState) (log : List CallEvent) :
    Decidable (Roomy index state log) :=
  inferInstanceAs (Decidable (∀ begun ∈ (session.beginStep index state log).1.toOption,
    begun.request.applyContextBudget = .ok begun.request ∧
      ∀ cursor ∈ begun.request.continuation,
        (begun.request.cursorless cursor.fallbackMessages).applyContextBudget =
          .ok (begun.request.cursorless cursor.fallbackMessages)))

/-- What the provider keeps under the cursor. -/
def chain (_ : String) : List ModelMessage := nativeReplay (entries.take 2) "openai/gpt"

/-- What the two steps come to, evaluated once. -/
theorem evaluated :
    ((following (session.runStep 0 first []).1).isSome = true ∧
      following (session.runStep 1 second called).1 = none) ∧
    (Roomy 0 first [] ∧ Roomy 1 second called) ∧
    continuationAnchor entries "openai/gpt" = some 1 ∧
    (first.request.serialized ∈ session.stepRequests 0 first [] ∧
      first.request.serialized.continuation.isSome = true) ∧
    ((∃ sent ∈ session.stepRequests 1 second called,
      (denoted chain sent).length < (nativeReplay entries "openai/gpt").length + 2) ∧
      second.request.messages.length = first.request.messages.length + 2) := by
  refine ⟨⟨?_, ?_⟩, ⟨?_, ?_⟩, ?_, ⟨?_, ?_⟩, ?_, ?_⟩ <;> decide +kernel

theorem first_step : session.runStep 0 first [] = (.ok (.next second), called) :=
  run_of_following first evaluated.1.1

theorem first_opened : session.openTurn [] = (.ok first, []) :=
  @TurnWorld.inSession_openTurn turn _ _ rfl

theorem untrimmed : session.Untrimmed := by
  intro index state log steps begun hreached hbegin
  obtain ⟨⟨-, hlast⟩, ⟨hfirst, hsecond⟩, -⟩ := evaluated
  have hroomy : Roomy index state log := by
    rcases TurnWorld.reached_of_last first_opened first_step hlast hreached with
      ⟨hindex, hstate, hlog⟩ | ⟨hindex, hstate, hlog⟩
    · rw [hindex, hstate, hlog]
      exact hfirst
    · rw [hindex, hstate, hlog]
      exact hsecond
  rw [Roomy, hbegin] at hroomy
  exact hroomy begun rfl

theorem anchored : continuationAnchor entries "openai/gpt" = some 1 := evaluated.2.2.1

theorem chained : Chained chain entries "openai/gpt" := by
  intro index entry responseId hindex _ _
  obtain rfl := Option.some.inj (anchored.symm.trans hindex)
  rfl

end ContinuedSession

end Mews
