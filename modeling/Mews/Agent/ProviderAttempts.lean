import Mews.Agent.ProviderCalls

/-!
# The attempts of a response

What a provider call leaves in the log falls into attempts, one for each dispatch.  Each has
one outcome, and a second attempt is there only after the cursor of the first was refused
before any output.
-/

namespace Mews

open Protocol HostProtocol

namespace ProviderWorld

variable (world : ProviderWorld)

/-! ## Callbacks -/

section Callbacks

variable {A : Type}

/-- `body` adds `seen` to the log and goes on, or a callback of the runtime failed. -/
def Proceeds (body : Calling Unit) (log seen : List CallEvent) : Prop :=
  body log = (.ok (), log ++ seen) ∨
    ¬world.Reliable ∧ ∃ failure, body log = (.error (.failure failure), log ++ seen)

theorem Proceeds.bind {world : ProviderWorld} {body : Calling Unit} {log seen : List CallEvent}
    (hbody : world.Proceeds body log seen) (next : Unit → Calling A) :
    (body >>= next) log = next () (log ++ seen) ∨
      ¬world.Reliable ∧
        ∃ failure, (body >>= next) log = (.error (.failure failure), log ++ seen) := by
  rcases hbody with hbody | ⟨hcallback, failure, hbody⟩
  · left
    change Tx.andThen body next log = _
    rw [Tx.andThen, hbody]
  · right
    refine ⟨hcallback, failure, ?_⟩
    change Tx.andThen body next log = _
    rw [Tx.andThen, hbody]

theorem proceeds_callback {result : List CallEvent → Except Failure Unit} {event : CallEvent}
    {log : List CallEvent} (hreliable : world.Reliable → result log = .ok ()) :
    world.Proceeds (do
      let answered ← Tx.reads result
      note event
      answer answered) log [event] := by
  cases hresult : result log with
  | ok value =>
      left
      change answer (result log) (log ++ [event]) = _
      rw [hresult]
      rfl
  | error failure =>
      right
      constructor
      · intro hcallbacks
        have hok := hreliable hcallbacks
        rw [hresult] at hok
        cases hok
      · refine ⟨failure, ?_⟩
        change answer (result log) (log ++ [event]) = _
        rw [hresult]
        rfl

theorem proceeds_signalled (signal : AgentSignal) (log : List CallEvent) :
    world.Proceeds (world.signalled signal) log [.signalled signal] :=
  world.proceeds_callback fun hreliable => hreliable.signal log signal

/-- What the log holds of an outcome. -/
def closing (operation : Option OperationId) (outcome : Option ProviderCallOutcome) :
    List CallEvent :=
  match operation, outcome with
  | some operation, some outcome => [.finished operation outcome]
  | _, _ => []

theorem closing_none (operation : Option OperationId) : closing operation none = [] := by
  cases operation <;> rfl

theorem proceeds_finishProviderCall (operation : Option OperationId) (outcome : ProviderCallOutcome)
    (log : List CallEvent) :
    world.Proceeds (world.finishProviderCall operation outcome) log
      (closing operation (some outcome)) := by
  cases operation with
  | none =>
      left
      exact congrArg (Prod.mk _) (List.append_nil log).symm
  | some operation =>
      exact world.proceeds_callback fun hreliable => hreliable.finished log operation outcome

theorem proceeds_signals (signals : List AgentSignal) (log : List CallEvent) :
    ∃ sent : List AgentSignal, world.Proceeds (Tx.each signals world.signalled) log
      (sent.map .signalled) := by
  induction signals generalizing log with
  | nil => exact ⟨[], .inl (congrArg (Prod.mk _) (List.append_nil log).symm)⟩
  | cons signal signals ih =>
      have hsignal := world.proceeds_signalled signal log
      rcases hsignal.bind fun _ => Tx.each signals world.signalled
        with hnext | ⟨hcallback, failure, hnext⟩
      · obtain ⟨sent, hsent⟩ := ih (log ++ [.signalled signal])
        refine ⟨signal :: sent, ?_⟩
        rw [Proceeds, List.append_assoc] at hsent
        exact hsent.imp hnext.trans fun hfails =>
          ⟨hfails.1, hfails.2.imp fun _ hfailure => hnext.trans hfailure⟩
      · exact ⟨[signal], .inr ⟨hcallback, failure, hnext⟩⟩

end Callbacks

end ProviderWorld

/-! ## Attempts -/

namespace CallEvent

/-- What the loop sees or does between a dispatch and the end of its operation. -/
def isObservation : CallEvent → Bool
  | .started .. | .dispatched _ | .finished .. => false
  | _ => true

def event? : CallEvent → Option ModelStreamEvent
  | .polled (.ok event) => some event
  | _ => none

def isEnd : CallEvent → Bool
  | .ended | .polled (.ok .done) => true
  | _ => false

def isRejection : CallEvent → Bool
  | .refused error | .polled (.error error) => error.isCursorRejected
  | _ => false

end CallEvent

namespace ModelStreamEvent

def isCompletion : ModelStreamEvent → Bool
  | .responseCompleted .. => true
  | _ => false

/-- What shows that the provider has executed the request. -/
def isOutput : ModelStreamEvent → Bool
  | .start | .done => false
  | _ => true

end ModelStreamEvent

namespace Reading

variable (reading : Reading)

/-- What is read of the events of a log. -/
def takeAll (seen : List CallEvent) : Reading :=
  (seen.filterMap CallEvent.event?).foldl take reading

theorem takeAll_append (seen later : List CallEvent) :
    reading.takeAll (seen ++ later) = (reading.takeAll seen).takeAll later := by
  rw [takeAll, List.filterMap_append, List.foldl_append]
  rfl

theorem takeAll_cons (event : CallEvent) (later : List CallEvent) :
    reading.takeAll (event :: later) = (reading.takeAll [event]).takeAll later :=
  reading.takeAll_append [event] later

theorem takeAll_signals (sent : List AgentSignal) :
    reading.takeAll (sent.map .signalled) = reading := by
  rw [takeAll, List.filterMap_map]
  have hnone : List.filterMap (CallEvent.event? ∘ CallEvent.signalled) sent = [] :=
    List.filterMap_eq_nil_iff.mpr fun _ _ => rfl
  rw [hnone]
  rfl

theorem completed_take (event : ModelStreamEvent) :
    (reading.take event).completed = (reading.completed || event.isCompletion) := by
  cases event <;> simp [take, push, ModelStreamEvent.isCompletion]

theorem observed_take (event : ModelStreamEvent) :
    (reading.take event).observed = (reading.observed || event.isOutput) := by
  cases event <;> simp [take, push, ModelStreamEvent.isOutput]

theorem completed_foldl (events : List ModelStreamEvent) :
    (events.foldl take reading).completed = (reading.completed || events.any (·.isCompletion)) := by
  induction events generalizing reading with
  | nil => simp
  | cons event events ih => rw [List.foldl_cons, ih, completed_take, List.any_cons, Bool.or_assoc]

theorem observed_foldl (events : List ModelStreamEvent) :
    (events.foldl take reading).observed = (reading.observed || events.any (·.isOutput)) := by
  induction events generalizing reading with
  | nil => simp
  | cons event events ih => rw [List.foldl_cons, ih, observed_take, List.any_cons, Bool.or_assoc]

theorem observed_takeAll {reading : Reading} {seen : List CallEvent}
    (hunobserved : (reading.takeAll seen).observed = false) :
    ∀ event ∈ seen.filterMap CallEvent.event?, event.isOutput = false := by
  rw [takeAll, observed_foldl, Bool.or_eq_false_iff, List.any_eq_false] at hunobserved
  intro event hevent
  exact Bool.eq_false_of_not_eq_true (hunobserved.2 event hevent)

/-- Whether the start was announced shows in no response. -/
theorem take_started (started : Bool) (event : ModelStreamEvent) :
    ∃ started', ({ reading with started } : Reading).take event =
      { reading.take event with started := started' } := by
  cases event <;> exact ⟨_, rfl⟩

theorem foldl_started (started : Bool) (events : List ModelStreamEvent) :
    ∃ started', events.foldl take { reading with started } =
      { events.foldl take reading with started := started' } := by
  induction events generalizing reading started with
  | nil => exact ⟨started, rfl⟩
  | cons event events ih =>
      obtain ⟨started', htake⟩ := reading.take_started started event
      rw [List.foldl_cons, htake]
      exact ih (reading.take event) started'

/-- Events without output leave the response as it was. -/
theorem takeAll_silent {seen : List CallEvent}
    (hsilent : ∀ event ∈ seen.filterMap CallEvent.event?, event.isOutput = false) :
    ∃ started, reading.takeAll seen = { reading with started } := by
  rw [takeAll]
  generalize seen.filterMap CallEvent.event? = events at hsilent ⊢
  induction events generalizing reading with
  | nil => exact ⟨reading.started, rfl⟩
  | cons event events ih =>
      obtain ⟨hevent, hevents⟩ := List.forall_mem_cons.mp hsilent
      have htake : ∃ started, reading.take event = { reading with started } := by
        cases event <;> first | exact ⟨_, rfl⟩ | cases hevent
      obtain ⟨started, htake⟩ := htake
      obtain ⟨started', hrest⟩ := ih (reading.take event) hevents
      exact ⟨started', by rw [List.foldl_cons, hrest, htake]⟩

end Reading

/-! ## Reading a stream -/

namespace ProviderWorld

variable (world : ProviderWorld)

/-- A stream is read to an end, which closes its operation unless a callback failed before, or
to a rejection of its cursor, after which the fallback goes on. -/
inductive StreamEnd (operation : Option OperationId) (fallback : Option (Reading → Calling Reading))
    (reading : Reading) (log : List CallEvent) (run : Except CallFailure Reading × List CallEvent) :
    Prop where
  | stopped (seen : List CallEvent) (outcome : Option ProviderCallOutcome)
      (hseen : ∀ event ∈ seen, event.isObservation = true)
      (hlog : run.2 = log ++ seen ++ closing operation outcome)
      (hsucceeded : outcome = some .succeeded ↔
        (reading.takeAll seen).completed = true ∧ seen.any (·.isEnd) = true)
      (hreliable : world.Reliable → outcome.isSome = true)
      (hreturned : ∀ result, run.1 = .ok result →
        outcome = some .succeeded ∧ result = reading.takeAll seen)
  | replayed (seen : List CallEvent) (outcome : ProviderCallOutcome)
      (replay : Reading → Calling Reading) (hfallback : fallback = some replay)
      (hseen : ∀ event ∈ seen, event.isObservation = true)
      (hrejected : seen.any (·.isRejection) = true)
      (hunobserved : (reading.takeAll seen).observed = false)
      (houtcome : outcome ≠ .succeeded) (hopen : seen.any (·.isEnd) = false)
      (hrun : run = replay (reading.takeAll seen)
        (log ++ seen ++ closing operation (some outcome)))

variable {world} {operation : Option OperationId} {fallback : Option (Reading → Calling Reading)}
  {reading : Reading} {log : List CallEvent} {run : Except CallFailure Reading × List CallEvent}

theorem StreamEnd.after {before : List CallEvent}
    (hbefore : ∀ event ∈ before, event.isObservation = true)
    (hopen : before.any (·.isEnd) = false)
    (hend : world.StreamEnd operation fallback (reading.takeAll before) (log ++ before) run) :
    world.StreamEnd operation fallback reading log run := by
  cases hend with
  | stopped seen outcome hseen hlog hsucceeded hreliable hreturned =>
      rw [← Reading.takeAll_append] at hsucceeded hreturned
      apply StreamEnd.stopped (before ++ seen) outcome
      · intro event hevent
        exact (List.mem_append.mp hevent).elim (hbefore event) (hseen event)
      · rw [hlog, List.append_assoc log]
      · rw [List.any_append, hopen, Bool.false_or]
        exact hsucceeded
      · exact hreliable
      · exact hreturned
  | replayed seen outcome replay hfallback hseen hrejected hunobserved houtcome hopen' hrun =>
      rw [← Reading.takeAll_append] at hunobserved hrun
      apply StreamEnd.replayed (before ++ seen) outcome replay hfallback
      · intro event hevent
        exact (List.mem_append.mp hevent).elim (hbefore event) (hseen event)
      · rw [List.any_append, hrejected, Bool.or_true]
      · exact hunobserved
      · exact houtcome
      · rw [List.any_append, hopen, hopen', Bool.or_false]
      · rw [hrun, List.append_assoc log]

/-- The last observation of a stream, and the outcome of its operation. -/
theorem StreamEnd.of_last (event : CallEvent) {outcome : ProviderCallOutcome}
    (hevent : event.isObservation = true)
    (hsucceeded : outcome = .succeeded ↔
      (reading.takeAll [event]).completed = true ∧ event.isEnd = true)
    (hlog : run.2 = log ++ [event] ++ closing operation (some outcome))
    (hreturned : ∀ result, run.1 = .ok result →
      outcome = .succeeded ∧ result = reading.takeAll [event]) :
    world.StreamEnd operation fallback reading log run := by
  apply StreamEnd.stopped [event] (some outcome)
  · exact fun seen hseen => List.mem_singleton.mp hseen ▸ hevent
  · exact hlog
  · rw [Option.some.injEq, List.any_cons, List.any_nil, Bool.or_false]
    exact hsucceeded
  · exact fun _ => rfl
  · intro result hresult
    rw [Option.some.injEq]
    exact hreturned result hresult

theorem StreamEnd.of_finish (event : CallEvent) {outcome : ProviderCallOutcome}
    {next : Unit → Calling Reading} (hevent : event.isObservation = true)
    (hsucceeded : outcome = .succeeded ↔
      (reading.takeAll [event]).completed = true ∧ event.isEnd = true)
    (hnext : ∀ reached, (next () reached).2 = reached ∧ ∀ result,
      (next () reached).1 = .ok result → outcome = .succeeded ∧ result = reading.takeAll [event]) :
    world.StreamEnd operation fallback reading log
      ((world.finishProviderCall operation outcome >>= next) (log ++ [event])) := by
  have hfinish := world.proceeds_finishProviderCall operation outcome (log ++ [event])
  rcases hfinish.bind next with hgoes | ⟨-, failure, hfails⟩
  · rw [hgoes]
    exact .of_last event hevent hsucceeded (hnext _).1 (hnext _).2
  · rw [hfails]
    apply StreamEnd.of_last event hevent hsucceeded rfl
    intro result hresult
    cases hresult

theorem streamEnd_completeResponse {event : CallEvent} (hevent : event.isObservation = true)
    (hend : event.isEnd = true) (htaken : reading.takeAll [event] = reading) :
    world.StreamEnd operation fallback reading log
      (world.completeResponse operation reading (log ++ [event])) := by
  rw [completeResponse]
  by_cases hcompleted : reading.completed = true
  · rw [if_pos hcompleted]
    apply StreamEnd.of_finish event hevent
    · simp only [htaken, hcompleted, hend, and_self]
    · intro reached
      refine ⟨rfl, fun result hresult => ⟨rfl, ?_⟩⟩
      rw [htaken]
      exact (Except.ok.inj hresult).symm
  · rw [if_neg hcompleted]
    apply StreamEnd.of_finish event hevent
    · simp only [htaken, hcompleted, reduceCtorEq, Bool.false_eq_true, false_and]
    · intro reached
      refine ⟨rfl, fun result hresult => ?_⟩
      cases hresult

theorem outcome_ne_succeeded (debug : String → String) (error : ProviderError) :
    error.outcome debug ≠ .succeeded := by
  cases error <;> exact ProviderCallOutcome.noConfusion

/-- An observation after which the stream is read no further. -/
theorem streamEnd_gives_up (event : CallEvent) {outcome : ProviderCallOutcome}
    {failure : CallFailure}
    (hevent : event.isObservation = true) (hopen : event.isEnd = false)
    (houtcome : outcome ≠ .succeeded) :
    world.StreamEnd operation fallback reading log
      ((world.finishProviderCall operation outcome >>= fun _ => Tx.fail failure)
        (log ++ [event])) := by
  apply StreamEnd.of_finish event hevent
  · simp only [houtcome, hopen, Bool.false_eq_true, and_false]
  · intro reached
    refine ⟨rfl, fun result hresult => ?_⟩
    cases hresult

theorem streamEnd_error (error : ProviderError) (polls : List Poll) :
    world.StreamEnd operation fallback reading log
      (world.readStream operation fallback (.item (.error error) :: polls) reading log) := by
  have houtcome := outcome_ne_succeeded world.debug error
  cases fallback with
  | none => exact streamEnd_gives_up (.polled (.error error)) rfl rfl houtcome
  | some replay =>
      by_cases hrejected : (error.isCursorRejected && !reading.observed) = true
      · have hfinish := world.proceeds_finishProviderCall operation (error.outcome world.debug)
          (log ++ [.polled (.error error)])
        have hread : world.readStream operation (some replay) (.item (.error error) :: polls)
            reading log = (world.finishProviderCall operation (error.outcome world.debug) >>=
              fun _ => replay reading) (log ++ [.polled (.error error)]) := by
          rw [readStream]
          rw [if_pos hrejected]
          rfl
        rw [Bool.and_eq_true, Bool.not_eq_true'] at hrejected
        rw [hread]
        rcases hfinish.bind fun _ => replay reading with hgoes | ⟨-, failure, hfails⟩
        · apply StreamEnd.replayed [.polled (.error error)] _ replay rfl
          · exact fun seen hseen => List.mem_singleton.mp hseen ▸ rfl
          · rw [List.any_cons, List.any_nil, Bool.or_false]
            exact hrejected.1
          · exact hrejected.2
          · exact houtcome
          · rfl
          · exact hgoes
        · rw [hfails]
          apply StreamEnd.of_last (.polled (.error error)) rfl _ rfl
          · intro result hresult
            cases hresult
          · simp only [houtcome, CallEvent.isEnd, Bool.false_eq_true, and_false]
      · have hread : world.readStream operation (some replay) (.item (.error error) :: polls)
            reading log = (world.finishProviderCall operation (error.outcome world.debug) >>=
              fun _ => Tx.fail (.provider error)) (log ++ [.polled (.error error)]) := by
          rw [readStream]
          rw [if_neg hrejected]
          rfl
        rw [hread]
        exact streamEnd_gives_up (.polled (.error error)) rfl rfl houtcome

/-- An event that does not end the stream, with what is announced of it. -/
theorem streamEnd_event {event : ModelStreamEvent} {polls : List Poll} (hevent : event ≠ .done)
    (hrest : ∀ log, world.StreamEnd operation fallback (reading.take event) log
      (world.readStream operation fallback polls (reading.take event) log)) :
    world.StreamEnd operation fallback reading log
      (world.readStream operation fallback (.item (.ok event) :: polls) reading log) := by
  have hread : world.readStream operation fallback (.item (.ok event) :: polls) reading log =
      (Tx.each (event.signals reading.started) world.signalled >>= fun _ =>
        world.readStream operation fallback polls (reading.take event))
        (log ++ [.polled (.ok event)]) := by
    cases event <;> first | rfl | exact absurd rfl hevent
  obtain ⟨sent, hsent⟩ := world.proceeds_signals (event.signals reading.started)
    (log ++ [.polled (.ok event)])
  have htaken : reading.takeAll (.polled (.ok event) :: sent.map .signalled) =
      reading.take event := by
    rw [Reading.takeAll_cons, Reading.takeAll_signals]
    rfl
  have hseen : ∀ seen ∈ CallEvent.polled (.ok event) :: sent.map CallEvent.signalled,
      seen.isObservation = true := by
    intro seen hseen
    rcases List.mem_cons.mp hseen with rfl | hsignal
    · rfl
    · obtain ⟨signal, -, rfl⟩ := List.mem_map.mp hsignal
      rfl
  have hopen : (CallEvent.polled (.ok event) :: sent.map CallEvent.signalled).any (·.isEnd) =
      false := by
    rw [List.any_eq_false]
    intro seen hseen
    rcases List.mem_cons.mp hseen with rfl | hsignal
    · cases event <;> first | exact Bool.false_ne_true | exact absurd rfl hevent
    · obtain ⟨signal, -, rfl⟩ := List.mem_map.mp hsignal
      exact Bool.false_ne_true
  rw [hread]
  rcases hsent.bind fun _ => world.readStream operation fallback polls (reading.take event)
    with hgoes | ⟨hcallback, failure, hfails⟩
  · rw [hgoes]
    apply StreamEnd.after hseen hopen
    rw [htaken, List.append_assoc]
    exact hrest _
  · rw [hfails]
    apply StreamEnd.stopped _ none hseen
    · rw [closing_none, List.append_nil, List.append_assoc]
      rfl
    · simp only [reduceCtorEq, hopen, Bool.false_eq_true, and_false]
    · exact fun hreliable => absurd hreliable hcallback
    · intro result hresult
      cases hresult

/-- The induction is on what the stream gives. -/
theorem streamEnd_readStream (polls : List Poll) (reading : Reading) (log : List CallEvent) :
    world.StreamEnd operation fallback reading log
      (world.readStream operation fallback polls reading log) := by
  induction polls generalizing reading log with
  | nil => exact streamEnd_completeResponse rfl rfl rfl
  | cons poll polls ih =>
      cases poll with
      | cancelled => exact streamEnd_gives_up .cancelled rfl rfl ProviderCallOutcome.noConfusion
      | item item =>
          cases item with
          | error error => exact streamEnd_error error polls
          | ok event =>
              by_cases hdone : event = .done
              · rw [hdone]
                exact streamEnd_completeResponse rfl rfl rfl
              · exact streamEnd_event hdone (ih _)

end ProviderWorld

/-- One dispatch: the request that is sent, what is seen of it, and the outcome with which its
operation is finished. -/
structure ProviderAttempt where
  request : ModelRequest
  operation : Option OperationId
  seen : List CallEvent
  /-- There is none where a callback failed before. -/
  outcome : Option ProviderCallOutcome

namespace ProviderAttempt

variable (attempt : ProviderAttempt)

def opening (request : ModelRequest) (operation : Option OperationId) : List CallEvent :=
  [.started request operation, .dispatched request]

def log : List CallEvent :=
  opening attempt.request attempt.operation ++
    (attempt.seen ++ ProviderWorld.closing attempt.operation attempt.outcome)

def Completed : Prop :=
  ∃ usage stopReason, .polled (.ok (.responseCompleted usage stopReason)) ∈ attempt.seen

def Ended : Prop := .ended ∈ attempt.seen ∨ .polled (.ok .done) ∈ attempt.seen

/-- The cursor was refused before any output. -/
def Rejected : Prop :=
  (∃ text, .refused (.cursorRejected text) ∈ attempt.seen ∨
    .polled (.error (.cursorRejected text)) ∈ attempt.seen) ∧
  ∀ event, .polled (.ok event) ∈ attempt.seen → event = .start

/-- The operation succeeds if its stream came to an end after it had completed. -/
structure Accounted : Prop where
  seen : ∀ event ∈ attempt.seen, event.isObservation = true
  succeeded : attempt.outcome = some .succeeded ↔ attempt.Completed ∧ attempt.Ended

end ProviderAttempt

/-- The requests that are dispatched, at most two. -/
inductive Dispatched (request : ModelRequest) : List ProviderAttempt → Prop where
  | none : Dispatched request []
  | once (first : ProviderAttempt) (hrequest : first.request = request.serialized) :
      Dispatched request [first]
  | again (first second : ProviderAttempt) (cursor : ResponseContinuation)
      (hrequest : first.request = request.serialized)
      (hcursor : request.continuation = some cursor) (hrejected : first.Rejected)
      (hcleared : second.request.continuation = Option.none)
      (hreplay : (request.cursorless cursor.fallbackMessages).applyContextBudget =
        .ok second.request) : Dispatched request [first, second]

theorem Reading.completed_takeAll (reading : Reading) (seen : List CallEvent) :
    (reading.takeAll seen).completed = true ↔ reading.completed = true ∨
      ∃ usage stopReason, .polled (.ok (.responseCompleted usage stopReason)) ∈ seen := by
  rw [takeAll, completed_foldl, Bool.or_eq_true, List.any_eq_true]
  apply or_congr_right
  constructor
  · rintro ⟨event, hevent, hcompletion⟩
    obtain ⟨entry, hentry, hpolled⟩ := List.mem_filterMap.mp hevent
    cases entry with
    | polled item =>
        cases item with
        | error error => cases hpolled
        | ok polled =>
            obtain rfl := Option.some.inj hpolled
            cases polled with
            | responseCompleted usage stopReason => exact ⟨usage, stopReason, hentry⟩
            | _ => cases hcompletion
    | _ => cases hpolled
  · rintro ⟨usage, stopReason, hentry⟩
    exact ⟨_, List.mem_filterMap.mpr ⟨_, hentry, rfl⟩, rfl⟩

theorem CallEvent.any_isEnd {seen : List CallEvent} :
    seen.any (·.isEnd) = true ↔ .ended ∈ seen ∨ .polled (.ok .done) ∈ seen := by
  rw [List.any_eq_true]
  constructor
  · rintro ⟨entry, hentry, hend⟩
    unfold isEnd at hend
    split at hend
    · exact .inl hentry
    · exact .inr hentry
    · cases hend
  · rintro (hentry | hentry)
    · exact ⟨_, hentry, rfl⟩
    · exact ⟨_, hentry, rfl⟩

theorem CallEvent.of_any_isRejection {seen : List CallEvent}
    (hrejection : seen.any (·.isRejection) = true) :
    ∃ text, .refused (.cursorRejected text) ∈ seen ∨
      .polled (.error (.cursorRejected text)) ∈ seen := by
  obtain ⟨entry, hentry, hrejected⟩ := List.any_eq_true.mp hrejection
  have hcursor {error : ProviderError} (herror : error.isCursorRejected = true) :
      ∃ text, error = .cursorRejected text := by
    cases error with
    | cursorRejected text => exact ⟨text, rfl⟩
    | _ => cases herror
  unfold isRejection at hrejected
  split at hrejected
  · obtain ⟨text, rfl⟩ := hcursor hrejected
    exact ⟨text, .inl hentry⟩
  · obtain ⟨text, rfl⟩ := hcursor hrejected
    exact ⟨text, .inr hentry⟩
  · cases hrejected

theorem ProviderAttempt.rejected_of {attempt : ProviderAttempt} {reading : Reading}
    (hrejected : attempt.seen.any (·.isRejection) = true)
    (hopen : attempt.seen.any (·.isEnd) = false)
    (hunobserved : (reading.takeAll attempt.seen).observed = false) : attempt.Rejected := by
  refine ⟨CallEvent.of_any_isRejection hrejected, ?_⟩
  intro event hevent
  have hsilent := Reading.observed_takeAll hunobserved event
    (List.mem_filterMap.mpr ⟨_, hevent, rfl⟩)
  have hnotDone : event ≠ .done := by
    rintro rfl
    rw [← Bool.not_eq_true] at hopen
    exact hopen (CallEvent.any_isEnd.mpr (.inr hevent))
  cases event with
  | start => rfl
  | done => exact absurd rfl hnotDone
  | _ => cases hsilent

namespace ProviderWorld

variable {world : ProviderWorld}

/-! ## Starting a stream -/

/-- How a stream is started: not at all, with an attempt that is over, or with one that goes
on. -/
inductive StreamStart (world : ProviderWorld) (request : ModelRequest) (log : List CallEvent) :
    Except CallFailure (List Poll × Option OperationId) × List CallEvent → Prop where
  | stopped (failure : Failure) : StreamStart world request log (.error (.failure failure), log)
  | closed (attempt : ProviderAttempt) (failure : CallFailure)
      (hrequest : attempt.request = request.serialized) (haccounted : attempt.Accounted)
      (houtcome : attempt.outcome.isSome = true)
      (hrejected : failure.isCursorRejected = true → attempt.Rejected) :
      StreamStart world request log (.error failure, log ++ attempt.log)
  | opened (polls : List Poll) (operation : Option OperationId) :
      StreamStart world request log
        (.ok (polls, operation), log ++ ProviderAttempt.opening request.serialized operation)

theorem StreamStart.of_finish {request : ModelRequest} {log : List CallEvent}
    {operation : Option OperationId} (event : CallEvent) {outcome : ProviderCallOutcome}
    {failure : CallFailure} (hevent : event.isObservation = true) (hopen : event.isEnd = false)
    (hsilent : event.event? = none) (houtcome : outcome ≠ .succeeded)
    (hrejected : failure.isCursorRejected = true → event.isRejection = true) :
    StreamStart world request log
      ((world.finishProviderCall operation outcome >>= fun _ => Tx.fail failure)
        (log ++ ProviderAttempt.opening request.serialized operation ++ [event])) := by
  let attempt : ProviderAttempt :=
    { request := request.serialized, operation, seen := [event], outcome := some outcome }
  have hnotEnded : ¬attempt.Ended := by
    rw [ProviderAttempt.Ended, ← CallEvent.any_isEnd, List.any_cons, List.any_nil, hopen]
    exact Bool.false_ne_true
  have haccounted : attempt.Accounted := by
    constructor
    · exact fun seen hseen => List.mem_singleton.mp hseen ▸ hevent
    · constructor
      · intro hsucceeded
        exact absurd (Option.some.inj hsucceeded) houtcome
      · exact fun hended => absurd hended.2 hnotEnded
  have hattempt (hrejection : event.isRejection = true) : attempt.Rejected := by
    refine ⟨CallEvent.of_any_isRejection ?_, ?_⟩
    · rw [List.any_cons, hrejection, Bool.true_or]
    · intro polled hpolled
      rw [← List.mem_singleton.mp hpolled] at hsilent
      cases hsilent
  have hlog : log ++ ProviderAttempt.opening request.serialized operation ++ [event] ++
      closing operation (some outcome) = log ++ attempt.log := by
    rw [List.append_assoc, List.append_assoc]
    rfl
  have hfinish := world.proceeds_finishProviderCall operation outcome
    (log ++ ProviderAttempt.opening request.serialized operation ++ [event])
  rcases hfinish.bind fun _ => (Tx.fail failure : Calling _) with hgoes | ⟨-, callback, hfails⟩
  · rw [hgoes, hlog]
    exact .closed attempt failure rfl haccounted rfl fun hcursor => hattempt (hrejected hcursor)
  · rw [hfails, hlog]
    apply StreamStart.closed attempt _ rfl haccounted rfl
    intro hcursor
    cases hcursor

theorem streamStart_dispatchProvider (request : ModelRequest) (operation : Option OperationId)
    (log : List CallEvent) :
    StreamStart world request log
      (world.dispatchProvider request operation
        (log ++ [.started request.serialized operation])) := by
  have hlog : log ++ [.started request.serialized operation] ++ [.dispatched request.serialized] =
      log ++ ProviderAttempt.opening request.serialized operation := List.append_assoc _ _ _
  simp only [dispatchProvider, bind, Tx.andThen, Tx.reads, note, Tx.modify]
  rw [hlog]
  cases world.stream (log ++ [.started request.serialized operation]) request.serialized with
  | cancelled =>
      apply StreamStart.of_finish .cancelled rfl rfl rfl ProviderCallOutcome.noConfusion
      exact fun hcursor => hcursor
  | failed error =>
      have houtcome := outcome_ne_succeeded world.debug error
      apply StreamStart.of_finish (.refused error) rfl rfl rfl houtcome
      exact fun hcursor => hcursor
  | streaming polls => exact .opened polls operation

theorem streamStart (request : ModelRequest) (log : List CallEvent) :
    StreamStart world request log (world.startProviderStream request log) := by
  change StreamStart world request log ((if world.cancelled log = true then Tx.fail turnCancelled
    else _ : Calling _) log)
  by_cases hcancelled : world.cancelled log = true
  · rw [if_pos hcancelled]
    exact .stopped _
  · rw [if_neg hcancelled]
    change StreamStart world request log (Tx.andThen (answer (world.callStarted log request)) _ log)
    cases world.callStarted log request with
    | error failure => exact .stopped failure
    | ok operation => exact streamStart_dispatchProvider request operation log

/-! ## The whole call -/

theorem fullReplay_ok {request replay : ModelRequest} {cursor : ResponseContinuation}
    (hcursor : request.continuation = some cursor) (hreplay : fullReplay request = .ok replay) :
    replay.continuation = none ∧
      (request.cursorless cursor.fallbackMessages).applyContextBudget = .ok replay := by
  rw [fullReplay, hcursor] at hreplay
  have htrimmed := (ModelRequest.applyContextBudget_ok hreplay).1
  refine ⟨?_, hreplay⟩
  rw [htrimmed]
  rfl

/-- The attempts of a run, and what it returns of the last. -/
structure Served (world : ProviderWorld) (reading : Reading) (log : List CallEvent)
    (attempts : List ProviderAttempt) (run : Except CallFailure Reading × List CallEvent) :
    Prop where
  logged : run.2 = log ++ attempts.flatMap (·.log)
  accounted : ∀ attempt ∈ attempts, attempt.Accounted
  closed : world.Reliable → ∀ attempt ∈ attempts, attempt.outcome.isSome = true
  returned : ∀ result, run.1 = .ok result → ∃ last started, attempts.getLast? = some last ∧
    last.outcome = some .succeeded ∧ result = { reading.takeAll last.seen with started }

theorem Served.failed (reading : Reading) (log : List CallEvent) (failure : CallFailure) :
    Served world reading log [] (.error failure, log) where
  logged := (List.append_nil log).symm
  accounted := List.forall_mem_nil _
  closed := fun _ => List.forall_mem_nil _
  returned := by
    intro result hresult
    cases hresult

/-- An attempt before the others. -/
theorem Served.cons {reading : Reading} {log : List CallEvent} {first : ProviderAttempt}
    {attempts : List ProviderAttempt} {run : Except CallFailure Reading × List CallEvent}
    (haccounted : first.Accounted) (hclosed : first.outcome.isSome = true)
    (hrest : Served world reading (log ++ first.log) attempts run) :
    Served world reading log (first :: attempts) run where
  logged := by rw [hrest.logged, List.flatMap_cons, List.append_assoc]
  accounted := List.forall_mem_cons.mpr ⟨haccounted, hrest.accounted⟩
  closed := fun hreliable => List.forall_mem_cons.mpr ⟨hclosed, hrest.closed hreliable⟩
  returned := by
    intro result hresult
    obtain ⟨last, started, hlast, hreturned⟩ := hrest.returned result hresult
    refine ⟨last, started, ?_, hreturned⟩
    rw [List.getLast?_cons, hlast]
    rfl

theorem Served.of_started {reading : Reading} {started : Bool} {log : List CallEvent}
    {attempts : List ProviderAttempt} {run : Except CallFailure Reading × List CallEvent}
    (hserved : Served world { reading with started } log attempts run) :
    Served world reading log attempts run where
  logged := hserved.logged
  accounted := hserved.accounted
  closed := hserved.closed
  returned := by
    intro result hresult
    obtain ⟨last, started', hlast, hsucceeded, rfl⟩ := hserved.returned result hresult
    obtain ⟨started'', htaken⟩ :=
      reading.foldl_started started (last.seen.filterMap CallEvent.event?)
    refine ⟨last, started', hlast, hsucceeded, ?_⟩
    rw [Reading.takeAll, htaken]
    rfl

theorem accounted_of {attempt : ProviderAttempt} {reading : Reading}
    (hfresh : reading.completed = false)
    (hseen : ∀ event ∈ attempt.seen, event.isObservation = true)
    (hsucceeded : attempt.outcome = some .succeeded ↔
      (reading.takeAll attempt.seen).completed = true ∧ attempt.seen.any (·.isEnd) = true) :
    attempt.Accounted := by
  refine ⟨hseen, ?_⟩
  rw [hsucceeded, Reading.completed_takeAll, hfresh, CallEvent.any_isEnd]
  simp only [Bool.false_eq_true, false_or]
  rfl

/-- A stream that was opened and is read to its end is one attempt. -/
theorem served_of_stopped {reading : Reading} {log : List CallEvent} {request : ModelRequest}
    {operation : Option OperationId} {run : Except CallFailure Reading × List CallEvent}
    {seen : List CallEvent} {outcome : Option ProviderCallOutcome}
    (hfresh : reading.completed = false)
    (hseen : ∀ event ∈ seen, event.isObservation = true)
    (hlog : run.2 = log ++ ProviderAttempt.opening request operation ++ seen ++
      closing operation outcome)
    (hsucceeded : outcome = some .succeeded ↔
      (reading.takeAll seen).completed = true ∧ seen.any (·.isEnd) = true)
    (hreliable : world.Reliable → outcome.isSome = true)
    (hreturned : ∀ result, run.1 = .ok result →
      outcome = some .succeeded ∧ result = reading.takeAll seen) :
    Served world reading log [{ request, operation, seen, outcome }] run where
  logged := by
    rw [hlog, List.append_assoc, List.append_assoc, List.flatMap_singleton]
    rfl
  accounted := by
    intro attempt hattempt
    obtain rfl := List.mem_singleton.mp hattempt
    exact accounted_of hfresh hseen hsucceeded
  closed := by
    intro hcallbacks attempt hattempt
    obtain rfl := List.mem_singleton.mp hattempt
    exact hreliable hcallbacks
  returned := by
    intro result hresult
    obtain ⟨houtcome, rfl⟩ := hreturned result hresult
    exact ⟨_, (reading.takeAll seen).started, rfl, houtcome, rfl⟩

theorem served_replayCall {request : ModelRequest} {reading : Reading} {log : List CallEvent}
    (hfresh : reading.completed = false) :
    ∃ attempts, Served world reading log attempts (world.replayCall request reading log) ∧
      (attempts = [] ∨ ∃ second replay, attempts = [second] ∧ fullReplay request = .ok replay ∧
        second.request = replay.serialized) := by
  cases hreplay : fullReplay request with
  | error text =>
      refine ⟨[], ?_, .inl rfl⟩
      have hrun : world.replayCall request reading log = (.error (.failure (.msg text)), log) := by
        rw [replayCall, hreplay]
        rfl
      rw [hrun]
      exact .failed reading log _
  | ok replay =>
      have hrun : world.replayCall request reading log =
          Tx.andThen (world.startProviderStream replay)
            (fun opened => world.readStream opened.2 none opened.1 reading) log := by
        rw [replayCall, hreplay]
        rfl
      rw [hrun, Tx.andThen]
      have hstart := @streamStart world replay log
      generalize world.startProviderStream replay log = started at hstart
      cases hstart with
      | stopped failure => exact ⟨[], .failed reading log _, .inl rfl⟩
      | closed attempt failure hrequest haccounted houtcome hrejected =>
          exact ⟨[attempt], .cons haccounted houtcome (.failed reading _ failure),
            .inr ⟨attempt, replay, rfl, rfl, hrequest⟩⟩
      | opened polls operation =>
          have hend := @streamEnd_readStream world operation none polls reading
            (log ++ ProviderAttempt.opening replay.serialized operation)
          cases hend with
          | stopped seen outcome hseen hlog hsucceeded hreliable hreturned =>
              exact ⟨_, served_of_stopped hfresh hseen hlog hsucceeded hreliable hreturned,
                .inr ⟨_, replay, rfl, rfl, rfl⟩⟩
          | replayed seen outcome replay' hfallback => cases hfallback

/-- The attempts of the first call and, after a rejection, of the second. -/
theorem served_firstCall (request : ModelRequest) (log : List CallEvent) :
    ∃ attempts, Served world (Reading.initial request) log attempts (world.firstCall request log) ∧
      Dispatched request attempts := by
  have hrejection {first : ProviderAttempt} {reached : List CallEvent} {started : Bool}
      (hcontinuation : request.continuation.isSome = true)
      (hrequest : first.request = request.serialized) (haccounted : first.Accounted)
      (houtcome : first.outcome.isSome = true) (hrejected : first.Rejected)
      (hlog : reached = log ++ first.log) :
      ∃ attempts, Served world (Reading.initial request) log attempts
          (world.replayCall request { Reading.initial request with started } reached) ∧
        Dispatched request attempts := by
    obtain ⟨cursor, hcursor⟩ := Option.isSome_iff_exists.mp hcontinuation
    obtain ⟨attempts, hserved, hattempts⟩ := @served_replayCall world request
      { Reading.initial request with started } reached rfl
    rw [hlog] at hserved ⊢
    refine ⟨first :: attempts, .cons haccounted houtcome hserved.of_started, ?_⟩
    rcases hattempts with rfl | ⟨second, replay, rfl, hreplay, hsecond⟩
    · exact .once first hrequest
    · obtain ⟨hcleared, hbudget⟩ := fullReplay_ok hcursor hreplay
      rw [ModelRequest.serialized_of_cursorless hcleared] at hsecond
      apply Dispatched.again first second cursor hrequest hcursor hrejected
      · rw [hsecond, hcleared]
      · rw [hsecond, hbudget]
  have hstart := @streamStart world request log
  simp only [firstCall, bind, Tx.andThen, Tx.attempt]
  generalize world.startProviderStream request log = started at hstart
  cases hstart with
  | stopped failure =>
      refine ⟨[], ?_, .none⟩
      dsimp only
      rw [if_neg (by simp [CallFailure.isCursorRejected])]
      exact .failed _ log _
  | closed attempt failure hrequest haccounted houtcome hrejected =>
      dsimp only
      by_cases hfallback : (request.continuation.isSome && failure.isCursorRejected) = true
      · rw [if_pos hfallback]
        rw [Bool.and_eq_true] at hfallback
        exact hrejection hfallback.1 hrequest haccounted houtcome (hrejected hfallback.2) rfl
      · rw [if_neg hfallback]
        exact ⟨[attempt], .cons haccounted houtcome (.failed _ _ failure), .once attempt hrequest⟩
  | opened polls operation =>
      have hend := @streamEnd_readStream world operation
        (if request.continuation.isSome then some (world.replayCall request) else none) polls
        (Reading.initial request) (log ++ ProviderAttempt.opening request.serialized operation)
      dsimp only
      cases hend with
      | stopped seen outcome hseen hlog hsucceeded hreliable hreturned =>
          exact ⟨_, served_of_stopped rfl hseen hlog hsucceeded hreliable hreturned, .once _ rfl⟩
      | replayed seen outcome replay hfallback hseen hrejected hunobserved houtcome hopen hreplay =>
          rw [hreplay]
          by_cases hcontinuation : request.continuation.isSome = true
          · rw [if_pos hcontinuation] at hfallback
            obtain rfl := Option.some.inj hfallback
            let first : ProviderAttempt :=
              { request := request.serialized, operation, seen, outcome := some outcome }
            have haccounted : first.Accounted := by
              have hfresh : (Reading.initial request).completed = false := rfl
              apply accounted_of hfresh hseen
              simp only [first, Option.some.injEq, houtcome, hopen, Bool.false_eq_true, and_false]
            obtain ⟨started, htaken⟩ := Reading.takeAll_silent (Reading.initial request)
              (Reading.observed_takeAll hunobserved)
            rw [htaken]
            apply hrejection hcontinuation rfl haccounted rfl
            · exact ProviderAttempt.rejected_of hrejected hopen hunobserved
            · rw [List.append_assoc, List.append_assoc]
              rfl
          · rw [if_neg hcontinuation] at hfallback
            cases hfallback

/-- A response costs at most two dispatches.  The second follows the rejection of a cursor
before any output and carries the full history without a cursor; what is returned was read of
the last stream; and every operation that was started is finished once, with success if its
stream came to an end after the response had completed. -/
theorem provider_calls_settled (world : ProviderWorld) (request : ModelRequest)
    (log : List CallEvent) :
    ∃ attempts : List ProviderAttempt,
      (world.streamResponse request log).2 = log ++ attempts.flatMap (·.log) ∧
      Dispatched request attempts ∧
      (∀ attempt ∈ attempts, attempt.Accounted) ∧
      (world.Reliable → ∀ attempt ∈ attempts, attempt.outcome.isSome = true) ∧
      ∀ response calls, (world.streamResponse request log).1 = .ok (response, calls) →
        ∃ last, attempts.getLast? = some last ∧ last.outcome = some .succeeded ∧
          response = ((Reading.initial request).takeAll last.seen).response ∧
          calls = ((Reading.initial request).takeAll last.seen).calls := by
  obtain ⟨attempts, hserved, hdispatched⟩ := @served_firstCall world request log
  have hrun : world.streamResponse request log =
      Tx.andThen (world.firstCall request)
        (fun reading => Tx.ret (reading.response, reading.calls)) log := rfl
  refine ⟨attempts, ?_, hdispatched, hserved.accounted, hserved.closed, ?_⟩
  · rw [← hserved.logged, hrun, Tx.andThen]
    cases world.firstCall request log with
    | mk outcome reached => cases outcome <;> rfl
  · intro response calls hreturned
    rw [hrun, Tx.andThen] at hreturned
    cases hcall : world.firstCall request log with
    | mk outcome reached =>
        rw [hcall] at hreturned hserved
        cases outcome with
        | error failure => cases hreturned
        | ok reading =>
            obtain ⟨last, started, hlast, hsucceeded, hreading⟩ := hserved.returned reading rfl
            obtain ⟨rfl, rfl⟩ := Prod.mk.inj (Except.ok.inj hreturned)
            refine ⟨last, hlast, hsucceeded, ?_, ?_⟩
            · rw [hreading]
            · rw [hreading]

end ProviderWorld

namespace ProviderWorld.LateFailure

def request : ModelRequest :=
  { model := "openai/m", reasoning := none, system := "", messages := [], tools := [],
    continuation := none }

/-- The connection breaks after the completion has arrived. -/
def world : ProviderWorld where
  cancelled := fun _ => false
  callStarted := fun _ _ => .ok (some ⟨"operation"⟩)
  callFinished := fun _ _ _ => .ok ()
  signal := fun _ _ => .ok ()
  stream := fun _ _ =>
    .streaming [.item (.ok (.responseCompleted none none)), .item (.error (.http "reset"))]
  debug := id

/-- A completion is observed and the operation does not succeed. -/
theorem not_succeeded : world.Reliable ∧
    (world.streamResponse request []).2 =
      [.started request (some ⟨"operation"⟩), .dispatched request,
        .polled (.ok (.responseCompleted none none)), .polled (.error (.http "reset")),
        .finished ⟨"operation"⟩ (.uncertain "provider request failed: reset")] := by
  refine ⟨⟨fun _ _ => rfl, fun _ _ _ => rfl, fun _ _ => rfl⟩, ?_⟩
  rfl

end ProviderWorld.LateFailure

end Mews
