import Mews.Agent.Outcomes

/-!
# The link to a Host

The Hub asks a Host to run tools, hooks and ACP Turns and waits for each reply
under its request id.  The Host turns its typed errors into text; the Hub builds
new errors from the text, and its own errors where no reply came.
-/

namespace Mews

open Protocol

/-- The requests whose effect may have happened once they are sent. -/
inductive Execution where
  | tool
  | hook
  | acp
  deriving DecidableEq, Repr

inductive HostReply where
  | tool (value : Value)
  | hook (payload : Value)
  | acp (outcome : AcpSessionOutcome)
  deriving DecidableEq

/-- What an execution returns on the Host. -/
inductive HostResult where
  | tool (result : Except Failure Value)
  | hook (result : Except Failure Value)
  | acp (result : Except Failure AcpSessionOutcome)
  deriving DecidableEq

/-- The replies on the wire. -/
inductive HostToHub where
  | toolResult (result : Value) (error : Option String)
  | hookResult (payload : Option Value) (error : Option String)
  | acpResult (answer acpSessionId : Option String) (sessionReplaced : Bool)
      (timings : Option AcpTimings) (stopReason : Option AcpStopReason) (error : Option String)
  deriving DecidableEq

namespace HostResult

def kind : HostResult → Execution
  | .tool _ => .tool
  | .hook _ => .hook
  | .acp _ => .acp

def failure : HostResult → Option Failure
  | .tool (.error failure) | .hook (.error failure) | .acp (.error failure) => some failure
  | _ => none

/-- `handle_execution_request` and the reply of `ExecuteAcpTurn`. -/
def message : HostResult → HostToHub
  | .tool (.ok result) => .toolResult result none
  | .tool (.error failure) => .toolResult .null (some failure.toString)
  | .hook (.ok payload) => .hookResult (some payload) none
  | .hook (.error failure) => .hookResult none (some failure.toString)
  | .acp (.ok outcome) =>
      .acpResult (some outcome.answer) (some outcome.sessionId) outcome.sessionReplaced
        (some outcome.timings) (some outcome.stopReason) none
  | .acp (.error failure) => .acpResult none none false none none (some failure.toString)

end HostResult

/-- What the response task of the Hub makes of a message. -/
def HostToHub.reply : HostToHub → Except String HostReply
  | .toolResult result none => .ok (.tool result)
  | .toolResult _ (some error) => .error error
  | .hookResult (some payload) none => .ok (.hook payload)
  | .hookResult _ (some error) => .error error
  | .hookResult none none => .error "Host returned an empty hook result"
  | .acpResult (some answer) (some sessionId) sessionReplaced (some timings) (some stopReason) none =>
      .ok (.acp { answer, sessionId, sessionReplaced, stopReason, timings })
  | .acpResult _ _ _ _ _ (some error) => .error error
  | .acpResult _ _ _ _ _ none => .error "Host returned an empty ACP result"

/-- How the wait for a reply ends. -/
inductive Response where
  | replied (reply : Except String HostReply)
  | disconnected
  | elapsed
  deriving DecidableEq

/-- `request_inner` once the request has been sent. -/
def requestInner : Response → Except Failure HostReply
  | .replied (.ok reply) => .ok reply
  | .replied (.error error) => .error (.msg error)
  | .disconnected =>
      .error (.uncertain "Host disconnected before replying to the dispatched effect")
  | .elapsed => .error (.uncertain "Host effect request timed out after dispatch")

/-- The callers of `request_inner` take the reply of their kind. -/
def Execution.accept : Execution → Except Failure HostReply → Except Failure HostReply
  | _, .error failure => .error failure
  | .tool, .ok (.tool value) => .ok (.tool value)
  | .hook, .ok (.hook payload) => .ok (.hook payload)
  | .acp, .ok (.acp outcome) => .ok (.acp outcome)
  | .tool, .ok _ => .error (.uncertain "Host returned no definitive tool result")
  | .hook, .ok _ => .error (.uncertain "Host returned no definitive hook result")
  | .acp, .ok _ => .error (.uncertain "Host returned no definitive ACP outcome")

/-- One call of the Hub with what happened to it on the Host. -/
structure HostCall where
  id : RequestId
  kind : Execution
  sent : Bool
  /-- The token of the caller. -/
  cancelled : Bool
  outcome : Option (Except Failure HostReply)
  /-- What the execution has returned on the Host. -/
  result : Option HostResult
  /-- The reply reached the caller while it waited. -/
  arrived : Bool
  deriving DecidableEq

namespace HostCall

def waiting (call : HostCall) : Bool := call.sent && call.outcome.isNone

def respond (response : Response) (call : HostCall) : HostCall :=
  if call.waiting then
    { call with outcome := some (call.kind.accept (requestInner response)) }
  else call

/-- The message of the Host is delivered; nobody waits for it any more after a
timeout or a cancellation. -/
def deliver (call : HostCall) : HostCall :=
  match call.result with
  | some result =>
      if call.waiting then
        { call.respond (.replied result.message.reply) with arrived := true }
      else call
  | none => call

/-- A tool or a hook is given up at once; an ACP Turn is asked to stop and waited
for a little longer, unless the Host cannot be told. -/
def cancel (told : Bool) (call : HostCall) : HostCall :=
  if call.waiting then
    match call.kind with
    | .acp =>
        if told then { call with cancelled := true }
        else
          let failure : Failure :=
            .uncertain "Host disconnected while cancelling a dispatched ACP Turn"
          { call with cancelled := true, outcome := some (.error failure) }
    | _ => { call with cancelled := true, outcome := some (.error (.of .turnCancelled)) }
  else call

/-- A cancelled ACP Turn is not confirmed in time. -/
def giveUp (call : HostCall) : HostCall :=
  if call.waiting && call.cancelled then
    let failure : Failure :=
      .uncertain "Host did not confirm the outcome of the cancelled ACP Turn"
    { call with outcome := some (.error failure) }
  else call

end HostCall

inductive LinkEvent where
  /-- The call fails before it is sent. -/
  | refuse (id : RequestId) (kind : Execution) (failure : Failure)
  | send (id : RequestId) (kind : Execution)
  /-- The Host ends an execution, and its message is on the way. -/
  | execute (id : RequestId) (result : HostResult)
  | deliver (id : RequestId)
  | disconnect
  | elapse (id : RequestId)
  | cancel (id : RequestId) (told : Bool)
  | giveUp (id : RequestId)

/-- The calls over one link. -/
structure HostLink where
  calls : List HostCall
  /-- The messages on the way to the Hub are still delivered. -/
  connected : Bool
  deriving DecidableEq

namespace HostLink

def initial : HostLink := { calls := [], connected := true }

def update (link : HostLink) (id : RequestId) (change : HostCall → HostCall) : HostLink :=
  { link with calls := link.calls.map fun call => if call.id = id then change call else call }

/-- Request ids are fresh. -/
def add (link : HostLink) (call : HostCall) : HostLink :=
  if link.calls.any fun other => other.id = call.id then link
  else { link with calls := link.calls ++ [call] }

def step (link : HostLink) : LinkEvent → HostLink
  | .refuse id kind failure =>
      link.add
        { id, kind, sent := false, cancelled := false, outcome := some (.error failure)
          result := none, arrived := false }
  | .send id kind =>
      link.add
        { id, kind, sent := true, cancelled := false, outcome := none, result := none
          arrived := false }
  | .execute id result =>
      link.update id fun call =>
        if call.sent ∧ call.result = none ∧ call.kind = result.kind then
          { call with result := some result }
        else call
  | .deliver id => if link.connected then link.update id HostCall.deliver else link
  | .disconnect =>
      { calls := link.calls.map (HostCall.respond .disconnected), connected := false }
  | .elapse id => link.update id (HostCall.respond .elapsed)
  | .cancel id told => link.update id (HostCall.cancel told)
  | .giveUp id => link.update id HostCall.giveUp

def run (events : List LinkEvent) : HostLink := events.foldl step initial

end HostLink

/-! ## What a caller is told -/

/-- The effect may have happened, by what the Host knows. -/
def HostResult.unsettled (result : HostResult) : Prop :=
  ∃ failure, result.failure = some failure ∧
    (failure.effectUncertainty ≠ none ∨ failure.isTurnCancelled = true ∨
      failure.isCancelled = true)

namespace HostCall

/-- The failure is classified as uncertain, or marked so where an ACP effect is
recorded. -/
def Marked (call : HostCall) (failure : Failure) : Prop :=
  failure.effectUncertainty ≠ none ∨
    call.kind = .acp ∧
      ∃ reason, acpEffectOutcome (.error failure) call.cancelled true = .uncertain reason

/-- The caller is told neither more nor less than is known. -/
structure Honest (call : HostCall) (failure : Failure) : Prop where
  uncertain : (call.arrived = false ∨ ∃ result, call.result = some result ∧ result.unsettled) →
    call.Marked failure
  definitive : call.arrived = true →
    (∃ result, call.result = some result ∧ result.failure ≠ none ∧ ¬result.unsettled) →
    failure.effectUncertainty = none

/-- What a call is told follows from how it ended. -/
structure Settled (call : HostCall) : Prop where
  arrived : call.arrived = true → ∃ result, call.result = some result ∧
    call.outcome = some (call.kind.accept (requestInner (.replied result.message.reply)))
  kind : ∀ result, call.result = some result → result.kind = call.kind
  lost : call.sent = true → call.arrived = false → ∀ outcome, call.outcome = some outcome →
    (∃ reason, outcome = .error (.uncertain reason)) ∧ (call.kind = .acp ∨ call.cancelled = false) ∨
      outcome = .error (.of .turnCancelled) ∧ call.kind ≠ .acp ∧ call.cancelled = true
  pending : call.outcome = none → call.arrived = false ∧ (call.kind = .acp ∨ call.cancelled = false)

theorem accept_reply {result : HostResult} {kind : Execution} (hkind : result.kind = kind) :
    (∀ failure, result.failure = some failure →
      kind.accept (requestInner (.replied result.message.reply)) =
        .error (.msg failure.toString)) ∧
    (result.failure = none →
      ∃ reply, kind.accept (requestInner (.replied result.message.reply)) = .ok reply) := by
  subst hkind
  rcases result with (_ | _) | (_ | _) | (_ | _) <;>
    simp [HostResult.failure, HostResult.message, HostToHub.reply, requestInner, HostResult.kind,
      Execution.accept]

theorem outcome_of_waiting {call : HostCall} (hwaiting : call.waiting = true) :
    call.outcome = none := by
  rw [waiting, Bool.and_eq_true] at hwaiting
  exact Option.isNone_iff_eq_none.mp hwaiting.2

theorem Settled.respond {call : HostCall} {response : Response} {reason : String}
    (hsettled : call.Settled) (hresponse : requestInner response = .error (.uncertain reason)) :
    (call.respond response).Settled := by
  rw [HostCall.respond]
  split
  · rename_i hwaiting
    have hnone := outcome_of_waiting hwaiting
    have hstill := hsettled.pending hnone
    constructor
    · intro harrived
      rw [hstill.1] at harrived
      cases harrived
    · exact hsettled.kind
    · rintro - - _ ⟨⟩
      refine .inl ⟨⟨reason, ?_⟩, hstill.2⟩
      rw [hresponse]
      cases call.kind <;> rfl
    · exact nofun
  · exact hsettled

theorem Settled.deliver {call : HostCall} (hsettled : call.Settled) : call.deliver.Settled := by
  rw [HostCall.deliver]
  split
  · rename_i result hresult
    split
    · rename_i hwaiting
      rw [HostCall.respond, if_pos hwaiting]
      constructor
      · exact fun _ => ⟨result, hresult, rfl⟩
      · exact hsettled.kind
      · exact fun _ harrived => by cases harrived
      · exact nofun
    · exact hsettled
  · exact hsettled

theorem Settled.cancel {call : HostCall} (told : Bool) (hsettled : call.Settled) :
    (call.cancel told).Settled := by
  rw [HostCall.cancel]
  split
  · rename_i hwaiting
    have hnone := outcome_of_waiting hwaiting
    have hstill := (hsettled.pending hnone).1
    have hlate : ∀ {P : Prop}, call.arrived = true → P := by
      intro P harrived
      rw [hstill] at harrived
      cases harrived
    split
    · rename_i hkind
      split
      · constructor
        · exact fun harrived => hlate harrived
        · exact hsettled.kind
        · rintro - - outcome houtcome
          cases hnone.symm.trans houtcome
        · exact fun _ => ⟨hstill, .inl hkind⟩
      · constructor
        · exact fun harrived => hlate harrived
        · exact hsettled.kind
        · rintro - - _ ⟨⟩
          exact .inl ⟨⟨_, rfl⟩, .inl hkind⟩
        · exact nofun
    · rename_i hkind
      constructor
      · exact fun harrived => hlate harrived
      · exact hsettled.kind
      · rintro - - _ ⟨⟩
        exact .inr ⟨rfl, hkind, rfl⟩
      · exact nofun
  · exact hsettled

theorem Settled.giveUp {call : HostCall} (hsettled : call.Settled) : call.giveUp.Settled := by
  rw [HostCall.giveUp]
  split
  · rename_i hwaiting
    have hstill := hsettled.pending (outcome_of_waiting (Bool.and_eq_true_iff.mp hwaiting).1)
    constructor
    · intro harrived
      rw [hstill.1] at harrived
      cases harrived
    · exact hsettled.kind
    · rintro - - _ ⟨⟩
      exact .inl ⟨⟨_, rfl⟩, hstill.2⟩
    · exact nofun
  · exact hsettled

theorem Settled.execute {call : HostCall} {result : HostResult} (hsettled : call.Settled)
    (hnone : call.result = none) (hkind : call.kind = result.kind) :
    { call with result := some result : HostCall }.Settled := by
  constructor
  · intro harrived
    obtain ⟨other, hsome, -⟩ := hsettled.arrived harrived
    rw [hnone] at hsome
    cases hsome
  · rintro _ ⟨⟩
    exact hkind.symm
  · exact hsettled.lost
  · exact hsettled.pending

/-- The reply that arrived says too little: it flattens an uncertain outcome, and
no cancellation of the Hub marks the effect; or the caller has given up a tool or a
hook that was sent. -/
def Misreported (call : HostCall) : Prop :=
  call.arrived = true ∧ (∃ result, call.result = some result ∧ result.unsettled) ∧
      ¬(call.kind = .acp ∧ call.cancelled = true) ∨
    call.arrived = false ∧ call.kind ≠ .acp ∧ call.cancelled = true

theorem marked_msg {call : HostCall} {text : String} :
    call.Marked (.msg text) ↔ call.kind = .acp ∧ call.cancelled = true := by
  cases hcancelled : call.cancelled <;> simp [Marked, acpEffectOutcome, hcancelled]

theorem Settled.honest_iff {call : HostCall} {failure : Failure} (hsettled : call.Settled)
    (hsent : call.sent = true) (hfails : call.outcome = some (.error failure)) :
    call.Honest failure ↔ ¬call.Misreported := by
  cases harrived : call.arrived with
  | true =>
      obtain ⟨result, hresult, houtcome⟩ := hsettled.arrived harrived
      have hreply := accept_reply (hsettled.kind result hresult)
      rw [hfails, Option.some.injEq] at houtcome
      cases hfailure : result.failure with
      | none =>
          obtain ⟨reply, hok⟩ := hreply.2 hfailure
          rw [hok] at houtcome
          cases houtcome
      | some hosted =>
          rw [hreply.1 hosted hfailure] at houtcome
          cases houtcome
          constructor
          · rintro hhonest (⟨-, hunsettled, hunmarked⟩ | ⟨hlost, -⟩)
            · exact hunmarked (marked_msg.mp (hhonest.uncertain (.inr hunsettled)))
            · rw [harrived] at hlost
              cases hlost
          · intro hreported
            refine ⟨?_, fun _ _ => rfl⟩
            rintro (hlost | hunsettled)
            · rw [harrived] at hlost
              cases hlost
            · by_contra hunmarked
              rw [marked_msg] at hunmarked
              exact hreported (.inl ⟨harrived, hunsettled, hunmarked⟩)
  | false =>
      have hlate : ∀ {P : Prop}, call.arrived = true → P := by
        intro P h
        rw [harrived] at h
        cases h
      rcases hsettled.lost hsent harrived _ hfails with
        ⟨⟨reason, hreason⟩, hgiven⟩ | ⟨hcancelled, hkind, hgiven⟩
      · cases hreason
        apply iff_of_true
        · exact ⟨fun _ => .inl (by simp), fun h => hlate h⟩
        · rintro (⟨h, -⟩ | ⟨-, hkind, hcancelled⟩)
          · exact hlate h
          · rcases hgiven with h | h
            · exact hkind h
            · rw [hcancelled] at h
              cases h
      · cases hcancelled
        apply iff_of_false
        · intro hhonest
          rcases hhonest.uncertain (.inl harrived) with h | ⟨h, -⟩
          · exact h rfl
          · exact hkind h
        · exact not_not.mpr (.inr ⟨harrived, hkind, hgiven⟩)

end HostCall

namespace HostLink

open HostCall

variable {link : HostLink}

def Settled (link : HostLink) : Prop := ∀ call ∈ link.calls, call.Settled

theorem Settled.update {id : RequestId} {change : HostCall → HostCall} (hsettled : link.Settled)
    (hchange : ∀ call, call.Settled → (change call).Settled) : (link.update id change).Settled := by
  intro call hcall
  obtain ⟨old, hold, rfl⟩ := List.mem_map.mp hcall
  split
  · exact hchange old (hsettled old hold)
  · exact hsettled old hold

theorem Settled.add {call : HostCall} (hsettled : link.Settled) (hcall : call.Settled) :
    (link.add call).Settled := by
  rw [HostLink.add]
  split
  · exact hsettled
  · intro other hother
    rcases List.mem_append.mp hother with hother | hother
    · exact hsettled other hother
    · rw [List.mem_singleton.mp hother]
      exact hcall

theorem Settled.step (hsettled : link.Settled) (event : LinkEvent) :
    (link.step event).Settled := by
  cases event with
  | refuse id kind failure => exact hsettled.add ⟨nofun, nofun, nofun, nofun⟩
  | send id kind =>
      refine hsettled.add ⟨nofun, nofun, ?_, fun _ => ⟨rfl, .inr rfl⟩⟩
      exact fun _ _ _ h => by cases h
  | execute id result =>
      apply hsettled.update
      intro call hcall
      split
      · rename_i hguard
        exact hcall.execute hguard.2.1 hguard.2.2
      · exact hcall
  | deliver id =>
      rw [HostLink.step]
      split
      · exact hsettled.update fun _ hcall => hcall.deliver
      · exact hsettled
  | disconnect =>
      intro call hcall
      obtain ⟨old, hold, rfl⟩ := List.mem_map.mp hcall
      exact (hsettled old hold).respond rfl
  | elapse id => exact hsettled.update fun _ hcall => hcall.respond rfl
  | cancel id told => exact hsettled.update fun _ hcall => hcall.cancel told
  | giveUp id => exact hsettled.update fun _ hcall => hcall.giveUp

theorem Settled.foldl (hsettled : link.Settled) (events : List LinkEvent) :
    (events.foldl HostLink.step link).Settled := by
  induction events generalizing link with
  | nil => exact hsettled
  | cons event rest ih =>
      rw [List.foldl_cons]
      apply ih
      exact hsettled.step event

theorem settled_initial : initial.Settled := fun _ hcall => (List.not_mem_nil hcall).elim

theorem run_settled (events : List LinkEvent) : (run events).Settled := by
  rw [run]
  exact settled_initial.foldl events

/-- In every run over a link, a call that was sent and failed tells its caller
exactly what is known, unless the reply that arrived flattens an uncertain outcome
or a cancellation of the Host and no cancellation of the Hub marks it, or the
caller has given up a tool or a hook. -/
theorem host_failures (events : List LinkEvent) (call : HostCall)
    (hcall : call ∈ (run events).calls) (hsent : call.sent = true) (failure : Failure)
    (hfails : call.outcome = some (.error failure)) :
    call.Honest failure ↔ ¬call.Misreported :=
  (run_settled events call hcall).honest_iff hsent hfails

/-- The Host disconnects while it runs a tool. -/
theorem host_failures_disconnected :
    let call : HostCall :=
      { id := ⟨"1"⟩, kind := .tool, sent := true, cancelled := false
        outcome := some (.error
          (.uncertain "Host disconnected before replying to the dispatched effect"))
        result := none, arrived := false }
    call.Honest (.uncertain "Host disconnected before replying to the dispatched effect") ↔
      ¬call.Misreported :=
  host_failures [.send ⟨"1"⟩ .tool, .disconnect] _ List.mem_cons_self rfl _ rfl

/-- The Host loses the Harness after it has sent the prompt, and says so; the Hub
records the prompt as failed. -/
theorem flattened_uncertainty :
    let hosted : Failure := .uncertain "reply lost"
    let link := run [.send ⟨"1"⟩ .acp, .execute ⟨"1"⟩ (.acp (.error hosted)), .deliver ⟨"1"⟩]
    ∃ call ∈ link.calls, ∃ failure, call.sent = true ∧ call.arrived = true ∧
      call.result = some (.acp (.error hosted)) ∧ call.outcome = some (.error failure) ∧
      acpEffectOutcome (.error failure) call.cancelled true =
        .failed "effect outcome is uncertain: reply lost" ∧
      ¬call.Honest failure := by
  intro hosted link
  refine ⟨_, List.mem_cons_self, .msg "effect outcome is uncertain: reply lost", rfl, rfl, rfl,
    by decide, by decide, ?_⟩
  intro hhonest
  have hunsettled : (HostResult.acp (.error hosted)).unsettled := ⟨hosted, rfl, .inl (by simp [hosted])⟩
  have hmarked := hhonest.uncertain (.inr ⟨_, rfl, hunsettled⟩)
  rw [marked_msg] at hmarked
  cases hmarked.2

end HostLink

end Mews
