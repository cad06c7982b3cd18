import Mews.Acp.Bridge

/-!
# Requests to a Harness

While a request is pending, one loop waits for the cancellation of the Turn, the
deadline, a connection to the MCP bridge and the next line of the Harness.  Which
of them is ready first is decided outside; a request is run on the list of what
came first each time, and the futures that lost are dropped.
-/

namespace Mews

open Protocol

structure RpcError where
  code : Int
  message : String
  deriving DecidableEq

/-- A message of the Harness. -/
structure RpcMessage where
  method : Option Value
  id : Option Value
  /-- `params.sessionId`. -/
  sessionId : Option String
  /-- `params.update`. -/
  update : Option Value
  error : Option RpcError
  result : Option Value
  deriving DecidableEq

inductive AcpPermissionDecision where
  | selected (optionId : String)
  | cancelled
  deriving DecidableEq

/-- What the parties answer while a message is handled. -/
structure Answers where
  /-- The event sink of the Turn. -/
  sink : Except String Unit
  /-- The option ids of a permission request, or why it is invalid. -/
  options : Except String (List String)
  decision : Except String AcpPermissionDecision
  write : Except String Unit
  deriving DecidableEq

/-- What reading a line of the Harness brings. -/
inductive Line where
  | broken (text : String)
  | closed
  /-- The line is not JSON. -/
  | invalid (line : String)
  | message (message : RpcMessage) (answers : Answers)
  deriving DecidableEq

/-- What is ready first. -/
inductive RpcWake where
  | cancelled
  | elapsed
  | http (step : HttpStep)
  | line (line : Line)

/-- Errors of the event sink and of the pipes reach a request as text. -/
def texted (result : Except String Unit) : Except Failure Unit := result.mapError .msg

/-- The definitive replies of a Harness. -/
inductive Reply where
  | error (error : RpcError)
  | result (value : Value)
  deriving DecidableEq

structure Request where
  id : Nat
  method : String
  sessionId : Option String
  /-- Updates are passed on to the event sink. -/
  reported : Bool
  /-- The MCP endpoint of the Turn is served meanwhile. -/
  http : Bool
  deriving DecidableEq

namespace Request

def onUpdate (request : Request) (answers : Answers) : Except Failure Unit :=
  if request.reported then texted answers.sink else .ok ()

/-- `validate_inbound_session`. -/
def validate (request : Request) (message : RpcMessage) : Except Failure Unit :=
  if message.sessionId ≠ request.sessionId ∨ request.sessionId = none then
    .error (.msg (s!"ACP message belongs to unexpected Session {repr message.sessionId}; " ++
      s!"expected {repr request.sessionId}"))
  else .ok ()

def handleClientRequest (request : Request) (message : RpcMessage) (answers : Answers) :
    Except Failure Unit := do
  if message.method = some (.string "session/request_permission") then
    request.validate message
    request.onUpdate answers
    let options ← answers.options.mapError fun error =>
      (Failure.msg error).context "invalid ACP session/request_permission parameters"
    match ← answers.decision.mapError Failure.msg with
    | .selected optionId =>
        if optionId ∉ options then
          throw (.msg ("ACP permission handler selected an option that was not offered: " ++
            s!"{repr optionId}"))
    | .cancelled => pure ()
  texted answers.write

/-- What the loop makes of a line: a reply, or nothing. -/
def receive (request : Request) : Line → Except Failure (Option RpcMessage)
  | .broken text => .error (.msg text)
  | .closed => .error (.msg "ACP Harness closed stdout before replying")
  | .invalid line =>
      .error ((Failure.msg "expected value").context s!"invalid ACP JSON-RPC message: {line}")
  | .message message answers =>
      if message.method = some (.string "session/update") then do
        request.validate message
        if message.update.isSome then
          request.onUpdate answers
        return none
      else if message.method.isSome ∧ message.id.isSome then do
        request.handleClientRequest message answers
        return none
      else if message.id ≠ some (.number (toString request.id)) then .ok none
      else .ok (some message)

/-- The definitive answer that a reply carries. -/
def reply (message : RpcMessage) : Option Reply :=
  match message.error with
  | some error => some (.error error)
  | none => message.result.map .result

def conclude (request : Request) (message : RpcMessage) : Except Failure Value :=
  match message.error with
  | some error => .error (.of (.acpRpc request.method error.code error.message))
  | none =>
      match message.result with
      | some value => .ok value
      | none => .error (.msg "ACP response did not include result")

end Request

/-- How a request ends. -/
structure RequestEnd where
  result : Except Failure Value
  /-- The definitive answer of the Harness, if it came. -/
  reply : Option Reply
  bridge : Bridge
  deriving DecidableEq

namespace Request

def fails (failure : Failure) (bridge : Bridge) : RequestEnd :=
  { result := .error failure, reply := none, bridge }

/-- The loop of `request_with_dispatch`. -/
def await (request : Request) (tools : BridgeTools) :
    List RpcWake → Serving → Bridge → RequestEnd
  | [], serving, bridge =>
      fails (.msg "ACP request timed out") (bridge.drop tools request.method serving .elapsed)
  | .cancelled :: _, serving, bridge =>
      fails (.of .acpCancelled) (bridge.drop tools request.method serving .cancelled)
  | .elapsed :: _, serving, bridge =>
      fails (.msg "ACP request timed out") (bridge.drop tools request.method serving .elapsed)
  | .http step :: wakes, serving, bridge =>
      if request.http then
        match bridge.serve tools serving step with
        | (.pending serving, bridge) => await request tools wakes serving bridge
        | (.finished, bridge) => await request tools wakes .reading bridge
        | (.failed text, bridge) =>
            fails (.msg text) (bridge.drop tools request.method serving .broken)
      else await request tools wakes serving bridge
  | .line line :: wakes, serving, bridge =>
      -- The connection that was being served is dropped.
      let bridge := bridge.drop tools request.method serving .line
      match request.receive line with
      | .error failure => fails failure bridge
      | .ok none => await request tools wakes .reading bridge
      | .ok (some message) =>
          { result := request.conclude message, reply := reply message, bridge }

end Request

/-- What happens to a request outside the loop and in it. -/
structure Exchange where
  /-- Writing and flushing the request. -/
  sent : Except String Unit
  /-- The event sink takes the report of the dispatch. -/
  dispatched : Except String Unit
  wakes : List RpcWake

/-- `request_with_dispatch`. -/
def Request.perform (request : Request) (tools : BridgeTools) (exchange : Exchange)
    (bridge : Bridge) : RequestEnd :=
  match texted exchange.sent with
  | .error failure => fails failure bridge
  | .ok () =>
      match (if request.reported then texted exchange.dispatched else .ok ()) with
      | .error failure => fails failure bridge
      | .ok () => request.await tools exchange.wakes .reading bridge

/-! ## What a request returns -/

/-- A failure that no type tells apart from others. -/
def Failure.Plain (failure : Failure) : Prop :=
  failure.classified = false ∧ failure.isCancelled = false ∧ failure.isTurnCancelled = false ∧
    failure.effectUncertainty = none

theorem Failure.plain_msg (text : String) : (Failure.msg text).Plain := ⟨rfl, rfl, rfl, rfl⟩

theorem Failure.Plain.context {failure : Failure} (h : failure.Plain) (text : String) :
    (failure.context text).Plain := h

/-- A computation whose failures are plain. -/
def FailsPlainly {A : Type} (outcome : Except Failure A) : Prop :=
  ∀ failure, outcome = .error failure → failure.Plain

section FailsPlainly

variable {A B : Type}

theorem failsPlainly_ok (value : A) : FailsPlainly (.ok value) := nofun

theorem failsPlainly_error {failure : Failure} (h : failure.Plain) :
    FailsPlainly (.error failure : Except Failure A) := by
  intro failure' hfailure
  rwa [← Except.error.inj hfailure]

theorem failsPlainly_mapError {outcome : Except String A} {wrap : String → Failure}
    (h : ∀ text, (wrap text).Plain) : FailsPlainly (outcome.mapError wrap) := by
  cases outcome with
  | ok value => exact failsPlainly_ok value
  | error text => exact failsPlainly_error (h text)

theorem FailsPlainly.bind {first : Except Failure A} {next : A → Except Failure B}
    (hfirst : FailsPlainly first) (hnext : ∀ value, FailsPlainly (next value)) :
    FailsPlainly (first >>= next) := by
  cases first with
  | ok value => exact hnext value
  | error failure => exact failsPlainly_error (hfirst failure rfl)

theorem failsPlainly_texted (result : Except String Unit) : FailsPlainly (texted result) :=
  failsPlainly_mapError Failure.plain_msg

end FailsPlainly

namespace Request

variable {request : Request} {tools : BridgeTools} {message : RpcMessage} {answers : Answers}

theorem failsPlainly_onUpdate : FailsPlainly (request.onUpdate answers) := by
  rw [onUpdate]
  split_ifs
  · exact failsPlainly_texted answers.sink
  · exact failsPlainly_ok ()

theorem failsPlainly_validate : FailsPlainly (request.validate message) := by
  rw [validate]
  split_ifs
  · exact failsPlainly_error (Failure.plain_msg _)
  · exact failsPlainly_ok ()

theorem failsPlainly_handleClientRequest :
    FailsPlainly (request.handleClientRequest message answers) := by
  rw [handleClientRequest]
  split_ifs
  · apply failsPlainly_validate.bind
    intro _
    apply failsPlainly_onUpdate.bind
    intro _
    apply (failsPlainly_mapError fun text => (Failure.plain_msg text).context _).bind
    intro options
    apply (failsPlainly_mapError Failure.plain_msg).bind
    intro decision
    cases decision with
    | selected optionId =>
        dsimp only
        split_ifs
        · exact failsPlainly_texted answers.write
        · exact failsPlainly_error (Failure.plain_msg _)
    | cancelled => exact failsPlainly_texted answers.write
  · exact failsPlainly_texted answers.write

theorem failsPlainly_receive (line : Line) : FailsPlainly (request.receive line) := by
  cases line with
  | broken text => exact failsPlainly_error (Failure.plain_msg text)
  | closed => exact failsPlainly_error (Failure.plain_msg _)
  | invalid line => exact failsPlainly_error ((Failure.plain_msg _).context _)
  | message message answers =>
      rw [receive]
      split_ifs
      · exact failsPlainly_validate.bind fun _ =>
          failsPlainly_onUpdate.bind fun _ => failsPlainly_ok none
      · exact failsPlainly_validate.bind fun _ => failsPlainly_ok none
      · exact failsPlainly_handleClientRequest.bind fun _ => failsPlainly_ok none
      · exact failsPlainly_ok none
      · exact failsPlainly_ok (some message)

end Request

/-- The result of a request is the definitive answer, where there is one; else it
is a failure that is plain or the cancellation. -/
def RequestEnd.Answered (method : String) (ended : RequestEnd) : Prop :=
  match ended.reply with
  | some (.result value) => ended.result = .ok value
  | some (.error error) => ended.result = .error (.of (.acpRpc method error.code error.message))
  | none => ∃ failure, ended.result = .error failure ∧
      (failure.Plain ∨ failure = .of .acpCancelled)

theorem RequestEnd.Answered.of_result {method : String} {ended : RequestEnd}
    {value : Value} (h : ended.Answered method) (hreply : ended.reply = some (.result value)) :
    ended.result = .ok value := by
  rwa [RequestEnd.Answered, hreply] at h

namespace Request

variable {request : Request} {tools : BridgeTools}

theorem answered_fails {failure : Failure} (bridge : Bridge)
    (h : failure.Plain ∨ failure = .of .acpCancelled) (method : String) :
    (fails failure bridge).Answered method := ⟨failure, rfl, h⟩

theorem answered_conclude (message : RpcMessage) (bridge : Bridge) :
    RequestEnd.Answered request.method
      { result := request.conclude message, reply := reply message, bridge } := by
  rw [RequestEnd.Answered, conclude, reply]
  cases message.error with
  | some error => rfl
  | none =>
      cases message.result with
      | some value => rfl
      | none => exact ⟨_, rfl, Or.inl (Failure.plain_msg _)⟩

theorem answered_await (wakes : List RpcWake) (serving : Serving) (bridge : Bridge) :
    (request.await tools wakes serving bridge).Answered request.method := by
  induction wakes generalizing serving bridge with
  | nil => exact answered_fails _ (Or.inl (Failure.plain_msg _)) _
  | cons wake wakes ih =>
      cases wake with
      | cancelled => exact answered_fails _ (Or.inr rfl) _
      | elapsed => exact answered_fails _ (Or.inl (Failure.plain_msg _)) _
      | http step =>
          rw [await]
          split_ifs
          · rcases hserved : bridge.serve tools serving step with ⟨served, bridge'⟩
            cases served with
            | pending serving => exact ih serving bridge'
            | finished => exact ih .reading bridge'
            | failed text => exact answered_fails _ (Or.inl (Failure.plain_msg text)) _
          · exact ih serving bridge
      | line line =>
          rw [await]
          cases hline : request.receive line with
          | error failure =>
              exact answered_fails _ (Or.inl (failsPlainly_receive line failure hline)) _
          | ok received =>
              cases received with
              | none => exact ih .reading _
              | some message => exact answered_conclude message _

theorem answered_perform (exchange : Exchange) (bridge : Bridge) :
    (request.perform tools exchange bridge).Answered request.method := by
  rw [perform]
  cases hsent : texted exchange.sent with
  | error failure =>
      exact answered_fails bridge (Or.inl (failsPlainly_texted _ failure hsent)) _
  | ok sent =>
      dsimp only
      have hreport : FailsPlainly
          (if request.reported then texted exchange.dispatched else .ok ()) := by
        split_ifs
        · exact failsPlainly_texted exchange.dispatched
        · exact failsPlainly_ok ()
      cases hdispatched : (if request.reported then texted exchange.dispatched else .ok ()) with
      | error failure => exact answered_fails bridge (Or.inl (hreport failure hdispatched)) _
      | ok dispatched => exact answered_await exchange.wakes .reading bridge

/-- What holds of the bridge wherever the serving future stands, and survives that
it is dropped, holds after a request. -/
theorem await_keeps {kept : Bridge → Serving → Prop}
    (hdropped : ∀ {bridge serving} cause, kept bridge serving →
      kept (bridge.drop tools request.method serving cause) .reading)
    (hserve : ∀ {bridge serving} step, kept bridge serving →
      kept (bridge.serve tools serving step).2 ((bridge.serve tools serving step).1.next serving))
    (wakes : List RpcWake) {serving : Serving} {bridge : Bridge} (h : kept bridge serving) :
    kept (request.await tools wakes serving bridge).bridge .reading := by
  induction wakes generalizing serving bridge with
  | nil => exact hdropped .elapsed h
  | cons wake wakes ih =>
      cases wake with
      | cancelled => exact hdropped .cancelled h
      | elapsed => exact hdropped .elapsed h
      | http step =>
          rw [await]
          split_ifs
          · have hstep := hserve step h
            rcases hserved : bridge.serve tools serving step with ⟨served, bridge'⟩
            rw [hserved] at hstep
            cases served with
            | pending serving => exact ih hstep
            | finished => exact ih hstep
            | failed text => exact hdropped .broken hstep
          · exact ih h
      | line line =>
          rw [await]
          have hline := hdropped .line h
          cases request.receive line with
          | error failure => exact hline
          | ok received =>
              cases received with
              | none => exact ih hline
              | some message => exact hline

theorem perform_keeps {kept : Bridge → Serving → Prop}
    (hdropped : ∀ {bridge serving} cause, kept bridge serving →
      kept (bridge.drop tools request.method serving cause) .reading)
    (hserve : ∀ {bridge serving} step, kept bridge serving →
      kept (bridge.serve tools serving step).2 ((bridge.serve tools serving step).1.next serving))
    (exchange : Exchange) {bridge : Bridge} (h : kept bridge .reading) :
    kept (request.perform tools exchange bridge).bridge .reading := by
  rw [perform]
  cases texted exchange.sent with
  | error failure => exact h
  | ok sent =>
      dsimp only
      cases (if request.reported then texted exchange.dispatched else .ok ()) with
      | error failure => exact h
      | ok dispatched => exact await_keeps hdropped hserve exchange.wakes h

theorem accounted_perform (exchange : Exchange) {bridge : Bridge}
    (h : bridge.Accounted .reading) :
    (request.perform tools exchange bridge).bridge.Accounted .reading :=
  perform_keeps (fun cause hkept => hkept.dropped tools request.method cause)
    (fun step hkept => hkept.serve tools step) exchange h

end Request

end Mews
