import Mews.Core.JsonScan
import Mews.Core.Lines
import Mews.Hub.JournalPages

/-!
# The connection of a local client

A client has one connection to the daemon and writes a request to it only when the one
before has ended, be it with a reply, with an error or because its future was dropped.
A dropped request may leave a part of its frame in the socket, or its reply, or a part of
that.  Each direction of the socket, with the buffer of its reader, holds a bounded number
of bytes; what is written is read by the other side when it comes to read.
-/

namespace Mews.Client

open Protocol Lines

/-- What a request asks of the Hub. -/
inductive HubRequestKind where
  | status | listAgents | inspectAgent | createAgent | renameAgent | archiveAgent | setAuth
  | removeAuth | listAuth | listModels | refreshModels | getProviderDefaults
  | setDefaultModel | setDefaultReasoning | listSessions | getSession | getSessionHistory
  | getSessionEntries | getSessionModelConfig | setSessionModel | startSession
  | startSessionOn | startTurn | getTurn | cancelTurn | subscribeSession
  | unsubscribeSession | deleteConsumer | pollEvents | acknowledgeEvents
  | queryJournalEntries | pollJournalEntries | listHosts | listHarnesses
  | refreshHarnesses | removeHost | createHostInvitation | moveHub | shutdown
  deriving DecidableEq

def retrySafe : HubRequestKind → Bool
  | .status | .listAgents | .inspectAgent | .listSessions | .getSession | .getSessionHistory
  | .getSessionEntries | .getSessionModelConfig | .listHosts | .listAuth | .listModels
  | .getProviderDefaults | .getTurn | .pollEvents | .queryJournalEntries
  | .pollJournalEntries | .subscribeSession | .unsubscribeSession | .deleteConsumer
  | .acknowledgeEvents | .startTurn | .createAgent | .renameAgent | .archiveAgent
  | .removeHost => true
  | _ => false

def protocolVersion : ℕ := 5

/-- A frame of which the body is not read yet. -/
structure Frame (Id : Type) where
  protocol : ℕ
  requestId : Id
  body : Value

/-- The serialization of frames. -/
structure HubCodec (Id Request Response : Type) where
  kind : Request → HubRequestKind
  isError : Response → Bool
  /-- `ProtocolError::unsupported_version`. -/
  unsupportedVersion : ℕ → Response
  /-- `serde_json::to_vec` of `Frame::with_request_id`. -/
  requestBytes : Id → Request → List UInt8
  responseBytes : Id → Response → List UInt8
  /-- `serde_json::from_slice`. -/
  fromSlice : List UInt8 → Option (Frame Id)
  requestOf : Value → Option Request
  responseOf : Value → Option Response

/-- The other end of the connection: the socket and the daemon, which answers a request
by what it was asked before. -/
structure LocalHub (Id Request Response : Type) extends HubCodec Id Request Response where
  outboundRoom : ℕ
  inboundRoom : ℕ
  dispatch : List (Id × Request × Response) → Id → Request → Response

/-- The task of the daemon that serves a connection. -/
inductive Daemon where
  | reading (encoded : List UInt8)
  | handling (line : List UInt8)
  | replying (rest : List UInt8)
  | ended
  deriving DecidableEq

/-- What the daemon has still to write of a reply. -/
def Daemon.left : Daemon → List UInt8
  | replying rest => rest
  | _ => []

structure Transport where
  outbound : List UInt8
  daemon : Daemon
  inbound : List UInt8
  deriving DecidableEq

def Transport.new : Transport := { outbound := [], daemon := .reading [], inbound := [] }

inductive Phase where
  | writing (rest : List UInt8)
  | reading (encoded : List UInt8)
  | connecting
  deriving DecidableEq

/-- A request that a caller waits for. -/
structure Call (Id Request : Type) where
  id : Id
  request : Request
  /-- The reconnects so far. -/
  attempt : ℕ
  phase : Phase
  deriving DecidableEq

structure LocalConnection (Id Request Response : Type) where
  transport : Transport
  call : Option (Call Id Request)
  /-- The requests made. -/
  called : List (Id × Request)
  /-- What the daemon has answered. -/
  answered : List (Id × Request × Response)
  /-- What callers were told. -/
  returned : List (Id × Request × Response)

/-- What happens on a connection. -/
inductive Action (Id Request : Type) where
  | call (id : Id) (request : Request)
  | write (count : ℕ)
  | read (count : ℕ)
  /-- The caller finds the other end closed. -/
  | broken
  | connect (accepted : Bool)
  /-- The future of the request is dropped. -/
  | drop
  /-- The daemon reads. -/
  | take (count : ℕ)
  | answer
  /-- The daemon writes. -/
  | reply (count : ℕ)

variable {Id Request Response : Type}

namespace LocalHub

variable (hub : LocalHub Id Request Response) (connection : LocalConnection Id Request Response)

/-- `request_once` fails: a request that is safe to retry is, five times. -/
def fail (call : Call Id Request) : LocalConnection Id Request Response :=
  if retrySafe (hub.kind call.request) ∧ call.attempt < 5 then
    { connection with call := some { call with attempt := call.attempt + 1, phase := .connecting } }
  else { connection with call := none }

/-- The beginning of `request_once`. -/
def once (call : Call Id Request) : LocalConnection Id Request Response :=
  let encoded := hub.requestBytes call.id call.request
  if maxHubFrameBytes < encoded.length then hub.fail connection call
  else { connection with call := some { call with phase := .writing (encoded ++ [newline]) } }

def write (call : Call Id Request) (rest : List UInt8) (count : ℕ) :
    LocalConnection Id Request Response :=
  let transport := connection.transport
  let phase := if rest.drop count = [] then .reading [] else .writing (rest.drop count)
  { connection with
    transport := { transport with outbound := transport.outbound ++ rest.take count }
    call := some { call with phase } }

/-- The daemon reads a part of a frame; one that is too long ends the connection. -/
def take (transport : Transport) (encoded : List UInt8) (count : ℕ) : Transport :=
  let used := takeUntil newline (maxHubFrameBytes + 1) encoded (transport.outbound.take count)
  if GoesOn newline (maxHubFrameBytes + 1) encoded used then
    { transport with
      outbound := transport.outbound.drop used.length, daemon := .reading (encoded ++ used) }
  else if maxHubFrameBytes < (encoded ++ used).length then
    { transport with outbound := [], daemon := .ended }
  else
    { transport with
      outbound := transport.outbound.drop used.length, daemon := .handling (encoded ++ used) }

/-- The daemon ends the connection. -/
def hangUp : LocalConnection Id Request Response :=
  { connection with transport := { connection.transport with outbound := [], daemon := .ended } }

/-- The daemon begins to write a response. -/
def respond (id : Id) (response : Response) : LocalConnection Id Request Response :=
  let encoded := hub.responseBytes id response
  if maxHubFrameBytes < encoded.length then hangUp connection
  else
    { connection with
      transport := { connection.transport with daemon := .replying (encoded ++ [newline]) } }

/-- The daemon answers a frame. -/
def answer (line : List UInt8) : LocalConnection Id Request Response :=
  match hub.fromSlice line with
  | none => hangUp connection
  | some frame =>
      if frame.protocol ≠ protocolVersion then
        hub.respond connection frame.requestId (hub.unsupportedVersion frame.protocol)
      else
        match hub.requestOf frame.body with
        | none => hangUp connection
        | some request =>
            let response := hub.dispatch connection.answered frame.requestId request
            hub.respond
              { connection with
                answered := (frame.requestId, request, response) :: connection.answered }
              frame.requestId response

/-- The daemon writes a part of a reply. -/
def reply (transport : Transport) (rest : List UInt8) (count : ℕ) : Transport :=
  let daemon := if rest.drop count = [] then .reading [] else .replying (rest.drop count)
  { transport with inbound := transport.inbound ++ rest.take count, daemon }

variable [DecidableEq Id]

/-- The end of `request_once`, when the reply is read. -/
def conclude (call : Call Id Request) (encoded : List UInt8) :
    LocalConnection Id Request Response :=
  if encoded = [] ∨ maxHubFrameBytes < encoded.length ∨ encoded.getLast? ≠ some newline then
    hub.fail connection call
  else
    match hub.fromSlice encoded with
    | none => hub.fail connection call
    | some frame =>
        if frame.protocol ≠ protocolVersion then hub.fail connection call
        else
          match hub.responseOf frame.body with
          | none => hub.fail connection call
          | some response =>
              if frame.requestId ≠ call.id ∨ hub.isError response then hub.fail connection call
              else
                { connection with
                  call := none
                  returned := (call.id, call.request, response) :: connection.returned }

def read (call : Call Id Request) (encoded : List UInt8) (count : ℕ) :
    LocalConnection Id Request Response :=
  let transport := connection.transport
  let used := takeUntil newline (maxHubFrameBytes + 1) encoded (transport.inbound.take count)
  let connection :=
    { connection with
      transport := { transport with inbound := transport.inbound.drop used.length } }
  if GoesOn newline (maxHubFrameBytes + 1) encoded used then
    { connection with call := some { call with phase := .reading (encoded ++ used) } }
  else hub.conclude connection call (encoded ++ used)

/-- `RequestId::new` gives an id that no request before had, and that no text written
before contains. -/
def Fresh (id : Id) : Prop :=
  id ∉ connection.called.map Prod.fst ∧
    ∀ tail ∈ (connection.transport.inbound ++ connection.transport.daemon.left).tails,
      ∀ line ∈ complete newline tail, ∀ frame ∈ hub.fromSlice line, frame.requestId ≠ id

instance (id : Id) : Decidable (hub.Fresh connection id) := inferInstanceAs (Decidable (_ ∧ _))

/-- A direction of the socket takes this many bytes of a writer. -/
def Passes (room : ℕ) (held rest : List UInt8) (count : ℕ) : Prop :=
  0 < count ∧ count ≤ rest.length ∧ held.length + count ≤ room

instance (room : ℕ) (held rest : List UInt8) (count : ℕ) :
    Decidable (Passes room held rest count) :=
  inferInstanceAs (Decidable (_ ∧ _ ∧ _))

def step : Action Id Request → Option (LocalConnection Id Request Response)
  | .call id request =>
      if connection.call.isNone ∧ hub.Fresh connection id then
        some (hub.once { connection with called := (id, request) :: connection.called }
          { id, request, attempt := 0, phase := .connecting })
      else none
  | .write count =>
      match connection.call with
      | some call =>
          match call.phase with
          | .writing rest =>
              if connection.transport.daemon ≠ .ended ∧
                  Passes hub.outboundRoom connection.transport.outbound rest count then
                some (write connection call rest count)
              else none
          | _ => none
      | none => none
  | .read count =>
      match connection.call with
      | some call =>
          match call.phase with
          | .reading encoded =>
              if connection.transport.inbound.take count ≠ [] then
                some (hub.read connection call encoded count)
              else none
          | _ => none
      | none => none
  | .broken =>
      match connection.call with
      | some call =>
          if connection.transport.daemon = .ended then
            match call.phase with
            | .writing _ => some (hub.fail connection call)
            | .reading encoded =>
                if connection.transport.inbound = [] then
                  some (hub.conclude connection call encoded)
                else none
            | .connecting => none
          else none
      | none => none
  | .connect accepted =>
      match connection.call with
      | some call =>
          if call.phase = .connecting then
            some (if accepted then hub.once { connection with transport := .new } call
              else hub.fail connection call)
          else none
      | none => none
  | .drop => if connection.call.isSome then some { connection with call := none } else none
  | .take count =>
      match connection.transport.daemon with
      | .reading encoded =>
          if connection.transport.outbound.take count ≠ [] then
            some { connection with transport := take connection.transport encoded count }
          else none
      | _ => none
  | .answer =>
      match connection.transport.daemon with
      | .handling line => some (hub.answer connection line)
      | _ => none
  | .reply count =>
      match connection.transport.daemon with
      | .replying rest =>
          if Passes hub.inboundRoom connection.transport.inbound rest count then
            some { connection with transport := reply connection.transport rest count }
          else none
      | _ => none

def run (connection : LocalConnection Id Request Response) :
    List (Action Id Request) → Option (LocalConnection Id Request Response)
  | [] => some connection
  | action :: actions =>
      match hub.step connection action with
      | some after => run after actions
      | none => none

end LocalHub

/-- `LocalConnection::connect`. -/
def LocalConnection.new : LocalConnection Id Request Response :=
  { transport := .new, call := none, called := [], answered := [], returned := [] }

/-! ## What a step does -/

namespace LocalHub

/-- A request that failed is over or is made again on another connection. -/
inductive Waits (call : Call Id Request) : Option (Call Id Request) → Prop where
  | ended : Waits call none
  | again : Waits call (some { call with attempt := call.attempt + 1, phase := .connecting })

theorem fail_cases (hub : LocalHub Id Request Response)
    (connection : LocalConnection Id Request Response) (call : Call Id Request) :
    ∃ waiting, Waits call waiting ∧ hub.fail connection call = { connection with call := waiting } := by
  rw [fail]
  split_ifs
  · exact ⟨_, .again, rfl⟩
  · exact ⟨_, .ended, rfl⟩

variable [DecidableEq Id] {hub : LocalHub Id Request Response}
  {connection after : LocalConnection Id Request Response} {call : Call Id Request}

/-- A step, by its action. -/
inductive Moves (hub : LocalHub Id Request Response)
    (connection : LocalConnection Id Request Response) :
    Action Id Request → LocalConnection Id Request Response → Prop where
  | calls {id : Id} {request : Request} (hcall : connection.call = none)
      (hfresh : hub.Fresh connection id) :
      Moves hub connection (.call id request)
        (hub.once { connection with called := (id, request) :: connection.called }
          { id, request, attempt := 0, phase := .connecting })
  | writes {call : Call Id Request} {rest : List UInt8} {count : ℕ}
      (hcall : connection.call = some call) (hphase : call.phase = .writing rest)
      (halive : connection.transport.daemon ≠ .ended)
      (hpasses : Passes hub.outboundRoom connection.transport.outbound rest count) :
      Moves hub connection (.write count) (write connection call rest count)
  | reads {call : Call Id Request} {encoded : List UInt8} {count : ℕ}
      (hcall : connection.call = some call) (hphase : call.phase = .reading encoded)
      (hinbound : connection.transport.inbound.take count ≠ []) :
      Moves hub connection (.read count) (hub.read connection call encoded count)
  | breaks {call : Call Id Request} {rest : List UInt8} (hcall : connection.call = some call)
      (hphase : call.phase = .writing rest) (hended : connection.transport.daemon = .ended) :
      Moves hub connection .broken (hub.fail connection call)
  | ends {call : Call Id Request} {encoded : List UInt8} (hcall : connection.call = some call)
      (hphase : call.phase = .reading encoded) (hended : connection.transport.daemon = .ended)
      (hinbound : connection.transport.inbound = []) :
      Moves hub connection .broken (hub.conclude connection call encoded)
  | connects {call : Call Id Request} (hcall : connection.call = some call)
      (hphase : call.phase = .connecting) :
      Moves hub connection (.connect true) (hub.once { connection with transport := .new } call)
  | refused {call : Call Id Request} (hcall : connection.call = some call)
      (hphase : call.phase = .connecting) :
      Moves hub connection (.connect false) (hub.fail connection call)
  | drops {call : Call Id Request} (hcall : connection.call = some call) :
      Moves hub connection .drop { connection with call := none }
  | takes {encoded : List UInt8} {count : ℕ}
      (hdaemon : connection.transport.daemon = .reading encoded)
      (houtbound : connection.transport.outbound.take count ≠ []) :
      Moves hub connection (.take count)
        { connection with transport := take connection.transport encoded count }
  | answers {line : List UInt8} (hdaemon : connection.transport.daemon = .handling line) :
      Moves hub connection .answer (hub.answer connection line)
  | replies {rest : List UInt8} {count : ℕ}
      (hdaemon : connection.transport.daemon = .replying rest)
      (hpasses : Passes hub.inboundRoom connection.transport.inbound rest count) :
      Moves hub connection (.reply count)
        { connection with transport := reply connection.transport rest count }

theorem moves_of_step {action : Action Id Request} (hstep : hub.step connection action = some after) :
    hub.Moves connection action after := by
  cases action with
  | call id request =>
      rw [step] at hstep
      split_ifs at hstep with hguard
      rw [← Option.some.inj hstep]
      exact .calls (Option.isNone_iff_eq_none.mp hguard.1) hguard.2
  | write count =>
      rw [step] at hstep
      split at hstep
      · rename_i call hcall
        split at hstep
        · rename_i rest hphase
          split_ifs at hstep with hguard
          rw [← Option.some.inj hstep]
          exact .writes hcall hphase hguard.1 hguard.2
        · cases hstep
      · cases hstep
  | read count =>
      rw [step] at hstep
      split at hstep
      · rename_i call hcall
        split at hstep
        · rename_i encoded hphase
          split_ifs at hstep with hguard
          rw [← Option.some.inj hstep]
          exact .reads hcall hphase hguard
        · cases hstep
      · cases hstep
  | broken =>
      rw [step] at hstep
      split at hstep
      · rename_i call hcall
        split at hstep
        · rename_i hended
          split at hstep
          · rename_i rest hphase
            rw [← Option.some.inj hstep]
            exact .breaks hcall hphase hended
          · rename_i encoded hphase
            split_ifs at hstep with hinbound
            rw [← Option.some.inj hstep]
            exact .ends hcall hphase hended hinbound
          · cases hstep
        · cases hstep
      · cases hstep
  | connect accepted =>
      rw [step] at hstep
      split at hstep
      · rename_i call hcall
        split_ifs at hstep with hphase haccepted
        · rw [← Option.some.inj hstep, haccepted]
          exact .connects hcall hphase
        · rw [← Option.some.inj hstep, Bool.eq_false_iff.mpr haccepted]
          exact .refused hcall hphase
      · cases hstep
  | drop =>
      rw [step] at hstep
      split_ifs at hstep with hguard
      rw [← Option.some.inj hstep]
      obtain ⟨call, hcall⟩ := Option.isSome_iff_exists.mp hguard
      exact .drops hcall
  | take count =>
      rw [step] at hstep
      split at hstep
      · rename_i encoded hdaemon
        split_ifs at hstep with hguard
        rw [← Option.some.inj hstep]
        exact .takes hdaemon hguard
      · cases hstep
  | answer =>
      rw [step] at hstep
      split at hstep
      · rename_i line hdaemon
        rw [← Option.some.inj hstep]
        exact .answers hdaemon
      · cases hstep
  | reply count =>
      rw [step] at hstep
      split at hstep
      · rename_i rest hdaemon
        split_ifs at hstep with hguard
        rw [← Option.some.inj hstep]
        exact .replies hdaemon hguard
      · cases hstep

/-- A read that ends returns the response of a frame with the id of the request, or fails. -/
theorem conclude_cases (hub : LocalHub Id Request Response)
    (connection : LocalConnection Id Request Response) (call : Call Id Request)
    (encoded : List UInt8) :
    hub.conclude connection call encoded = hub.fail connection call ∨
      ∃ frame response, hub.fromSlice encoded = some frame ∧
        hub.responseOf frame.body = some response ∧ frame.requestId = call.id ∧
        encoded.getLast? = some newline ∧
        hub.conclude connection call encoded =
          { connection with
            call := none
            returned := (call.id, call.request, response) :: connection.returned } := by
  rw [conclude]
  split_ifs with hline
  · exact Or.inl rfl
  · split
    · exact Or.inl rfl
    · rename_i frame hframe
      split_ifs with hversion
      · exact Or.inl rfl
      · split
        · exact Or.inl rfl
        · rename_i response hresponse
          split_ifs with hother
          · exact Or.inl rfl
          · rw [not_or, not_not] at hother
            rw [not_or, not_or, not_not] at hline
            exact Or.inr ⟨frame, response, hframe, hresponse, hother.1, hline.2.2, rfl⟩

end LocalHub

end Mews.Client
