import Mews.Protocol.HostFrame
import Mathlib.Data.List.Basic

/-!
# A linked Hub and Host

On each side of a link a bridge moves messages between the relay and two bounded queues:
`peer_out`, which the tasks of that side fill, and `peer_in`, which its dispatcher
empties.  While a bridge waits for room in `peer_in` it moves nothing else.
-/

namespace Mews.PeerLink

open Protocol

/-! ## Messages -/

/-- What a Hub asks of a Host, as far as the dispatcher of the Host tells it apart. -/
inductive HubToHost where
  | acknowledgeAcpSessionBinding (acknowledgementId : String)
  | cancelAcp (requestId : RequestId)
  | cancelTool (requestId : RequestId)
  | executeAcpTurn (requestId : RequestId)
  | executeTool (requestId : RequestId)
  | executeHook (requestId : RequestId)
  | activateHubTransfer (requestId : RequestId)
  /-- The requests that are left, such as `RefreshHarnessCatalog`. -/
  | request (requestId : RequestId)
  deriving DecidableEq, Repr

/-- The id of a request that is answered. -/
def HubToHost.requestId? : HubToHost → Option RequestId
  | .executeAcpTurn id | .executeTool id | .executeHook id => some id
  | .activateHubTransfer id | .request id => some id
  | _ => none

inductive AcpEvent where
  | sessionBound (acknowledgementId : String)
  | contextDispatched (acknowledgementId : String)
  /-- The events that the Hub does not acknowledge. -/
  | plain
  deriving DecidableEq, Repr

def AcpEvent.acknowledgementId? : AcpEvent → Option String
  | .sessionBound id | .contextDispatched id => some id
  | .plain => none

inductive HostToHub where
  | ready
  | toolCatalogChanged
  | acpEvent (requestId : RequestId) (event : AcpEvent)
  /-- The answer to a request. -/
  | result (requestId : RequestId)
  deriving DecidableEq, Repr

abbrev Envelope := PeerEnvelope HubToHost HostToHub Unit Unit

/-! ## The bridge -/

/-- Capacity of `peer_out` and of `peer_in`. -/
def peerCapacity : ℕ := 64

/-- How far `run_peer_bridge` has come. -/
inductive Bridge where
  | selecting
  /-- In `inbound.send`, with a message it has received. -/
  | passing (message : Envelope)
  | returned
  deriving DecidableEq, Repr

/-- A bridge with its queues. -/
structure Peer where
  bridge : Bridge
  outbound : List Envelope
  inbound : List Envelope
  deriving DecidableEq, Repr

inductive BridgeAction where
  | heartbeat
  | transmit
  | take
  | pass
  /-- The relay fails. -/
  | lose
  deriving DecidableEq, Repr

namespace Peer

/-- `peer_out.send`, once there is room; it fails at once when the bridge has gone. -/
def send (peer : Peer) (message : Envelope) : Option Peer :=
  if peer.bridge = .returned then some peer
  else if peer.outbound.length < peerCapacity then
    some { peer with outbound := peer.outbound ++ [message] }
  else none

/-- A step of the bridge: what it leaves of the messages that have arrived, and what it
sends.  `listening` says whether the dispatcher still holds the other end of `peer_in`. -/
def step (listening : Bool) (arrived : List Envelope) (peer : Peer) :
    BridgeAction → Option (Peer × List Envelope × List Envelope)
  | .heartbeat =>
      if peer.bridge = .selecting then some (peer, arrived, [.heartbeat 0]) else none
  | .transmit =>
      match peer.bridge, peer.outbound with
      | .selecting, message :: outbound => some ({ peer with outbound }, arrived, [message])
      | _, _ => none
  | .take =>
      match peer.bridge, arrived with
      | .selecting, message :: rest =>
          if message.isHeartbeat then some (peer, rest, [])
          else some ({ peer with bridge := .passing message }, rest, [])
      | _, _ => none
  | .pass =>
      match peer.bridge with
      | .passing message =>
          if listening = false then some ({ peer with bridge := .returned }, arrived, [])
          else if peer.inbound.length < peerCapacity then
            some ({ peer with bridge := .selecting, inbound := peer.inbound ++ [message] },
              arrived, [])
          else none
      | _ => none
  | .lose =>
      if peer.bridge = .selecting then some ({ peer with bridge := .returned }, arrived, [])
      else none

/-- The bridge waits for room in `peer_in`, and there is none. -/
def Blocked (peer : Peer) : Prop :=
  (∃ message, peer.bridge = .passing message) ∧ peerCapacity ≤ peer.inbound.length

/-- A task that sends to the peer has to wait. -/
def OutboundFull (peer : Peer) : Prop :=
  peer.bridge ≠ .returned ∧ peerCapacity ≤ peer.outbound.length

end Peer

/-! ## The Host -/

/-- Capacity of `serve_local_clients`. -/
def clientCapacity : ℕ := 128

/-- How far the dispatcher of `serve_joined_host_once` has come. -/
inductive HostDispatcher where
  | receiving
  /-- In `handle_host_request_streaming`, for a request it answers itself. -/
  | answering (request : HubToHost)
  /-- In `dispatch_peer.send`, with an event of the request. -/
  | streaming (request : HubToHost) (body : HostToHub)
  /-- In `dispatch_peer.send`, with the answer. -/
  | responding (request : HubToHost) (body : HostToHub)
  | returned
  deriving DecidableEq, Repr

/-- `tasks` are the requests that have a task of their own, `pending` the requests of local
clients that wait for the Hub. -/
structure Host where
  peer : Peer
  dispatcher : HostDispatcher
  tasks : List HubToHost
  pending : List RequestId
  deriving DecidableEq, Repr

inductive HostAction where
  | receive
  /-- The request that is answered sends an event, or its answer. -/
  | stream (body : HostToHub)
  | finish (body : HostToHub)
  /-- The peer takes what the dispatcher sends; `promoted` says whether `mews.db` is there. -/
  | send (promoted : Bool)
  | taskEvent (requestId : RequestId) (body : HostToHub)
  | taskFinish (request : HubToHost) (body : HostToHub)
  | catalogChange
  | clientRequest (requestId : RequestId)
  | clientTimeout (requestId : RequestId)
  deriving DecidableEq, Repr

namespace Host

/-- The dispatcher has a message of the bridge. -/
def dispatch (host : Host) : Envelope → Host
  | .toolRequest (.acknowledgeAcpSessionBinding _) => host
  | .toolRequest (.cancelAcp _) => host
  | .toolRequest (.cancelTool _) => host
  | .toolRequest (.executeAcpTurn id) => { host with tasks := .executeAcpTurn id :: host.tasks }
  | .toolRequest (.executeTool id) => { host with tasks := .executeTool id :: host.tasks }
  | .toolRequest (.executeHook id) => { host with tasks := .executeHook id :: host.tasks }
  | .toolRequest body => { host with dispatcher := .answering body }
  | .clientResponse id _ => { host with pending := host.pending.erase id }
  | _ => { host with dispatcher := .returned }

def promotes : HubToHost → Bool
  | .activateHubTransfer _ => true
  | _ => false

def step (host : Host) : HostAction → Option Host
  | .receive =>
      match host.dispatcher, host.peer.inbound with
      | .receiving, message :: inbound =>
          some (dispatch { host with peer := { host.peer with inbound } } message)
      | .receiving, [] =>
          if host.peer.bridge = .returned then some { host with dispatcher := .returned } else none
      | _, _ => none
  | .stream body =>
      match host.dispatcher with
      | .answering request => some { host with dispatcher := .streaming request body }
      | _ => none
  | .finish body =>
      match host.dispatcher with
      | .answering request => some { host with dispatcher := .responding request body }
      | _ => none
  | .send promoted =>
      match host.dispatcher with
      | .streaming request body =>
          (host.peer.send (.toolResponse body)).map fun peer =>
            { host with peer, dispatcher := .answering request }
      | .responding request body =>
          (host.peer.send (.toolResponse body)).map fun peer =>
            { host with
              peer
              dispatcher := if promotes request && promoted then .returned else .receiving }
      | _ => none
  | .taskEvent id body =>
      if .executeAcpTurn id ∈ host.tasks then
        (host.peer.send (.toolResponse body)).map fun peer => { host with peer }
      else none
  | .taskFinish request body =>
      if request ∈ host.tasks then
        (host.peer.send (.toolResponse body)).map fun peer =>
          { host with peer, tasks := host.tasks.erase request }
      else none
  | .catalogChange =>
      (host.peer.send (.toolResponse .toolCatalogChanged)).map fun peer => { host with peer }
  | .clientRequest id =>
      if host.pending.length < clientCapacity then
        (host.peer.send (.clientRequest id ())).map fun peer =>
          { host with peer, pending := host.pending.insert id }
      else none
  | .clientTimeout id => some { host with pending := host.pending.erase id }

end Host

/-! ## The Hub -/

/-- Capacity of the queues of tool requests, of tool responses and of client requests, and
of `ConnectedHost`. -/
def hubCapacity : ℕ := 32

def acpEventChannelCapacity : ℕ := 64

def maxConcurrentRequests : ℕ := 16

/-- How far the dispatcher of `serve_hub_host_once` has come. -/
inductive HubDispatcher where
  | receiving
  /-- In `tool_response_tx.send`. -/
  | handingResponse (body : HostToHub)
  /-- In `client_tx.send`. -/
  | handingRequest (requestId : RequestId)
  | returned
  deriving DecidableEq, Repr

/-- The Turn of an ACP Harness that is executed on the Host: the events it has been sent,
and the acknowledgement it waits to send. -/
structure AcpTurn where
  requestId : RequestId
  events : List AcpEvent
  acknowledging : Option String
  deriving DecidableEq, Repr

/-- The Hub's side.  `calls` hold a permit and wait for their answer, `posts` wait in
`sender.send`; `forwarding` is what the task between `tool_tx` and the peer has in hand,
and `delivering` the event that `ConnectedHost` hands to a Turn.  A client request that
is served waits for the peer once it is answered. -/
structure Hub where
  peer : Peer
  calls : List HubToHost
  posts : List HubToHost
  toolRequests : List HubToHost
  forwarding : Option HubToHost
  dispatcher : HubDispatcher
  toolResponses : List HostToHub
  delivering : Option (RequestId × AcpEvent)
  turns : List AcpTurn
  clientRequests : List RequestId
  serving : List (RequestId × Bool)
  deriving DecidableEq, Repr

inductive HubAction where
  | call (request : HubToHost)
  /-- The caller of a request is dropped. -/
  | abandon (request : HubToHost)
  | cancelTurn (requestId : RequestId)
  | post (message : HubToHost)
  | forward
  | relay
  | receive
  | hand
  | consume
  | deliver
  | read (turn : AcpTurn)
  | serve
  | answer (requestId : RequestId)
  | respond (requestId : RequestId)
  deriving DecidableEq, Repr

namespace Hub

/-- The message of a `ToolCancellationGuard` that is still armed. -/
def cancellation : HubToHost → List HubToHost
  | .executeTool id | .executeHook id => [.cancelTool id]
  | _ => []

def turnOf : HubToHost → List AcpTurn
  | .executeAcpTurn id => [⟨id, [], none⟩]
  | _ => []

def dispatch (hub : Hub) : Envelope → Hub
  | .toolResponse body => { hub with dispatcher := .handingResponse body }
  | .clientRequest id _ => { hub with dispatcher := .handingRequest id }
  | _ => { hub with dispatcher := .returned }

/-- `ConnectedHost` has a message of the Host. -/
def consumed (hub : Hub) : HostToHub → Hub
  | .acpEvent id event =>
      if .executeAcpTurn id ∈ hub.calls then { hub with delivering := some (id, event) } else hub
  | .result id => { hub with calls := hub.calls.filter fun call => call.requestId? ≠ some id }
  | _ => hub

def step (hub : Hub) : HubAction → Option Hub
  | .call request =>
      if request.requestId?.isSome ∧ hub.calls.length < hubCapacity then
        some { hub with
          calls := request :: hub.calls
          posts := request :: hub.posts
          turns := turnOf request ++ hub.turns }
      else none
  | .abandon request =>
      if request ∈ hub.calls then
        some { hub with
          calls := hub.calls.erase request
          -- A request that has not been posted yet needs no cancellation.
          posts :=
            if request ∈ hub.posts then hub.posts.erase request
            else cancellation request ++ hub.posts
          turns := hub.turns.filter fun turn => some turn.requestId ≠ request.requestId? }
      else none
  | .cancelTurn id =>
      if .executeAcpTurn id ∈ hub.calls then
        some { hub with posts := .cancelAcp id :: hub.posts }
      else none
  | .post message =>
      if message ∈ hub.posts ∧ hub.toolRequests.length < hubCapacity then
        some { hub with
          posts := hub.posts.erase message
          toolRequests := hub.toolRequests ++ [message]
          turns := hub.turns.map fun turn =>
            if turn.acknowledging.map HubToHost.acknowledgeAcpSessionBinding = some message then
              { turn with acknowledging := none }
            else turn }
      else none
  | .forward =>
      match hub.forwarding, hub.toolRequests with
      | none, body :: toolRequests => some { hub with forwarding := some body, toolRequests }
      | _, _ => none
  | .relay =>
      match hub.forwarding with
      | some body =>
          (hub.peer.send (.toolRequest body)).map fun peer => { hub with peer, forwarding := none }
      | none => none
  | .receive =>
      match hub.dispatcher, hub.peer.inbound with
      | .receiving, message :: inbound =>
          some (dispatch { hub with peer := { hub.peer with inbound } } message)
      | .receiving, [] =>
          if hub.peer.bridge = .returned then some { hub with dispatcher := .returned } else none
      | _, _ => none
  | .hand =>
      match hub.dispatcher with
      | .handingResponse body =>
          if hub.toolResponses.length < hubCapacity then
            some { hub with
              dispatcher := .receiving
              toolResponses := hub.toolResponses ++ [body] }
          else none
      | .handingRequest id =>
          if hub.clientRequests.length < hubCapacity then
            some { hub with
              dispatcher := .receiving
              clientRequests := hub.clientRequests ++ [id] }
          else none
      | _ => none
  | .consume =>
      match hub.delivering, hub.toolResponses with
      | none, body :: toolResponses => some (consumed { hub with toolResponses } body)
      | _, _ => none
  | .deliver =>
      match hub.delivering with
      | some (id, event) =>
          if ∀ turn ∈ hub.turns, turn.requestId = id →
              turn.events.length < acpEventChannelCapacity then
            some { hub with
              delivering := none
              turns := hub.turns.map fun turn =>
                if turn.requestId = id then { turn with events := turn.events ++ [event] }
                else turn }
          else none
      | none => none
  | .read turn =>
      match turn.acknowledging, turn.events with
      | none, event :: events =>
          if turn ∈ hub.turns then
            some { hub with
              turns := hub.turns.map fun other =>
                if other = turn then
                  { turn with events, acknowledging := event.acknowledgementId? }
                else other
              posts := event.acknowledgementId?.toList.map .acknowledgeAcpSessionBinding ++
                hub.posts }
          else none
      | _, _ => none
  | .serve =>
      match hub.clientRequests with
      | id :: clientRequests =>
          if hub.serving.length < maxConcurrentRequests then
            some { hub with clientRequests, serving := hub.serving ++ [(id, false)] }
          else none
      | [] => none
  | .answer id =>
      if (id, false) ∈ hub.serving then
        some { hub with serving := (id, true) :: hub.serving.erase (id, false) }
      else none
  | .respond id =>
      if (id, true) ∈ hub.serving then
        (hub.peer.send (.clientResponse id ())).map fun peer =>
          { hub with peer, serving := hub.serving.erase (id, true) }
      else none

end Hub

/-! ## Both of them -/

/-- The messages that one side has sent and the bridge of the other has not received. -/
structure Link where
  hub : Hub
  host : Host
  toHub : List Envelope
  toHost : List Envelope
  deriving DecidableEq, Repr

inductive LinkAction where
  | hub (action : HubAction)
  | host (action : HostAction)
  | hubBridge (action : BridgeAction)
  | hostBridge (action : BridgeAction)
  deriving DecidableEq, Repr

namespace Link

def initial : Link where
  hub :=
    { peer := ⟨.selecting, [], []⟩
      calls := []
      posts := []
      toolRequests := []
      forwarding := none
      dispatcher := .receiving
      toolResponses := []
      delivering := none
      turns := []
      clientRequests := []
      serving := [] }
  host :=
    { peer := ⟨.selecting, [.toolResponse .ready], []⟩
      dispatcher := .receiving
      tasks := []
      pending := [] }
  toHub := []
  toHost := []

def step (link : Link) : LinkAction → Option Link
  | .hub action => (link.hub.step action).map fun hub => { link with hub }
  | .host action => (link.host.step action).map fun host => { link with host }
  | .hubBridge action =>
      (link.hub.peer.step (link.hub.dispatcher ≠ .returned) link.toHub action).map
        fun (peer, toHub, sent) =>
          { link with hub := { link.hub with peer }, toHub, toHost := link.toHost ++ sent }
  | .hostBridge action =>
      (link.host.peer.step (link.host.dispatcher ≠ .returned) link.toHost action).map
        fun (peer, toHost, sent) =>
          { link with host := { link.host with peer }, toHost, toHub := link.toHub ++ sent }

def run (link : Link) : List LinkAction → Option Link
  | [] => some link
  | action :: actions => (link.step action).bind fun after => after.run actions

theorem run_append {link : Link} {first second : List LinkAction} :
    link.run (first ++ second) = (link.run first).bind fun after => after.run second := by
  induction first generalizing link with
  | nil => rfl
  | cons action actions ih =>
      simp only [List.cons_append, run, Option.bind_assoc, ih]

end Link

end Mews.PeerLink
