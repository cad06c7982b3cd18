import Mews.Host.PeerLink

/-!
# Jammed links

A bridge that waits for room in `peer_in` does not empty `peer_out`, and a dispatcher
that waits for room in `peer_out` does not empty `peer_in`.  Once both wait on one side of
a link, neither moves again.  It cannot come to this as long as the bridge receives with
`peer_in` full only while the dispatcher has nothing else to do.
-/

namespace Mews.PeerLink

open Protocol

/-! ## Who waits for the bridge -/

/-- The dispatcher waits for room in `peer_out`. -/
def Host.Waits (host : Host) : Prop :=
  (∃ request body,
    host.dispatcher = .streaming request body ∨ host.dispatcher = .responding request body) ∧
  host.peer.OutboundFull

namespace Hub

variable (hub : Hub)

/-- The dispatcher hands on a client request, and all who serve one wait for the peer. -/
def WaitsToServe : Prop :=
  (∃ id, hub.dispatcher = .handingRequest id) ∧ hubCapacity ≤ hub.clientRequests.length ∧
  maxConcurrentRequests ≤ hub.serving.length ∧ ∀ request ∈ hub.serving, request.2 = true

/-- The dispatcher hands on a tool response, `ConnectedHost` an event, and the Turn that the
event is for waits to acknowledge another one to the peer. -/
def WaitsToDeliver : Prop :=
  (∃ body, hub.dispatcher = .handingResponse body) ∧ hubCapacity ≤ hub.toolResponses.length ∧
  (∃ turn ∈ hub.turns, hub.delivering.map Prod.fst = some turn.requestId ∧
    acpEventChannelCapacity ≤ turn.events.length ∧ turn.acknowledging.isSome) ∧
  hubCapacity ≤ hub.toolRequests.length ∧ hub.forwarding.isSome

/-- The dispatcher waits for tasks that wait for room in `peer_out`. -/
def Waits : Prop := (hub.WaitsToServe ∨ hub.WaitsToDeliver) ∧ hub.peer.OutboundFull

end Hub

namespace Link

/-- On one side the bridge waits for the dispatcher, which waits for the bridge. -/
def Jammed (link : Link) : Prop :=
  (link.host.peer.Blocked ∧ link.host.Waits) ∨ (link.hub.peer.Blocked ∧ link.hub.Waits)

end Link

/-! ## Dispatchers that are busy -/

/-- The dispatcher answers a request itself. -/
def Host.Busy (host : Host) : Prop :=
  ∃ request, host.dispatcher = .answering request ∨
    ∃ body, host.dispatcher = .streaming request body ∨ host.dispatcher = .responding request body

/-- The dispatcher hands a message to a queue that is full. -/
def Hub.Busy (hub : Hub) : Prop :=
  (∃ id, hub.dispatcher = .handingRequest id) ∧ hubCapacity ≤ hub.clientRequests.length ∨
    (∃ body, hub.dispatcher = .handingResponse body) ∧ hubCapacity ≤ hub.toolResponses.length

/-- The bridge is about to receive what it will have to pass on, with `peer_in` full. -/
def Peer.Overtakes (peer : Peer) (arrived : List Envelope) : BridgeAction → Prop
  | .take => peerCapacity ≤ peer.inbound.length ∧
      ∃ message rest, arrived = message :: rest ∧ message.isHeartbeat = false
  | _ => False

namespace Link

/-- No bridge receives more than `peer_in` holds while its dispatcher is busy. -/
def Mindful (link : Link) : LinkAction → Prop
  | .hostBridge action => link.host.peer.Overtakes link.toHost action → ¬link.host.Busy
  | .hubBridge action => link.hub.peer.Overtakes link.toHub action → ¬link.hub.Busy
  | _ => True

def MindfulRun (link : Link) : List LinkAction → Prop
  | [] => True
  | action :: actions =>
      link.Mindful action ∧ ∀ after, link.step action = some after → after.MindfulRun actions

end Link

/-! ## The bridge and its queues -/

namespace Peer

variable {peer after : Peer}

/-- `peer_in` holds no more than its capacity. -/
def Bounded (peer : Peer) : Prop := peer.inbound.length ≤ peerCapacity

theorem send_kept {message : Envelope} (h : peer.send message = some after) :
    after.bridge = peer.bridge ∧ after.inbound = peer.inbound := by
  rw [send] at h
  split at h
  · cases h
    exact ⟨rfl, rfl⟩
  · split at h
    · cases h
      exact ⟨rfl, rfl⟩
    · cases h

theorem Blocked.of_kept (hbridge : after.bridge = peer.bridge)
    (hinbound : after.inbound = peer.inbound) (hblocked : after.Blocked) : peer.Blocked := by
  rw [Blocked, hbridge, hinbound] at hblocked
  exact hblocked

/-- A dispatcher that has taken a message has made room. -/
theorem not_blocked_of_received {message : Envelope} {inbound : List Envelope}
    (hbounded : peer.Bounded) (h : peer.inbound = message :: inbound) :
    ¬({ peer with inbound } : Peer).Blocked := by
  intro hblocked
  have hlength : inbound.length + 1 ≤ peerCapacity := by
    rw [Bounded, h] at hbounded
    exact hbounded
  exact Nat.not_succ_le_self _ (Nat.le_trans hlength hblocked.2)

/-- A bridge becomes blocked only by receiving with `peer_in` full. -/
theorem blocked_of_step {listening : Bool} {arrived left sent : List Envelope}
    {action : BridgeAction} (h : peer.step listening arrived action = some (after, left, sent))
    (hblocked : after.Blocked) : peer.Overtakes arrived action ∨ peer.Blocked := by
  obtain ⟨⟨message, hpassing⟩, hfull⟩ := hblocked
  cases action with
  | heartbeat =>
      rw [step] at h
      split at h
      · cases h
        exact Or.inr ⟨⟨message, hpassing⟩, hfull⟩
      · cases h
  | transmit =>
      simp only [step] at h
      split at h
      case h_1 hbridge _ =>
          cases h
          rw [hbridge] at hpassing
          cases hpassing
      case h_2 => cases h
  | take =>
      simp only [step] at h
      split at h
      case h_1 hbridge =>
          split at h
          · cases h
            rw [hbridge] at hpassing
            cases hpassing
          case isFalse hnot =>
              cases h
              exact Or.inl ⟨hfull, _, _, rfl, Bool.not_eq_true _ ▸ hnot⟩
      case h_2 => cases h
  | pass =>
      simp only [step] at h
      split at h
      · split at h
        · cases h
          cases hpassing
        · split at h
          · cases h
            cases hpassing
          · cases h
      · cases h
  | lose =>
      rw [step] at h
      split at h
      · cases h
        cases hpassing
      · cases h

theorem Bounded.step {listening : Bool} {arrived left sent : List Envelope}
    {action : BridgeAction} (hbounded : peer.Bounded)
    (h : peer.step listening arrived action = some (after, left, sent)) : after.Bounded := by
  cases action with
  | pass =>
      simp only [Peer.step] at h
      split at h
      · split at h
        · cases h
          exact hbounded
        · split at h
          case isTrue hroom =>
              cases h
              rw [Bounded, List.length_append]
              exact hroom
          case isFalse => cases h
      · cases h
  | take =>
      simp only [Peer.step] at h
      split at h
      · split at h <;> cases h <;> exact hbounded
      · cases h
  | transmit =>
      simp only [Peer.step] at h
      split at h
      · cases h
        exact hbounded
      · cases h
  | heartbeat | lose =>
      rw [Peer.step] at h
      split at h
      · cases h
        exact hbounded
      · cases h

end Peer

/-! ## Steps of the Host -/

namespace Host

variable {host after : Host}

/-- While the bridge is blocked the dispatcher has nothing to do but to receive. -/
def Clear (host : Host) : Prop := host.peer.Blocked → ¬host.Busy

theorem dispatch_peer (message : Envelope) : (host.dispatch message).peer = host.peer := by
  rw [dispatch.eq_def]
  split <;> rfl

theorem Waits.busy (hwaits : host.Waits) : host.Busy := by
  obtain ⟨⟨request, body, hsending⟩, _⟩ := hwaits
  exact ⟨request, Or.inr ⟨body, hsending⟩⟩

/-- What a step does to the bridge and to the dispatcher. -/
inductive Moves (host : Host) : Host → Prop where
  | kept {after : Host} (hbridge : after.peer.bridge = host.peer.bridge)
      (hinbound : after.peer.inbound = host.peer.inbound)
      (hdispatcher : after.dispatcher = host.dispatcher) : Moves host after
  | working {after : Host} (hbridge : after.peer.bridge = host.peer.bridge)
      (hinbound : after.peer.inbound = host.peer.inbound) (hbusy : host.Busy) : Moves host after
  | received {after : Host} {message : Envelope} {inbound : List Envelope}
      (hinbound : host.peer.inbound = message :: inbound)
      (hpeer : after.peer = { host.peer with inbound }) : Moves host after
  | returned (hbridge : host.peer.bridge = .returned) :
      Moves host { host with dispatcher := .returned }

theorem moves_of_send {message : Envelope} {change : Peer → Host}
    (h : (host.peer.send message).map change = some after)
    (hpeer : ∀ peer, (change peer).peer = peer)
    (hsame : ∀ peer, (change peer).dispatcher = host.dispatcher ∨ host.Busy) :
    host.Moves after := by
  obtain ⟨peer, hsend, rfl⟩ := Option.map_eq_some_iff.mp h
  obtain ⟨hbridge, hinbound⟩ := Peer.send_kept hsend
  rcases hsame peer with hdispatcher | hbusy
  · exact .kept (by rw [hpeer, hbridge]) (by rw [hpeer, hinbound]) hdispatcher
  · exact .working (by rw [hpeer, hbridge]) (by rw [hpeer, hinbound]) hbusy

theorem moves_of_step {action : HostAction} (h : host.step action = some after) :
    host.Moves after := by
  cases action with
  | receive =>
      simp only [step] at h
      split at h
      case h_1 hinbound =>
          cases h
          exact .received hinbound (dispatch_peer _)
      case h_2 =>
          split at h
          case isTrue hbridge =>
              cases h
              exact .returned hbridge
          case isFalse => cases h
      case h_3 => cases h
  | stream body | finish body =>
      simp only [step] at h
      split at h
      case h_1 hanswering =>
          cases h
          exact .working rfl rfl ⟨_, Or.inl hanswering⟩
      case h_2 => cases h
  | send promoted =>
      simp only [step] at h
      split at h
      case h_1 hstreaming =>
          exact moves_of_send h (fun _ => rfl) fun _ => .inr ⟨_, .inr ⟨_, .inl hstreaming⟩⟩
      case h_2 hresponding =>
          exact moves_of_send h (fun _ => rfl) fun _ => .inr ⟨_, .inr ⟨_, .inr hresponding⟩⟩
      case h_3 => cases h
  | taskEvent id body | taskFinish id body | clientRequest id =>
      simp only [step] at h
      split at h
      · exact moves_of_send h (fun _ => rfl) fun _ => .inl rfl
      · cases h
  | catalogChange =>
      simp only [step] at h
      exact moves_of_send h (fun _ => rfl) fun _ => .inl rfl
  | clientTimeout id =>
      cases h
      exact .kept rfl rfl rfl

theorem Moves.clear (hmoves : host.Moves after) (hbounded : host.peer.Bounded)
    (hclear : host.Clear) : after.Clear := by
  intro hblocked hbusy
  cases hmoves with
  | kept hbridge hinbound hdispatcher =>
      rw [Busy, hdispatcher] at hbusy
      exact hclear (hblocked.of_kept hbridge hinbound) hbusy
  | working hbridge hinbound hbefore =>
      exact hclear (hblocked.of_kept hbridge hinbound) hbefore
  | received hinbound hpeer =>
      rw [hpeer] at hblocked
      exact Peer.not_blocked_of_received hbounded hinbound hblocked
  | returned hbridge =>
      obtain ⟨⟨_, hpassing⟩, _⟩ := hblocked
      rw [hbridge] at hpassing
      cases hpassing

theorem Moves.bounded (hmoves : host.Moves after) (hbounded : host.peer.Bounded) :
    after.peer.Bounded := by
  rw [Peer.Bounded] at hbounded ⊢
  cases hmoves with
  | kept _ hinbound _ => rwa [hinbound]
  | working _ hinbound _ => rwa [hinbound]
  | received hinbound hpeer =>
      rw [hpeer]
      rw [hinbound] at hbounded
      exact Nat.le_of_succ_le hbounded
  | returned _ => exact hbounded

end Host

/-! ## Steps of the Hub -/

namespace Hub

variable {hub after : Hub}

/-- While the bridge is blocked the dispatcher does not wait for a queue of the Hub. -/
def Clear (hub : Hub) : Prop := hub.peer.Blocked → ¬hub.Busy

theorem dispatch_peer (message : Envelope) : (hub.dispatch message).peer = hub.peer := by
  rw [dispatch.eq_def]
  split <;> rfl

theorem consumed_kept (body : HostToHub) :
    (hub.consumed body).peer = hub.peer ∧ (hub.consumed body).dispatcher = hub.dispatcher ∧
      (hub.consumed body).clientRequests = hub.clientRequests ∧
      (hub.consumed body).toolResponses = hub.toolResponses := by
  rw [consumed.eq_def]
  split
  · split <;> exact ⟨rfl, rfl, rfl, rfl⟩
  · exact ⟨rfl, rfl, rfl, rfl⟩
  · exact ⟨rfl, rfl, rfl, rfl⟩

theorem Waits.busy (hwaits : hub.Waits) : hub.Busy := by
  obtain ⟨hserve | hdeliver, _⟩ := hwaits
  · exact Or.inl ⟨hserve.1, hserve.2.1⟩
  · exact Or.inr ⟨hdeliver.1, hdeliver.2.1⟩

/-- What a step does to the bridge and to the dispatcher with its queues. -/
inductive Moves (hub : Hub) : Hub → Prop where
  | kept {after : Hub} (hbridge : after.peer.bridge = hub.peer.bridge)
      (hinbound : after.peer.inbound = hub.peer.inbound)
      (hdispatcher : after.dispatcher = hub.dispatcher)
      (hclients : after.clientRequests.length ≤ hub.clientRequests.length)
      (hresponses : after.toolResponses.length ≤ hub.toolResponses.length) : Moves hub after
  | handed {after : Hub} (hpeer : after.peer = hub.peer)
      (hdispatcher : after.dispatcher = .receiving) : Moves hub after
  | received {after : Hub} {message : Envelope} {inbound : List Envelope}
      (hinbound : hub.peer.inbound = message :: inbound)
      (hpeer : after.peer = { hub.peer with inbound }) : Moves hub after
  | returned (hbridge : hub.peer.bridge = .returned) :
      Moves hub { hub with dispatcher := .returned }

theorem moves_of_send {message : Envelope} {change : Peer → Hub}
    (h : (hub.peer.send message).map change = some after)
    (hpeer : ∀ peer, (change peer).peer = peer)
    (hdispatcher : ∀ peer, (change peer).dispatcher = hub.dispatcher)
    (hclients : ∀ peer, (change peer).clientRequests = hub.clientRequests)
    (hresponses : ∀ peer, (change peer).toolResponses = hub.toolResponses) :
    hub.Moves after := by
  obtain ⟨peer, hsend, rfl⟩ := Option.map_eq_some_iff.mp h
  obtain ⟨hbridge, hinbound⟩ := Peer.send_kept hsend
  exact .kept (by rw [hpeer, hbridge]) (by rw [hpeer, hinbound]) (hdispatcher peer)
    (Nat.le_of_eq (by rw [hclients])) (Nat.le_of_eq (by rw [hresponses]))

theorem moves_of_step {action : HubAction} (h : hub.step action = some after) :
    hub.Moves after := by
  cases action with
  | call request | abandon request | cancelTurn id | post message | answer id =>
      simp only [step] at h
      split at h
      · cases h
        exact .kept rfl rfl rfl (Nat.le_refl _) (Nat.le_refl _)
      · cases h
  | forward =>
      simp only [step] at h
      split at h
      · cases h
        exact .kept rfl rfl rfl (Nat.le_refl _) (Nat.le_refl _)
      · cases h
  | relay =>
      simp only [step] at h
      split at h
      · exact moves_of_send h (fun _ => rfl) (fun _ => rfl) (fun _ => rfl) fun _ => rfl
      · cases h
  | receive =>
      simp only [step] at h
      split at h
      case h_1 hinbound =>
          cases h
          exact .received hinbound (dispatch_peer _)
      case h_2 =>
          split at h
          case isTrue hbridge =>
              cases h
              exact .returned hbridge
          case isFalse => cases h
      case h_3 => cases h
  | hand =>
      simp only [step] at h
      split at h
      · split at h
        · cases h
          exact .handed rfl rfl
        · cases h
      · split at h
        · cases h
          exact .handed rfl rfl
        · cases h
      · cases h
  | consume =>
      simp only [step] at h
      split at h
      case h_1 body toolResponses _ hresponses =>
          cases h
          obtain ⟨hpeer, hdispatcher, hclients, hleft⟩ :=
            @consumed_kept { hub with toolResponses } body
          refine .kept (by rw [hpeer]) (by rw [hpeer]) hdispatcher
            (Nat.le_of_eq (by rw [hclients])) ?_
          rw [hleft, hresponses]
          exact Nat.le_succ _
      case h_2 => cases h
  | deliver =>
      simp only [step] at h
      split at h
      · split at h
        · cases h
          exact .kept rfl rfl rfl (Nat.le_refl _) (Nat.le_refl _)
        · cases h
      · cases h
  | read turn =>
      simp only [step] at h
      split at h
      · split at h
        · cases h
          exact .kept rfl rfl rfl (Nat.le_refl _) (Nat.le_refl _)
        · cases h
      · cases h
  | serve =>
      simp only [step] at h
      split at h
      case h_1 hclients =>
          split at h
          · cases h
            refine .kept rfl rfl rfl ?_ (Nat.le_refl _)
            rw [hclients]
            exact Nat.le_succ _
          · cases h
      case h_2 => cases h
  | respond id =>
      simp only [step] at h
      split at h
      · exact moves_of_send h (fun _ => rfl) (fun _ => rfl) (fun _ => rfl) fun _ => rfl
      · cases h

theorem Moves.clear (hmoves : hub.Moves after) (hbounded : hub.peer.Bounded)
    (hclear : hub.Clear) : after.Clear := by
  intro hblocked hbusy
  cases hmoves with
  | kept hbridge hinbound hdispatcher hclients hresponses =>
      rw [Busy, hdispatcher] at hbusy
      apply hclear (hblocked.of_kept hbridge hinbound)
      rcases hbusy with ⟨hhanding, hfull⟩ | ⟨hhanding, hfull⟩
      · exact Or.inl ⟨hhanding, Nat.le_trans hfull hclients⟩
      · exact Or.inr ⟨hhanding, Nat.le_trans hfull hresponses⟩
  | handed _ hdispatcher =>
      rw [Busy, hdispatcher] at hbusy
      obtain ⟨⟨_, hhanding⟩, _⟩ | ⟨⟨_, hhanding⟩, _⟩ := hbusy
      · cases hhanding
      · cases hhanding
  | received hinbound hpeer =>
      rw [hpeer] at hblocked
      exact Peer.not_blocked_of_received hbounded hinbound hblocked
  | returned hbridge =>
      obtain ⟨⟨_, hpassing⟩, _⟩ := hblocked
      rw [hbridge] at hpassing
      cases hpassing

theorem Moves.bounded (hmoves : hub.Moves after) (hbounded : hub.peer.Bounded) :
    after.peer.Bounded := by
  rw [Peer.Bounded] at hbounded ⊢
  cases hmoves with
  | kept _ hinbound _ _ _ => rwa [hinbound]
  | handed hpeer _ => rwa [hpeer]
  | received hinbound hpeer =>
      rw [hpeer]
      rw [hinbound] at hbounded
      exact Nat.le_of_succ_le hbounded
  | returned _ => exact hbounded

end Hub

/-! ## Runs -/

namespace Link

variable {link after : Link}

/-- Whoever is blocked on either side has a dispatcher that can receive. -/
structure Flows (link : Link) : Prop where
  host : link.host.Clear
  hub : link.hub.Clear
  hostBounded : link.host.peer.Bounded
  hubBounded : link.hub.peer.Bounded

theorem initial_flows : initial.Flows where
  host hblocked := absurd hblocked.2 (by decide)
  hub hblocked := absurd hblocked.2 (by decide)
  hostBounded := Nat.zero_le _
  hubBounded := Nat.zero_le _

theorem Flows.not_jammed (hflows : link.Flows) : ¬link.Jammed := by
  rintro (⟨hblocked, hwaits⟩ | ⟨hblocked, hwaits⟩)
  · exact hflows.host hblocked hwaits.busy
  · exact hflows.hub hblocked hwaits.busy

theorem Flows.step (hflows : link.Flows) {action : LinkAction} (hmindful : link.Mindful action)
    (h : link.step action = some after) : after.Flows := by
  cases action with
  | hub action =>
      obtain ⟨hub, hstep, rfl⟩ := Option.map_eq_some_iff.mp h
      have hmoves := Hub.moves_of_step hstep
      exact ⟨hflows.host, hmoves.clear hflows.hubBounded hflows.hub, hflows.hostBounded,
        hmoves.bounded hflows.hubBounded⟩
  | host action =>
      obtain ⟨host, hstep, rfl⟩ := Option.map_eq_some_iff.mp h
      have hmoves := Host.moves_of_step hstep
      exact ⟨hmoves.clear hflows.hostBounded hflows.host, hflows.hub,
        hmoves.bounded hflows.hostBounded, hflows.hubBounded⟩
  | hubBridge action =>
      obtain ⟨⟨peer, toHub, sent⟩, hstep, rfl⟩ := Option.map_eq_some_iff.mp h
      refine ⟨hflows.host, fun hblocked hbusy => ?_, hflows.hostBounded,
        hflows.hubBounded.step hstep⟩
      rcases Peer.blocked_of_step hstep hblocked with hovertakes | hbefore
      · exact hmindful hovertakes hbusy
      · exact hflows.hub hbefore hbusy
  | hostBridge action =>
      obtain ⟨⟨peer, toHost, sent⟩, hstep, rfl⟩ := Option.map_eq_some_iff.mp h
      refine ⟨fun hblocked hbusy => ?_, hflows.hub, hflows.hostBounded.step hstep,
        hflows.hubBounded⟩
      rcases Peer.blocked_of_step hstep hblocked with hovertakes | hbefore
      · exact hmindful hovertakes hbusy
      · exact hflows.host hbefore hbusy

theorem Flows.run {actions : List LinkAction} (hflows : link.Flows)
    (hmindful : link.MindfulRun actions) (h : link.run actions = some after) : after.Flows := by
  induction actions generalizing link with
  | nil =>
      cases h
      exact hflows
  | cons action actions ih =>
      obtain ⟨next, hstep, hrun⟩ := Option.bind_eq_some_iff.mp h
      exact ih (hflows.step hmindful.1 hstep) (hmindful.2 next hstep) hrun

/-- A run in which no bridge receives more than `peer_in` holds while its dispatcher is busy
reaches no jammed state. -/
theorem mindful_not_jammed {actions : List LinkAction}
    (hmindful : initial.MindfulRun actions) (h : initial.run actions = some after) :
    ¬after.Jammed :=
  (initial_flows.run hmindful h).not_jammed

/-- The Host's `Ready` reaches the dispatcher of the Hub. -/
def greeting : List LinkAction :=
  [.hostBridge .transmit, .hubBridge .take, .hubBridge .pass, .hub .receive]

theorem greeting_not_jammed : ∃ link, initial.run greeting = some link ∧ ¬link.Jammed := by
  have hmindful : initial.MindfulRun greeting := by
    refine ⟨False.elim, fun sent hsent => ?_⟩
    cases hsent
    refine ⟨fun hovertakes => absurd hovertakes.1 (by decide), fun taken htaken => ?_⟩
    cases htaken
    exact ⟨False.elim, fun _ _ => ⟨trivial, fun _ _ => trivial⟩⟩
  have hruns : (initial.run greeting).isSome = true := by decide
  obtain ⟨link, hrun⟩ := Option.isSome_iff_exists.mp hruns
  exact ⟨link, hrun, mindful_not_jammed hmindful hrun⟩

/-! ## What a busy Host leads to -/

theorem send_of_room {peer : Peer} {message : Envelope} (hbridge : peer.bridge ≠ .returned)
    (hroom : peer.outbound.length < peerCapacity) :
    peer.send message = some { peer with outbound := peer.outbound ++ [message] } := by
  rw [Peer.send, if_neg hbridge, if_pos hroom]

theorem send_of_full {peer : Peer} {message : Envelope} (hfull : peer.OutboundFull) :
    peer.send message = none := by
  rw [Peer.send, if_neg hfull.1, if_neg (Nat.not_lt_of_le hfull.2)]

/-- As long as the bridge of the Host moves nothing, new catalogs fill `peer_out`. -/
theorem run_catalogChanges (hbridge : link.host.peer.bridge ≠ .returned) :
    ∃ outbound,
      link.run (List.replicate (peerCapacity - link.host.peer.outbound.length)
        (.host .catalogChange)) =
          some { link with
            host := { link.host with peer := { link.host.peer with outbound } } } ∧
      peerCapacity ≤ outbound.length := by
  generalize hleft : peerCapacity - link.host.peer.outbound.length = left
  induction left generalizing link with
  | zero => exact ⟨link.host.peer.outbound, rfl, Nat.sub_eq_zero_iff_le.mp hleft⟩
  | succ left ih =>
      have hroom : link.host.peer.outbound.length < peerCapacity := by omega
      have hstep : link.step (.host .catalogChange) = some { link with
          host := { link.host with
            peer := { link.host.peer with
              outbound := link.host.peer.outbound ++ [.toolResponse .toolCatalogChanged] } } } := by
        rw [step, Host.step, send_of_room hbridge hroom]
        rfl
      rw [List.replicate_succ, run, hstep, Option.bind_some]
      refine ih hbridge ?_
      rw [List.length_append]
      simp only [List.length_cons, List.length_nil]
      omega

/-- Where the bridge of the Host has received more than `peer_in` holds while the dispatcher
answers a request, the link can jam. -/
theorem jams_of_busy (hblocked : link.host.peer.Blocked) (hbusy : link.host.Busy) :
    ∃ actions jammed, link.run actions = some jammed ∧ jammed.Jammed := by
  obtain ⟨message, hpassing⟩ := hblocked.1
  have hbridge : link.host.peer.bridge ≠ .returned := by
    rw [hpassing]
    exact Bridge.noConfusion
  obtain ⟨outbound, hrun, hfull⟩ := run_catalogChanges hbridge
  obtain ⟨request, hanswering | ⟨body, hsending⟩⟩ := hbusy
  · have hfinish : link.run (List.replicate (peerCapacity - link.host.peer.outbound.length)
        (.host .catalogChange) ++ [.host (.finish (.result ⟨""⟩))]) = some { link with
          host := { link.host with
            peer := { link.host.peer with outbound }
            dispatcher := .responding request (.result ⟨""⟩) } } := by
      rw [run_append, hrun, Option.bind_some, run, step, Host.step]
      simp only [hanswering]
      rfl
    exact ⟨_, _, hfinish, Or.inl ⟨hblocked, ⟨request, _, Or.inr rfl⟩, hbridge, hfull⟩⟩
  · exact ⟨_, _, hrun, Or.inl ⟨hblocked, ⟨request, body, hsending⟩, hbridge, hfull⟩⟩

/-- A Host that is jammed stays so, whatever else happens. -/
theorem host_stays_jammed {action : LinkAction} (h : link.step action = some after)
    (hjammed : link.host.peer.Blocked ∧ link.host.Waits) :
    after.host.peer.Blocked ∧ after.host.Waits := by
  obtain ⟨hblocked, hwaits⟩ := hjammed
  obtain ⟨message, hpassing⟩ := hblocked.1
  obtain ⟨⟨request, body, hsending⟩, hfull⟩ := hwaits
  cases action with
  | hub action =>
      obtain ⟨hub, _, rfl⟩ := Option.map_eq_some_iff.mp h
      exact ⟨hblocked, ⟨request, body, hsending⟩, hfull⟩
  | hubBridge action =>
      obtain ⟨⟨peer, toHub, sent⟩, _, rfl⟩ := Option.map_eq_some_iff.mp h
      exact ⟨hblocked, ⟨request, body, hsending⟩, hfull⟩
  | hostBridge action =>
      obtain ⟨⟨peer, toHost, sent⟩, hstep, _⟩ := Option.map_eq_some_iff.mp h
      have hlistening : link.host.dispatcher ≠ .returned := by
        rcases hsending with hsending | hsending <;> rw [hsending] <;>
          exact HostDispatcher.noConfusion
      cases action with
      | pass =>
          rw [Peer.step, hpassing] at hstep
          simp [hlistening, Nat.not_lt_of_le hblocked.2] at hstep
      | _ => simp [Peer.step, hpassing] at hstep
  | host action =>
      obtain ⟨host, hstep, rfl⟩ := Option.map_eq_some_iff.mp h
      cases action with
      | clientTimeout id =>
          cases hstep
          exact ⟨hblocked, ⟨request, body, hsending⟩, hfull⟩
      | _ =>
          rcases hsending with hsending | hsending <;>
            simp [Host.step, hsending, send_of_full hfull] at hstep

end Link

/-! ## A link that jams

A client of the Hub has the catalog of Harnesses refreshed.  While the Host probes its Harnesses
65 local clients are answered and 63 more ask something. -/

namespace CatalogRefresh

def requestId (n : ℕ) : RequestId := ⟨toString n⟩

def refresh : HubToHost := .request (requestId 0)

/-- The request reaches the dispatcher of the Host, and `Ready` the Hub. -/
def asked : List LinkAction :=
  [.hostBridge .transmit, .hubBridge .take, .hubBridge .pass, .hub .receive, .hub .hand,
    .hub (.call refresh), .hub (.post refresh), .hub .forward, .hub .relay, .hubBridge .transmit,
    .hostBridge .take, .hostBridge .pass, .host .receive]

/-- The request of a local client is answered; the answer reaches the bridge of the Host. -/
def served (n : ℕ) : List LinkAction :=
  [.host (.clientRequest (requestId n)), .hostBridge .transmit, .hubBridge .take,
    .hubBridge .pass, .hub .receive, .hub .hand, .hub .serve, .hub (.answer (requestId n)),
    .hub (.respond (requestId n)), .hubBridge .transmit, .hostBridge .take]

def stalled (n : ℕ) : List LinkAction :=
  served n ++ [.hostBridge .pass, .host (.clientTimeout (requestId n))]

/-- A request that is not received by the Hub any more. -/
def waiting (n : ℕ) : List LinkAction :=
  [.host (.clientRequest (requestId n)), .host (.clientTimeout (requestId n))]

def ending : List LinkAction := [.host .catalogChange, .host (.finish (.result (requestId 0)))]

def actions : List LinkAction :=
  List.flatten [asked, (List.range 64).flatMap stalled, served 64,
    (List.range 63).flatMap fun n => waiting (n + 65), ending]

def jams (link : Link) : Bool :=
  (match link.host.peer.bridge with
    | .passing _ => true
    | _ => false) &&
  (match link.host.dispatcher with
    | .responding _ _ => true
    | _ => false) &&
  decide (peerCapacity ≤ link.host.peer.inbound.length) &&
  decide (peerCapacity ≤ link.host.peer.outbound.length)

theorem jammed_of_jams {link : Link} (h : jams link = true) : link.Jammed := by
  rw [jams, Bool.and_eq_true, Bool.and_eq_true, Bool.and_eq_true] at h
  obtain ⟨⟨⟨hbridge, hdispatcher⟩, hinbound⟩, houtbound⟩ := h
  split at hbridge
  case h_1 message hpassing =>
      split at hdispatcher
      case h_1 request body hresponding =>
          refine Or.inl ⟨⟨⟨message, hpassing⟩, of_decide_eq_true hinbound⟩,
            ⟨request, body, Or.inr hresponding⟩, ?_, of_decide_eq_true houtbound⟩
          rw [hpassing]
          exact Bridge.noConfusion
      case h_2 => cases hdispatcher
  case h_2 => cases hbridge

/-- Peer pumps do deadlock. -/
theorem link_jams : ∃ actions link, Link.initial.run actions = some link ∧ link.Jammed := by
  have hjams : (Link.initial.run actions).any jams = true := by decide +kernel
  obtain ⟨link, hrun, hjams⟩ := (Option.any_eq_true jams _).mp hjams
  exact ⟨actions, link, hrun, jammed_of_jams hjams⟩

end CatalogRefresh

end Mews.PeerLink
