import Mathlib.Algebra.Group.Nat.Defs
import Mews.Protocol.HostFrame
import Mews.Transport.Stream

/-!
# The loops of a link

Three loops move messages between an encrypted stream and two queues.  Each of
them waits for several things at once and drops the rest of what it waited for
when one is there, the call that receives a message among them.
-/

namespace Mews

open Protocol

namespace Transport

inductive PumpError where
  | frame (error : FrameError)
  | transport (error : TransportError)
  deriving DecidableEq, Repr

/-- What the loops have in common: what they send and receive, what a tick of their
timer sends, and which messages they hand on. -/
structure Pump (Out In : Type) where
  outgoing : Wire Out
  incoming : Wire In
  heartbeat : Option Out
  hands : In → Bool

section Loops

variable {HubToHost HostToHub HubRequest HubResponse : Type}

def runPeerBridge (wire : Wire (PeerEnvelope HubToHost HostToHub HubRequest HubResponse)) :
    Pump (PeerEnvelope HubToHost HostToHub HubRequest HubResponse)
      (PeerEnvelope HubToHost HostToHub HubRequest HubResponse) where
  outgoing := wire
  incoming := wire
  heartbeat := some (.heartbeat 0)
  hands := fun message => !message.isHeartbeat

def runHubHostLink (outgoing : Wire HubToHost) (incoming : Wire HostToHub) :
    Pump HubToHost HostToHub where
  outgoing
  incoming
  heartbeat := none
  hands := fun _ => true

def runHostRpc (outgoing : Wire HostToHub) (incoming : Wire HubToHost) :
    Pump HostToHub HubToHost where
  outgoing
  incoming
  heartbeat := none
  hands := fun _ => true

end Loops

/-- What is ready when the loop waits. -/
inductive PumpEvent (Out : Type) where
  /-- The next frame of the relay, for the call that receives a message. -/
  | frame
  | outbound (message : Out) (id : MessageId)
  /-- The outbound queue is closed. -/
  | closed
  | tick (id : MessageId)

structure PumpState (In : Type) where
  peer : EncryptedRelayPeer
  /-- Of the call that receives a message. -/
  assembly : Assembly
  /-- The frames that the relay still has. -/
  arriving : List RelayFrame
  inbound : List In
  carried : List RelayFrame
  ended : Option (Except PumpError Unit)

namespace PumpState

variable {Out In : Type} (pump : Pump Out In) (state : PumpState In)

def start (peer : EncryptedRelayPeer) (arriving : List RelayFrame) : PumpState In :=
  { peer, assembly := .empty, arriving, inbound := [], carried := [], ended := none }

@[simp]
theorem arriving_start (peer : EncryptedRelayPeer) (arriving : List RelayFrame) :
    (@start In peer arriving).arriving = arriving := rfl

def fail (error : PumpError) : PumpState In := { state with ended := some (.error error) }

def Failed : Prop := ∃ error, state.ended = some (.error error)

/-- A message that has been received. -/
def receive (message : List UInt8) : PumpState In :=
  match pump.incoming.decode message with
  | .error error => state.fail (.frame error)
  | .ok body => { state with
      assembly := .empty
      inbound := if pump.hands body then state.inbound ++ [body] else state.inbound }

/-- The call that receives a message is dropped, and with it what it has put together. -/
def dropReceive : PumpState In := { state with assembly := .empty }

def send (body : Out) (id : MessageId) : PumpState In :=
  match pump.outgoing.encode body with
  | .error error => state.fail (.frame error)
  | .ok bytes =>
      match state.peer.sendBytes { id, bytes } with
      | .error error => state.fail (.transport error)
      | .ok (frames, peer) => { state with peer, carried := state.carried ++ frames }

/-- The call that receives a message takes the next frame. -/
def takeFrame : PumpState In :=
  match state.arriving with
  | [] => state
  | frame :: arriving =>
      let (progress, peer) := state.peer.acceptFrame state.assembly frame
      let state := { state with peer, arriving }
      match progress with
      | .error error => state.fail (.transport error)
      | .ok (.incomplete assembly) => { state with assembly }
      | .ok (.complete message) => state.receive pump message

def step (event : PumpEvent Out) : PumpState In :=
  match state.ended with
  | some _ => state
  | none =>
      match event with
      | .frame => state.takeFrame pump
      | .outbound body id => state.dropReceive.send pump body id
      | .closed => { state.dropReceive with ended := some (.ok ()) }
      | .tick id =>
          match pump.heartbeat with
          | none => state
          | some heartbeat => state.dropReceive.send pump heartbeat id

def run (events : List (PumpEvent Out)) : PumpState In := events.foldl (fun state => state.step pump) state

/-- Something is sent only between two messages, and only if it fits a frame. -/
def Attends : PumpEvent Out → Prop
  | .frame => True
  | .closed => True
  | .outbound body _ => state.assembly = .empty ∧ pump.outgoing.Fits body
  | .tick _ => ∀ heartbeat ∈ pump.heartbeat, state.assembly = .empty ∧ pump.outgoing.Fits heartbeat

/-- Every step of a run attends to the message that is being received, as long as the
loop goes on. -/
def Attentive (pump : Pump Out In) : PumpState In → List (PumpEvent Out) → Prop
  | _, [] => True
  | state, event :: events =>
      (state.ended = none → state.Attends pump event) ∧
        Attentive pump (state.step pump event) events

/-! ## What one step does -/

section Steps

variable {Out In : Type} {pump : Pump Out In} {state : PumpState In} {sender : EncryptedRelayPeer}

/-- A body as the peer sends it. -/
def envelope (wire : Wire In) (sent : MessageId × In) : Message :=
  { id := sent.1, bytes := wire.toVec (.new sent.2) }

def handed (pump : Pump Out In) (sent : List (MessageId × In)) : List In :=
  (sent.map Prod.snd).filter pump.hands

theorem fits_envelope {wire : Wire In} {sent : MessageId × In} (hcarries : wire.Carries sent.2) :
    (envelope wire sent).Fits := hcarries.fits

theorem linked_sent {peer : EncryptedRelayPeer} (hlinked : EncryptedRelayPeer.Linked sender peer)
    (count : Nat) : EncryptedRelayPeer.Linked sender (peer.sent count) :=
  ⟨hlinked.cipher, hlinked.nonce, hlinked.installationId, hlinked.source, hlinked.destination,
    hlinked.subject, hlinked.sequence⟩

/-- The loop has got all messages but these, and has the chunks of the first of them that
have been taken from the relay. -/
inductive Tracks (wire : Wire In) (peer : EncryptedRelayPeer) :
    List (MessageId × In) → Assembly → List RelayFrame → Prop
  | within (sender : EncryptedRelayPeer) (first : MessageId × In) (rest : List (MessageId × In))
      (index : Nat) (hindex : index < (envelope wire first).total)
      (hlinked : EncryptedRelayPeer.Linked sender peer) :
      Tracks wire peer (first :: rest) ((envelope wire first).assembly index)
        (sender.framesOf ((envelope wire first).records.drop index ++
          (rest.map (envelope wire)).flatMap Message.records))
  | done : Tracks wire peer [] .empty []

/-- The loop has lost the first chunks of a message. -/
inductive Loses (peer : EncryptedRelayPeer) : Assembly → List RelayFrame → Prop
  | lost (sender : EncryptedRelayPeer) (message : Message) (records : List (List UInt8))
      (index : Nat) (hfits : message.Fits) (hpos : 0 < index) (hindex : index < message.total)
      (hlinked : EncryptedRelayPeer.Linked sender peer) :
      Loses peer .empty (sender.framesOf (message.records.drop index ++ records))

theorem Tracks.between {wire : Wire In} {peer : EncryptedRelayPeer}
    (hlinked : EncryptedRelayPeer.Linked sender peer) (sent : List (MessageId × In)) :
    Tracks wire peer sent .empty
      (sender.framesOf ((sent.map (envelope wire)).flatMap Message.records)) := by
  cases sent with
  | nil => exact .done
  | cons first rest => exact .within sender first rest 0 Message.total_pos hlinked

theorem Tracks.sent {wire : Wire In} {peer : EncryptedRelayPeer} {sent : List (MessageId × In)}
    {assembly : Assembly} {arriving : List RelayFrame}
    (htracks : Tracks wire peer sent assembly arriving) (count : Nat) :
    Tracks wire (peer.sent count) sent assembly arriving := by
  cases htracks with
  | within sender first rest index hindex hlinked =>
      exact .within sender first rest index hindex (linked_sent hlinked count)
  | done => exact .done

theorem Loses.sent {peer : EncryptedRelayPeer} {assembly : Assembly} {arriving : List RelayFrame}
    (hloses : Loses peer assembly arriving) (count : Nat) :
    Loses (peer.sent count) assembly arriving := by
  cases hloses with
  | lost sender message records index hfits hpos hindex hlinked =>
      exact .lost sender message records index hfits hpos hindex (linked_sent hlinked count)

theorem Loses.arriving_ne_nil {peer : EncryptedRelayPeer} {assembly : Assembly}
    {arriving : List RelayFrame} (hloses : Loses peer assembly arriving) : arriving ≠ [] := by
  cases hloses with
  | lost sender message records index hfits hpos hindex hlinked =>
      rw [Position.drop_records hindex]
      exact List.cons_ne_nil _ _

theorem Loses.assembly_eq {peer : EncryptedRelayPeer} {assembly : Assembly}
    {arriving : List RelayFrame} (hloses : Loses peer assembly arriving) : assembly = .empty := by
  cases hloses
  rfl

/-- A call that is dropped loses the chunks that it has. -/
theorem Tracks.dropped {wire : Wire In} {peer : EncryptedRelayPeer}
    {sent : List (MessageId × In)} {assembly : Assembly} {arriving : List RelayFrame}
    (hcarries : ∀ other ∈ sent, wire.Carries other.2)
    (htracks : Tracks wire peer sent assembly arriving) (hbegun : assembly ≠ .empty) :
    Loses peer .empty arriving := by
  cases htracks with
  | within sender first rest index hindex hlinked =>
      have hpos : 0 < index := by
        rcases Nat.eq_zero_or_pos index with rfl | hpos
        · exact absurd rfl hbegun
        · exact hpos
      exact .lost sender _ _ index (fits_envelope (hcarries first List.mem_cons_self)) hpos hindex
        hlinked
  | done => exact absurd rfl hbegun

theorem send_of_fits {body : Out} (hfits : pump.outgoing.Fits body) (id : MessageId) :
    state.send pump body id =
      { state with
        peer := state.peer.sent (envelope pump.outgoing (id, body)).total
        carried := state.carried ++
          state.peer.framesOf (envelope pump.outgoing (id, body)).records } := by
  have hbytes : (envelope pump.outgoing (id, body)).Fits := hfits
  have hsent := EncryptedRelayPeer.sendBytes_eq state.peer hbytes
  rw [send, Wire.encode_of_fits hfits]
  simp only
  rw [envelope] at hsent ⊢
  rw [hsent]

theorem send_of_not_fits {body : Out} (hfits : ¬pump.outgoing.Fits body) (id : MessageId) :
    state.send pump body id = state.fail (.frame .tooLarge) := by
  rw [send, Wire.encode_of_not_fits hfits]

theorem Tracks.complete {wire : Wire In} {peer : EncryptedRelayPeer}
    {sent : List (MessageId × In)} {assembly : Assembly} (htracks : Tracks wire peer sent assembly []) :
    sent = [] := by
  generalize harriving : [] = arriving at htracks
  cases htracks with
  | within sender first rest index hindex hlinked =>
      rw [Position.drop_records hindex] at harriving
      cases harriving
  | done => rfl

/-- A loop has got some of the messages that were still to come, and the others are
still to come. -/
structure Advances (pump : Pump Out In) (state : PumpState In) (sent : List (MessageId × In))
    (state' : PumpState In) (got later : List (MessageId × In)) : Prop where
  split : sent = got ++ later
  inbound : state'.inbound = state.inbound ++ handed pump got
  tracks : state'.ended = none →
    Tracks pump.incoming state'.peer later state'.assembly state'.arriving
  complete : state'.arriving = [] → later = []
  goes : ¬state'.Failed

theorem not_failed_of_goes (hgoes : state.ended = none) : ¬state.Failed := by
  rintro ⟨error, herror⟩
  rw [hgoes] at herror
  cases herror

theorem Advances.of_tracks {state' : PumpState In} {sent got later : List (MessageId × In)}
    (hsplit : sent = got ++ later) (hinbound : state'.inbound = state.inbound ++ handed pump got)
    (htracks : Tracks pump.incoming state'.peer later state'.assembly state'.arriving)
    (hgoes : ¬state'.Failed) : Advances pump state sent state' got later where
  split := hsplit
  inbound := hinbound
  tracks := fun _ => htracks
  complete := by
    intro harriving
    rw [harriving] at htracks
    exact htracks.complete
  goes := hgoes

theorem handed_nil (pump : Pump Out In) (inbound : List In) : inbound = inbound ++ handed pump [] :=
  (List.append_nil inbound).symm

/-- A chunk that is not the last is kept for the next. -/
theorem takeFrame_continues {message : Message} {index : Nat} {records : List (List UInt8)}
    (hfits : message.Fits) (hindex : index + 1 < message.total)
    (hlinked : EncryptedRelayPeer.Linked sender state.peer)
    (hassembly : state.assembly = message.assembly index)
    (harriving : state.arriving = sender.framesOf (message.records.drop index ++ records)) :
    state.takeFrame pump =
      { state with
        peer := state.peer.received
        assembly := message.assembly (index + 1)
        arriving := (sender.sent 1).framesOf (message.records.drop (index + 1) ++ records) } := by
  have hlt : index < message.total := Nat.lt_of_succ_lt hindex
  have hlength : (message.record index).length ≤ maxEncryptedRecordPlaintext :=
    Message.length_record_le
  have haccepts := hlinked.acceptFrame (message.assembly index) hlength
  rw [Message.append_assembly hfits hlt, if_neg (Nat.ne_of_lt hindex)] at haccepts
  rw [Position.drop_records hlt, List.cons_append, EncryptedRelayPeer.framesOf] at harriving
  simp only [takeFrame, harriving, hassembly, haccepts]

theorem takeFrame_lost (hloses : Loses state.peer state.assembly state.arriving) :
    (state.takeFrame pump).Failed ∧ (state.takeFrame pump).inbound = state.inbound := by
  generalize hframes : state.arriving = arriving at hloses
  generalize hassembly : state.assembly = assembly at hloses
  cases hloses with
  | lost sender message records index hfits hpos hindex hlinked =>
      have hlength : (message.record index).length ≤ maxEncryptedRecordPlaintext :=
        Message.length_record_le
      have haccepts := hlinked.acceptFrame .empty hlength
      rw [Message.append_empty hfits hpos hindex] at haccepts
      rw [Position.drop_records hindex, List.cons_append, EncryptedRelayPeer.framesOf] at hframes
      simp only [takeFrame, hframes, hassembly, haccepts]
      exact ⟨⟨_, rfl⟩, rfl⟩

theorem takeFrame_advances {sent : List (MessageId × In)} (hgoes : state.ended = none)
    (hcarries : ∀ other ∈ sent, pump.incoming.Carries other.2)
    (htracks : Tracks pump.incoming state.peer sent state.assembly state.arriving) :
    ∃ got later, Advances pump state sent (state.takeFrame pump) got later := by
  have hnone := not_failed_of_goes hgoes
  generalize harriving : state.arriving = arriving at htracks
  generalize hassembly : state.assembly = assembly at htracks
  cases htracks with
  | within sender first rest index hindex hlinked =>
      have hfirst := hcarries first List.mem_cons_self
      by_cases hlast : index + 1 = (envelope pump.incoming first).total
      · have hlength : ((envelope pump.incoming first).record index).length ≤
            maxEncryptedRecordPlaintext := Message.length_record_le
        have haccepts := hlinked.acceptFrame ((envelope pump.incoming first).assembly index) hlength
        rw [Message.append_assembly (fits_envelope hfirst) hindex, if_pos hlast] at haccepts
        rw [Position.drop_records hindex, List.cons_append, EncryptedRelayPeer.framesOf,
          Position.drop_records_last hlast] at harriving
        have hdecodes : pump.incoming.decode (envelope pump.incoming first).bytes = .ok first.2 :=
          hfirst.decode
        have htaken : state.takeFrame pump =
            { state with
              peer := state.peer.received
              assembly := .empty
              arriving := (sender.sent 1).framesOf
                ((rest.map (envelope pump.incoming)).flatMap Message.records)
              inbound := if pump.hands first.2 then state.inbound ++ [first.2] else state.inbound } := by
          simp only [takeFrame, harriving, hassembly, haccepts, receive, hdecodes, List.nil_append]
        rw [htaken]
        refine ⟨[first], rest, .of_tracks rfl ?_ (Tracks.between hlinked.next rest) hnone⟩
        by_cases hhands : pump.hands first.2 = true <;> simp [handed, hhands]
      · have hnext : index + 1 < (envelope pump.incoming first).total := by omega
        rw [takeFrame_continues (fits_envelope hfirst) hnext hlinked hassembly harriving]
        exact ⟨[], first :: rest, .of_tracks rfl (handed_nil pump _)
          (.within _ first rest (index + 1) hnext hlinked.next) hnone⟩
  | done =>
      have htaken : state.takeFrame pump = state := by
        simp only [takeFrame, harriving]
      rw [htaken]
      refine ⟨[], [], .of_tracks rfl (handed_nil pump _) ?_ hnone⟩
      rw [hassembly, harriving]
      exact .done

theorem send_advances {sent : List (MessageId × In)} {body : Out} (hgoes : state.ended = none)
    (htracks : Tracks pump.incoming state.peer sent state.assembly state.arriving)
    (hattends : state.assembly = .empty ∧ pump.outgoing.Fits body) (id : MessageId) :
    Advances pump state sent (state.dropReceive.send pump body id) [] sent := by
  rw [send_of_fits hattends.2]
  rw [hattends.1] at htracks
  exact .of_tracks rfl (handed_nil pump _) (htracks.sent _) (not_failed_of_goes hgoes)

theorem step_advances {sent : List (MessageId × In)} {event : PumpEvent Out}
    (hgoes : state.ended = none) (hcarries : ∀ other ∈ sent, pump.incoming.Carries other.2)
    (htracks : Tracks pump.incoming state.peer sent state.assembly state.arriving)
    (hattends : state.Attends pump event) :
    ∃ got later, Advances pump state sent (state.step pump event) got later := by
  cases event with
  | frame =>
      simp only [step, hgoes]
      exact takeFrame_advances hgoes hcarries htracks
  | outbound body id =>
      simp only [step, hgoes]
      exact ⟨[], sent, send_advances hgoes htracks hattends id⟩
  | closed =>
      simp only [step, hgoes]
      refine ⟨[], sent, rfl, handed_nil pump _, nofun, ?_, ?_⟩
      · intro harriving
        change state.arriving = [] at harriving
        rw [harriving] at htracks
        exact htracks.complete
      · rintro ⟨error, herror⟩
        cases herror
  | tick id =>
      cases hheartbeat : pump.heartbeat with
      | none =>
          simp only [step, hgoes, hheartbeat]
          exact ⟨[], sent, .of_tracks rfl (handed_nil pump _) htracks (not_failed_of_goes hgoes)⟩
      | some heartbeat =>
          simp only [step, hgoes, hheartbeat]
          exact ⟨[], sent, send_advances hgoes htracks (hattends heartbeat hheartbeat) id⟩

/-- A loop that sends while it receives a message, or sends what does not fit, has
failed or lost the beginning of the message. -/
theorem send_loses {sent : List (MessageId × In)} {body : Out} (hgoes : state.ended = none)
    (hcarries : ∀ other ∈ sent, pump.incoming.Carries other.2)
    (htracks : Tracks pump.incoming state.peer sent state.assembly state.arriving)
    (hcareless : ¬(state.assembly = .empty ∧ pump.outgoing.Fits body)) (id : MessageId) :
    (state.dropReceive.send pump body id).Failed ∨
      (state.dropReceive.send pump body id).ended = none ∧
        Loses (state.dropReceive.send pump body id).peer
          (state.dropReceive.send pump body id).assembly
          (state.dropReceive.send pump body id).arriving := by
  by_cases hfits : pump.outgoing.Fits body
  · have hbegun : state.assembly ≠ .empty := fun hempty => hcareless ⟨hempty, hfits⟩
    rw [send_of_fits hfits]
    exact .inr ⟨hgoes, (htracks.dropped hcarries hbegun).sent _⟩
  · rw [send_of_not_fits hfits]
    exact .inl ⟨_, rfl⟩

theorem step_careless {sent : List (MessageId × In)} {event : PumpEvent Out}
    (hgoes : state.ended = none) (hcarries : ∀ other ∈ sent, pump.incoming.Carries other.2)
    (htracks : Tracks pump.incoming state.peer sent state.assembly state.arriving)
    (hcareless : ¬state.Attends pump event) :
    (state.step pump event).Failed ∨ (state.step pump event).ended = none ∧
      Loses (state.step pump event).peer (state.step pump event).assembly
        (state.step pump event).arriving := by
  cases event with
  | frame => exact absurd trivial hcareless
  | closed => exact absurd trivial hcareless
  | outbound body id =>
      simp only [step, hgoes]
      exact send_loses hgoes hcarries htracks hcareless id
  | tick id =>
      cases hheartbeat : pump.heartbeat with
      | none => exact absurd (fun heartbeat hmem => by simp [hheartbeat] at hmem) hcareless
      | some heartbeat =>
          simp only [step, hgoes, hheartbeat]
          apply send_loses hgoes hcarries htracks
          intro hattends
          apply hcareless
          intro other hother
          rw [hheartbeat] at hother
          obtain rfl := Option.some.inj hother
          exact hattends

/-- What has been lost does not come back: the loop fails or leaves frames behind. -/
theorem step_loses {event : PumpEvent Out} (hgoes : state.ended = none)
    (hloses : Loses state.peer state.assembly state.arriving) :
    (state.step pump event).Failed ∨ (state.step pump event).arriving ≠ [] ∧
      ((state.step pump event).ended = none → Loses (state.step pump event).peer
        (state.step pump event).assembly (state.step pump event).arriving) := by
  have harriving := hloses.arriving_ne_nil
  have hempty := hloses.assembly_eq
  have hsends : ∀ body id, (state.dropReceive.send pump body id).Failed ∨
      (state.dropReceive.send pump body id).arriving ≠ [] ∧
        ((state.dropReceive.send pump body id).ended = none →
          Loses (state.dropReceive.send pump body id).peer
            (state.dropReceive.send pump body id).assembly
            (state.dropReceive.send pump body id).arriving) := by
    intro body id
    by_cases hfits : pump.outgoing.Fits body
    · rw [send_of_fits hfits]
      rw [hempty] at hloses
      exact .inr ⟨harriving, fun _ => hloses.sent _⟩
    · rw [send_of_not_fits hfits]
      exact .inl ⟨_, rfl⟩
  cases event with
  | frame =>
      simp only [step, hgoes]
      exact .inl (takeFrame_lost hloses).1
  | outbound body id =>
      simp only [step, hgoes]
      exact hsends body id
  | closed =>
      simp only [step, hgoes]
      exact .inr ⟨harriving, nofun⟩
  | tick id =>
      cases hheartbeat : pump.heartbeat with
      | none =>
          simp only [step, hgoes, hheartbeat]
          exact .inr ⟨harriving, fun _ => hloses⟩
      | some heartbeat =>
          simp only [step, hgoes, hheartbeat]
          exact hsends heartbeat id

end Steps

/-! ## Whole runs -/

section Runs

variable {Out In : Type} {pump : Pump Out In} {state : PumpState In} {sender : EncryptedRelayPeer}

theorem run_ended (events : List (PumpEvent Out)) (hended : state.ended ≠ none) :
    state.run pump events = state := by
  have hstays : ∀ event, state.step pump event = state := by
    intro event
    simp only [step]
    split
    · rfl
    · next hgoes => exact absurd hgoes hended
  induction events with
  | nil => rfl
  | cons event events ih =>
      rw [run, List.foldl_cons, hstays]
      exact ih

theorem attentive_ended (events : List (PumpEvent Out)) (hended : state.ended ≠ none) :
    Attentive pump state events := by
  induction events generalizing state with
  | nil => trivial
  | cons event events ih =>
      refine ⟨fun hgoes => absurd hgoes hended, ?_⟩
      have hstays : state.step pump event = state := run_ended [event] hended
      rw [hstays]
      exact ih hended

theorem run_loses (events : List (PumpEvent Out)) (hgoes : state.ended = none)
    (hloses : Loses state.peer state.assembly state.arriving) :
    (state.run pump events).Failed ∨ (state.run pump events).arriving ≠ [] := by
  induction events generalizing state with
  | nil => exact .inr hloses.arriving_ne_nil
  | cons event events ih =>
      rw [run, List.foldl_cons]
      change (PumpState.run pump (state.step pump event) events).Failed ∨
        (PumpState.run pump (state.step pump event) events).arriving ≠ []
      have hstep : (state.step pump event).Failed ∨ (state.step pump event).arriving ≠ [] ∧
          ((state.step pump event).ended = none → Loses (state.step pump event).peer
            (state.step pump event).assembly (state.step pump event).arriving) :=
        step_loses hgoes hloses
      rcases hstep with hfailed | ⟨harriving, hnext⟩
      · left
        obtain ⟨error, herror⟩ := hfailed
        rw [run_ended events (by simp [herror])]
        exact ⟨error, herror⟩
      · cases hended : (state.step pump event).ended with
        | none => exact ih hended (hnext hended)
        | some outcome =>
            rw [run_ended events (by simp [hended])]
            exact .inr harriving

theorem Advances.trans {sent got later more last : List (MessageId × In)} {state' state'' : PumpState In}
    (hfirst : Advances pump state sent state' got later)
    (hsecond : Advances pump state' later state'' more last) :
    Advances pump state sent state'' (got ++ more) last where
  split := by rw [hfirst.split, hsecond.split, List.append_assoc]
  inbound := by
    rw [hsecond.inbound, hfirst.inbound, handed, handed, handed, List.map_append, List.filter_append,
      List.append_assoc]
  tracks := hsecond.tracks
  complete := hsecond.complete
  goes := hsecond.goes

theorem run_advances {sent : List (MessageId × In)} (events : List (PumpEvent Out))
    (hgoes : state.ended = none) (hcarries : ∀ other ∈ sent, pump.incoming.Carries other.2)
    (htracks : Tracks pump.incoming state.peer sent state.assembly state.arriving)
    (hattentive : Attentive pump state events) :
    ∃ got later, Advances pump state sent (state.run pump events) got later := by
  induction events generalizing state sent with
  | nil =>
      exact ⟨[], sent, .of_tracks rfl (handed_nil pump _) htracks (not_failed_of_goes hgoes)⟩
  | cons event events ih =>
      obtain ⟨hattends, hrest⟩ := hattentive
      obtain ⟨got, later, hstep⟩ := step_advances hgoes hcarries htracks (hattends hgoes)
      rw [run, List.foldl_cons]
      cases hended : (state.step pump event).ended with
      | none =>
          have hlater : ∀ other ∈ later, pump.incoming.Carries other.2 := by
            intro other hother
            apply hcarries
            rw [hstep.split]
            exact List.mem_append_right _ hother
          obtain ⟨more, last, hruns⟩ := ih hended hlater (hstep.tracks hended) hrest
          exact ⟨got ++ more, last, hstep.trans hruns⟩
      | some outcome =>
          have hstays : (state.step pump event).run pump events = state.step pump event :=
            run_ended events (by simp [hended])
          rw [run] at hstays
          rw [hstays]
          exact ⟨got, later, hstep⟩

/-- A step that does not attend to the message costs the run a message. -/
theorem run_careless {sent : List (MessageId × In)} (events : List (PumpEvent Out))
    (hgoes : state.ended = none) (hcarries : ∀ other ∈ sent, pump.incoming.Carries other.2)
    (htracks : Tracks pump.incoming state.peer sent state.assembly state.arriving)
    (hcareless : ¬Attentive pump state events) :
    (state.run pump events).Failed ∨ (state.run pump events).arriving ≠ [] := by
  induction events generalizing state sent with
  | nil => exact absurd trivial hcareless
  | cons event events ih =>
      rw [run, List.foldl_cons]
      change ((state.step pump event).run pump events).Failed ∨
        ((state.step pump event).run pump events).arriving ≠ []
      by_cases hattends : state.Attends pump event
      · obtain ⟨got, later, hstep⟩ := step_advances hgoes hcarries htracks hattends
        have hrest : ¬Attentive pump (state.step pump event) events := fun hrest =>
          hcareless ⟨fun _ => hattends, hrest⟩
        cases hended : (state.step pump event).ended with
        | none =>
            have hlater : ∀ other ∈ later, pump.incoming.Carries other.2 := by
              intro other hother
              apply hcarries
              rw [hstep.split]
              exact List.mem_append_right _ hother
            exact ih hended hlater (hstep.tracks hended) hrest
        | some outcome => exact absurd (attentive_ended events (by simp [hended])) hrest
      · rcases step_careless hgoes hcarries htracks hattends with ⟨error, herror⟩ | ⟨hnone, hloses⟩
        · rw [run_ended events (by simp [herror])]
          exact .inl ⟨error, herror⟩
        · exact run_loses events hnone hloses

/-- A timer that ticks after the first of several chunks. -/
theorem interrupted_fails {message : Message} {records : List (List UInt8)} {heartbeat : Out}
    (hfits : message.Fits) (htotal : 1 < message.total)
    (hlinked : EncryptedRelayPeer.Linked sender state.peer) (hgoes : state.ended = none)
    (hassembly : state.assembly = .empty)
    (harriving : state.arriving = sender.framesOf (message.records ++ records))
    (hheartbeat : pump.heartbeat = some heartbeat) (hsends : pump.outgoing.Fits heartbeat)
    (id : MessageId) :
    (state.run pump [.frame, .tick id, .frame]).Failed ∧
      (state.run pump [.frame, .tick id, .frame]).inbound = state.inbound := by
  have hfirst := @takeFrame_continues _ _ pump state sender message 0 records hfits htotal hlinked
    hassembly harriving
  have hloses : Loses (state.peer.received.sent (envelope pump.outgoing (id, heartbeat)).total) .empty
      ((sender.sent 1).framesOf (message.records.drop 1 ++ records)) :=
    .lost _ message records 1 hfits Nat.one_pos htotal (linked_sent hlinked.next _)
  have hframe : ∀ other : PumpState In, other.ended = none →
      other.step pump .frame = other.takeFrame pump := by
    intro other hother
    simp only [step, hother]
  have htick : ∀ other : PumpState In, other.ended = none →
      other.step pump (.tick id) = other.dropReceive.send pump heartbeat id := by
    intro other hother
    simp only [step, hother, hheartbeat]
  rw [run, List.foldl_cons, List.foldl_cons, List.foldl_cons, List.foldl_nil, hframe _ hgoes, hfirst,
    htick, send_of_fits hsends, hframe]
  · exact takeFrame_lost hloses
  · exact hgoes
  · exact hgoes

/-- A loop that sends only between two messages, and only what fits a frame, hands on
what the peer has sent, in order, and does not fail.  A run that has got every frame or
failed has handed on all of it without failing only if it has kept to that. -/
theorem link_delivers {receiver : EncryptedRelayPeer} {sent : List (MessageId × In)}
    (hlinked : EncryptedRelayPeer.Linked sender receiver)
    (hcarries : ∀ other ∈ sent, pump.incoming.Carries other.2) (events : List (PumpEvent Out)) :
    ∃ frames sender', sender.sendAll (sent.map (envelope pump.incoming)) = .ok (frames, sender') ∧
      let first := start receiver frames
      let final := first.run pump events
      (Attentive pump first events →
        final.inbound <+: (sent.map Prod.snd).filter pump.hands ∧ ¬final.Failed) ∧
      (final.arriving = [] ∨ final.Failed →
        (final.inbound = (sent.map Prod.snd).filter pump.hands ∧ ¬final.Failed ↔
          Attentive pump first events)) := by
  have hfits : ∀ message ∈ sent.map (envelope pump.incoming), message.Fits := by
    intro message hmessage
    obtain ⟨other, hother, rfl⟩ := List.mem_map.mp hmessage
    exact fits_envelope (hcarries other hother)
  refine ⟨_, _, EncryptedRelayPeer.sendAll_eq sender hfits, ?_⟩
  intro first final
  have htracks : Tracks pump.incoming first.peer sent first.assembly first.arriving :=
    Tracks.between hlinked sent
  have hattends : Attentive pump first events → ∃ got later, Advances pump first sent final got later :=
    run_advances events rfl hcarries htracks
  constructor
  · intro hattentive
    obtain ⟨got, later, hadvances⟩ := hattends hattentive
    refine ⟨?_, hadvances.goes⟩
    rw [hadvances.inbound, hadvances.split, List.map_append, List.filter_append]
    exact List.prefix_append _ _
  · intro htaken
    constructor
    · rintro ⟨-, hgoes⟩
      by_contra hcareless
      rcases run_careless events rfl hcarries htracks hcareless with hfailed | harriving
      · exact hgoes hfailed
      · exact harriving (htaken.resolve_right hgoes)
    · intro hattentive
      obtain ⟨got, later, hadvances⟩ := hattends hattentive
      refine ⟨?_, hadvances.goes⟩
      have hlater := hadvances.complete (htaken.resolve_right hadvances.goes)
      rw [hadvances.inbound, hadvances.split, hlater, List.append_nil]
      rfl

end Runs

end PumpState

/-! ## A bridge that loses a request -/

namespace LostRequest

open PumpState EncryptedRelayPeer

def ascii (text : String) : List UInt8 := text.toList.map fun char => UInt8.ofNat char.toNat

/-- The bodies of an envelope as they are written. -/
abbrev Envelope := PeerEnvelope (List UInt8) (List UInt8) (List UInt8) (List UInt8)

def variant (name : String) (fields : List UInt8) : List UInt8 :=
  ascii "\x7b\"type\":\"" ++ ascii name ++ ascii "\"," ++ fields ++ ascii "\x7d"

def envelopeJson : Envelope → List UInt8
  | .heartbeat nonce => variant "heartbeat" (ascii "\"nonce\":" ++ ascii (toString nonce))
  | .toolRequest body => variant "tool_request" (ascii "\"body\":" ++ body)
  | .toolResponse body => variant "tool_response" (ascii "\"body\":" ++ body)
  | .clientRequest requestId body =>
      variant "client_request"
        (ascii "\"request_id\":\"" ++ ascii requestId.asStr ++ ascii "\",\"body\":" ++ body)
  | .clientResponse requestId body =>
      variant "client_response"
        (ascii "\"request_id\":\"" ++ ascii requestId.asStr ++ ascii "\",\"body\":" ++ body)

def toVec (frame : HostFrame Envelope) : List UInt8 :=
  ascii "\x7b\"version\":" ++ ascii (toString frame.version) ++ ascii ",\"body\":" ++
    envelopeJson frame.body ++ ascii "\x7d"

/-- Reads back the frame that the peer sends. -/
def wire (sent : Envelope) : Wire Envelope where
  toVec
  fromSlice := fun bytes => if bytes = toVec (.new sent) then some (.new sent) else none

/-- A tool call with an argument of `length` letters. -/
def request (length : Nat) : Envelope :=
  .toolRequest (variant "execute_tool"
    (ascii "\"arguments\":\"" ++ List.replicate length 120 ++ ascii "\""))

theorem length_zeros : (List.replicate 16 (0 : UInt8)).length = 16 := List.length_replicate

def id : MessageId := ⟨List.replicate 16 0, length_zeros⟩

theorem length_request (length : Nat) :
    (toVec (.new (request length))).length = length + 90 := by
  have hascii : ∀ text : String, (ascii text).length = text.toList.length := fun text => by
    simp [ascii]
  simp only [toVec, HostFrame.new, request, envelopeJson, variant, List.length_append,
    List.length_replicate, hascii]
  have hversion : (toString hostProtocolVersion).toList.length = 1 := by decide
  rw [hversion]
  simp
  omega

theorem length_heartbeat : (toVec (.new (.heartbeat 0))).length ≤ maxHostFrameBytes := by decide

theorem carries_request {length : Nat} (hlength : length + 90 ≤ maxHostFrameBytes) :
    (wire (request length)).Carries (request length) where
  fits := by
    rw [Wire.Fits, wire, length_request]
    exact hlength
  reads := by
    simp only [wire, if_true]

def sent (length : Nat) : List (MessageId × Envelope) := [(id, request length)]

theorem carries_sent {length : Nat} (hlength : length + 90 ≤ maxHostFrameBytes) :
    ∀ other ∈ sent length, (wire (request length)).Carries other.2 := by
  intro other hother
  obtain rfl := List.mem_singleton.mp hother
  exact carries_request hlength

def sender : EncryptedRelayPeer := numbered "host" "hub" 3 2

def receiver : EncryptedRelayPeer := numbered "hub" "host" 2 3

def arriving (length : Nat) : List RelayFrame :=
  sender.framesOf (((sent length).map (envelope (wire (request length)))).flatMap Message.records)

/-- The bridge sends a heartbeat between the first two chunks of a request. -/
theorem fails_of_heartbeat {length : Nat} (hlarge : chunkSize < length + 90)
    (hlength : length + 90 ≤ maxHostFrameBytes) :
    let pump := runPeerBridge (wire (request length))
    let final := (PumpState.start receiver (arriving length)).run pump [.frame, .tick id, .frame]
    final.Failed ∧ final.inbound = [] := by
  intro pump final
  have hcarries := carries_sent hlength
  have hfits : (envelope (wire (request length)) (id, request length)).Fits :=
    fits_envelope (hcarries _ List.mem_cons_self)
  have htotal : 1 < (envelope (wire (request length)) (id, request length)).total := by
    have hbytes : (envelope (wire (request length)) (id, request length)).bytes.length =
        length + 90 := length_request length
    rw [Message.total, hbytes]
    by_contra hle
    have hcount := (Chunks.count_le_iff chunkSize_pos).mp (Nat.le_of_not_lt hle)
    omega
  have harriving : (@PumpState.start Envelope receiver (arriving length)).arriving = sender.framesOf
      ((envelope (wire (request length)) (id, request length)).records ++ []) := by
    rw [arriving_start, arriving, sent, List.map_singleton, List.flatMap_singleton, List.append_nil]
  have hsends : pump.outgoing.Fits (.heartbeat 0) := length_heartbeat
  exact @interrupted_fails _ _ pump (.start receiver (arriving length)) sender _ [] (.heartbeat 0)
    hfits htotal linked_numbered rfl rfl harriving rfl hsends id

/-- A request of two chunks arrives, and the bridge fails without handing it on. -/
theorem request_lost :
    let pump := runPeerBridge (wire (request 50000))
    let final := (PumpState.start receiver (arriving 50000)).run pump [.frame, .tick id, .frame]
    Linked sender receiver ∧ (∀ other ∈ sent 50000, pump.incoming.Carries other.2) ∧
    (∃ sender', sender.sendAll ((sent 50000).map (envelope pump.incoming)) =
      .ok (arriving 50000, sender')) ∧
    ((sent 50000).map Prod.snd).filter pump.hands = [request 50000] ∧
    final.Failed ∧ final.inbound = [] := by
  have hcarries := @carries_sent 50000 (by decide)
  refine ⟨linked_numbered, hcarries, ⟨_, sendAll_eq sender ?_⟩, rfl, ?_⟩
  · intro other hother
    obtain ⟨first, hfirst, rfl⟩ := List.mem_map.mp hother
    exact fits_envelope (hcarries first hfirst)
  · exact fails_of_heartbeat (by decide) (by decide)

/-- A request that fits a chunk, and a heartbeat after it. -/
theorem link_delivers_request :
    let pump := runPeerBridge (wire (request 0))
    ∃ frames sender', sender.sendAll ((sent 0).map (envelope pump.incoming)) = .ok (frames, sender') ∧
      let first := PumpState.start receiver frames
      let final := first.run pump [.frame, .tick id]
      (Attentive pump first [.frame, .tick id] →
        final.inbound <+: ((sent 0).map Prod.snd).filter pump.hands ∧ ¬final.Failed) ∧
      (final.arriving = [] ∨ final.Failed →
        (final.inbound = ((sent 0).map Prod.snd).filter pump.hands ∧ ¬final.Failed ↔
          Attentive pump first [.frame, .tick id])) :=
  link_delivers linked_numbered (carries_sent (by decide)) [.frame, .tick id]

end LostRequest

end Transport

end Mews
