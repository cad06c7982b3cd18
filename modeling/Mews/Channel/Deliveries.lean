import Mews.Core.LeadsTo
import Mews.Channel.Dispatcher

/-!
# The deliveries of a Channel

The queue in front of the dispatcher, the permits of the queue, and the runs of
both.  A delivery is accepted when it enters the queue, with a permit that it
holds until the dispatcher reports what became of it.
-/

namespace Mews.Channel

inductive Status where
  | running
  | returned
  /-- A deadline lies beyond what the clock can represent. -/
  | panicked
  deriving DecidableEq, Repr

/-- What the dispatcher waits for. -/
inductive Event where
  | shutdownChanged (stop : Bool)
  | completed (delivery : Delivery) (outcome : DeliveryOutcome) (now : Instant)
  | received
  | slept (now : Instant)
  deriving DecidableEq, Repr

inductive Action where
  | acquire
  | release
  | send (eventId : String) (destination : DestinationKey) (event : OutboundEvent)
  /-- The last sender of the queue is dropped. -/
  | disconnect
  /-- One event, and the head of the loop up to the next wait. -/
  | turn (event : Event) (next : Instant)
  | idle
  deriving DecidableEq, Repr

def diagnostic (delivery : Delivery) (outcome : TerminalDeliveryOutcome) : DeliveryDiagnostic where
  idempotencyKey := delivery.eventId
  conversation := delivery.destination.conversation
  outcome

/-- `available` counts the free permits and `acquired` those of senders that have not
sent yet.  `received` and `settled` are the history of the dispatcher. -/
structure System extends Dispatcher where
  status : Status
  available : ℕ
  acquired : ℕ
  senders : Bool
  incoming : List Delivery
  received : List Delivery
  settled : List (Delivery × TerminalDeliveryOutcome)

namespace System

def initial (config : ChannelConfig) : System where
  toDispatcher := Dispatcher.initial
  status := .running
  available := config.pendingDeliveries
  acquired := 0
  senders := true
  incoming := []
  received := []
  settled := []

/-- The deliveries that have entered the queue, in their order. -/
def accepted (state : System) : List Delivery := state.received ++ state.incoming

def outcomes (state : System) : List DeliveryDiagnostic :=
  state.settled.map fun settlement => diagnostic settlement.1 settlement.2

/-- The delivery is dropped with its permit once its outcome is reported. -/
def settle (state : System) (delivery : Delivery) (outcome : TerminalDeliveryOutcome) : System :=
  { state with
    toDispatcher := state.toDispatcher.finish delivery
    available := state.available + 1
    settled := state.settled ++ [(delivery, outcome)] }

/-- The end of the loop body. -/
def finishTurn (state : System) : System :=
  if state.drained then { state with status := .returned } else state

variable (latest : Instant)

/-- What the loop does with an event; `latest` is the last instant of the clock. -/
def react (state : System) : Event → Option System
  | .shutdownChanged stop =>
      some (if stop then { state with status := .returned } else state.finishTurn)
  | .completed delivery outcome now =>
      if delivery ∈ state.sends then
        match outcome with
        | .retryAfter delay =>
            some (if now + delay ≤ latest then
              finishTurn { state with
                toDispatcher := state.toDispatcher.postpone delivery (now + delay) }
            else { state with status := .panicked })
        | .delivered receipt => some (state.settle delivery (.delivered receipt)).finishTurn
        | .dropped reason => some (state.settle delivery (.dropped reason)).finishTurn
      else none
  | .received =>
      if state.incomingOpen then
        match state.incoming with
        | delivery :: incoming =>
            some (finishTurn { state with
              toDispatcher := state.toDispatcher.receive delivery
              incoming := incoming
              received := state.received ++ [delivery] })
        | [] =>
            if state.senders then none
            else some { state with incomingOpen := false }
      else none
  | .slept now =>
      -- the select is biased: the timer is looked at after the queue
      if (∃ timer ∈ state.delayed, timer.1 ≤ now) ∧
          (state.incomingOpen = true → state.incoming = [] ∧ state.senders = true) then
        some state.finishTurn
      else none

variable (config : ChannelConfig)

def step (state : System) : Action → Option System
  | .acquire =>
      if state.status = .running ∧ 0 < state.available then
        some { state with available := state.available - 1, acquired := state.acquired + 1 }
      else none
  | .release =>
      if state.status = .running ∧ 0 < state.acquired then
        some { state with available := state.available + 1, acquired := state.acquired - 1 }
      else none
  | .send eventId destination event =>
      if state.status = .running ∧ 0 < state.acquired ∧ state.senders = true ∧
          state.incoming.length < config.pendingDeliveries then
        some { state with
          acquired := state.acquired - 1
          incoming := state.incoming ++ [{
            eventId, destination, event
            attempt := 1
            capacity := ⟨state.accepted.length⟩ }] }
      else none
  | .disconnect => some { state with senders := false }
  | .turn event next =>
      if state.status = .running then
        (state.react latest event).map fun reached =>
          if reached.status = .running then
            { reached with
              toDispatcher := reached.toDispatcher.dispatch config.deliveryWorkers next }
          else reached
      else none
  | .idle => some state

/-! ## What every step keeps -/

/-- What an event does. -/
inductive Reacts (latest : Instant) (state : System) : Event → System → Prop
  | stopped : Reacts latest state (.shutdownChanged true) { state with status := .returned }
  | ignored : Reacts latest state (.shutdownChanged false) state.finishTurn
  | settled {delivery : Delivery} {outcome : DeliveryOutcome} {now : Instant}
      {terminal : TerminalDeliveryOutcome} (hdelivery : delivery ∈ state.sends) :
      Reacts latest state (.completed delivery outcome now)
        (state.settle delivery terminal).finishTurn
  | postponed {delivery : Delivery} {delay : Duration} {now : Instant}
      (hdelivery : delivery ∈ state.sends) (hdelay : now + delay ≤ latest) :
      Reacts latest state (.completed delivery (.retryAfter delay) now)
        (finishTurn { state with
          toDispatcher := state.toDispatcher.postpone delivery (now + delay) })
  | panicked {delivery : Delivery} {delay : Duration} {now : Instant}
      (hdelay : ¬now + delay ≤ latest) :
      Reacts latest state (.completed delivery (.retryAfter delay) now)
        { state with status := .panicked }
  | received {delivery : Delivery} {incoming : List Delivery}
      (hincoming : state.incoming = delivery :: incoming) :
      Reacts latest state .received (finishTurn { state with
        toDispatcher := state.toDispatcher.receive delivery
        incoming := incoming
        received := state.received ++ [delivery] })
  | closed (hincoming : state.incoming = []) (hsenders : state.senders = false) :
      Reacts latest state .received { state with incomingOpen := false }
  | slept {now : Instant} (hqueue : state.incomingOpen = true → state.incoming = []) :
      Reacts latest state (.slept now) state.finishTurn

theorem reacts_of_react {latest : Instant} {state reached : System} {event : Event}
    (hreact : state.react latest event = some reached) : Reacts latest state event reached := by
  unfold react at hreact
  cases event with
  | shutdownChanged stop =>
      obtain rfl := Option.some.inj hreact
      cases stop with
      | true => exact .stopped
      | false => exact .ignored
  | completed delivery outcome now =>
      dsimp only at hreact
      split at hreact
      case isFalse => cases hreact
      case isTrue hdelivery =>
        cases outcome with
        | delivered receipt =>
            obtain rfl := Option.some.inj hreact
            exact .settled hdelivery
        | dropped reason =>
            obtain rfl := Option.some.inj hreact
            exact .settled hdelivery
        | retryAfter delay =>
            obtain rfl := Option.some.inj hreact
            split
            case isTrue hdelay => exact .postponed hdelivery hdelay
            case isFalse hdelay => exact .panicked hdelay
  | received =>
      dsimp only at hreact
      split at hreact
      case isFalse => cases hreact
      case isTrue =>
        split at hreact
        case h_1 delivery incoming hincoming =>
          obtain rfl := Option.some.inj hreact
          exact .received hincoming
        case h_2 hincoming =>
          split at hreact
          case isTrue => cases hreact
          case isFalse hsenders =>
            obtain rfl := Option.some.inj hreact
            exact .closed hincoming (Bool.eq_false_of_not_eq_true hsenders)
  | slept now =>
      dsimp only at hreact
      split at hreact
      case isFalse => cases hreact
      case isTrue hguard =>
        obtain rfl := Option.some.inj hreact
        exact .slept fun hopen => (hguard.2 hopen).1

variable {config}

/-- What has been reported for a destination, in the order it was reported in. -/
def settledTo (state : System) (key : DestinationKey) : List Delivery :=
  (state.settled.map Prod.fst).filter fun delivery => delivery.destination = key

/-- What holds at any point of the loop.  A delivery that the dispatcher has received is
reported or still there, in the order of its destination. -/
structure Kept (config : ChannelConfig) (state : System) : Prop where
  consistent : state.toDispatcher.Consistent
  within_limit : state.sends.length ≤ config.deliveryWorkers
  queue : ∀ key, state.received.filter (fun delivery => delivery.destination = key) =
    (state.settledTo key ++ state.unsettled key).map Delivery.origin
  fresh : ∀ delivery ∈ state.accepted, delivery.origin = delivery
  numbered : state.accepted.map (fun delivery => delivery.capacity.number) =
    List.range state.accepted.length
  permits : state.available + state.acquired + state.accepted.length =
    config.pendingDeliveries + state.settled.length
  closed : state.incomingOpen = false → state.senders = false ∧ state.incoming = []

namespace Kept

variable {state : System} (hstate : state.Kept config)

include hstate

theorem dispatch (next : Instant) :
    Kept config { state with
      toDispatcher := state.toDispatcher.dispatch config.deliveryWorkers next } := by
  have hexpire : (state.toDispatcher.expire next).Consistent := hstate.consistent.expire
  constructor
  case consistent => exact hexpire.fill
  case within_limit => exact Dispatcher.dispatch_sends hstate.consistent hstate.within_limit
  case queue =>
    intro key
    rw [hstate.queue key]
    have hunsettled : (state.toDispatcher.dispatch config.deliveryWorkers next).unsettled key =
        state.unsettled key :=
      (hexpire.unsettled_fill key).trans (hstate.consistent.unsettled_expire key)
    exact congrArg (fun unsettled => (state.settledTo key ++ unsettled).map Delivery.origin)
      hunsettled.symm
  case fresh => exact hstate.fresh
  case numbered => exact hstate.numbered
  case permits => exact hstate.permits
  case closed =>
    intro hopen
    apply hstate.closed
    rw [← hopen]
    exact Dispatcher.dispatch_incomingOpen.symm

theorem settle {delivery : Delivery} (hdelivery : delivery ∈ state.sends)
    (outcome : TerminalDeliveryOutcome) : Kept config (state.settle delivery outcome) := by
  constructor
  case consistent => exact hstate.consistent.finish hdelivery
  case within_limit =>
    have hlength := List.length_erase_le (l := state.sends) (a := delivery)
    have hsends : (state.settle delivery outcome).sends = state.sends.erase delivery :=
      Dispatcher.sends_finish
    rw [hsends]
    exact hlength.trans hstate.within_limit
  case queue =>
    intro key
    have hunsettled := hstate.consistent.unsettled_finish hdelivery key
    have hsettled : (state.settle delivery outcome).settledTo key =
        state.settledTo key ++ if key = delivery.destination then [delivery] else [] := by
      unfold settledTo System.settle
      rw [List.map_append, List.filter_append]
      apply congrArg
      by_cases hkey : key = delivery.destination
      · simp [hkey]
      · simp [hkey, Ne.symm hkey]
    refine (hstate.queue key).trans ?_
    rw [hunsettled, hsettled]
    by_cases hkey : key = delivery.destination
    · rw [if_pos hkey, if_pos hkey, List.append_assoc, List.singleton_append]
      rfl
    · rw [if_neg hkey, if_neg hkey, List.append_nil]
      rfl
  case fresh => exact hstate.fresh
  case numbered => exact hstate.numbered
  case permits =>
    have hpermits := hstate.permits
    change state.available + 1 + state.acquired + state.accepted.length =
      config.pendingDeliveries + (state.settled ++ [(delivery, outcome)]).length
    rw [List.length_append, List.length_singleton]
    omega
  case closed =>
    intro hopen
    apply hstate.closed
    rw [← hopen]
    exact Dispatcher.incomingOpen_finish.symm

theorem postpone {delivery : Delivery} (hdelivery : delivery ∈ state.sends) (due : Instant) :
    Kept config { state with toDispatcher := state.toDispatcher.postpone delivery due } := by
  constructor
  case consistent => exact hstate.consistent.postpone hdelivery
  case within_limit =>
    have hlength := List.length_erase_le (l := state.sends) (a := delivery)
    exact hlength.trans hstate.within_limit
  case queue =>
    intro key
    have hunsettled : ((state.toDispatcher.postpone delivery due).unsettled key).map
        Delivery.origin = (state.unsettled key).map Delivery.origin :=
      hstate.consistent.unsettled_postpone hdelivery key
    rw [hstate.queue key, List.map_append, List.map_append, ← hunsettled]
    rfl
  case fresh => exact hstate.fresh
  case numbered => exact hstate.numbered
  case permits => exact hstate.permits
  case closed => exact hstate.closed

theorem receive {delivery : Delivery} {incoming : List Delivery}
    (hincoming : state.incoming = delivery :: incoming) :
    Kept config { state with
      toDispatcher := state.toDispatcher.receive delivery
      incoming := incoming
      received := state.received ++ [delivery] } := by
  have haccepted : state.received ++ [delivery] ++ incoming = state.accepted := by
    rw [accepted, hincoming, List.append_assoc, List.singleton_append]
  constructor
  case consistent => exact hstate.consistent.receive
  case within_limit =>
    rw [Dispatcher.receive_eq hstate.consistent]
    exact hstate.within_limit
  case queue =>
    intro key
    have hfresh : delivery.origin = delivery :=
      hstate.fresh delivery (by rw [← haccepted]; simp)
    have hunsettled : (state.toDispatcher.receive delivery).unsettled key =
        state.unsettled key ++ if key = delivery.destination then [delivery] else [] :=
      hstate.consistent.unsettled_receive key
    dsimp only
    rw [List.filter_append, hstate.queue key]
    refine Eq.trans ?_ (congrArg (fun unsettled => (state.settledTo key ++ unsettled).map
      Delivery.origin) hunsettled.symm)
    rw [← List.append_assoc, @List.map_append _ _ _ (state.settledTo key ++ state.unsettled key)]
    apply congrArg
    by_cases hkey : key = delivery.destination
    · simp [hkey, hfresh]
    · simp [hkey, Ne.symm hkey]
  case fresh =>
    change ∀ found ∈ state.received ++ [delivery] ++ incoming, found.origin = found
    rw [haccepted]
    exact hstate.fresh
  case numbered =>
    change (state.received ++ [delivery] ++ incoming).map _ =
      List.range (state.received ++ [delivery] ++ incoming).length
    rw [haccepted]
    exact hstate.numbered
  case permits =>
    change state.available + state.acquired + (state.received ++ [delivery] ++ incoming).length =
      config.pendingDeliveries + state.settled.length
    rw [haccepted]
    exact hstate.permits
  case closed =>
    intro hopen
    have hnone : state.incoming = [] := by
      apply And.right
      apply hstate.closed
      rw [← hopen, Dispatcher.receive_eq hstate.consistent]
    rw [hincoming] at hnone
    cases hnone

theorem status (status : Status) : Kept config { state with status := status } where
  consistent := hstate.consistent
  within_limit := hstate.within_limit
  queue := hstate.queue
  fresh := hstate.fresh
  numbered := hstate.numbered
  permits := hstate.permits
  closed := hstate.closed

theorem finishTurn : state.finishTurn.Kept config := by
  unfold System.finishTurn
  split
  · exact hstate.status .returned
  · exact hstate

theorem reacts {latest : Instant} {event : Event} {reached : System}
    (hreacts : Reacts latest state event reached) : reached.Kept config := by
  cases hreacts with
  | stopped => exact hstate.status .returned
  | ignored => exact hstate.finishTurn
  | settled hdelivery => exact (hstate.settle hdelivery _).finishTurn
  | postponed hdelivery => exact (hstate.postpone hdelivery _).finishTurn
  | panicked => exact hstate.status .panicked
  | received hincoming => exact (hstate.receive hincoming).finishTurn
  | closed hincoming hsenders =>
      exact { hstate with
        consistent := { hstate.consistent with }
        closed := fun _ => ⟨hsenders, hincoming⟩ }
  | slept => exact hstate.finishTurn

end Kept

/-- What holds whenever the loop waits: a destination is only kept waiting for the
limit. -/
structure Waiting (config : ChannelConfig) (state : System) : Prop extends Kept config state where
  filled : state.status = .running → state.sends.length < config.deliveryWorkers →
    state.ready = []

theorem waiting_initial : Waiting config (initial config) where
  consistent :=
    { active_iff := fun key => by simp [initial, Dispatcher.initial, Dispatcher.underway]
      underway_unique := List.nodup_nil
      ready_nodup := List.nodup_nil
      ready_iff := fun key => by
        simp [initial, Dispatcher.initial, Dispatcher.lane, laneOf]
      mem_lanes_iff := fun key => by
        simp [initial, Dispatcher.initial, Dispatcher.lane, laneOf]
      lane_destination := fun key delivery hdelivery => by
        simp [initial, Dispatcher.initial, Dispatcher.lane, laneOf] at hdelivery }
  within_limit := Nat.zero_le _
  queue := fun key => by
    simp [initial, Dispatcher.initial, Dispatcher.unsettled, Dispatcher.underway, settledTo,
      Dispatcher.lane, laneOf]
  fresh := fun delivery hdelivery => absurd hdelivery List.not_mem_nil
  numbered := rfl
  permits := rfl
  closed := fun hopen => by cases hopen
  filled := fun _ _ => rfl

theorem Waiting.step {latest : Instant} {state reached : System} {action : Action}
    (hstate : Waiting config state) (hstep : state.step latest config action = some reached) :
    Waiting config reached := by
  cases action with
  | acquire =>
      rw [System.step] at hstep
      split at hstep
      case isFalse => cases hstep
      case isTrue hguard =>
        obtain rfl := Option.some.inj hstep
        have hpermits := hstate.permits
        exact { hstate with
          permits := by
            change state.available - 1 + (state.acquired + 1) + state.accepted.length =
              config.pendingDeliveries + state.settled.length
            omega }
  | release =>
      rw [System.step] at hstep
      split at hstep
      case isFalse => cases hstep
      case isTrue hguard =>
        obtain rfl := Option.some.inj hstep
        have hpermits := hstate.permits
        exact { hstate with
          permits := by
            change state.available + 1 + (state.acquired - 1) + state.accepted.length =
              config.pendingDeliveries + state.settled.length
            omega }
  | send eventId destination event =>
      rw [System.step] at hstep
      split at hstep
      case isFalse => cases hstep
      case isTrue hguard =>
        obtain rfl := Option.some.inj hstep
        have hpermits := hstate.permits
        have haccepted : ∀ delivery : Delivery,
            state.received ++ (state.incoming ++ [delivery]) = state.accepted ++ [delivery] :=
          fun delivery => (List.append_assoc _ _ _).symm
        exact { hstate with
          fresh := by
            simp only [accepted, haccepted, List.mem_append, List.mem_singleton]
            intro delivery hdelivery
            obtain hdelivery | rfl := hdelivery
            · exact hstate.fresh delivery (List.mem_append.mpr hdelivery)
            · rfl
          numbered := by
            rw [accepted, haccepted, List.map_append, hstate.numbered, List.length_append,
              List.length_cons, List.length_nil, List.range_succ]
            rfl
          permits := by
            change state.available + (state.acquired - 1) +
              (state.received ++ (state.incoming ++ [_])).length =
                config.pendingDeliveries + state.settled.length
            rw [haccepted, List.length_append, List.length_cons, List.length_nil]
            omega
          closed := by
            intro hopen
            have hsenders := (hstate.closed hopen).1
            rw [hguard.2.2.1] at hsenders
            cases hsenders }
  | disconnect =>
      obtain rfl := Option.some.inj hstep
      exact { hstate with closed := fun hopen => ⟨rfl, (hstate.closed hopen).2⟩ }
  | turn event next =>
      rw [System.step] at hstep
      split at hstep
      case isFalse => cases hstep
      case isTrue =>
        obtain ⟨left, hreact, rfl⟩ := Option.map_eq_some_iff.mp hstep
        have hkept := hstate.toKept.reacts (reacts_of_react hreact)
        split
        case isTrue hrunning =>
          exact { hkept.dispatch next with
            filled := fun _ hlength => Dispatcher.fillFrom_ready _ _ hlength }
        case isFalse hstopped =>
          exact { hkept with filled := fun hrunning => absurd hrunning hstopped }
  | idle =>
      obtain rfl := Option.some.inj hstep
      exact hstate

end System

/-! ## Runs -/

/-- Any infinite run; `idle` stands for the time in which nothing happens. -/
structure Run (config : ChannelConfig) (latest : Instant) where
  state : ℕ → System
  action : ℕ → Action
  starts : state 0 = .initial config
  follows : ∀ n, (state n).step latest config (action n) = some (state (n + 1))

theorem Run.waiting {config : ChannelConfig} {latest : Instant} (run : Run config latest) (n : ℕ) :
    System.Waiting config (run.state n) := by
  induction n with
  | zero =>
      rw [run.starts]
      exact System.waiting_initial
  | succ n ih => exact ih.step (run.follows n)

end Mews.Channel
