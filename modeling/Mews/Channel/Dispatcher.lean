import Mathlib.Algebra.Group.Nat.Defs
import Mathlib.Data.List.AList
import Mathlib.Data.Finset.Basic

/-!
# The delivery dispatcher of a Channel

One loop sends what the Channel has for the platform.  Every destination has a
lane of its own, a destination with a delivery under way is active, and a
delivery that is to be retried waits for its timer outside its lane.  The loop
resumes what is due, starts sends up to its limit, and then waits for one event.
-/

namespace Mews.Channel

abbrev Instant := ℕ

abbrev Duration := ℕ

inductive OutboundEvent where
  | completedMessage (text : String)
  | streamingUpdate (text : String)
  | lifecycle (message : String)
  deriving DecidableEq, Repr

structure DeliveryReceipt where
  externalId : Option String
  deriving DecidableEq, Repr

inductive TerminalDeliveryOutcome where
  | delivered (receipt : DeliveryReceipt)
  | dropped (reason : String)
  deriving DecidableEq, Repr

structure DeliveryDiagnostic where
  idempotencyKey : String
  conversation : String
  outcome : TerminalDeliveryOutcome
  deriving DecidableEq, Repr

inductive DeliveryOutcome where
  | delivered (receipt : DeliveryReceipt)
  | retryAfter (delay : Duration)
  | dropped (reason : String)
  deriving DecidableEq, Repr

structure ChannelConfig where
  deliveryWorkers : ℕ
  pendingDeliveries : ℕ
  deriving DecidableEq, Repr

def ChannelConfig.validate (config : ChannelConfig) : Except String Unit :=
  if config.deliveryWorkers = 0 then
    .error "Channel delivery_workers must be greater than zero"
  else if config.pendingDeliveries < config.deliveryWorkers then
    .error "Channel pending_deliveries must be at least delivery_workers"
  else .ok ()

/-- A configuration that a runtime has been opened with. -/
structure ValidConfig extends ChannelConfig where
  valid : toChannelConfig.validate = .ok ()

theorem ValidConfig.deliveryWorkers_pos (config : ValidConfig) : 0 < config.deliveryWorkers := by
  have hvalid := config.valid
  unfold ChannelConfig.validate at hvalid
  split at hvalid
  · cases hvalid
  · omega

structure DestinationKey where
  conversation : String
  deriving DecidableEq, Repr

/-- The permit of the queue that a delivery holds; the number says in which order
the deliveries entered the queue. -/
structure Permit where
  number : ℕ
  deriving DecidableEq, Repr

structure Delivery where
  eventId : String
  destination : DestinationKey
  event : OutboundEvent
  attempt : ℕ
  capacity : Permit
  deriving DecidableEq, Repr

/-- `attempt.saturating_add(1)` of a `u32`. -/
def Delivery.again (delivery : Delivery) : Delivery :=
  { delivery with attempt := min (delivery.attempt + 1) (2 ^ 32 - 1) }

@[simp] theorem Delivery.again_destination (delivery : Delivery) :
    delivery.again.destination = delivery.destination := rfl

/-- The delivery as it was handed to the dispatcher. -/
def Delivery.origin (delivery : Delivery) : Delivery := { delivery with attempt := 1 }

@[simp] theorem Delivery.origin_again (delivery : Delivery) :
    delivery.again.origin = delivery.origin := rfl

@[simp] theorem Delivery.origin_destination (delivery : Delivery) :
    delivery.origin.destination = delivery.destination := rfl

@[simp] theorem Delivery.origin_capacity (delivery : Delivery) :
    delivery.origin.capacity = delivery.capacity := rfl

abbrev Lanes := AList fun _ : DestinationKey => List Delivery

/-- The lane of a destination, empty where there is none. -/
def laneOf (lanes : Lanes) (key : DestinationKey) : List Delivery :=
  (lanes.lookup key).getD []

/-- The variables of the loop. -/
structure Dispatcher where
  lanes : Lanes
  ready : List DestinationKey
  active : Finset DestinationKey
  delayed : List (Instant × Delivery)
  sends : List Delivery
  incomingOpen : Bool

namespace Dispatcher

def initial : Dispatcher where
  lanes := ∅
  ready := []
  active := ∅
  delayed := []
  sends := []
  incomingOpen := true

abbrev lane (state : Dispatcher) (key : DestinationKey) : List Delivery :=
  laneOf state.lanes key

/-- A retry that is due goes back to the front of its lane. -/
def resume (state : Dispatcher) (delivery : Delivery) : Dispatcher :=
  { state with
    active := state.active.erase delivery.destination
    ready := state.ready ++ [delivery.destination]
    lanes := state.lanes.insert delivery.destination
      (delivery :: state.lane delivery.destination) }

/-- What `swap_remove` leaves behind the removed element. -/
def backfill {R : Type} (rest : List R) : List R :=
  match rest.getLast? with
  | none => []
  | some last => last :: rest.dropLast

/-- `kept` stands before the index and `rest` from it on. -/
def expireFrom (now : Instant) : ℕ → List (Instant × Delivery) → List (Instant × Delivery) →
    Dispatcher → Dispatcher
  | steps + 1, kept, (due, delivery) :: rest, state =>
      if due ≤ now then expireFrom now steps kept (backfill rest) (state.resume delivery)
      else expireFrom now steps (kept ++ [(due, delivery)]) rest state
  | _, kept, rest, state => { state with delayed := kept ++ rest }

def expire (now : Instant) (state : Dispatcher) : Dispatcher :=
  expireFrom now state.delayed.length [] state.delayed state

/-- The sends that the loop starts, with the destinations still to look at. -/
def fillFrom (workerLimit : ℕ) : List DestinationKey → Dispatcher → Dispatcher
  | [], state => { state with ready := [] }
  | key :: ready, state =>
      if state.sends.length < workerLimit then
        if key ∈ state.active then fillFrom workerLimit ready state
        else
          match state.lane key with
          | [] => fillFrom workerLimit ready state
          | delivery :: lane =>
              fillFrom workerLimit ready { state with
                active := insert key state.active
                lanes := state.lanes.insert key lane
                sends := state.sends ++ [delivery] }
      else { state with ready := key :: ready }

def fill (workerLimit : ℕ) (state : Dispatcher) : Dispatcher :=
  fillFrom workerLimit state.ready state

/-- The head of the loop, up to the wait. -/
def dispatch (workerLimit : ℕ) (now : Instant) (state : Dispatcher) : Dispatcher :=
  fill workerLimit (expire now state)

/-- A send has ended and is not to be retried. -/
def finish (state : Dispatcher) (delivery : Delivery) : Dispatcher :=
  let key := delivery.destination
  let state := { state with
    sends := state.sends.erase delivery
    active := state.active.erase key }
  if state.lane key ≠ [] then { state with ready := state.ready ++ [key] }
  else { state with lanes := state.lanes.erase key }

/-- A send has ended and is to be retried. -/
def postpone (state : Dispatcher) (delivery : Delivery) (due : Instant) : Dispatcher :=
  { state with
    sends := state.sends.erase delivery
    delayed := state.delayed ++ [(due, delivery.again)] }

def receive (state : Dispatcher) (delivery : Delivery) : Dispatcher :=
  let key := delivery.destination
  let lane := state.lane key ++ [delivery]
  let state := { state with lanes := state.lanes.insert key lane }
  if key ∉ state.active ∧ lane.length = 1 then { state with ready := state.ready ++ [key] }
  else state

/-- The condition under which the loop returns. -/
def drained (state : Dispatcher) : Bool :=
  !state.incomingOpen && state.sends.isEmpty && state.delayed.isEmpty &&
    state.lanes.entries.isEmpty

end Dispatcher

/-! ## Lanes -/

section Lanes

variable {lanes : Lanes} {key other : DestinationKey} {deliveries : List Delivery}

theorem laneOf_insert :
    laneOf (lanes.insert key deliveries) other =
      if other = key then deliveries else laneOf lanes other := by
  unfold laneOf
  split
  case isTrue heq => rw [heq, AList.lookup_insert]; rfl
  case isFalse hne => rw [AList.lookup_insert_ne hne]

theorem laneOf_erase :
    laneOf (lanes.erase key) other = if other = key then [] else laneOf lanes other := by
  unfold laneOf
  split
  case isTrue heq => rw [heq, AList.lookup_erase]; rfl
  case isFalse hne => rw [AList.lookup_erase_ne hne]

theorem laneOf_eq_nil_of_notMem (hkey : key ∉ lanes) : laneOf lanes key = [] := by
  rw [laneOf, AList.lookup_eq_none.mpr hkey]
  rfl

end Lanes

namespace Dispatcher

/-- The deliveries that are being sent or wait for their timer. -/
def underway (state : Dispatcher) : List Delivery :=
  state.sends ++ state.delayed.map Prod.snd

/-- What the loop still has for a destination, in the order it arrived in. -/
def unsettled (state : Dispatcher) (key : DestinationKey) : List Delivery :=
  state.underway.filter (fun delivery => delivery.destination = key) ++ state.lane key

/-- A destination is in the ready queue, active or without deliveries, and in
exactly one of the three cases. -/
structure Consistent (state : Dispatcher) : Prop where
  active_iff : ∀ key, key ∈ state.active ↔ key ∈ state.underway.map Delivery.destination
  underway_unique : (state.underway.map Delivery.destination).Nodup
  ready_nodup : state.ready.Nodup
  ready_iff : ∀ key, key ∈ state.ready ↔ key ∉ state.active ∧ state.lane key ≠ []
  mem_lanes_iff : ∀ key, key ∈ state.lanes ↔ key ∈ state.active ∨ state.lane key ≠ []
  lane_destination : ∀ key, ∀ delivery ∈ state.lane key, delivery.destination = key

/-- Of deliveries to different destinations only one goes to a given one. -/
theorem filter_destination_of_perm {deliveries others : List Delivery}
    (hperm : deliveries.Perm others)
    (hunique : (deliveries.map Delivery.destination).Nodup) (key : DestinationKey) :
    deliveries.filter (fun delivery => delivery.destination = key) =
      others.filter (fun delivery => delivery.destination = key) := by
  have hfilter := hperm.filter fun delivery => decide (delivery.destination = key)
  have hsublist := (hunique.sublist
    ((List.filter_sublist (p := fun delivery => decide (delivery.destination = key))).map
      Delivery.destination))
  have hall : ∀ delivery ∈ deliveries.filter (fun delivery => delivery.destination = key),
      delivery.destination = key := by
    intro delivery hdelivery
    simpa using List.of_mem_filter hdelivery
  generalize deliveries.filter (fun delivery => delivery.destination = key) = found at *
  match found with
  | [] => exact (List.perm_nil.mp hfilter.symm).symm
  | [delivery] => exact (List.perm_singleton.mp hfilter.symm).symm
  | first :: second :: rest =>
      have hfirst := hall first (by simp)
      have hsecond := hall second (by simp)
      simp [hfirst, hsecond] at hsublist

section Steps

variable {state : Dispatcher}

theorem underway_perm {delayed : List (Instant × Delivery)} (hperm : delayed.Perm state.delayed) :
    ({ state with delayed := delayed } : Dispatcher).underway.Perm state.underway :=
  (hperm.map Prod.snd).append_left state.sends

/-- The order of the timers does not matter. -/
theorem Consistent.perm {delayed : List (Instant × Delivery)} (hstate : state.Consistent)
    (hperm : delayed.Perm state.delayed) :
    ({ state with delayed := delayed } : Dispatcher).Consistent := by
  have hunderway := (underway_perm hperm).map Delivery.destination
  constructor
  case active_iff =>
    intro key
    rw [hunderway.mem_iff]
    exact hstate.active_iff key
  case underway_unique => exact hunderway.nodup_iff.mpr hstate.underway_unique
  case ready_nodup => exact hstate.ready_nodup
  case ready_iff => exact hstate.ready_iff
  case mem_lanes_iff => exact hstate.mem_lanes_iff
  case lane_destination => exact hstate.lane_destination

theorem Consistent.unsettled_perm {delayed : List (Instant × Delivery)}
    (hstate : state.Consistent) (hperm : delayed.Perm state.delayed) (key : DestinationKey) :
    ({ state with delayed := delayed } : Dispatcher).unsettled key = state.unsettled key := by
  have hunderway := filter_destination_of_perm (underway_perm hperm).symm
    hstate.underway_unique key
  exact congrArg (· ++ state.lane key) hunderway.symm

/-- The destination of a delivery under way has no other under way. -/
theorem Consistent.filter_of_perm (hstate : state.Consistent) {delivery : Delivery}
    {others : List Delivery} (hperm : state.underway.Perm (delivery :: others))
    (key : DestinationKey) :
    state.underway.filter (fun delivery => delivery.destination = key) =
      if key = delivery.destination then [delivery]
      else others.filter (fun delivery => delivery.destination = key) := by
  have hunique : ((delivery :: others).map Delivery.destination).Nodup :=
    (hperm.map _).nodup_iff.mp hstate.underway_unique
  rw [filter_destination_of_perm hperm hstate.underway_unique, List.filter_cons]
  rw [List.map_cons, List.nodup_cons] at hunique
  by_cases hkey : key = delivery.destination
  · have hnone : others.filter (fun delivery => delivery.destination = key) = [] := by
      rw [List.filter_eq_nil_iff]
      intro other hother heq
      apply hunique.1
      rw [← hkey, ← of_decide_eq_true heq]
      exact List.mem_map_of_mem hother
    simp [hkey] at hnone ⊢
    exact hnone
  · simp [Ne.symm hkey, hkey]

theorem Consistent.notMem_others (hstate : state.Consistent) {delivery : Delivery}
    {others : List Delivery} (hperm : state.underway.Perm (delivery :: others)) :
    delivery.destination ∉ others.map Delivery.destination := by
  have hunique : ((delivery :: others).map Delivery.destination).Nodup :=
    (hperm.map _).nodup_iff.mp hstate.underway_unique
  rw [List.map_cons, List.nodup_cons] at hunique
  exact hunique.1

/-- The delivery that leaves is the one under way to its destination. -/
theorem Consistent.others (hstate : state.Consistent) {delivery : Delivery}
    {others : List Delivery} (hperm : state.underway.Perm (delivery :: others)) :
    (others.map Delivery.destination).Nodup ∧
      ∀ key, key ∈ others.map Delivery.destination ↔
        key ∈ state.active.erase delivery.destination := by
  have hmap := hperm.map Delivery.destination
  have hunique : ((delivery :: others).map Delivery.destination).Nodup :=
    hmap.nodup_iff.mp hstate.underway_unique
  constructor
  · rw [List.map_cons, List.nodup_cons] at hunique
    exact hunique.2
  · intro key
    rw [Finset.mem_erase, hstate.active_iff, hmap.mem_iff, List.map_cons, List.mem_cons]
    constructor
    · intro hkey
      refine ⟨?_, Or.inr hkey⟩
      intro heq
      exact hstate.notMem_others hperm (heq ▸ hkey)
    · rintro ⟨hne, hkey | hkey⟩
      · exact absurd hkey hne
      · exact hkey

/-- What resuming a retry leaves, with the timers that are left. -/
abbrev resumed (state : Dispatcher) (delivery : Delivery) (delayed : List (Instant × Delivery)) :
    Dispatcher :=
  { state.resume delivery with delayed := delayed }

section Resume

variable {due : Instant} {delivery : Delivery} {delayed : List (Instant × Delivery)}

theorem underway_of_delayed (hperm : state.delayed.Perm ((due, delivery) :: delayed)) :
    state.underway.Perm (delivery :: (state.resumed delivery delayed).underway) :=
  ((hperm.map Prod.snd).append_left state.sends).trans List.perm_middle

theorem Consistent.resumed (hstate : state.Consistent)
    (hperm : state.delayed.Perm ((due, delivery) :: delayed)) :
    (state.resumed delivery delayed).Consistent := by
  have hunderway := underway_of_delayed hperm
  obtain ⟨hunique, hothers⟩ := hstate.others hunderway
  have hactive : delivery.destination ∈ state.active := by
    rw [hstate.active_iff]
    exact List.mem_map_of_mem (hunderway.mem_iff.mpr List.mem_cons_self)
  have hready : delivery.destination ∉ state.ready := by
    rw [hstate.ready_iff]
    exact fun hready => hready.1 hactive
  constructor
  case active_iff => exact fun key => (hothers key).symm
  case underway_unique => exact hunique
  case ready_nodup =>
    exact List.nodup_append.mpr ⟨hstate.ready_nodup, List.nodup_singleton _, by
      intro key hkey other hother heq
      rw [List.mem_singleton] at hother
      exact hready (hother ▸ heq ▸ hkey)⟩
  case ready_iff =>
    intro key
    simp only [resume, List.mem_append, List.mem_singleton, Finset.mem_erase, lane, laneOf_insert]
    by_cases hkey : key = delivery.destination
    · simp [hkey]
    · simpa [hkey] using hstate.ready_iff key
  case mem_lanes_iff =>
    intro key
    simp only [resume, AList.mem_insert, Finset.mem_erase, lane, laneOf_insert]
    by_cases hkey : key = delivery.destination
    · simp [hkey]
    · simpa [hkey] using hstate.mem_lanes_iff key
  case lane_destination =>
    intro key other hother
    simp only [resume, lane, laneOf_insert] at hother
    split at hother
    case isTrue heq =>
      rw [List.mem_cons] at hother
      obtain rfl | hother := hother
      · exact heq.symm
      · rw [heq]
        exact hstate.lane_destination _ other hother
    case isFalse => exact hstate.lane_destination key other hother

theorem Consistent.unsettled_resumed (hstate : state.Consistent)
    (hperm : state.delayed.Perm ((due, delivery) :: delayed)) (key : DestinationKey) :
    (state.resumed delivery delayed).unsettled key = state.unsettled key := by
  have hunderway := underway_of_delayed hperm
  have hfilter := hstate.filter_of_perm hunderway key
  unfold unsettled
  rw [hfilter]
  by_cases hkey : key = delivery.destination
  · have hnone : (state.resumed delivery delayed).underway.filter
        (fun delivery => delivery.destination = key) = [] := by
      rw [List.filter_eq_nil_iff]
      intro other hother heq
      apply hstate.notMem_others hunderway
      rw [← hkey, ← of_decide_eq_true heq]
      exact List.mem_map_of_mem hother
    rw [hnone, if_pos hkey]
    simp [lane, resume, laneOf_insert, hkey]
  · rw [if_neg hkey]
    simp [lane, resume, laneOf_insert, hkey]

end Resume

/-- What starting a send leaves, with the destinations that are left. -/
abbrev launched (state : Dispatcher) (key : DestinationKey) (ready : List DestinationKey)
    (delivery : Delivery) (lane : List Delivery) : Dispatcher :=
  { state with
    ready := ready
    active := insert key state.active
    lanes := state.lanes.insert key lane
    sends := state.sends ++ [delivery] }

section Launch

variable {key : DestinationKey} {ready : List DestinationKey} {delivery : Delivery}
  {lane : List Delivery}

theorem underway_launched :
    (state.launched key ready delivery lane).underway.Perm (delivery :: state.underway) := by
  unfold underway
  rw [List.append_assoc, List.singleton_append]
  exact List.perm_middle

theorem Consistent.launched (hstate : state.Consistent) (hready : state.ready = key :: ready)
    (hlane : state.lane key = delivery :: lane) :
    (state.launched key ready delivery lane).Consistent := by
  have hkey : key ∉ state.active := ((hstate.ready_iff key).mp (by simp [hready])).1
  have hdestination : delivery.destination = key :=
    hstate.lane_destination key delivery (by simp [hlane])
  have hperm : (state.launched key ready delivery lane).underway.Perm
      (delivery :: state.underway) := underway_launched
  have hmap := hperm.map Delivery.destination
  have hnodup := hstate.ready_nodup
  rw [hready, List.nodup_cons] at hnodup
  constructor
  case active_iff =>
    intro other
    rw [hmap.mem_iff, List.map_cons, List.mem_cons, Finset.mem_insert, hstate.active_iff,
      hdestination]
  case underway_unique =>
    rw [hmap.nodup_iff, List.map_cons, List.nodup_cons, hdestination, ← hstate.active_iff]
    exact ⟨hkey, hstate.underway_unique⟩
  case ready_nodup => exact hnodup.2
  case ready_iff =>
    intro other
    simp only [Finset.mem_insert, Dispatcher.lane, laneOf_insert]
    have hother := hstate.ready_iff other
    rw [hready, List.mem_cons] at hother
    by_cases heq : other = key
    · subst heq
      simpa using hnodup.1
    · simpa [heq] using hother
  case mem_lanes_iff =>
    intro other
    simp only [AList.mem_insert, Finset.mem_insert, Dispatcher.lane, laneOf_insert]
    by_cases heq : other = key
    · simp [heq]
    · simpa [heq] using hstate.mem_lanes_iff other
  case lane_destination =>
    intro other found hfound
    simp only [Dispatcher.lane, laneOf_insert] at hfound
    split at hfound
    case isTrue heq =>
      rw [heq]
      exact hstate.lane_destination key found (by rw [hlane]; exact List.mem_cons_of_mem _ hfound)
    case isFalse => exact hstate.lane_destination other found hfound

theorem Consistent.unsettled_launched (hstate : state.Consistent)
    (hready : state.ready = key :: ready) (hlane : state.lane key = delivery :: lane)
    (other : DestinationKey) :
    (state.launched key ready delivery lane).unsettled other = state.unsettled other := by
  have hkey : key ∉ state.active := ((hstate.ready_iff key).mp (by simp [hready])).1
  have hdestination : delivery.destination = key :=
    hstate.lane_destination key delivery (by simp [hlane])
  have hfilter := (hstate.launched hready hlane).filter_of_perm underway_launched other
  unfold unsettled
  rw [hfilter, hdestination]
  by_cases heq : other = key
  · subst heq
    have hnone : state.underway.filter (fun delivery => delivery.destination = other) = [] := by
      rw [List.filter_eq_nil_iff]
      intro found hfound heq
      apply hkey
      rw [hstate.active_iff, ← of_decide_eq_true heq]
      exact List.mem_map_of_mem hfound
    rw [hnone, if_pos rfl, hlane]
    simp [Dispatcher.lane, laneOf_insert]
  · rw [if_neg heq]
    simp [Dispatcher.lane, laneOf_insert, heq]

end Launch

section Ended

variable {delivery : Delivery} {due : Instant}

theorem underway_of_send (hdelivery : delivery ∈ state.sends) :
    state.underway.Perm
      (delivery :: (state.sends.erase delivery ++ state.delayed.map Prod.snd)) :=
  (List.perm_cons_erase hdelivery).append_right _

theorem underway_postpone (hdelivery : delivery ∈ state.sends) :
    ((state.postpone delivery due).underway.map Delivery.destination).Perm
      (state.underway.map Delivery.destination) := by
  have hsend := (underway_of_send hdelivery).map Delivery.destination
  refine List.Perm.trans ?_ hsend.symm
  unfold underway postpone
  simp only [List.map_append, List.map_cons, List.map_nil, Delivery.again_destination,
    ← List.append_assoc]
  exact List.perm_append_singleton _ _

theorem Consistent.postpone (hstate : state.Consistent) (hdelivery : delivery ∈ state.sends) :
    (state.postpone delivery due).Consistent := by
  have hmap : ((state.postpone delivery due).underway.map Delivery.destination).Perm
      (state.underway.map Delivery.destination) := underway_postpone hdelivery
  constructor
  case active_iff =>
    intro key
    rw [hmap.mem_iff]
    exact hstate.active_iff key
  case underway_unique => exact hmap.nodup_iff.mpr hstate.underway_unique
  case ready_nodup => exact hstate.ready_nodup
  case ready_iff => exact hstate.ready_iff
  case mem_lanes_iff => exact hstate.mem_lanes_iff
  case lane_destination => exact hstate.lane_destination

/-- A retry keeps its place, its message and its permit. -/
theorem Consistent.unsettled_postpone (hstate : state.Consistent)
    (hdelivery : delivery ∈ state.sends) (key : DestinationKey) :
    ((state.postpone delivery due).unsettled key).map Delivery.origin =
      (state.unsettled key).map Delivery.origin := by
  have hperm : (state.postpone delivery due).underway.Perm
      (delivery.again :: (state.sends.erase delivery ++ state.delayed.map Prod.snd)) := by
    unfold underway Dispatcher.postpone
    simp only [List.map_append, List.map_cons, List.map_nil, ← List.append_assoc]
    exact List.perm_append_singleton _ _
  have hbefore := hstate.filter_of_perm (underway_of_send hdelivery) key
  have hpostpone : (state.postpone delivery due).Consistent := hstate.postpone hdelivery
  have hafter := hpostpone.filter_of_perm hperm key
  unfold unsettled
  rw [hbefore, hafter, Delivery.again_destination]
  by_cases hkey : key = delivery.destination
  · rw [if_pos hkey, if_pos hkey]
    rfl
  · rw [if_neg hkey, if_neg hkey]
    rfl

theorem underway_finish :
    (state.finish delivery).underway =
      state.sends.erase delivery ++ state.delayed.map Prod.snd := by
  unfold finish underway
  dsimp only
  split <;> rfl

theorem active_finish :
    (state.finish delivery).active = state.active.erase delivery.destination := by
  unfold finish
  dsimp only
  split <;> rfl

theorem lane_finish (key : DestinationKey) : (state.finish delivery).lane key = state.lane key := by
  unfold finish
  dsimp only
  split
  case isTrue => rfl
  case isFalse hempty =>
    rw [not_not] at hempty
    rw [lane, laneOf_erase]
    split
    case isTrue heq => rw [heq, hempty]
    case isFalse => rfl

theorem Consistent.finish (hstate : state.Consistent) (hdelivery : delivery ∈ state.sends) :
    (state.finish delivery).Consistent := by
  have hunderway := underway_of_send hdelivery
  obtain ⟨hunique, hothers⟩ := hstate.others hunderway
  have hactive : delivery.destination ∈ state.active := by
    rw [hstate.active_iff]
    exact List.mem_map_of_mem (hunderway.mem_iff.mpr List.mem_cons_self)
  have hready : delivery.destination ∉ state.ready := by
    rw [hstate.ready_iff]
    exact fun hready => hready.1 hactive
  constructor
  case active_iff =>
    intro key
    rw [active_finish, underway_finish]
    exact (hothers key).symm
  case underway_unique =>
    rw [underway_finish]
    exact hunique
  case ready_nodup =>
    unfold Dispatcher.finish
    dsimp only
    split
    case isTrue =>
      exact List.nodup_append.mpr ⟨hstate.ready_nodup, List.nodup_singleton _, by
        intro key hkey other hother heq
        rw [List.mem_singleton] at hother
        exact hready (hother ▸ heq ▸ hkey)⟩
    case isFalse => exact hstate.ready_nodup
  case ready_iff =>
    intro key
    rw [lane_finish, active_finish, Finset.mem_erase]
    have hkey := hstate.ready_iff key
    unfold Dispatcher.finish
    dsimp only
    split
    case isTrue hlane =>
      rw [List.mem_append, List.mem_singleton, hkey]
      by_cases heq : key = delivery.destination
      · subst heq
        simpa using hlane
      · simp [heq]
    case isFalse hlane =>
      rw [not_not] at hlane
      rw [hkey]
      by_cases heq : key = delivery.destination
      · subst heq
        simp only [lane, hlane, ne_eq, not_true_eq_false, and_false]
      · simp [heq]
  case mem_lanes_iff =>
    intro key
    rw [lane_finish, active_finish, Finset.mem_erase]
    have hkey := hstate.mem_lanes_iff key
    unfold Dispatcher.finish
    dsimp only
    split
    case isTrue hlane =>
      rw [hkey]
      by_cases heq : key = delivery.destination
      · subst heq
        simp only [lane, hlane, ne_eq, not_false_eq_true, or_true]
      · simp [heq]
    case isFalse hlane =>
      rw [not_not] at hlane
      rw [AList.mem_erase, hkey]
      by_cases heq : key = delivery.destination
      · subst heq
        simp [lane, hlane]
      · simp [heq]
  case lane_destination =>
    intro key other hother
    rw [lane_finish] at hother
    exact hstate.lane_destination key other hother

/-- The delivery that is finished was the first of its destination. -/
theorem Consistent.unsettled_finish (hstate : state.Consistent)
    (hdelivery : delivery ∈ state.sends) (key : DestinationKey) :
    state.unsettled key =
      if key = delivery.destination then delivery :: (state.finish delivery).unsettled key
      else (state.finish delivery).unsettled key := by
  have hunderway := underway_of_send hdelivery
  have hfilter := hstate.filter_of_perm hunderway key
  unfold unsettled
  rw [hfilter, lane_finish, underway_finish]
  by_cases hkey : key = delivery.destination
  · have hnone : (state.sends.erase delivery ++ state.delayed.map Prod.snd).filter
        (fun delivery => delivery.destination = key) = [] := by
      rw [List.filter_eq_nil_iff]
      intro other hother heq
      apply hstate.notMem_others hunderway
      rw [← hkey, ← of_decide_eq_true heq]
      exact List.mem_map_of_mem hother
    rw [hnone, if_pos hkey, if_pos hkey]
    rfl
  · rw [if_neg hkey, if_neg hkey]

end Ended

section Receive

variable {delivery : Delivery}

theorem receive_eq (hstate : state.Consistent) :
    state.receive delivery = { state with
      lanes := state.lanes.insert delivery.destination
        (state.lane delivery.destination ++ [delivery])
      ready := if delivery.destination ∉ state.active ∧ delivery.destination ∉ state.ready then
          state.ready ++ [delivery.destination]
        else state.ready } := by
  have hready := hstate.ready_iff delivery.destination
  unfold receive
  dsimp only
  by_cases hactive : delivery.destination ∈ state.active
  · simp [hactive]
  · by_cases hlane : state.lane delivery.destination = []
    · simp [hactive, hlane, hready]
    · have hlength : (state.lane delivery.destination ++ [delivery]).length ≠ 1 := by
        rw [List.length_append, List.length_singleton]
        have := List.length_pos_of_ne_nil hlane
        omega
      simp only [hactive, hready, hlane, hlength, not_false_eq_true, and_false, ne_eq, and_self,
        not_true_eq_false, if_false]

theorem Consistent.receive (hstate : state.Consistent) : (state.receive delivery).Consistent := by
  rw [receive_eq hstate]
  constructor
  case active_iff => exact hstate.active_iff
  case underway_unique => exact hstate.underway_unique
  case ready_nodup =>
    dsimp only
    split
    case isTrue hready =>
      exact List.nodup_append.mpr ⟨hstate.ready_nodup, List.nodup_singleton _, by
        intro key hkey other hother heq
        rw [List.mem_singleton] at hother
        exact hready.2 (hother ▸ heq ▸ hkey)⟩
    case isFalse => exact hstate.ready_nodup
  case ready_iff =>
    intro key
    have hkey := hstate.ready_iff key
    simp only [lane, laneOf_insert] at hkey ⊢
    by_cases heq : key = delivery.destination
    · subst heq
      by_cases hactive : delivery.destination ∈ state.active <;>
        by_cases hready : delivery.destination ∈ state.ready <;> simp [hactive, hready]
      exact hkey.mp hready |>.1 hactive
    · rw [if_neg heq, ← hkey]
      split <;> simp [heq]
  case mem_lanes_iff =>
    intro key
    have hkey := hstate.mem_lanes_iff key
    simp only [lane, laneOf_insert, AList.mem_insert] at hkey ⊢
    by_cases heq : key = delivery.destination
    · simp [heq]
    · simpa [heq] using hkey
  case lane_destination =>
    intro key other hother
    simp only [lane, laneOf_insert] at hother
    split at hother
    case isTrue heq =>
      rw [List.mem_append, List.mem_singleton] at hother
      obtain hother | rfl := hother
      · rw [heq]
        exact hstate.lane_destination _ other hother
      · exact heq.symm
    case isFalse => exact hstate.lane_destination key other hother

/-- What is received comes last for its destination. -/
theorem Consistent.unsettled_receive (hstate : state.Consistent) (key : DestinationKey) :
    (state.receive delivery).unsettled key =
      state.unsettled key ++ if key = delivery.destination then [delivery] else [] := by
  rw [receive_eq hstate]
  unfold unsettled
  rw [List.append_assoc]
  apply congrArg
  simp only [lane, laneOf_insert]
  by_cases heq : key = delivery.destination
  · subst heq
    rw [if_pos rfl, if_pos rfl]
  · rw [if_neg heq, if_neg heq, List.append_nil]

end Receive

end Steps

/-! ## The head of the loop -/

theorem backfill_perm {R : Type} (rest : List R) : (backfill rest).Perm rest := by
  unfold backfill
  cases hlast : rest.getLast? with
  | none =>
      rw [List.getLast?_eq_none_iff] at hlast
      rw [hlast]
  | some last =>
      have hrest : rest.dropLast ++ [last] = rest := List.dropLast_append_getLast? last hlast
      have hlastFirst : (last :: rest.dropLast).Perm (rest.dropLast ++ [last]) :=
        (List.perm_append_singleton _ _).symm
      rw [hrest] at hlastFirst
      exact hlastFirst

section Head

variable {now : Instant} {workerLimit : ℕ} {state : Dispatcher}

/-- What resuming a due retry and reordering the timers preserve, the sweep over the
timers preserves. -/
theorem expireFrom_induct {motive : Dispatcher → Prop}
    (hperm : ∀ (state : Dispatcher) (delayed : List (Instant × Delivery)),
      delayed.Perm state.delayed → motive state → motive { state with delayed := delayed })
    (hresume : ∀ (state : Dispatcher) (due : Instant) (delivery : Delivery)
      (delayed : List (Instant × Delivery)), state.delayed.Perm ((due, delivery) :: delayed) →
      due ≤ now → motive state → motive (state.resumed delivery delayed))
    (steps : ℕ) (kept rest : List (Instant × Delivery)) (state : Dispatcher)
    (hstate : motive { state with delayed := kept ++ rest }) :
    motive (expireFrom now steps kept rest state) := by
  induction steps generalizing kept rest state with
  | zero => exact hstate
  | succ steps ih =>
      match rest with
      | [] => exact hstate
      | (due, delivery) :: rest =>
          rw [expireFrom]
          split
          case isTrue hdue =>
            apply ih
            have hresumed := hresume { state with delayed := kept ++ (due, delivery) :: rest } due
              delivery (kept ++ rest) List.perm_middle hdue hstate
            exact hperm ({ state with delayed := kept ++ (due, delivery) :: rest }.resumed delivery
              (kept ++ rest)) (kept ++ backfill rest) ((backfill_perm rest).append_left kept)
              hresumed
          case isFalse =>
            apply ih
            rw [List.append_assoc]
            exact hstate

/-- The sweep leaves the timers that are not due. -/
theorem expireFrom_due (steps : ℕ) (kept rest : List (Instant × Delivery)) (state : Dispatcher)
    (hsteps : rest.length ≤ steps) (hkept : ∀ timer ∈ kept, now < timer.1) :
    ∀ timer ∈ (expireFrom now steps kept rest state).delayed, now < timer.1 := by
  induction steps generalizing kept rest state with
  | zero =>
      have hrest : rest = [] := List.length_eq_zero_iff.mp (Nat.le_zero.mp hsteps)
      subst hrest
      simpa [expireFrom] using hkept
  | succ steps ih =>
      match rest with
      | [] => simpa [expireFrom] using hkept
      | (due, delivery) :: rest =>
          rw [List.length_cons] at hsteps
          rw [expireFrom]
          split
          case isTrue hdue =>
            apply ih
            · rw [(backfill_perm rest).length_eq]
              omega
            · exact hkept
          case isFalse hdue =>
            apply ih
            · omega
            · intro timer htimer
              rw [List.mem_append, List.mem_singleton] at htimer
              obtain htimer | rfl := htimer
              · exact hkept timer htimer
              · exact Nat.lt_of_not_le hdue

/-- What starting a send from the front of the ready queue preserves, the start of
all sends preserves. -/
theorem fillFrom_induct {motive : Dispatcher → Prop}
    (hlaunch : ∀ (state : Dispatcher) (key : DestinationKey) (ready : List DestinationKey)
      (delivery : Delivery) (lane : List Delivery), state.ready = key :: ready →
      state.lane key = delivery :: lane → state.sends.length < workerLimit →
      motive state → motive (state.launched key ready delivery lane))
    (hconsistent : ∀ state, motive state → state.Consistent)
    (ready : List DestinationKey) (state : Dispatcher)
    (hstate : motive { state with ready := ready }) :
    motive (fillFrom workerLimit ready state) := by
  induction ready generalizing state with
  | nil => exact hstate
  | cons key ready ih =>
      have hkey := ((hconsistent _ hstate).ready_iff key).mp List.mem_cons_self
      rw [fillFrom]
      split
      case isTrue hlimit =>
        rw [if_neg hkey.1]
        split
        case h_1 hlane => exact absurd hlane hkey.2
        case h_2 delivery lane hlane =>
          apply ih
          exact hlaunch { state with ready := key :: ready } key ready delivery lane rfl hlane
            hlimit hstate
      case isFalse => exact hstate

/-- A destination is left in the ready queue only when the limit is reached. -/
theorem fillFrom_ready (ready : List DestinationKey) (state : Dispatcher)
    (hlength : (fillFrom workerLimit ready state).sends.length < workerLimit) :
    (fillFrom workerLimit ready state).ready = [] := by
  induction ready generalizing state with
  | nil => rfl
  | cons key ready ih =>
      rw [fillFrom] at hlength ⊢
      by_cases hlimit : state.sends.length < workerLimit
      · rw [if_pos hlimit] at hlength ⊢
        by_cases hactive : key ∈ state.active
        · rw [if_pos hactive] at hlength ⊢
          exact ih _ hlength
        · rw [if_neg hactive] at hlength ⊢
          cases hlane : state.lane key with
          | nil =>
              rw [hlane] at hlength
              exact ih _ hlength
          | cons delivery lane =>
              rw [hlane] at hlength
              exact ih _ hlength
      · rw [if_neg hlimit] at hlength
        exact absurd hlength hlimit

theorem Consistent.expire (hstate : state.Consistent) : (state.expire now).Consistent := by
  apply expireFrom_induct (motive := Consistent)
  case hperm => exact fun state delayed hperm hstate => hstate.perm hperm
  case hresume => exact fun state due delivery delayed hperm _ hstate => hstate.resumed hperm
  case hstate => exact hstate

theorem Consistent.unsettled_expire (hstate : state.Consistent) (key : DestinationKey) :
    (state.expire now).unsettled key = state.unsettled key := by
  have hboth : (state.expire now).Consistent ∧
      (state.expire now).unsettled key = state.unsettled key := by
    apply expireFrom_induct
      (motive := fun reached => reached.Consistent ∧ reached.unsettled key = state.unsettled key)
    case hperm =>
      intro reached delayed hperm hreached
      exact ⟨hreached.1.perm hperm, (hreached.1.unsettled_perm hperm key).trans hreached.2⟩
    case hresume =>
      intro reached due delivery delayed hperm _ hreached
      exact ⟨hreached.1.resumed hperm, (hreached.1.unsettled_resumed hperm key).trans hreached.2⟩
    case hstate => exact ⟨hstate, rfl⟩
  exact hboth.2

theorem Consistent.fill (hstate : state.Consistent) : (state.fill workerLimit).Consistent := by
  apply fillFrom_induct (motive := Consistent)
  case hlaunch => exact fun state key ready delivery lane hready hlane _ hstate =>
    hstate.launched hready hlane
  case hconsistent => exact fun _ hstate => hstate
  case hstate => exact hstate

theorem Consistent.unsettled_fill (hstate : state.Consistent) (key : DestinationKey) :
    (state.fill workerLimit).unsettled key = state.unsettled key := by
  have hboth : (state.fill workerLimit).Consistent ∧
      (state.fill workerLimit).unsettled key = state.unsettled key := by
    apply fillFrom_induct
      (motive := fun reached => reached.Consistent ∧ reached.unsettled key = state.unsettled key)
    case hlaunch =>
      intro reached other ready delivery lane hready hlane _ hreached
      exact ⟨hreached.1.launched hready hlane,
        (hreached.1.unsettled_launched hready hlane key).trans hreached.2⟩
    case hconsistent => exact fun _ hreached => hreached.1
    case hstate => exact ⟨hstate, rfl⟩
  exact hboth.2

theorem sends_expire : (state.expire now).sends = state.sends := by
  apply expireFrom_induct (motive := fun reached => reached.sends = state.sends)
  case hperm => exact fun _ _ _ hreached => hreached
  case hresume => exact fun _ _ _ _ _ _ hreached => hreached
  case hstate => rfl

theorem dispatch_sends (hstate : state.Consistent) (hlimit : state.sends.length ≤ workerLimit) :
    (state.dispatch workerLimit now).sends.length ≤ workerLimit := by
  have hfill : ((state.expire now).fill workerLimit).Consistent ∧
      ((state.expire now).fill workerLimit).sends.length ≤ workerLimit := by
    apply fillFrom_induct
      (motive := fun reached => reached.Consistent ∧ reached.sends.length ≤ workerLimit)
    case hlaunch =>
      intro reached key ready delivery lane hready hlane hless hreached
      refine ⟨hreached.1.launched hready hlane, ?_⟩
      rw [List.length_append, List.length_singleton]
      omega
    case hconsistent => exact fun _ hreached => hreached.1
    case hstate => exact ⟨hstate.expire, by rw [← sends_expire] at hlimit; exact hlimit⟩
  exact hfill.2

end Head

section Open

variable {now : Instant} {workerLimit : ℕ} {state : Dispatcher} {delivery : Delivery}

theorem incomingOpen_expireFrom (steps : ℕ) (kept rest : List (Instant × Delivery))
    (state : Dispatcher) :
    (expireFrom now steps kept rest state).incomingOpen = state.incomingOpen := by
  fun_induction expireFrom now steps kept rest state with
  | case1 => assumption
  | case2 => assumption
  | case3 => rfl

theorem incomingOpen_fillFrom (ready : List DestinationKey) (state : Dispatcher) :
    (fillFrom workerLimit ready state).incomingOpen = state.incomingOpen := by
  fun_induction fillFrom workerLimit ready state with
  | case1 => rfl
  | case2 => assumption
  | case3 => assumption
  | case4 => assumption
  | case5 => rfl

theorem dispatch_incomingOpen :
    (state.dispatch workerLimit now).incomingOpen = state.incomingOpen :=
  (incomingOpen_fillFrom _ _).trans (incomingOpen_expireFrom _ _ _ _)

theorem incomingOpen_finish : (state.finish delivery).incomingOpen = state.incomingOpen := by
  unfold finish
  dsimp only
  split <;> rfl

theorem sends_finish : (state.finish delivery).sends = state.sends.erase delivery := by
  unfold finish
  dsimp only
  split <;> rfl

end Open

/-! ## The order of the ready queue -/

section Ready

variable {now : Instant} {workerLimit : ℕ} {state : Dispatcher} {key : DestinationKey}

theorem ready_expire : state.ready <+: (state.expire now).ready := by
  apply expireFrom_induct (motive := fun reached => state.ready <+: reached.ready)
  case hperm => exact fun _ _ _ hreached => hreached
  case hresume => exact fun _ _ _ _ _ _ hreached => hreached.trans (List.prefix_append _ _)
  case hstate => exact List.prefix_rfl

/-- Sends are started from the front of the queue, at least one where there is room. -/
theorem ready_fillFrom (ready : List DestinationKey) (state : Dispatcher) :
    ∃ popped, ready = popped ++ (fillFrom workerLimit ready state).ready ∧
      (state.sends.length < workerLimit → ready ≠ [] → popped ≠ []) := by
  fun_induction fillFrom workerLimit ready state with
  | case1 state => exact ⟨[], rfl, fun _ hempty => absurd rfl hempty⟩
  | case2 key ready state hlimit hactive ih =>
      obtain ⟨popped, hready, -⟩ := ih
      exact ⟨key :: popped, congrArg (key :: ·) hready, fun _ _ => List.cons_ne_nil _ _⟩
  | case3 key ready state hlimit hactive hlane ih =>
      obtain ⟨popped, hready, -⟩ := ih
      exact ⟨key :: popped, congrArg (key :: ·) hready, fun _ _ => List.cons_ne_nil _ _⟩
  | case4 key ready state hlimit hactive delivery lane hlane ih =>
      obtain ⟨popped, hready, -⟩ := ih
      exact ⟨key :: popped, congrArg (key :: ·) hready, fun _ _ => List.cons_ne_nil _ _⟩
  | case5 key ready state hlimit => exact ⟨[], rfl, fun hless => absurd hless hlimit⟩

/-- A destination leaves the ready queue for a send. -/
theorem ready_or_sending_fill (hstate : state.Consistent)
    (hkey : key ∈ state.ready ∨ key ∈ state.sends.map Delivery.destination) :
    key ∈ (state.fill workerLimit).ready ∨
      key ∈ (state.fill workerLimit).sends.map Delivery.destination := by
  have hboth : (state.fill workerLimit).Consistent ∧ (key ∈ (state.fill workerLimit).ready ∨
      key ∈ (state.fill workerLimit).sends.map Delivery.destination) := by
    apply fillFrom_induct (motive := fun reached => reached.Consistent ∧
      (key ∈ reached.ready ∨ key ∈ reached.sends.map Delivery.destination))
    case hlaunch =>
      intro reached other ready delivery lane hready hlane _ hreached
      refine ⟨hreached.1.launched hready hlane, ?_⟩
      rw [List.map_append, List.mem_append]
      obtain hkey | hkey := hreached.2
      · rw [hready, List.mem_cons] at hkey
        obtain rfl | hkey := hkey
        · have hdestination := hreached.1.lane_destination key delivery (by simp [hlane])
          exact Or.inr (Or.inr (by simp [hdestination]))
        · exact Or.inl hkey
      · exact Or.inr (Or.inl hkey)
    case hconsistent => exact fun _ hreached => hreached.1
    case hstate => exact ⟨hstate, hkey⟩
  exact hboth.2

/-- A ready destination is sent to, or comes closer to the front of the queue where
there is room for a send. -/
theorem ready_dispatch (hstate : state.Consistent) (hkey : key ∈ state.ready) :
    key ∈ (state.dispatch workerLimit now).sends.map Delivery.destination ∨
      key ∈ (state.dispatch workerLimit now).ready ∧
        (state.dispatch workerLimit now).ready.idxOf key ≤ state.ready.idxOf key ∧
        (state.sends.length < workerLimit →
          (state.dispatch workerLimit now).ready.idxOf key < state.ready.idxOf key) := by
  have hexpire : (state.expire now).Consistent := hstate.expire
  obtain ⟨later, hlater⟩ : state.ready <+: (state.expire now).ready := ready_expire
  have hmem : key ∈ (state.expire now).ready := hlater ▸ List.mem_append_left later hkey
  have hindex : (state.expire now).ready.idxOf key = state.ready.idxOf key := by
    rw [← hlater, List.idxOf_append_of_mem hkey]
  obtain hready | hsend :=
    @ready_or_sending_fill workerLimit _ key hexpire (Or.inl hmem)
  · refine Or.inr ⟨hready, ?_⟩
    obtain ⟨popped, hpopped, hsome⟩ :=
      @ready_fillFrom workerLimit (state.expire now).ready (state.expire now)
    have hnotMem : key ∉ popped := by
      have hnodup := hexpire.ready_nodup
      rw [hpopped, List.nodup_append] at hnodup
      exact fun hkey => hnodup.2.2 key hkey key hready rfl
    have hafter : (state.expire now).ready.idxOf key =
        popped.length + ((state.expire now).fill workerLimit).ready.idxOf key := by
      conv_lhs => rw [hpopped]
      exact List.idxOf_append_of_notMem hnotMem
    have hdispatch : (state.dispatch workerLimit now).ready =
        ((state.expire now).fill workerLimit).ready := rfl
    rw [hdispatch]
    constructor
    · omega
    · intro hroom
      have hlength := List.length_pos_iff.mpr
        (hsome (by rw [sends_expire]; exact hroom) (List.ne_nil_of_mem hmem))
      omega
  · exact Or.inl hsend

/-- A timer is there until it is due, and then its destination is ready or sent to. -/
theorem delayed_dispatch (hstate : state.Consistent) {due : Instant} {delivery : Delivery}
    (hdelayed : (due, delivery) ∈ state.delayed) :
    (now < due ∧ (due, delivery) ∈ (state.dispatch workerLimit now).delayed) ∨
      delivery.destination ∈ (state.dispatch workerLimit now).ready ∨
      delivery.destination ∈ (state.dispatch workerLimit now).sends.map Delivery.destination := by
  have hexpire : (state.expire now).Consistent := hstate.expire
  have hswept : (due, delivery) ∈ (state.expire now).delayed ∨
      delivery.destination ∈ (state.expire now).ready := by
    apply expireFrom_induct (motive := fun reached => (due, delivery) ∈ reached.delayed ∨
      delivery.destination ∈ reached.ready)
    case hperm =>
      intro reached delayed hperm hreached
      obtain htimer | hready := hreached
      · exact Or.inl (hperm.mem_iff.mpr htimer)
      · exact Or.inr hready
    case hresume =>
      intro reached other found delayed hperm _ hreached
      obtain htimer | hready := hreached
      · rw [hperm.mem_iff, List.mem_cons] at htimer
        obtain heq | htimer := htimer
        · obtain ⟨-, rfl⟩ := Prod.mk.inj heq
          exact Or.inr (List.mem_append_right _ (List.mem_singleton_self _))
        · exact Or.inl htimer
      · exact Or.inr (List.mem_append_left _ hready)
    case hstate => exact Or.inl hdelayed
  obtain htimer | hready := hswept
  · refine Or.inl ⟨?_, ?_⟩
    · exact expireFrom_due _ _ _ _ (Nat.le_refl _) (fun _ hnone => absurd hnone List.not_mem_nil)
        _ htimer
    · have hkept : ((state.expire now).fill workerLimit).Consistent ∧
          (due, delivery) ∈ ((state.expire now).fill workerLimit).delayed := by
        apply fillFrom_induct
          (motive := fun reached => reached.Consistent ∧ (due, delivery) ∈ reached.delayed)
        case hlaunch =>
          intro reached other ready found lane hready hlane _ hreached
          exact ⟨hreached.1.launched hready hlane, hreached.2⟩
        case hconsistent => exact fun _ hreached => hreached.1
        case hstate => exact ⟨hexpire, htimer⟩
      exact hkept.2
  · exact Or.inr (ready_or_sending_fill hexpire (Or.inl hready))

end Ready

end Dispatcher

end Mews.Channel
