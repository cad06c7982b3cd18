import Mews.Channel.Deliveries

/-!
# Every delivery comes to an end

A run in which sends end, timers fire and retries are given up settles every
delivery that was accepted.  The deliveries of one destination are settled in
their order, so that it is enough that the first of them comes to its end; on the
way there the destination is ready, sent to, or waiting for a timer.
-/

namespace Mews.Channel

variable {config : ChannelConfig} {latest : Instant}

namespace System

/-! ## What a turn leaves -/

section Turn

variable {state reached left : System} {event : Event} {next : Instant} {action : Action}

theorem finishTurn_eq : ∃ status, state.finishTurn = { state with status := status } := by
  unfold finishTurn
  split
  · exact ⟨.returned, rfl⟩
  · exact ⟨state.status, rfl⟩

@[simp] theorem toDispatcher_finishTurn :
    state.finishTurn.toDispatcher = state.toDispatcher := by
  obtain ⟨status, heq⟩ := @finishTurn_eq state
  rw [heq]

@[simp] theorem received_finishTurn : state.finishTurn.received = state.received := by
  obtain ⟨status, heq⟩ := @finishTurn_eq state
  rw [heq]

@[simp] theorem incoming_finishTurn : state.finishTurn.incoming = state.incoming := by
  obtain ⟨status, heq⟩ := @finishTurn_eq state
  rw [heq]

@[simp] theorem settled_finishTurn : state.finishTurn.settled = state.settled := by
  obtain ⟨status, heq⟩ := @finishTurn_eq state
  rw [heq]

theorem status_finishTurn (hrunning : state.status = .running) :
    state.finishTurn.status = .running ∨
      state.finishTurn.status = .returned ∧ state.drained = true := by
  unfold finishTurn
  split
  case isTrue hdrained => exact Or.inr ⟨rfl, hdrained⟩
  case isFalse => exact Or.inl hrunning

/-- The wait that follows an event, unless the loop has ended. -/
def await (config : ChannelConfig) (next : Instant) (state : System) : System :=
  if state.status = .running then
    { state with toDispatcher := state.toDispatcher.dispatch config.deliveryWorkers next }
  else state

theorem turn_step (hstep : state.step latest config (.turn event next) = some reached) :
    state.status = .running ∧
      ∃ left, Reacts latest state event left ∧ reached = left.await config next := by
  rw [step] at hstep
  split at hstep
  case isFalse => cases hstep
  case isTrue hrunning =>
    obtain ⟨left, hreact, rfl⟩ := Option.map_eq_some_iff.mp hstep
    exact ⟨hrunning, left, reacts_of_react hreact, rfl⟩

@[simp] theorem received_await : (state.await config next).received = state.received := by
  unfold await
  split <;> rfl

@[simp] theorem incoming_await : (state.await config next).incoming = state.incoming := by
  unfold await
  split <;> rfl

@[simp] theorem settled_await : (state.await config next).settled = state.settled := by
  unfold await
  split <;> rfl

@[simp] theorem status_await : (state.await config next).status = state.status := by
  unfold await
  split <;> rfl

theorem Reacts.history (hreacts : Reacts latest state event left) :
    state.received <+: left.received ∧ state.settled <+: left.settled := by
  cases hreacts with
  | stopped => exact ⟨List.prefix_rfl, List.prefix_rfl⟩
  | ignored => simp
  | settled =>
      rw [received_finishTurn, settled_finishTurn]
      exact ⟨List.prefix_rfl, List.prefix_append _ _⟩
  | postponed => simp
  | panicked => exact ⟨List.prefix_rfl, List.prefix_rfl⟩
  | received =>
      rw [received_finishTurn, settled_finishTurn]
      exact ⟨List.prefix_append _ _, List.prefix_rfl⟩
  | closed => exact ⟨List.prefix_rfl, List.prefix_rfl⟩
  | slept => simp

/-- What is not a turn leaves the dispatcher alone. -/
theorem step_quiet (hstep : state.step latest config action = some reached)
    (hquiet : ∀ event next, action ≠ .turn event next) :
    reached.toDispatcher = state.toDispatcher ∧ reached.received = state.received ∧
      reached.settled = state.settled ∧ reached.status = state.status ∧
      state.incoming <+: reached.incoming := by
  cases action with
  | turn event next => exact absurd rfl (hquiet event next)
  | idle =>
      obtain rfl := Option.some.inj hstep
      exact ⟨rfl, rfl, rfl, rfl, List.prefix_rfl⟩
  | disconnect =>
      obtain rfl := Option.some.inj hstep
      exact ⟨rfl, rfl, rfl, rfl, List.prefix_rfl⟩
  | acquire =>
      rw [step] at hstep
      split at hstep
      case isFalse => cases hstep
      case isTrue =>
        obtain rfl := Option.some.inj hstep
        exact ⟨rfl, rfl, rfl, rfl, List.prefix_rfl⟩
  | release =>
      rw [step] at hstep
      split at hstep
      case isFalse => cases hstep
      case isTrue =>
        obtain rfl := Option.some.inj hstep
        exact ⟨rfl, rfl, rfl, rfl, List.prefix_rfl⟩
  | send eventId destination event =>
      rw [step] at hstep
      split at hstep
      case isFalse => cases hstep
      case isTrue =>
        obtain rfl := Option.some.inj hstep
        exact ⟨rfl, rfl, rfl, rfl, List.prefix_append _ _⟩

theorem history_step (hstep : state.step latest config action = some reached) :
    state.received <+: reached.received ∧ state.settled <+: reached.settled := by
  by_cases hquiet : ∀ event next, action ≠ .turn event next
  · obtain ⟨-, hreceived, hsettled, -⟩ := step_quiet hstep hquiet
    rw [hreceived, hsettled]
    exact ⟨List.prefix_rfl, List.prefix_rfl⟩
  · push Not at hquiet
    obtain ⟨event, next, rfl⟩ := hquiet
    obtain ⟨-, left, hreacts, rfl⟩ := turn_step hstep
    rw [received_await, settled_await]
    exact hreacts.history

theorem accepted_step (hstep : state.step latest config action = some reached) :
    state.accepted <+: reached.accepted := by
  by_cases hquiet : ∀ event next, action ≠ .turn event next
  · obtain ⟨-, hreceived, -, -, hincoming⟩ := step_quiet hstep hquiet
    rw [accepted, accepted, hreceived, List.prefix_append_right_inj]
    exact hincoming
  · push Not at hquiet
    obtain ⟨event, next, rfl⟩ := hquiet
    obtain ⟨-, left, hreacts, rfl⟩ := turn_step hstep
    rw [accepted, accepted, received_await, incoming_await]
    cases hreacts with
    | received hincoming =>
        rw [received_finishTurn, incoming_finishTurn, hincoming, List.append_assoc]
        exact List.prefix_rfl
    | stopped => exact List.prefix_rfl
    | ignored => simp
    | settled =>
        rw [received_finishTurn, incoming_finishTurn]
        exact List.prefix_rfl
    | postponed => simp
    | panicked => exact List.prefix_rfl
    | closed => exact List.prefix_rfl
    | slept => simp

end Turn

/-! ## Where the first delivery of a destination is -/

section Phase

variable {state reached left : System} {key : DestinationKey} {delivery : Delivery}

/-- A delivery under way is the first that is left for its destination. -/
theorem Kept.unsettled_of_underway (hstate : Kept config state)
    (hdelivery : delivery ∈ state.underway) :
    ∃ lane, state.unsettled delivery.destination = delivery :: lane := by
  have hperm := List.perm_cons_erase hdelivery
  have hfilter := hstate.consistent.filter_of_perm hperm delivery.destination
  rw [if_pos rfl] at hfilter
  exact ⟨state.lane delivery.destination, by rw [Dispatcher.unsettled, hfilter]; rfl⟩

theorem Kept.phase (hstate : Kept config state) (hsome : state.unsettled key ≠ []) :
    key ∈ state.ready ∨ key ∈ state.sends.map Delivery.destination ∨
      ∃ timer ∈ state.delayed, timer.2.destination = key := by
  by_cases hactive : key ∈ state.active
  · rw [hstate.consistent.active_iff, Dispatcher.underway, List.map_append,
      List.mem_append] at hactive
    obtain hsend | hdelayed := hactive
    · exact Or.inr (Or.inl hsend)
    · rw [List.map_map, List.mem_map] at hdelayed
      exact Or.inr (Or.inr hdelayed)
  · refine Or.inl ((hstate.consistent.ready_iff key).mpr ⟨hactive, ?_⟩)
    intro hlane
    apply hsome
    rw [Dispatcher.unsettled, hlane, List.append_nil, List.filter_eq_nil_iff]
    intro delivery hdelivery heq
    apply hactive
    rw [hstate.consistent.active_iff, ← of_decide_eq_true heq]
    exact List.mem_map_of_mem hdelivery

/-- A drained loop has settled everything it received. -/
theorem Kept.unsettled_of_drained (hstate : Kept config state) (hdrained : state.drained = true)
    (key : DestinationKey) : state.unsettled key = [] ∧ state.incoming = [] := by
  simp only [Dispatcher.drained, Bool.and_eq_true, Bool.not_eq_true', List.isEmpty_iff] at hdrained
  obtain ⟨⟨⟨hopen, hsends⟩, hdelayed⟩, hlanes⟩ := hdrained
  refine ⟨?_, (hstate.closed hopen).2⟩
  have hlane : state.lane key = [] := by
    apply laneOf_eq_nil_of_notMem
    rw [AList.mem_keys, AList.keys, hlanes]
    exact List.not_mem_nil
  rw [Dispatcher.unsettled, Dispatcher.underway, hsends, hdelayed, hlane]
  rfl

theorem Kept.received_of_underway (hstate : Kept config state)
    (hdelivery : delivery ∈ state.underway) : delivery.origin ∈ state.received := by
  obtain ⟨lane, hlane⟩ := hstate.unsettled_of_underway hdelivery
  have hqueue := hstate.queue delivery.destination
  rw [hlane] at hqueue
  have hmem : delivery.origin ∈ state.received.filter
      (fun found => found.destination = delivery.destination) := by
    rw [hqueue]
    simp
  exact List.mem_of_mem_filter hmem

/-- Nothing is settled that was not received, and nothing more often. -/
theorem Kept.settled_subperm (hstate : Kept config state) :
    ((state.settled.map Prod.fst).map Delivery.origin).Subperm state.received := by
  rw [List.subperm_ext_iff]
  intro delivery _
  have hprefix : (state.settledTo delivery.destination).map Delivery.origin <+:
      state.received.filter (fun found => found.destination = delivery.destination) := by
    rw [hstate.queue, List.map_append]
    exact List.prefix_append _ _
  have hcount := hprefix.sublist.count_le delivery
  rw [List.count_filter (by simp)] at hcount
  have hfilter : (state.settledTo delivery.destination).map Delivery.origin =
      ((state.settled.map Prod.fst).map Delivery.origin).filter
        (fun found => found.destination = delivery.destination) := by
    rw [List.filter_map, settledTo]
    rfl
  rw [hfilter, List.count_filter (by simp)] at hcount
  exact hcount

theorem Kept.settled_length_le (hstate : Kept config state) :
    state.settled.length ≤ state.received.length := by
  simpa using hstate.settled_subperm.length_le

theorem Kept.permits_nodup (hstate : Kept config state) :
    (state.accepted.map Delivery.capacity).Nodup := by
  apply List.Nodup.of_map Permit.number
  rw [List.map_map]
  exact hstate.numbered ▸ List.nodup_range

theorem Reacts.ready {event : Event} (hreacts : Reacts latest state event left) :
    state.ready <+: left.ready := by
  cases hreacts with
  | stopped => exact List.prefix_rfl
  | ignored => simp
  | settled =>
      rw [toDispatcher_finishTurn]
      change state.ready <+: (state.toDispatcher.finish _).ready
      unfold Dispatcher.finish
      dsimp only
      split
      · exact List.prefix_append _ _
      · exact List.prefix_rfl
  | postponed =>
      rw [toDispatcher_finishTurn]
      exact List.prefix_rfl
  | panicked => exact List.prefix_rfl
  | received =>
      rw [toDispatcher_finishTurn]
      change state.ready <+: (state.toDispatcher.receive _).ready
      unfold Dispatcher.receive
      dsimp only
      split
      · exact List.prefix_append _ _
      · exact List.prefix_rfl
  | closed => exact List.prefix_rfl
  | slept => simp

theorem Reacts.delayed {event : Event} (hreacts : Reacts latest state event left) :
    state.delayed <+: left.delayed := by
  cases hreacts with
  | stopped => exact List.prefix_rfl
  | ignored => simp
  | settled =>
      rw [toDispatcher_finishTurn]
      change state.delayed <+: (state.toDispatcher.finish _).delayed
      unfold Dispatcher.finish
      dsimp only
      split <;> exact List.prefix_rfl
  | postponed =>
      rw [toDispatcher_finishTurn]
      exact List.prefix_append _ _
  | panicked => exact List.prefix_rfl
  | received =>
      rw [toDispatcher_finishTurn]
      change state.delayed <+: (state.toDispatcher.receive _).delayed
      unfold Dispatcher.receive
      dsimp only
      split <;> exact List.prefix_rfl
  | closed => exact List.prefix_rfl
  | slept => simp

/-- A send that has ended makes room for another. -/
theorem Reacts.sends {outcome : DeliveryOutcome} {now : Instant}
    (hreacts : Reacts latest state (.completed delivery outcome now) left)
    (hrunning : left.status = .running) : left.sends.length < state.sends.length := by
  cases hreacts with
  | settled hdelivery =>
      rw [toDispatcher_finishTurn]
      change (state.toDispatcher.finish _).sends.length < _
      rw [Dispatcher.sends_finish, List.length_erase_of_mem hdelivery]
      have := List.length_pos_of_mem hdelivery
      omega
  | postponed hdelivery =>
      rw [toDispatcher_finishTurn]
      change (state.sends.erase _).length < _
      rw [List.length_erase_of_mem hdelivery]
      have := List.length_pos_of_mem hdelivery
      omega
  | panicked => cases hrunning

end Phase

end System

/-! ## Runs that are left alone -/

namespace Run

variable (run : Run config latest)

/-- The shutdown signal does not change. -/
def Undisturbed : Prop :=
  ∀ n stop next, run.action n ≠ .turn (.shutdownChanged stop) next

/-- The clock can represent every deadline that an adapter asks for. -/
def Representable : Prop :=
  ∀ n delivery delay now next,
    run.action n = .turn (.completed delivery (.retryAfter delay) now) next → now + delay ≤ latest

/-- What the platform, the clock and the executor do in time: a send ends, a timer
fires, a message in the queue wakes the loop, and no delivery is retried forever. -/
structure Fair : Prop where
  sends_end : ∀ n, (run.state n).status = .running → ∀ delivery ∈ (run.state n).sends,
    ∃ m, n ≤ m ∧ ∃ outcome now next,
      run.action m = .turn (.completed delivery outcome now) next
  timers_fire : ∀ n, (run.state n).status = .running → ∀ timer ∈ (run.state n).delayed,
    ∃ m, n ≤ m ∧ ∃ event next, run.action m = .turn event next ∧ timer.1 ≤ next
  queue_wakes : ∀ n, (run.state n).status = .running → (run.state n).incoming ≠ [] →
    ∃ m, n ≤ m ∧ ∃ event next, run.action m = .turn event next
  retries_end : ∀ permit, ∃ n, ∀ m, n ≤ m → ∀ delivery delay now next,
    run.action m = .turn (.completed delivery (.retryAfter delay) now) next →
      delivery.capacity ≠ permit

section History

variable {n m : ℕ} {key : DestinationKey}

theorem received_mono (hnm : n ≤ m) : (run.state n).received <+: (run.state m).received := by
  induction hnm with
  | refl => exact List.prefix_rfl
  | step _ ih => exact ih.trans (System.history_step (run.follows _)).1

theorem settled_mono (hnm : n ≤ m) : (run.state n).settled <+: (run.state m).settled := by
  induction hnm with
  | refl => exact List.prefix_rfl
  | step _ ih => exact ih.trans (System.history_step (run.follows _)).2

theorem accepted_mono (hnm : n ≤ m) : (run.state n).accepted <+: (run.state m).accepted := by
  induction hnm with
  | refl => exact List.prefix_rfl
  | step _ ih => exact ih.trans (System.accepted_step (run.follows _))

theorem settledTo_mono (hnm : n ≤ m) :
    (run.state n).settledTo key <+: (run.state m).settledTo key :=
  ((run.settled_mono hnm).map Prod.fst).filter _

/-- How many deliveries have been settled for a destination. -/
def settledCount (key : DestinationKey) (n : ℕ) : ℕ := ((run.state n).settledTo key).length

theorem settledCount_mono (hnm : n ≤ m) : run.settledCount key n ≤ run.settledCount key m :=
  (run.settledTo_mono hnm).length_le

theorem received_count (key : DestinationKey) (n : ℕ) :
    ((run.state n).received.filter (fun delivery => delivery.destination = key)).length =
      run.settledCount key n + ((run.state n).unsettled key).length := by
  rw [(run.waiting n).queue key, List.length_map, List.length_append, settledCount]

/-- The dispatcher has something left for the destination. -/
def Pending (key : DestinationKey) (count n : ℕ) : Prop :=
  run.settledCount key n = count ∧ (run.state n).unsettled key ≠ []

variable {run}

theorem Pending.later {count : ℕ} (hpending : run.Pending key count n) (hnm : n ≤ m) :
    run.Pending key count m ∨ count < run.settledCount key m := by
  have hcount : run.settledCount key n ≤ run.settledCount key m :=
    run.settledCount_mono hnm
  obtain ⟨rfl, hsome⟩ := hpending
  obtain heq | hless := Nat.eq_or_lt_of_le hcount
  · refine Or.inl ⟨heq.symm, ?_⟩
    have hreceived := ((run.received_mono hnm).filter fun delivery : Delivery =>
      delivery.destination = key).length_le
    rw [received_count, received_count, ← heq] at hreceived
    have := List.length_pos_of_ne_nil hsome
    exact List.ne_nil_of_length_pos (by omega)
  · exact Or.inr hless

/-- The first delivery that is left stays the same until it is settled. -/
theorem Pending.head {count : ℕ} (hn : run.Pending key count n) (hm : run.Pending key count m)
    (hnm : n ≤ m) {delivery : Delivery} {later : List Delivery}
    (hhead : ((run.state n).unsettled key).map Delivery.origin = delivery :: later) :
    ∃ rest, ((run.state m).unsettled key).map Delivery.origin = delivery :: rest := by
  have hsettled : (run.state n).settledTo key = (run.state m).settledTo key :=
    (run.settledTo_mono hnm).eq_of_length (hn.1.trans hm.1.symm)
  have hreceived := (run.received_mono hnm).filter fun delivery : Delivery =>
    delivery.destination = key
  rw [(run.waiting n).queue key, (run.waiting m).queue key, hsettled, List.map_append,
    List.map_append, List.prefix_append_right_inj, hhead] at hreceived
  obtain ⟨rest, hrest⟩ := hreceived
  exact ⟨later ++ rest, hrest.symm⟩

end History

section Progress

variable {run} (hundisturbed : run.Undisturbed) (hrepresentable : run.Representable)

include hundisturbed hrepresentable

/-- The loop only ends when there is nothing left. -/
theorem running_or_drained (n : ℕ) :
    (run.state n).status = .running ∨
      (run.state n).status = .returned ∧ (run.state n).drained = true := by
  induction n with
  | zero =>
      rw [run.starts]
      exact Or.inl rfl
  | succ n ih =>
      have hstep := run.follows n
      by_cases hquiet : ∀ event next, run.action n ≠ .turn event next
      · obtain ⟨hdispatcher, -, -, hstatus, -⟩ := System.step_quiet hstep hquiet
        rw [hdispatcher, hstatus]
        exact ih
      · push Not at hquiet
        obtain ⟨event, next, haction⟩ := hquiet
        rw [haction] at hstep
        obtain ⟨hrunning, left, hreacts, hreached⟩ := System.turn_step hstep
        have hleft : left.status = .running ∨ left.status = .returned ∧ left.drained = true := by
          cases hreacts with
          | stopped => exact absurd haction (hundisturbed n _ _)
          | ignored => exact absurd haction (hundisturbed n _ _)
          | panicked hdelay => exact absurd (hrepresentable n _ _ _ _ haction) hdelay
          | closed => exact Or.inl hrunning
          | settled =>
              rw [System.toDispatcher_finishTurn]
              exact System.status_finishTurn hrunning
          | postponed =>
              rw [System.toDispatcher_finishTurn]
              exact System.status_finishTurn hrunning
          | received =>
              rw [System.toDispatcher_finishTurn]
              exact System.status_finishTurn hrunning
          | slept =>
              rw [System.toDispatcher_finishTurn]
              exact System.status_finishTurn hrunning
        rw [hreached, System.status_await]
        obtain hrun | ⟨hreturned, hdrained⟩ := hleft
        · exact Or.inl hrun
        · refine Or.inr ⟨hreturned, ?_⟩
          rw [System.await, if_neg (by rw [hreturned]; exact fun h => by cases h)]
          exact hdrained

theorem running_of_unsettled {key : DestinationKey} {n : ℕ}
    (hsome : (run.state n).unsettled key ≠ []) : (run.state n).status = .running := by
  obtain hrunning | ⟨-, hdrained⟩ := running_or_drained hundisturbed hrepresentable n
  · exact hrunning
  · exact absurd ((run.waiting n).unsettled_of_drained hdrained key).1 hsome

theorem running_of_incoming {n : ℕ} (hsome : (run.state n).incoming ≠ []) :
    (run.state n).status = .running := by
  obtain hrunning | ⟨-, hdrained⟩ := running_or_drained hundisturbed hrepresentable n
  · exact hrunning
  · exact absurd ((run.waiting n).unsettled_of_drained hdrained ⟨""⟩).2 hsome

/-- What a turn leaves while the destination still has deliveries. -/
theorem turn_of_pending {key : DestinationKey} {count n : ℕ} {event : Event} {next : Instant}
    (hafter : run.Pending key count (n + 1)) (haction : run.action n = .turn event next) :
    ∃ left, System.Reacts latest (run.state n) event left ∧ left.status = .running ∧
      left.toDispatcher.Consistent ∧
      (run.state (n + 1)).toDispatcher =
        left.toDispatcher.dispatch config.deliveryWorkers next := by
  have hstep := run.follows n
  rw [haction] at hstep
  obtain ⟨-, left, hreacts, hreached⟩ := System.turn_step hstep
  have hrunning := running_of_unsettled hundisturbed hrepresentable hafter.2
  rw [hreached, System.status_await] at hrunning
  refine ⟨left, hreacts, hrunning, ((run.waiting n).toKept.reacts hreacts).consistent, ?_⟩
  rw [hreached, System.await, if_pos hrunning]

/-- A ready destination stays so, and comes closer to the front with every send that
ends, until it is sent to. -/
theorem ready_step {key : DestinationKey} {count n : ℕ}
    (hafter : run.Pending key count (n + 1)) (hready : key ∈ (run.state n).ready) :
    key ∈ (run.state (n + 1)).sends.map Delivery.destination ∨
      key ∈ (run.state (n + 1)).ready ∧
        (run.state (n + 1)).ready.idxOf key ≤ (run.state n).ready.idxOf key ∧
        ((∃ delivery outcome now next,
          run.action n = .turn (.completed delivery outcome now) next) →
            (run.state (n + 1)).ready.idxOf key < (run.state n).ready.idxOf key) := by
  by_cases hquiet : ∀ event next, run.action n ≠ .turn event next
  · obtain ⟨hdispatcher, -⟩ := System.step_quiet (run.follows n) hquiet
    rw [hdispatcher]
    refine Or.inr ⟨hready, Nat.le_refl _, ?_⟩
    rintro ⟨delivery, outcome, now, next, haction⟩
    exact absurd haction (hquiet _ _)
  · push Not at hquiet
    obtain ⟨event, next, haction⟩ := hquiet
    obtain ⟨left, hreacts, hrunning, hconsistent, hreached⟩ :=
      turn_of_pending hundisturbed hrepresentable hafter haction
    obtain ⟨later, hlater⟩ := hreacts.ready
    have hleft : key ∈ left.ready := hlater ▸ List.mem_append_left later hready
    have hindex : left.ready.idxOf key = (run.state n).ready.idxOf key := by
      rw [← hlater, List.idxOf_append_of_mem hready]
    rw [hreached, ← hindex]
    obtain hsend | ⟨hstill, hle, hless⟩ := Dispatcher.ready_dispatch hconsistent hleft
    · exact Or.inl hsend
    · refine Or.inr ⟨hstill, hle, ?_⟩
      rintro ⟨delivery, outcome, now, other, hcompleted⟩
      apply hless
      rw [haction] at hcompleted
      obtain ⟨rfl, -⟩ := Action.turn.inj hcompleted
      exact Nat.lt_of_lt_of_le (hreacts.sends hrunning) (run.waiting n).within_limit

/-- A retry waits for its timer, and then its destination is ready or sent to. -/
theorem delayed_step {key : DestinationKey} {count n : ℕ} {timer : Instant × Delivery}
    (hafter : run.Pending key count (n + 1)) (htimer : timer ∈ (run.state n).delayed)
    (hkey : timer.2.destination = key) :
    (timer ∈ (run.state (n + 1)).delayed ∧
        ∀ event next, run.action n = .turn event next → next < timer.1) ∨
      key ∈ (run.state (n + 1)).ready ∨
      key ∈ (run.state (n + 1)).sends.map Delivery.destination := by
  by_cases hquiet : ∀ event next, run.action n ≠ .turn event next
  · obtain ⟨hdispatcher, -⟩ := System.step_quiet (run.follows n) hquiet
    rw [hdispatcher]
    exact Or.inl ⟨htimer, fun event next haction => absurd haction (hquiet event next)⟩
  · push Not at hquiet
    obtain ⟨event, next, haction⟩ := hquiet
    obtain ⟨left, hreacts, hrunning, hconsistent, hreached⟩ :=
      turn_of_pending hundisturbed hrepresentable hafter haction
    have hleft : timer ∈ left.delayed := hreacts.delayed.subset htimer
    rw [hreached, ← hkey]
    obtain ⟨hdue, hstill⟩ | hmoved := Dispatcher.delayed_dispatch hconsistent hleft
    · refine Or.inl ⟨hstill, ?_⟩
      intro other later hother
      rw [haction] at hother
      obtain ⟨-, rfl⟩ := Action.turn.inj hother
      exact hdue
    · exact Or.inr hmoved

variable (hfair : run.Fair)

include hfair

section Head

variable {key : DestinationKey} {count start settled : ℕ} {head : Delivery}
  {later : List Delivery} (hstart : run.Pending key count start)
  (hhead : ((run.state start).unsettled key).map Delivery.origin = head :: later)
  (hsettled : start ≤ settled) (hretries : ∀ m, settled ≤ m → ∀ delivery delay now next,
    run.action m = .turn (.completed delivery (.retryAfter delay) now) next →
      delivery.capacity ≠ head.capacity)

include hstart hhead hsettled hretries

/-- Once the first delivery of a destination is no longer retried, sending it settles it. -/
theorem sending_leadsTo :
    LeadsTo
      (fun n => settled ≤ n ∧ run.Pending key count n ∧
        key ∈ (run.state n).sends.map Delivery.destination)
      (fun n => count < run.settledCount key n) := by
  rintro n ⟨hn, hpending, hsend⟩
  obtain ⟨delivery, hdelivery, hkey⟩ := List.mem_map.mp hsend
  have hrunning := running_of_unsettled hundisturbed hrepresentable hpending.2
  obtain ⟨m, hnm, outcome, now, next, haction⟩ := hfair.sends_end n hrunning delivery hdelivery
  obtain hm | hdone := hpending.later hnm
  · have hstep := run.follows m
    rw [haction] at hstep
    obtain ⟨-, left, hreacts, hreached⟩ := System.turn_step hstep
    refine ⟨m + 1, Nat.le_succ_of_le hnm, ?_⟩
    cases hreacts with
    | settled =>
        have hcount : run.settledCount key (m + 1) = run.settledCount key m + 1 := by
          rw [settledCount, settledCount, System.settledTo, System.settledTo, hreached,
            System.settled_await, System.settled_finishTurn]
          change (((run.state m).settled ++ [(delivery, _)]).map Prod.fst |>.filter _).length = _
          rw [List.map_append, List.filter_append, List.length_append]
          simp [hkey]
        rw [hcount, hm.1]
        exact Nat.lt_succ_self _
    | postponed =>
        -- the delivery is the one that is no longer retried
        have hunderway : delivery ∈ (run.state n).underway := List.mem_append_left _ hdelivery
        obtain ⟨lane, hlane⟩ := (run.waiting n).unsettled_of_underway hunderway
        obtain ⟨rest, hrest⟩ := hstart.head hpending (Nat.le_trans hsettled hn) hhead
        rw [← hkey, hlane, List.map_cons] at hrest
        have hcapacity : delivery.origin.capacity = head.capacity :=
          congrArg Delivery.capacity (List.cons.inj hrest).1
        exact absurd hcapacity (hretries m (Nat.le_trans hn hnm) delivery _ _ _ haction)
    | panicked hdelay => exact absurd (hrepresentable m _ _ _ _ haction) hdelay
  · exact ⟨m, hnm, hdone⟩

/-- A ready destination waits for the limit, and every send that ends brings it closer. -/
theorem ready_leadsTo (hworkers : 0 < config.deliveryWorkers) :
    LeadsTo
      (fun n => settled ≤ n ∧ run.Pending key count n ∧ key ∈ (run.state n).ready)
      (fun n => count < run.settledCount key n) := by
  have hsent : LeadsTo
      (fun n => settled ≤ n ∧ run.Pending key count n ∧ key ∈ (run.state n).ready)
      (fun n => (settled ≤ n ∧ run.Pending key count n ∧
        key ∈ (run.state n).sends.map Delivery.destination) ∨ count < run.settledCount key n) := by
    apply LeadsTo.of_rank fun n => (run.state n).ready.idxOf key
    rintro n ⟨hn, hpending, hready⟩
    have hrunning := running_of_unsettled hundisturbed hrepresentable hpending.2
    -- a destination is only ready while the limit is reached
    have hsends : (run.state n).sends ≠ [] := by
      intro hnone
      have hempty := (run.waiting n).filled hrunning (by rw [hnone]; exact hworkers)
      rw [hempty] at hready
      exact absurd hready List.not_mem_nil
    obtain ⟨delivery, hdelivery⟩ := List.exists_mem_of_ne_nil _ hsends
    obtain ⟨m, hnm, outcome, now, next, haction⟩ := hfair.sends_end n hrunning delivery hdelivery
    have hkeep : ∀ l, (settled ≤ l ∧ run.Pending key count l ∧ key ∈ (run.state l).ready ∧
        (run.state l).ready.idxOf key ≤ (run.state n).ready.idxOf key) →
        (settled ≤ l + 1 ∧ run.Pending key count (l + 1) ∧ key ∈ (run.state (l + 1)).ready ∧
          (run.state (l + 1)).ready.idxOf key ≤ (run.state n).ready.idxOf key) ∨
        ((settled ≤ l + 1 ∧ run.Pending key count (l + 1) ∧
          key ∈ (run.state (l + 1)).sends.map Delivery.destination) ∨
          count < run.settledCount key (l + 1)) := by
      rintro l ⟨hl, hpendingl, hreadyl, hindex⟩
      obtain hafter | hdone := hpendingl.later (Nat.le_succ l)
      · obtain hsend | ⟨hstill, hle, -⟩ :=
          ready_step hundisturbed hrepresentable hafter hreadyl
        · exact Or.inr (Or.inl ⟨Nat.le_succ_of_le hl, hafter, hsend⟩)
        · exact Or.inl ⟨Nat.le_succ_of_le hl, hafter, hstill, Nat.le_trans hle hindex⟩
      · exact Or.inr (Or.inr hdone)
    have huntil := holds_until
      (p := fun l => settled ≤ l ∧ run.Pending key count l ∧ key ∈ (run.state l).ready ∧
        (run.state l).ready.idxOf key ≤ (run.state n).ready.idxOf key)
      (q := fun l => (settled ≤ l ∧ run.Pending key count l ∧
        key ∈ (run.state l).sends.map Delivery.destination) ∨ count < run.settledCount key l)
      hkeep hnm ⟨hn, hpending, hready, Nat.le_refl _⟩
    obtain ⟨hm, hpendingm, hreadym, hindex⟩ | ⟨l, hnl, -, hgoal⟩ := huntil
    · obtain hafter | hdone := hpendingm.later (Nat.le_succ m)
      · obtain hsend | ⟨hstill, -, hless⟩ :=
          ready_step hundisturbed hrepresentable hafter hreadym
        · exact ⟨m + 1, Nat.le_succ_of_le hnm,
            Or.inl (Or.inl ⟨Nat.le_succ_of_le hm, hafter, hsend⟩)⟩
        · refine ⟨m + 1, Nat.le_succ_of_le hnm,
            Or.inr ⟨⟨Nat.le_succ_of_le hm, hafter, hstill⟩, ?_⟩⟩
          exact Nat.lt_of_lt_of_le (hless ⟨_, _, _, _, haction⟩) hindex
      · exact ⟨m + 1, Nat.le_succ_of_le hnm, Or.inl (Or.inr hdone)⟩
    · exact ⟨l, hnl, Or.inl hgoal⟩
  exact hsent.trans ((sending_leadsTo hundisturbed hrepresentable hfair hstart hhead hsettled
    hretries).or LeadsTo.refl)

/-- A retry whose timer has fired is ready or sent to. -/
theorem delayed_leadsTo (hworkers : 0 < config.deliveryWorkers) :
    LeadsTo
      (fun n => settled ≤ n ∧ run.Pending key count n ∧
        ∃ timer ∈ (run.state n).delayed, timer.2.destination = key)
      (fun n => count < run.settledCount key n) := by
  rintro n ⟨hn, hpending, timer, htimer, hkey⟩
  have hsending := sending_leadsTo hundisturbed hrepresentable hfair hstart hhead hsettled hretries
  have hready := ready_leadsTo hundisturbed hrepresentable hfair hstart hhead hsettled hretries
    hworkers
  have hmoved : ∀ l, n ≤ l → run.Pending key count l →
      (key ∈ (run.state l).ready ∨ key ∈ (run.state l).sends.map Delivery.destination) →
      ∃ m, n ≤ m ∧ count < run.settledCount key m := by
    intro l hnl hpendingl hphase
    have hl : settled ≤ l := Nat.le_trans hn hnl
    obtain hr | hs := hphase
    · obtain ⟨m, hlm, hdone⟩ := hready l ⟨hl, hpendingl, hr⟩
      exact ⟨m, Nat.le_trans hnl hlm, hdone⟩
    · obtain ⟨m, hlm, hdone⟩ := hsending l ⟨hl, hpendingl, hs⟩
      exact ⟨m, Nat.le_trans hnl hlm, hdone⟩
  have hrunning := running_of_unsettled hundisturbed hrepresentable hpending.2
  obtain ⟨m, hnm, event, next, haction, hdue⟩ := hfair.timers_fire n hrunning timer htimer
  have hkeep : ∀ l, (n ≤ l ∧ run.Pending key count l ∧ timer ∈ (run.state l).delayed) →
      (n ≤ l + 1 ∧ run.Pending key count (l + 1) ∧ timer ∈ (run.state (l + 1)).delayed) ∨
      ∃ m, n ≤ m ∧ count < run.settledCount key m := by
    rintro l ⟨hnl, hpendingl, htimerl⟩
    obtain hafter | hdone := hpendingl.later (Nat.le_succ l)
    · obtain ⟨hstill, -⟩ | hphase :=
        delayed_step hundisturbed hrepresentable hafter htimerl hkey
      · exact Or.inl ⟨Nat.le_succ_of_le hnl, hafter, hstill⟩
      · exact Or.inr (hmoved (l + 1) (Nat.le_succ_of_le hnl) hafter hphase)
    · exact Or.inr ⟨l + 1, Nat.le_succ_of_le hnl, hdone⟩
  have huntil := holds_until
    (p := fun l => n ≤ l ∧ run.Pending key count l ∧ timer ∈ (run.state l).delayed)
    (q := fun _ => ∃ m, n ≤ m ∧ count < run.settledCount key m)
    hkeep hnm ⟨Nat.le_refl n, hpending, htimer⟩
  obtain ⟨-, hpendingm, htimerm⟩ | ⟨-, -, -, hdone⟩ := huntil
  · obtain hafter | hdone := hpendingm.later (Nat.le_succ m)
    · obtain ⟨-, hearly⟩ | hphase :=
        delayed_step hundisturbed hrepresentable hafter htimerm hkey
      · exact absurd (hearly event next haction) (Nat.not_lt.mpr hdue)
      · exact hmoved (m + 1) (Nat.le_succ_of_le hnm) hafter hphase
    · exact ⟨m + 1, Nat.le_succ_of_le hnm, hdone⟩
  · exact hdone

end Head

/-- The first delivery that is left for a destination is settled. -/
theorem pending_leadsTo (hworkers : 0 < config.deliveryWorkers) (key : DestinationKey)
    (count : ℕ) :
    LeadsTo (fun n => run.Pending key count n) (fun n => count < run.settledCount key n) := by
  intro start hstart
  obtain ⟨delivery, lane, hlane⟩ := List.exists_cons_of_ne_nil hstart.2
  have hhead : ((run.state start).unsettled key).map Delivery.origin =
      delivery.origin :: lane.map Delivery.origin := by rw [hlane]; rfl
  obtain ⟨last, hlast⟩ := hfair.retries_end delivery.origin.capacity
  have hsettled : start ≤ max start last := Nat.le_max_left _ _
  have hretries : ∀ m, max start last ≤ m → ∀ delivery' delay now next,
      run.action m = .turn (.completed delivery' (.retryAfter delay) now) next →
        delivery'.capacity ≠ delivery.origin.capacity :=
    fun m hm => hlast m (Nat.le_trans (Nat.le_max_right _ _) hm)
  obtain hpending | hdone := hstart.later hsettled
  · have hreach : ∃ m, max start last ≤ m ∧ count < run.settledCount key m := by
      obtain hready | hsend | hdelayed := (run.waiting (max start last)).phase hpending.2
      · exact ready_leadsTo hundisturbed hrepresentable hfair hstart hhead hsettled hretries
          hworkers _ ⟨Nat.le_refl _, hpending, hready⟩
      · exact sending_leadsTo hundisturbed hrepresentable hfair hstart hhead hsettled hretries
          _ ⟨Nat.le_refl _, hpending, hsend⟩
      · exact delayed_leadsTo hundisturbed hrepresentable hfair hstart hhead hsettled hretries
          hworkers _ ⟨Nat.le_refl _, hpending, hdelayed⟩
    obtain ⟨m, hm, hdone⟩ := hreach
    exact ⟨m, Nat.le_trans hsettled hm, hdone⟩
  · exact ⟨max start last, hsettled, hdone⟩

/-- The loop comes to the queue: until it does it only settles what it has. -/
theorem incoming_leadsTo (count : ℕ) :
    LeadsTo (fun n => (run.state n).incoming ≠ [] ∧ (run.state n).received.length = count)
      (fun n => count < (run.state n).received.length) := by
  rintro start ⟨hincoming, hcount⟩
  have hretried : ∃ last, ∀ m, last ≤ m →
      ∀ permit ∈ (run.state start).received.map Delivery.capacity, ∀ delivery delay now next,
        run.action m = .turn (.completed delivery (.retryAfter delay) now) next →
          delivery.capacity ≠ permit :=
    eventually_all _ fun permit _ => hfair.retries_end permit
  obtain ⟨last, hlast⟩ := hretried
  -- a queue that is not looked at keeps what it has
  have hkept : ∀ m, start ≤ m → count < (run.state m).received.length ∨
      (run.state m).received = (run.state start).received ∧ (run.state m).incoming ≠ [] := by
    intro m hm
    have hprefix := run.received_mono hm
    obtain heq | hless := Nat.eq_or_lt_of_le (hcount ▸ hprefix.length_le)
    · have hreceived : (run.state start).received = (run.state m).received :=
        hprefix.eq_of_length (hcount.trans heq)
      refine Or.inr ⟨hreceived.symm, ?_⟩
      have haccepted := run.accepted_mono hm
      rw [System.accepted, System.accepted, hreceived, List.prefix_append_right_inj] at haccepted
      intro hnone
      rw [hnone, List.prefix_nil] at haccepted
      exact hincoming haccepted
    · exact Or.inl hless
  have hreach : LeadsTo
      (fun n => max start last ≤ n ∧ (run.state n).received = (run.state start).received ∧
        (run.state n).incoming ≠ [])
      (fun n => count < (run.state n).received.length) := by
    apply LeadsTo.of_rank fun n => count - (run.state n).settled.length
    rintro n ⟨hn, hreceived, hsome⟩
    have hrunning := running_of_incoming hundisturbed hrepresentable hsome
    obtain ⟨m, hnm, event, next, haction⟩ := hfair.queue_wakes n hrunning hsome
    have hm : max start last ≤ m := Nat.le_trans hn hnm
    have hstart : start ≤ m := Nat.le_trans (Nat.le_max_left _ _) hm
    obtain hdone | ⟨hreceivedm, hsomem⟩ := hkept m hstart
    · exact ⟨m, hnm, Or.inl hdone⟩
    have hstep := run.follows m
    rw [haction] at hstep
    obtain ⟨-, left, hreacts, hreached⟩ := System.turn_step hstep
    refine ⟨m + 1, Nat.le_succ_of_le hnm, ?_⟩
    cases hreacts with
    | stopped => exact absurd haction (hundisturbed m _ _)
    | ignored => exact absurd haction (hundisturbed m _ _)
    | panicked hdelay => exact absurd (hrepresentable m _ _ _ _ haction) hdelay
    | settled =>
        obtain hdone | ⟨hsame, hstill⟩ := hkept (m + 1) (Nat.le_succ_of_le hstart)
        · exact Or.inl hdone
        · refine Or.inr ⟨⟨Nat.le_succ_of_le hm, hsame, hstill⟩, ?_⟩
          have hsettled : (run.state (m + 1)).settled.length =
              (run.state m).settled.length + 1 := by
            rw [hreached, System.settled_await, System.settled_finishTurn]
            exact List.length_append
          have hbound := (run.waiting (m + 1)).settled_length_le
          rw [hsame, hcount, hsettled] at hbound
          have hmono := (run.settled_mono hnm).length_le
          omega
    | postponed hdelivery =>
        have hmem := (run.waiting m).received_of_underway (List.mem_append_left _ hdelivery)
        rw [hreceivedm] at hmem
        exact absurd (Delivery.origin_capacity _).symm
          (hlast m (Nat.le_trans (Nat.le_max_right _ _) hm) _
            (List.mem_map_of_mem hmem) _ _ _ _ haction)
    | received =>
        refine Or.inl ?_
        rw [hreached, System.received_await, System.received_finishTurn]
        change count < ((run.state m).received ++ [_]).length
        rw [hreceivedm, List.length_append, hcount]
        exact Nat.lt_succ_self count
    | closed hnone => exact absurd hnone hsomem
    | slept hqueue =>
        exfalso
        cases hopen : (run.state m).incomingOpen with
        | true => exact hsomem (hqueue hopen)
        | false => exact hsomem ((run.waiting m).closed hopen).2
  obtain hdone | ⟨hreceived, hsome⟩ := hkept (max start last) (Nat.le_max_left _ _)
  · exact ⟨_, Nat.le_max_left _ _, hdone⟩
  · obtain ⟨m, hm, hdone⟩ := hreach _ ⟨Nat.le_refl _, hreceived, hsome⟩
    exact ⟨m, Nat.le_trans (Nat.le_max_left _ _) hm, hdone⟩

/-- Whatever has entered the queue is received. -/
theorem accepted_leadsTo {delivery : Delivery} :
    LeadsTo (fun n => delivery ∈ (run.state n).accepted)
      (fun n => delivery ∈ (run.state n).received) := by
  intro start hdelivery
  obtain ⟨index, hindex, hget⟩ := List.mem_iff_getElem.mp hdelivery
  have hreach : LeadsTo
      (fun n => start ≤ n ∧ (run.state n).received.length ≤ index)
      (fun n => start ≤ n ∧ index < (run.state n).received.length) := by
    apply LeadsTo.of_rank fun n => index + 1 - (run.state n).received.length
    rintro n ⟨hn, hle⟩
    have hsome : (run.state n).incoming ≠ [] := by
      intro hnone
      have hlength := (run.accepted_mono hn).length_le
      have haccepted : (run.state n).accepted = (run.state n).received := by
        rw [System.accepted, hnone, List.append_nil]
      rw [haccepted] at hlength
      omega
    obtain ⟨m, hnm, hless⟩ := incoming_leadsTo hundisturbed hrepresentable hfair
      (run.state n).received.length n ⟨hsome, rfl⟩
    refine ⟨m, hnm, ?_⟩
    by_cases hdone : index < (run.state m).received.length
    · exact Or.inl ⟨Nat.le_trans hn hnm, hdone⟩
    · exact Or.inr ⟨⟨Nat.le_trans hn hnm, by omega⟩, by omega⟩
  obtain ⟨m, hm, hstart, hless⟩ : ∃ m, start ≤ m ∧ start ≤ m ∧
      index < (run.state m).received.length := by
    by_cases hdone : index < (run.state start).received.length
    · exact ⟨start, Nat.le_refl _, Nat.le_refl _, hdone⟩
    · exact hreach start ⟨Nat.le_refl _, by omega⟩
  refine ⟨m, hm, ?_⟩
  have haccepted : (run.state m).accepted[index]? = some delivery := by
    obtain ⟨rest, hrest⟩ := run.accepted_mono hm
    rw [← hrest, List.getElem?_append_left hindex, List.getElem?_eq_getElem hindex, hget]
  rw [System.accepted, List.getElem?_append_left hless] at haccepted
  exact List.mem_of_getElem? haccepted

/-- Whatever has been received is settled. -/
theorem received_leadsTo (hworkers : 0 < config.deliveryWorkers) {delivery : Delivery} :
    LeadsTo (fun n => delivery ∈ (run.state n).received)
      (fun n => ∃ settlement ∈ (run.state n).settled, settlement.1.origin = delivery) := by
  intro start hdelivery
  have hmem : delivery ∈ (run.state start).received.filter
      (fun found => found.destination = delivery.destination) :=
    List.mem_filter.mpr ⟨hdelivery, by simp⟩
  obtain ⟨index, hindex, hget⟩ := List.mem_iff_getElem.mp hmem
  have hreach : LeadsTo
      (fun n => start ≤ n ∧ run.settledCount delivery.destination n ≤ index)
      (fun n => start ≤ n ∧ index < run.settledCount delivery.destination n) := by
    apply LeadsTo.of_rank fun n => index + 1 - run.settledCount delivery.destination n
    rintro n ⟨hn, hle⟩
    have hsome : (run.state n).unsettled delivery.destination ≠ [] := by
      intro hnone
      have hlength := ((run.received_mono hn).filter fun found : Delivery =>
        found.destination = delivery.destination).length_le
      rw [run.received_count _ n, hnone, List.length_nil] at hlength
      omega
    obtain ⟨m, hnm, hless⟩ := pending_leadsTo hundisturbed hrepresentable hfair hworkers
      delivery.destination (run.settledCount delivery.destination n) n ⟨rfl, hsome⟩
    refine ⟨m, hnm, ?_⟩
    by_cases hdone : index < run.settledCount delivery.destination m
    · exact Or.inl ⟨Nat.le_trans hn hnm, hdone⟩
    · exact Or.inr ⟨⟨Nat.le_trans hn hnm, by omega⟩, by omega⟩
  obtain ⟨m, hm, hstart, hless⟩ : ∃ m, start ≤ m ∧ start ≤ m ∧
      index < run.settledCount delivery.destination m := by
    by_cases hdone : index < run.settledCount delivery.destination start
    · exact ⟨start, Nat.le_refl _, Nat.le_refl _, hdone⟩
    · exact hreach start ⟨Nat.le_refl _, by omega⟩
  refine ⟨m, hm, ?_⟩
  have hreceived : ((run.state m).received.filter
      (fun found => found.destination = delivery.destination))[index]? = some delivery := by
    obtain ⟨rest, hrest⟩ := (run.received_mono hm).filter fun found : Delivery =>
      found.destination = delivery.destination
    rw [← hrest, List.getElem?_append_left hindex, List.getElem?_eq_getElem hindex, hget]
  have hless' : index <
      (((run.state m).settledTo delivery.destination).map Delivery.origin).length := by
    rw [List.length_map]
    exact hless
  rw [(run.waiting m).queue, List.map_append, List.getElem?_append_left hless'] at hreceived
  obtain ⟨found, hfound, horigin⟩ := List.mem_map.mp (List.mem_of_getElem? hreceived)
  obtain ⟨settlement, hsettlement, rfl⟩ := List.mem_map.mp (List.mem_of_mem_filter hfound)
  exact ⟨settlement, hsettlement, horigin⟩

end Progress

end Run

/-! ## What the dispatcher promises -/

namespace System

def acceptedTo (state : System) (key : DestinationKey) : List Delivery :=
  state.accepted.filter fun delivery => delivery.destination = key

/-- What holds of the dispatcher whenever it waits. -/
structure Orderly (config : ChannelConfig) (state : System) : Prop where
  one_in_flight : (state.sends.map Delivery.destination).Nodup
  within_limit : state.sends.length ≤ config.deliveryWorkers
  /-- What is sent, or is to be sent again, follows what is settled. -/
  in_order : ∀ delivery ∈ state.underway, ∃ later,
    state.acceptedTo delivery.destination =
      (state.settledTo delivery.destination).map Delivery.origin ++ delivery.origin :: later
  /-- A destination waits for its own delivery or for the limit. -/
  unblocked : state.status = .running → state.sends.length < config.deliveryWorkers →
    ∀ key, state.lane key ≠ [] → ∃ delivery ∈ state.underway, delivery.destination = key
  complete : ∀ key, state.acceptedTo key =
    (state.settledTo key ++ state.unsettled key).map Delivery.origin ++
      state.incoming.filter (fun delivery => delivery.destination = key)
  settled_once : (state.settled.map fun settlement => settlement.1.capacity).Nodup
  permits_held : state.available + state.acquired +
    (state.accepted.length - state.settled.length) = config.pendingDeliveries

theorem Waiting.orderly {state : System} (hstate : Waiting config state) :
    Orderly config state where
  one_in_flight := by
    have hunique := hstate.consistent.underway_unique
    rw [Dispatcher.underway, List.map_append] at hunique
    exact hunique.of_append_left
  within_limit := hstate.within_limit
  in_order := by
    intro delivery hdelivery
    obtain ⟨lane, hlane⟩ := hstate.unsettled_of_underway hdelivery
    rw [acceptedTo, accepted, List.filter_append, hstate.queue, hlane, List.map_append,
      List.append_assoc]
    exact ⟨_, rfl⟩
  unblocked := by
    intro hrunning hroom key hlane
    have hready : key ∉ state.ready := by
      rw [hstate.filled hrunning hroom]
      exact List.not_mem_nil
    rw [hstate.consistent.ready_iff, not_and] at hready
    have hactive : key ∈ state.active := by
      by_contra hactive
      exact hready hactive hlane
    rw [hstate.consistent.active_iff] at hactive
    exact List.mem_map.mp hactive
  complete := by
    intro key
    rw [acceptedTo, accepted, List.filter_append, hstate.queue]
  settled_once := by
    obtain ⟨found, hperm, hsublist⟩ := hstate.settled_subperm
    have hreceived : (state.received.map Delivery.capacity).Nodup := by
      have hnodup := hstate.permits_nodup
      rw [accepted, List.map_append] at hnodup
      exact hnodup.of_append_left
    have hfound := hreceived.sublist (hsublist.map Delivery.capacity)
    rw [(hperm.map Delivery.capacity).nodup_iff, List.map_map, List.map_map] at hfound
    exact hfound
  permits_held := by
    have hpermits := hstate.permits
    have hsettled := hstate.settled_length_le
    have haccepted : state.received.length ≤ state.accepted.length := by
      rw [accepted, List.length_append]
      exact Nat.le_add_right _ _
    omega

/-- A delivery under way has not been settled. -/
theorem Kept.not_settled_of_underway {state : System} (hstate : Kept config state)
    {delivery : Delivery} (hdelivery : delivery ∈ state.underway) :
    ∀ settlement ∈ state.settled, settlement.1.origin ≠ delivery.origin := by
  intro settlement hsettlement heq
  obtain ⟨lane, hlane⟩ := hstate.unsettled_of_underway hdelivery
  have hqueue := hstate.queue delivery.destination
  have hnodup : state.received.Nodup := by
    have hpermits := hstate.permits_nodup
    rw [accepted, List.map_append] at hpermits
    exact hpermits.of_append_left.of_map _
  have hfiltered := hnodup.filter fun found => decide (found.destination = delivery.destination)
  rw [hqueue, hlane, List.map_append, List.nodup_append] at hfiltered
  apply hfiltered.2.2 settlement.1.origin _ delivery.origin (by simp) heq
  apply List.mem_map_of_mem
  apply List.mem_filter.mpr
  refine ⟨List.mem_map_of_mem hsettlement, ?_⟩
  rw [decide_eq_true_iff, ← Delivery.origin_destination settlement.1, heq,
    Delivery.origin_destination]

end System

namespace Run

/-- Every delivery that has been accepted is settled, then or later. -/
def Delivers (run : Run config latest) : Prop :=
  ∀ n, ∀ delivery ∈ (run.state n).accepted, ∃ m, n ≤ m ∧
    ∃ settlement ∈ (run.state m).settled, settlement.1.origin = delivery

theorem delivers {run : Run config latest} (hworkers : 0 < config.deliveryWorkers)
    (hundisturbed : run.Undisturbed) (hrepresentable : run.Representable) (hfair : run.Fair) :
    run.Delivers := by
  intro n delivery hdelivery
  exact (accepted_leadsTo hundisturbed hrepresentable hfair).trans
    (received_leadsTo hundisturbed hrepresentable hfair hworkers) n hdelivery

/-- A loop that has panicked settles nothing any more. -/
theorem settled_of_panicked {run : Run config latest} {n m : ℕ}
    (hpanicked : (run.state n).status = .panicked) (hnm : n ≤ m) :
    (run.state m).status = .panicked ∧ (run.state m).settled = (run.state n).settled := by
  induction hnm with
  | refl => exact ⟨hpanicked, rfl⟩
  | @step l _ ih =>
      have hstep := run.follows l
      by_cases hquiet : ∀ event next, run.action l ≠ .turn event next
      · obtain ⟨-, -, hsettled, hstatus, -⟩ := System.step_quiet hstep hquiet
        exact ⟨hstatus.trans ih.1, hsettled.trans ih.2⟩
      · push Not at hquiet
        obtain ⟨event, next, haction⟩ := hquiet
        rw [haction] at hstep
        have hrunning := (System.turn_step hstep).1
        rw [ih.1] at hrunning
        cases hrunning

/-- A deadline that the clock cannot represent ends the loop with the delivery unsettled. -/
theorem representable_of_delivers {run : Run config latest} (hdelivers : run.Delivers) :
    run.Representable := by
  intro n delivery delay now next haction
  by_contra hdelay
  have hstep := run.follows n
  rw [haction, System.step] at hstep
  split at hstep
  case isFalse => cases hstep
  case isTrue =>
    obtain ⟨left, hreact, hreached⟩ := Option.map_eq_some_iff.mp hstep
    rw [System.react] at hreact
    split at hreact
    case isFalse => cases hreact
    case isTrue hdelivery =>
      obtain rfl := Option.some.inj hreact
      rw [if_neg (by exact fun h => by cases h)] at hreached
      have hunderway : delivery ∈ (run.state n).underway := List.mem_append_left _ hdelivery
      have hreceived := (run.waiting n).received_of_underway hunderway
      obtain ⟨m, hnm, settlement, hsettlement, horigin⟩ :=
        hdelivers n delivery.origin (List.mem_append_left _ hreceived)
      have hpanicked : (run.state (n + 1)).status = .panicked := by rw [← hreached]
      have hlater := (settled_of_panicked hpanicked (Nat.le_max_left (n + 1) m)).2
      have hmem := (run.settled_mono (Nat.le_max_right (n + 1) m)).subset hsettlement
      rw [hlater, ← hreached] at hmem
      exact (run.waiting n).not_settled_of_underway hunderway settlement hmem horigin

/-- The dispatcher keeps its promises in every run, and one that is left alone settles
every delivery exactly where the clock can represent every deadline it is asked for. -/
theorem delivers_iff_representable (config : ValidConfig) (latest : Instant)
    (run : Run config.toChannelConfig latest) :
    (∀ n, (run.state n).Orderly config.toChannelConfig) ∧
      (run.Undisturbed → run.Fair → (run.Delivers ↔ run.Representable)) := by
  constructor
  · intro n
    exact (run.waiting n).orderly
  · intro hundisturbed hfair
    constructor
    · exact representable_of_delivers
    · intro hrepresentable
      exact delivers config.deliveryWorkers_pos hundisturbed hrepresentable hfair

/-! ### Runs that follow a script -/

section Script

variable (config latest) (script : List Action)

/-- The action of a script at a point in time; after its end nothing happens. -/
def scripted (n : ℕ) : Action := script.getD n .idle

def played : ℕ → System
  | 0 => .initial config
  | n + 1 => ((played n).step latest config (scripted script n)).getD (played n)

/-- Every action of the script can be taken. -/
def playable : Bool :=
  (List.range script.length).all fun n =>
    ((played config latest script n).step latest config (scripted script n)).isSome

variable {script}

theorem scripted_of_le {n : ℕ} (hn : script.length ≤ n) : scripted script n = .idle := by
  rw [scripted, List.getD_eq_getElem?_getD, List.getElem?_eq_none hn]
  rfl

theorem played_of_le {n : ℕ} (hn : script.length ≤ n) :
    played config latest script n = played config latest script script.length := by
  induction hn with
  | refl => rfl
  | @step m hm ih =>
      rw [played, scripted_of_le hm]
      exact ih

/-- The run of a script. -/
def ofScript (hplayable : playable config latest script = true) : Run config latest where
  state := played config latest script
  action := scripted script
  starts := rfl
  follows := by
    intro n
    rw [played]
    by_cases hn : n < script.length
    · have hstep := List.all_eq_true.mp hplayable n (List.mem_range.mpr hn)
      obtain ⟨reached, hreached⟩ := Option.isSome_iff_exists.mp hstep
      rw [hreached]
      rfl
    · rw [scripted_of_le (Nat.le_of_not_lt hn)]
      rfl

end Script

section Fair

/-- Whether the action is the end of the send. -/
def endsSend (delivery : Delivery) : Action → Bool
  | .turn (.completed other _ _) _ => other = delivery
  | _ => false

/-- Whether the action is a turn that looks at the clock at an instant or later. -/
def turnsAt (due : Instant) : Action → Bool
  | .turn _ next => due ≤ next
  | _ => false

variable (config latest) (script : List Action)

/-- Every send, timer and message of the script has its turn in the script. -/
def attended : Bool :=
  (List.range (script.length + 1)).all fun n =>
    let state := played config latest script n
    let rest := script.drop n
    state.status != .running ||
      (state.sends.all fun delivery => rest.any (endsSend delivery)) &&
      (state.delayed.all fun timer => rest.any (turnsAt timer.1)) &&
      (state.incoming.isEmpty || rest.any (turnsAt 0))

variable {config latest script}

theorem scripted_of_any {n : ℕ} {found : Action → Bool} (hany : (script.drop n).any found = true) :
    ∃ m, n ≤ m ∧ found (scripted script m) = true := by
  obtain ⟨action, haction, hfound⟩ := List.any_eq_true.mp hany
  obtain ⟨index, hindex, rfl⟩ := List.mem_iff_getElem.mp haction
  refine ⟨n + index, Nat.le_add_right _ _, ?_⟩
  rw [List.length_drop] at hindex
  rw [scripted, List.getD_eq_getElem?_getD, List.getElem?_eq_getElem (by omega)]
  rw [List.getElem_drop] at hfound
  exact hfound

theorem fair_ofScript (hplayable : playable config latest script = true)
    (hattended : attended config latest script = true) :
    (ofScript config latest hplayable).Fair := by
  -- the end of the script stands for all later points
  have hat : ∀ n, (played config latest script n).status = .running →
      ((∀ delivery ∈ (played config latest script n).sends,
          (script.drop n).any (endsSend delivery) = true) ∧
        (∀ timer ∈ (played config latest script n).delayed,
          (script.drop n).any (turnsAt timer.1) = true)) ∧
        ((played config latest script n).incoming ≠ [] →
          (script.drop n).any (turnsAt 0) = true) := by
    intro n hrunning
    have hbound : ∀ m, m ≤ script.length → (played config latest script m).status = .running →
        ((∀ delivery ∈ (played config latest script m).sends,
            (script.drop m).any (endsSend delivery) = true) ∧
          (∀ timer ∈ (played config latest script m).delayed,
            (script.drop m).any (turnsAt timer.1) = true)) ∧
          ((played config latest script m).incoming ≠ [] →
            (script.drop m).any (turnsAt 0) = true) := by
      intro m hm hrunning
      have hall := List.all_eq_true.mp hattended m (List.mem_range.mpr (Nat.lt_succ_of_le hm))
      dsimp only at hall
      rw [hrunning] at hall
      simp only [bne_self_eq_false, Bool.false_or, Bool.and_eq_true, List.all_eq_true,
        Bool.or_eq_true, List.isEmpty_iff] at hall
      exact ⟨hall.1, fun hsome => hall.2.resolve_left hsome⟩
    obtain hn | hn := Nat.le_total n script.length
    · exact hbound n hn hrunning
    · rw [played_of_le config latest hn] at hrunning ⊢
      rw [List.drop_eq_nil_of_le hn]
      have hend := hbound script.length (Nat.le_refl _) hrunning
      rw [List.drop_length] at hend
      exact hend
  constructor
  case sends_end =>
    intro n hrunning delivery hdelivery
    obtain ⟨m, hnm, hfound⟩ := scripted_of_any ((hat n hrunning).1.1 delivery hdelivery)
    refine ⟨m, hnm, ?_⟩
    unfold endsSend at hfound
    split at hfound
    case h_1 other outcome now next haction =>
      exact ⟨outcome, now, next, by rw [← of_decide_eq_true hfound]; exact haction⟩
    case h_2 => cases hfound
  case timers_fire =>
    intro n hrunning timer htimer
    obtain ⟨m, hnm, hfound⟩ := scripted_of_any ((hat n hrunning).1.2 timer htimer)
    refine ⟨m, hnm, ?_⟩
    unfold turnsAt at hfound
    split at hfound
    case h_1 event next haction =>
      exact ⟨event, next, haction, of_decide_eq_true hfound⟩
    case h_2 => cases hfound
  case queue_wakes =>
    intro n hrunning hsome
    obtain ⟨m, hnm, hfound⟩ := scripted_of_any ((hat n hrunning).2 hsome)
    refine ⟨m, hnm, ?_⟩
    unfold turnsAt at hfound
    split at hfound
    case h_1 event next haction => exact ⟨event, next, haction⟩
    case h_2 => cases hfound
  case retries_end =>
    intro permit
    refine ⟨script.length, fun m hm delivery delay now next haction => ?_⟩
    have hidle : (ofScript config latest hplayable).action m = .idle := scripted_of_le hm
    rw [hidle] at haction
    cases haction

/-- An action of the run is one of the script. -/
theorem scripted_mem {action : Action} {n : ℕ} (haction : scripted script n = action)
    (hne : action ≠ .idle) : action ∈ script := by
  by_cases hn : n < script.length
  · rw [scripted, List.getD_eq_getElem?_getD, List.getElem?_eq_getElem hn] at haction
    rw [← haction]
    exact List.getElem_mem hn
  · rw [scripted_of_le (Nat.le_of_not_lt hn)] at haction
    exact absurd haction.symm hne

def disturbs : Action → Bool
  | .turn (.shutdownChanged _) _ => true
  | _ => false

/-- Whether the clock can represent the deadline that the action asks for. -/
def fits (latest : Instant) : Action → Bool
  | .turn (.completed _ (.retryAfter delay) now) _ => now + delay ≤ latest
  | _ => true

theorem undisturbed_ofScript (hplayable : playable config latest script = true)
    (hscript : (script.all fun action => !disturbs action) = true) :
    (ofScript config latest hplayable).Undisturbed := by
  intro n stop next haction
  have hmem := scripted_mem haction (fun heq => by cases heq)
  have hnot := List.all_eq_true.mp hscript _ hmem
  cases hnot

theorem representable_ofScript (hplayable : playable config latest script = true)
    (hscript : script.all (fits latest) = true) :
    (ofScript config latest hplayable).Representable := by
  intro n delivery delay now next haction
  have hmem := scripted_mem haction (fun heq => by cases heq)
  exact of_decide_eq_true (List.all_eq_true.mp hscript _ hmem)

end Fair

end Run

namespace OneWorker

/-! ### Two messages for one conversation, and a clock that ends -/

def oneWorker : ValidConfig where
  deliveryWorkers := 1
  pendingDeliveries := 2
  valid := rfl

def general : DestinationKey := ⟨"general"⟩

def first : Delivery where
  eventId := "event-1"
  destination := general
  event := .completedMessage "one"
  attempt := 1
  capacity := ⟨0⟩

def second : Delivery where
  eventId := "event-2"
  destination := general
  event := .completedMessage "two"
  attempt := 1
  capacity := ⟨1⟩

/-- Both messages are queued and received, and the first is being sent. -/
def received : List Action :=
  [.acquire, .acquire, .send "event-1" general (.completedMessage "one"),
    .send "event-2" general (.completedMessage "two"), .turn .received 0, .turn .received 0]

def retried : List Action :=
  received ++ [.turn (.completed first (.retryAfter 5) 1) 1, .turn (.slept 6) 6,
    .turn (.completed first.again (.delivered ⟨none⟩) 7) 7,
    .turn (.completed second (.dropped "gone") 8) 8]

theorem retried_playable : Run.playable oneWorker.toChannelConfig 100 retried = true := by
  decide

theorem retried_attended : Run.attended oneWorker.toChannelConfig 100 retried = true := by
  decide

/-- A retry that is due in time: both messages are settled, one after the other. -/
theorem retried_delivers :
    (Run.ofScript oneWorker.toChannelConfig 100 retried_playable).Delivers :=
  ((Run.delivers_iff_representable oneWorker 100
      (Run.ofScript oneWorker.toChannelConfig 100 retried_playable)).2
    (Run.undisturbed_ofScript retried_playable (by decide))
    (Run.fair_ofScript retried_playable retried_attended)).mpr
    (Run.representable_ofScript retried_playable (by decide))

/-- `Duration::MAX`, in nanoseconds. -/
def longest : Duration := (2 ^ 64 - 1) * 10 ^ 9 + 999999999

/-- The last instant of a clock that counts seconds in an `i64`. -/
def lastInstant : Instant := (2 ^ 63 - 1) * 10 ^ 9 + 999999999

def overflowing : List Action :=
  received ++ [.turn (.completed first (.retryAfter longest) 1) 1]

theorem overflowing_playable :
    Run.playable oneWorker.toChannelConfig lastInstant overflowing = true := by
  decide

theorem overflowing_attended :
    Run.attended oneWorker.toChannelConfig lastInstant overflowing = true := by
  decide

/-- A retry that is never due ends the loop, and both messages are lost. -/
theorem overflowing_not_delivers :
    ¬∀ (config : ValidConfig) (latest : Instant) (run : Run config.toChannelConfig latest),
      run.Undisturbed → run.Fair → run.Delivers := by
  intro hclaim
  have hdelivers := hclaim oneWorker lastInstant
    (Run.ofScript oneWorker.toChannelConfig lastInstant overflowing_playable)
    (Run.undisturbed_ofScript overflowing_playable (by decide))
    (Run.fair_ofScript overflowing_playable overflowing_attended)
  have hrepresentable := Run.representable_of_delivers hdelivers
  have hdelay := hrepresentable 6 first longest 1 1 rfl
  revert hdelay
  decide

end OneWorker

end Mews.Channel
