import Mews.Channel.Delivered

/-!
# The end of the dispatcher

The loop looks at the end of its body whether there is anything left to do.  When it finds the
queue closed it goes on without looking: if nothing is left then, it waits for a shutdown.
-/

namespace Mews.Channel

variable {config : ChannelConfig} {latest : Instant}

namespace Dispatcher

/-- Nothing is queued, in flight or delayed. -/
structure Quiet (state : Dispatcher) : Prop where
  sends : state.sends = []
  delayed : state.delayed = []
  lane : ∀ key, state.lane key = []

variable {state : Dispatcher}

theorem quiet_iff : state.Quiet ↔ ∀ key, state.unsettled key = [] := by
  constructor
  · intro hquiet key
    rw [unsettled, underway, hquiet.sends, hquiet.delayed, hquiet.lane]
    rfl
  · intro hsettled
    have hunderway : state.underway = [] := by
      rw [List.eq_nil_iff_forall_not_mem]
      intro delivery hdelivery
      have hnone := List.append_eq_nil_iff.mp (hsettled delivery.destination)
      have hmem : delivery ∈ state.underway.filter
          fun found => found.destination = delivery.destination :=
        List.mem_filter.mpr ⟨hdelivery, decide_eq_true rfl⟩
      rw [hnone.1] at hmem
      exact List.not_mem_nil hmem
    obtain ⟨hsends, hdelayed⟩ := List.append_eq_nil_iff.mp hunderway
    exact
      { sends := hsends
        delayed := List.map_eq_nil_iff.mp hdelayed
        lane := fun key => (List.append_eq_nil_iff.mp (hsettled key)).2 }

theorem Consistent.quiet_dispatch_iff (hstate : state.Consistent) {workerLimit : ℕ}
    {now : Instant} : (state.dispatch workerLimit now).Quiet ↔ state.Quiet := by
  rw [quiet_iff, quiet_iff]
  apply forall_congr'
  intro key
  have hfill : (state.dispatch workerLimit now).unsettled key = (state.expire now).unsettled key :=
    hstate.expire.unsettled_fill key
  rw [hfill, hstate.unsettled_expire]

/-- A closed loop with nothing left finds that it is done. -/
theorem Consistent.drained_of_quiet (hstate : state.Consistent) (hclosed : state.incomingOpen = false)
    (hquiet : state.Quiet) : state.drained = true := by
  have hlanes : state.lanes.entries = [] := by
    have hkeys : state.lanes.keys = [] := by
      rw [List.eq_nil_iff_forall_not_mem]
      intro key hkey
      rcases (hstate.mem_lanes_iff key).mp (AList.mem_keys.mpr hkey) with hactive | hlane
      · rw [hstate.active_iff, underway, hquiet.sends, hquiet.delayed] at hactive
        exact List.not_mem_nil hactive
      · exact hlane (hquiet.lane key)
    exact List.map_eq_nil_iff.mp hkeys
  rw [drained, hclosed, hquiet.sends, hquiet.delayed, hlanes]
  rfl

end Dispatcher

namespace System

variable {state left reached : System} {event : Event} {action : Action}

/-- The loop waits, and nothing but a shutdown can wake it. -/
structure Stranded (config : ChannelConfig) (latest : Instant) (state : System) : Prop where
  running : state.status = .running
  closed : state.incomingOpen = false
  quiet : state.Quiet
  shutdownOnly : ∀ event next reached, state.step latest config (.turn event next) = some reached →
    ∃ stop, event = .shutdownChanged stop

/-- The queue is found closed when nothing is left. -/
structure ClosesQuiet (state : System) (action : Action) : Prop where
  turn : ∃ next, action = .turn .received next
  opened : state.incomingOpen = true
  senders : state.senders = false
  incoming : state.incoming = []
  quiet : state.Quiet

theorem stranded_of_quiet (hrunning : state.status = .running)
    (hclosed : state.incomingOpen = false) (hquiet : state.Quiet) :
    Stranded config latest state where
  running := hrunning
  closed := hclosed
  quiet := hquiet
  shutdownOnly := by
    intro event next reached hstep
    rw [step, if_pos hrunning] at hstep
    obtain ⟨left, hreact, -⟩ := Option.map_eq_some_iff.mp hstep
    cases event with
    | shutdownChanged stop => exact ⟨stop, rfl⟩
    | completed delivery outcome now =>
        unfold react at hreact
        dsimp only at hreact
        rw [hquiet.sends, if_neg List.not_mem_nil] at hreact
        cases hreact
    | received =>
        rw [react, hclosed] at hreact
        cases hreact
    | slept now =>
        rw [react, hquiet.delayed, if_neg] at hreact
        · cases hreact
        · rintro ⟨⟨timer, htimer, -⟩, -⟩
          exact List.not_mem_nil htimer

/-- At the end of its body the loop has found something left. -/
theorem undrained_finishTurn (hrunning : state.finishTurn.status = .running) :
    state.finishTurn.drained = false := by
  rw [finishTurn] at hrunning ⊢
  split at hrunning
  · cases hrunning
  · next hdrained =>
      rw [if_neg hdrained]
      exact Bool.eq_false_of_not_eq_true hdrained

/-- The loop goes on to wait with something left, or it has just found the queue closed. -/
theorem Reacts.undrained (hreacts : Reacts latest state event left)
    (hrunning : left.status = .running) (hopen : left.incomingOpen = false) :
    left.drained = false ∨ event = .received ∧ state.incoming = [] ∧ state.senders = false ∧
      left = { state with incomingOpen := false } := by
  cases hreacts with
  | stopped => cases hrunning
  | panicked => cases hrunning
  | closed hincoming hsenders => exact Or.inr ⟨rfl, hincoming, hsenders, rfl⟩
  | ignored => exact Or.inl (undrained_finishTurn hrunning)
  | settled => exact Or.inl (undrained_finishTurn hrunning)
  | postponed => exact Or.inl (undrained_finishTurn hrunning)
  | received => exact Or.inl (undrained_finishTurn hrunning)
  | slept => exact Or.inl (undrained_finishTurn hrunning)

/-- While the loop of a closed queue runs there is something left. -/
def Watched (state : System) : Prop :=
  state.status = .running → state.incomingOpen = false → ¬state.Quiet

theorem Watched.step (hstate : Waiting config state) (hwatched : state.Watched)
    (hquiet : ¬state.ClosesQuiet action)
    (hstep : state.step latest config action = some reached) : reached.Watched := by
  by_cases hturn : ∃ event next, action = .turn event next
  · obtain ⟨event, next, rfl⟩ := hturn
    obtain ⟨hwaited, left, hreacts, rfl⟩ := turn_step hstep
    intro hrunning hclosed
    rw [status_await] at hrunning
    rw [await, if_pos hrunning] at hclosed ⊢
    have hconsistent := (hstate.toKept.reacts hreacts).consistent
    have hopen : left.incomingOpen = false := by
      rw [← hclosed]
      exact Dispatcher.dispatch_incomingOpen.symm
    rw [hconsistent.quiet_dispatch_iff]
    intro hleft
    rcases hreacts.undrained hrunning hopen with hundrained | ⟨rfl, hincoming, hsenders, rfl⟩
    · rw [hconsistent.drained_of_quiet hopen hleft] at hundrained
      cases hundrained
    · have hsame : state.Quiet := ⟨hleft.sends, hleft.delayed, hleft.lane⟩
      cases hbefore : state.incomingOpen with
      | false => exact hwatched hwaited hbefore hsame
      | true => exact hquiet ⟨⟨next, rfl⟩, hbefore, hsenders, hincoming, hsame⟩
  · push Not at hturn
    obtain ⟨hdispatcher, -, -, hstatus, -⟩ := step_quiet hstep hturn
    rw [Watched, hdispatcher, hstatus]
    exact hwatched

theorem ClosesQuiet.stranded (hcloses : state.ClosesQuiet action) (hstate : Waiting config state)
    (hstep : state.step latest config action = some reached) :
    Stranded config latest reached := by
  obtain ⟨next, rfl⟩ := hcloses.turn
  have hrunning : state.status = .running := (turn_step hstep).1
  have hreact : state.react latest .received = some { state with incomingOpen := false } := by
    rw [react, if_pos hcloses.opened, hcloses.incoming]
    dsimp only
    rw [hcloses.senders]
    rfl
  rw [step, if_pos hrunning, hreact] at hstep
  have hreached : reached = System.await config next { state with incomingOpen := false } :=
    (Option.some.inj hstep).symm
  have hdispatcher : reached.toDispatcher = Dispatcher.dispatch config.deliveryWorkers next
      { state.toDispatcher with incomingOpen := false } := by
    rw [hreached, await, if_pos hrunning]
  have hleft : Dispatcher.Consistent { state.toDispatcher with incomingOpen := false } :=
    (hstate.toKept.reacts (reacts_of_react hreact)).consistent
  apply stranded_of_quiet
  · rw [hreached, status_await]
    exact hrunning
  · rw [hdispatcher]
    exact Dispatcher.dispatch_incomingOpen
  · rw [hdispatcher, hleft.quiet_dispatch_iff]
    exact ⟨hcloses.quiet.sends, hcloses.quiet.delayed, hcloses.quiet.lane⟩

end System

namespace Run

/-- The loop is never stranded, and has ended when the queue is closed and the last delivery
is terminal. -/
structure Stops (run : Run config latest) : Prop where
  unstranded : ∀ n, ¬System.Stranded config latest (run.state n)
  ends : ∀ n, (run.state n).incomingOpen = false → (run.state n).Quiet →
    (run.state n).status ≠ .running

theorem watched (run : Run config latest)
    (hquiet : ∀ n, ¬(run.state n).ClosesQuiet (run.action n)) (n : ℕ) :
    (run.state n).Watched := by
  induction n with
  | zero =>
      rw [run.starts]
      intro _ hclosed
      cases hclosed
  | succ n ih => exact ih.step (run.waiting n) (hquiet n) (run.follows n)

/-- The dispatcher stops in every run in which its queue is not closed when nothing is left. -/
theorem stops_iff (run : Run config latest) :
    run.Stops ↔ ∀ n, ¬(run.state n).ClosesQuiet (run.action n) := by
  constructor
  · intro hstops n hcloses
    exact hstops.unstranded (n + 1) (hcloses.stranded (run.waiting n) (run.follows n))
  · intro hquiet
    exact
      { unstranded := fun n hstranded =>
          run.watched hquiet n hstranded.running hstranded.closed hstranded.quiet
        ends := fun n hclosed hleft hrunning => run.watched hquiet n hrunning hclosed hleft }

end Run

namespace OneWorker

/-- The message is delivered, and then the last sender goes. -/
def deliveredFirst : List Action :=
  [.acquire, .send "event-1" general (.completedMessage "one"), .turn .received 0,
    .turn (.completed first (.delivered ⟨none⟩) 1) 1, .disconnect, .turn .received 2]

theorem deliveredFirst_playable :
    Run.playable oneWorker.toChannelConfig 100 deliveredFirst = true := by
  decide

theorem deliveredFirst_stranded :
    ¬(Run.ofScript oneWorker.toChannelConfig 100 deliveredFirst_playable).Stops := by
  intro hstops
  apply hstops.ends 6
  · decide
  · exact ⟨by decide, by decide, fun key => rfl⟩
  · decide

end OneWorker

end Mews.Channel
