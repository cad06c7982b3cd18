import Mews.Agent.Batches

/-!
# What a batch executes and records

Each call of a batch leaves a trace of its own in the log, whatever the interleaving with the
others, and the trace shows how far the call has come.
-/

namespace Mews

open Protocol HostProtocol

namespace BatchWorld

variable (world : BatchWorld) (tools : ToolCatalog)

/-! ## Preparation -/

/-- The call is prepared for execution. -/
structure Approves (preparation : Preparation)
    (call : AgentToolCall) : Prop where
  notStopped : preparation.terminalError = none
  notCancelled : world.cancelled preparation.log = false
  valid : world.validate tools call = .ok ()
  allowed : world.beforeTool preparation.log call = .ok .allow

/-- One more call is prepared, which asks nothing but its hook. -/
structure Prepares (call : AgentToolCall) (before after : Preparation) : Prop where
  item : ∃ item : Prepared, item.call = call ∧ after.prepared = before.prepared ++ [item] ∧
    (item = .execute call → world.Approves tools before call)
  asked : after.log = before.log ∨ after.log = before.log ++ [.asked call]

variable {world tools} in
theorem prepares_push {preparation before : Preparation} {call : AgentToolCall} (item : Prepared)
    (hcall : item.call = call)
    (hprepared : preparation.prepared = before.prepared)
    (happroved : item = .execute call → world.Approves tools before call)
    (hasked : preparation.log = before.log ∨ preparation.log = before.log ++ [.asked call]) :
    world.Prepares tools call before (preparation.push item) where
  item := ⟨item, hcall, congrArg (· ++ [item]) hprepared, happroved⟩
  asked := hasked

theorem prepares_prepareCall (preparation : Preparation) (call : AgentToolCall) :
    world.Prepares tools call preparation (world.prepareCall tools preparation call) := by
  have himmediate (preparation' : Preparation) (result : ToolOutcome)
      (hprepared : preparation'.prepared = preparation.prepared)
      (hasked : preparation'.log = preparation.log ∨
        preparation'.log = preparation.log ++ [.asked call]) :
      world.Prepares tools call preparation (preparation'.push (.immediate call result)) :=
    prepares_push _ rfl hprepared (fun hitem => by cases hitem) hasked
  rw [prepareCall]
  split_ifs with hcancelled hstopped
  · exact himmediate _ _ rfl (.inl rfl)
  · exact himmediate _ _ rfl (.inl rfl)
  · cases hvalid : world.validate tools call with
    | error text => exact himmediate _ _ rfl (.inl rfl)
    | ok value =>
        dsimp only
        rw [decideCall]
        split
        · exact himmediate _ _ rfl (.inr rfl)
        · next hallowed =>
            rw [Bool.or_eq_true, not_or, Bool.not_eq_true, Bool.not_eq_true] at hcancelled
            rw [Option.not_isSome_iff_eq_none] at hstopped
            have happroves : world.Approves tools preparation call :=
              ⟨hstopped, hcancelled.2, hvalid, hallowed⟩
            exact prepares_push (.execute call) rfl rfl (fun _ => happroves) (.inr rfl)
        · split
          · exact himmediate _ _ rfl (.inr rfl)
          · split_ifs
            · exact himmediate _ _ rfl (.inr rfl)
            · exact himmediate _ _ rfl (.inr rfl)

theorem prepare_append (calls : List AgentToolCall) (call : AgentToolCall) :
    world.prepare tools (calls ++ [call]) =
      world.prepareCall tools (world.prepare tools calls) call := by
  rw [prepare, List.foldl_append]
  rfl

theorem prepared_calls (calls : List AgentToolCall) :
    (world.prepare tools calls).prepared.map (·.call) = calls := by
  induction calls using List.reverseRecOn with
  | nil => rfl
  | append_singleton calls call ih =>
      obtain ⟨item, hcall, hprepared, -⟩ :=
        (world.prepares_prepareCall tools (world.prepare tools calls) call).item
      rw [prepare_append, hprepared, List.map_append, ih, List.map_singleton, hcall]

/-- What is executed was approved in its place. -/
theorem approves_of_mem {calls : List AgentToolCall} {call : AgentToolCall}
    (hitem : Prepared.execute call ∈ (world.prepare tools calls).prepared) :
    ∃ before after, calls = before ++ call :: after ∧
      world.Approves tools (world.prepare tools before) call := by
  induction calls using List.reverseRecOn with
  | nil => cases hitem
  | append_singleton calls last ih =>
      obtain ⟨item, hcall, hprepared, happroved⟩ :=
        (world.prepares_prepareCall tools (world.prepare tools calls) last).item
      rw [prepare_append, hprepared, List.mem_append, List.mem_singleton] at hitem
      rcases hitem with hearlier | rfl
      · obtain ⟨before, after, hcalls, happroves⟩ := ih hearlier
        refine ⟨before, after ++ [last], ?_, happroves⟩
        rw [hcalls, List.append_assoc, List.cons_append]
      · obtain rfl := hcall
        exact ⟨calls, [], rfl, happroved rfl⟩

theorem settled_calls (calls : List AgentToolCall) :
    (world.prepare tools calls).settle.map (·.call) = calls := by
  have hcalls := world.prepared_calls tools calls
  rw [Preparation.settle]
  split_ifs
  · rw [List.map_map]
    refine Eq.trans ?_ hcalls
    apply List.map_congr_left
    intro item _
    cases item <;> rfl
  · exact hcalls

theorem settled_execute {preparation : Preparation} {call : AgentToolCall}
    (hitem : Prepared.execute call ∈ preparation.settle) :
    preparation.terminalError = none ∧ Prepared.execute call ∈ preparation.prepared := by
  rw [Preparation.settle] at hitem
  split_ifs at hitem with hstopped
  · obtain ⟨item, -, hsettled⟩ := List.mem_map.mp hitem
    cases item <;> cases hsettled
  · exact ⟨Option.not_isSome_iff_eq_none.mp hstopped, hitem⟩

end BatchWorld

namespace BatchEvent

/-- The call that is executed. -/
def call? : BatchEvent → Option AgentToolCall
  | .event (.toolExecutionStarted call) _ | .event (.toolExecutionCompleted call _) _
  | .executed call | .interrupted call => some call
  | _ => none

def startedCall? : BatchEvent → Option AgentToolCall
  | .event (.toolExecutionStarted call) _ => some call
  | _ => none

theorem call_of_startedCall {event : BatchEvent} {call : AgentToolCall}
    (hstarted : event.startedCall? = some call) : event.call? = some call := by
  unfold startedCall? at hstarted
  split at hstarted
  · exact hstarted
  · cases hstarted

/-- The call whose result is recorded. -/
def recordedCall? : BatchEvent → Option AgentToolCall
  | .event (.toolResultRecorded call _) true => some call
  | _ => none

/-- An execution is cut short. -/
def isCut : BatchEvent → Bool
  | .event (.toolExecutionStarted _) false | .event (.toolExecutionCompleted ..) false
  | .interrupted _ => true
  | _ => false

end BatchEvent

/-- What the log tells of one call. -/
def traceOf (call : AgentToolCall) (log : List BatchEvent) : List BatchEvent :=
  log.filter fun event => event.call? = some call

theorem traceOf_append (call : AgentToolCall) (log later : List BatchEvent) :
    traceOf call (log ++ later) = traceOf call log ++ traceOf call later :=
  List.filter_append ..

theorem traceOf_eq_self {call : AgentToolCall} {log : List BatchEvent}
    (hlog : ∀ event ∈ log, event.call? = some call) : traceOf call log = log := by
  apply List.filter_eq_self.mpr
  intro event hevent
  exact decide_eq_true (hlog event hevent)

theorem traceOf_eq_nil {call : AgentToolCall} {log : List BatchEvent}
    (hlog : ∀ event ∈ log, event.call? ≠ some call) : traceOf call log = [] := by
  apply List.filter_eq_nil_iff.mpr
  intro event hevent
  rw [decide_eq_true_iff]
  exact hlog event hevent

namespace BatchWorld

def startedCalls (log : List BatchEvent) : List AgentToolCall :=
  log.filterMap BatchEvent.startedCall?

/-- The log tells only of the calls of these items. -/
def Known (items : List Prepared) (log : List BatchEvent) : Prop :=
  ∀ event ∈ log, ∀ call, event.call? = some call → call ∈ items.map (·.call)

/-- How far a call has come, with what the log tells of it. -/
inductive Trace : Prepared → Slot → List BatchEvent → Prop where
  | ready (item : Prepared) : Trace item (.ready item) []
  | immediate (call : AgentToolCall) (result : ToolOutcome) :
      Trace (.immediate call result) (.done (.ok (call, result))) []
  | refused (call : AgentToolCall) (failure : Failure) :
      Trace (.execute call) (.done (.error failure)) [.event (.toolExecutionStarted call) false]
  | started (call : AgentToolCall) :
      Trace (.execute call) (.started call) [.event (.toolExecutionStarted call) true]
  | interrupted (call : AgentToolCall) (failure : Failure) :
      Trace (.execute call) (.done (.error failure))
        [.event (.toolExecutionStarted call) true, .interrupted call]
  | executed (call : AgentToolCall) (result : ToolOutcome) :
      Trace (.execute call) (.executed call result)
        [.event (.toolExecutionStarted call) true, .executed call]
  | unrecorded (call : AgentToolCall) (result : ToolOutcome) (failure : Failure) :
      Trace (.execute call) (.done (.error failure))
        [.event (.toolExecutionStarted call) true, .executed call,
          .event (.toolExecutionCompleted call result) false]
  | completed (call : AgentToolCall) (result : ToolOutcome) :
      Trace (.execute call) (.done (.ok (call, result)))
        [.event (.toolExecutionStarted call) true, .executed call,
          .event (.toolExecutionCompleted call result) true]

variable (world : BatchWorld)

theorem event_cases (agentEvent : AgentEvent) (log : List BatchEvent) :
    world.event agentEvent log = (.ok (), log ++ [.event agentEvent true]) ∨
      ∃ failure,
        world.event agentEvent log = (.error failure, log ++ [.event agentEvent false]) := by
  have hrun : world.event agentEvent log = (world.accept log agentEvent,
      log ++ [.event agentEvent (world.accept log agentEvent).isOk]) := rfl
  rw [hrun]
  cases world.accept log agentEvent with
  | ok value => exact .inl rfl
  | error failure => exact .inr ⟨failure, rfl⟩

theorem awaitCall_cases (call : AgentToolCall) (log : List BatchEvent) :
    (∃ result, world.awaitCall call log = (.ok result, log ++ [.executed call])) ∨
      ∃ failure, world.awaitCall call log = (.error failure, log ++ [.interrupted call]) := by
  cases hanswer : world.execute log call with
  | none =>
      refine .inr ⟨.of .turnCancelled, ?_⟩
      simp only [awaitCall, bind, Tx.andThen, Tx.reads, hanswer]
      rfl
  | some answer =>
      cases answer with
      | ok result =>
          refine .inl ⟨result, ?_⟩
          simp only [awaitCall, bind, Tx.andThen, Tx.reads, hanswer]
          rfl
      | error failure =>
          refine .inl ⟨.ofFailure failure, ?_⟩
          simp only [awaitCall, bind, Tx.andThen, Tx.reads, hanswer]
          rfl

/-- The call goes on, and only its own trace grows. -/
theorem trace_stepSlot {item : Prepared} {slot : Slot} {trace : List BatchEvent}
    (log : List BatchEvent) (htrace : Trace item slot trace) :
    ∃ added, (world.stepSlot slot log).2 = log ++ added ∧
      (∀ event ∈ added, event.call? = some item.call) ∧
      Trace item (world.stepSlot slot log).1 (trace ++ added) := by
  have hidle (slot : Slot) (trace : List BatchEvent) (htrace : Trace item slot trace) :
      ∃ added, log = log ++ added ∧ (∀ event ∈ added, event.call? = some item.call) ∧
        Trace item slot (trace ++ added) := by
    refine ⟨[], (List.append_nil log).symm, List.forall_mem_nil _, ?_⟩
    rw [List.append_nil]
    exact htrace
  cases htrace with
  | ready =>
      cases item with
      | immediate call result => exact hidle _ [] (.immediate call result)
      | execute call =>
          rw [stepSlot]
          rcases world.event_cases (.toolExecutionStarted call) log with hrun | ⟨failure, hrun⟩
          · rw [hrun]
            exact ⟨_, rfl, List.forall_mem_singleton.mpr rfl, .started call⟩
          · rw [hrun]
            exact ⟨_, rfl, List.forall_mem_singleton.mpr rfl, .refused call failure⟩
  | started call =>
      rw [stepSlot]
      rcases world.awaitCall_cases call log with ⟨result, hrun⟩ | ⟨failure, hrun⟩
      · rw [hrun]
        exact ⟨_, rfl, List.forall_mem_singleton.mpr rfl, .executed call result⟩
      · rw [hrun]
        exact ⟨_, rfl, List.forall_mem_singleton.mpr rfl, .interrupted call failure⟩
  | executed call result =>
      rw [stepSlot]
      rcases world.event_cases (.toolExecutionCompleted call result) log with hrun | ⟨failure, hrun⟩
      · rw [hrun]
        exact ⟨_, rfl, List.forall_mem_singleton.mpr rfl, .completed call result⟩
      · rw [hrun]
        exact ⟨_, rfl, List.forall_mem_singleton.mpr rfl, .unrecorded call result failure⟩
  | immediate call result => exact hidle _ [] (.immediate call result)
  | refused call failure => exact hidle _ _ (.refused call failure)
  | interrupted call failure => exact hidle _ _ (.interrupted call failure)
  | unrecorded call result failure => exact hidle _ _ (.unrecorded call result failure)
  | completed call result => exact hidle _ _ (.completed call result)

/-! ## Runs -/

/-- Every call has come as far as its trace shows. -/
def Traced (items : List Prepared) (slots : List Slot) (log : List BatchEvent) : Prop :=
  List.Forall₂ (fun item slot => Trace item slot (traceOf item.call log)) items slots

/-- The events are about the calls of these items. -/
def About (items : List Prepared) (log : List BatchEvent) : Prop :=
  ∀ event ∈ log, ∃ item ∈ items, event.call? = some item.call

theorem Traced.frame {items : List Prepared} {slots : List Slot} {log added : List BatchEvent}
    (htraced : Traced items slots log)
    (hother : ∀ item ∈ items, ∀ event ∈ added, event.call? ≠ some item.call) :
    Traced items slots (log ++ added) := by
  induction htraced with
  | nil => exact .nil
  | @cons item slot items slots htrace htraced ih =>
      obtain ⟨hitem, hitems⟩ := List.forall_mem_cons.mp hother
      apply List.Forall₂.cons
      · rw [traceOf_append, traceOf_eq_nil hitem, List.append_nil]
        exact htrace
      · exact ih hitems

theorem About.other {items : List Prepared} {added : List BatchEvent} {call : AgentToolCall}
    (habout : About items added) (hcall : call ∉ items.map (·.call)) :
    ∀ event ∈ added, event.call? ≠ some call := by
  intro event hevent heq
  obtain ⟨item, hitem, hitemCall⟩ := habout event hevent
  rw [heq, Option.some.injEq] at hitemCall
  exact hcall (hitemCall ▸ List.mem_map_of_mem hitem)

theorem About.of_call {item : Prepared} {items : List Prepared} {added : List BatchEvent}
    (hadded : ∀ event ∈ added, event.call? = some item.call) : About (item :: items) added :=
  fun event hevent => ⟨item, List.mem_cons_self, hadded event hevent⟩

theorem About.cons {item : Prepared} {items : List Prepared} {added : List BatchEvent}
    (habout : About items added) : About (item :: items) added := by
  intro event hevent
  obtain ⟨other, hother, hcall⟩ := habout event hevent
  exact ⟨other, List.mem_cons_of_mem _ hother, hcall⟩

theorem About.append {items : List Prepared} {log later : List BatchEvent}
    (hlog : About items log) (hlater : About items later) : About items (log ++ later) :=
  fun event hevent => (List.mem_append.mp hevent).elim (hlog event) (hlater event)

/-- The calls are distinct, so that one goes on without another. -/
theorem traced_stepAt {items : List Prepared} {slots : List Slot} {log : List BatchEvent}
    (index : Nat) (hdistinct : (items.map (·.call)).Nodup) (htraced : Traced items slots log) :
    ∃ added, (world.stepAt index slots log).2 = log ++ added ∧ About items added ∧
      Traced items (world.stepAt index slots log).1 (log ++ added) := by
  induction htraced generalizing index with
  | nil =>
      have hstep : world.stepAt index [] log = ([], log) := by cases index <;> rfl
      rw [hstep]
      exact ⟨[], (List.append_nil log).symm, List.forall_mem_nil _, .nil⟩
  | @cons item slot items slots htrace htraced ih =>
      rw [List.map_cons, List.nodup_cons] at hdistinct
      cases index with
      | zero =>
          obtain ⟨added, hlog, hadded, hstep⟩ := world.trace_stepSlot log htrace
          refine ⟨added, hlog, .of_call hadded, .cons ?_ ?_⟩
          · rw [traceOf_append, traceOf_eq_self hadded]
            exact hstep
          · apply Traced.frame htraced
            intro other hother event hevent heq
            rw [hadded event hevent, Option.some.injEq] at heq
            exact hdistinct.1 (heq ▸ List.mem_map_of_mem hother)
      | succ index =>
          obtain ⟨added, hlog, habout, hstep⟩ := ih index hdistinct.2
          refine ⟨added, hlog, habout.cons, .cons ?_ hstep⟩
          rw [traceOf_append, traceOf_eq_nil (habout.other hdistinct.1), List.append_nil]
          exact htrace

theorem traced_ready {items : List Prepared} {log : List BatchEvent}
    (hfresh : ∀ item ∈ items, traceOf item.call log = []) :
    Traced items (items.map .ready) log := by
  induction items with
  | nil => exact .nil
  | cons item items ih =>
      obtain ⟨hitem, hitems⟩ := List.forall_mem_cons.mp hfresh
      refine .cons ?_ (ih hitems)
      rw [hitem]
      exact .ready item

/-- A step of the schedule, and with it the whole schedule, keeps the traces. -/
theorem traced_executeParallel {items : List Prepared} {log : List BatchEvent}
    (schedule : List Nat) (hdistinct : (items.map (·.call)).Nodup)
    (hfresh : ∀ item ∈ items, traceOf item.call log = []) :
    ∃ added, (world.executeParallel schedule items log).2 = log ++ added ∧ About items added ∧
      Traced items (world.executeParallel schedule items log).1 (log ++ added) := by
  induction schedule using List.reverseRecOn with
  | nil =>
      refine ⟨[], (List.append_nil log).symm, List.forall_mem_nil _, ?_⟩
      rw [List.append_nil]
      exact traced_ready hfresh
  | append_singleton schedule index ih =>
      obtain ⟨added, hlog, habout, htraced⟩ := ih
      have hrun : world.executeParallel (schedule ++ [index]) items log =
          world.poll (world.executeParallel schedule items log) index := by
        rw [executeParallel, List.foldl_append]
        rfl
      rw [hrun, poll]
      split_ifs
      · rw [← hlog] at htraced
        obtain ⟨more, hmore, habout', hstep⟩ := world.traced_stepAt index hdistinct htraced
        refine ⟨added ++ more, ?_, habout.append habout', ?_⟩
        · rw [hmore, hlog, List.append_assoc]
        · rw [← List.append_assoc, ← hlog]
          exact hstep
      · exact ⟨added, hlog, habout, htraced⟩

theorem trace_executePrepared (item : Prepared) (log : List BatchEvent) :
    ∃ added, (world.executePrepared item log).2 = log ++ added ∧
      (∀ event ∈ added, event.call? = some item.call) ∧
      Trace item (.done (world.executePrepared item log).1) added := by
  cases item with
  | immediate call result =>
      exact ⟨[], (List.append_nil log).symm, List.forall_mem_nil _, .immediate call result⟩
  | execute call =>
      have hrun : world.executePrepared (.execute call) log =
          Tx.andThen (world.event (.toolExecutionStarted call)) (fun _ =>
            Tx.andThen (world.awaitCall call) fun result =>
              Tx.andThen (world.event (.toolExecutionCompleted call result)) fun _ =>
                Tx.ret (call, result)) log := rfl
      rw [hrun, Tx.andThen]
      rcases world.event_cases (.toolExecutionStarted call) log with hstart | ⟨failure, hstart⟩
      · rw [hstart]
        dsimp only
        rw [Tx.andThen]
        rcases world.awaitCall_cases call (log ++ [.event (.toolExecutionStarted call) true])
          with ⟨result, hwait⟩ | ⟨failure, hwait⟩
        · rw [hwait]
          dsimp only
          rw [Tx.andThen, List.append_assoc]
          rcases world.event_cases (.toolExecutionCompleted call result)
            (log ++ ([.event (.toolExecutionStarted call) true] ++ [.executed call]))
            with hend | ⟨failure, hend⟩
          · rw [hend, List.append_assoc]
            exact ⟨_, rfl, by simp [BatchEvent.call?, Prepared.call], .completed call result⟩
          · rw [hend, List.append_assoc]
            exact ⟨_, rfl, by simp [BatchEvent.call?, Prepared.call],
              .unrecorded call result failure⟩
        · rw [hwait, List.append_assoc]
          exact ⟨_, rfl, by simp [BatchEvent.call?, Prepared.call], .interrupted call failure⟩
      · rw [hstart]
        exact ⟨_, rfl, List.forall_mem_singleton.mpr rfl, .refused call failure⟩

namespace Slot

/-- The result that is recorded. -/
def result? : Slot → Option (AgentToolCall × ToolOutcome)
  | .done (.ok result) => some result
  | _ => none

end Slot

theorem traced_executeSequential {items : List Prepared} {log : List BatchEvent}
    (hdistinct : (items.map (·.call)).Nodup)
    (hfresh : ∀ item ∈ items, traceOf item.call log = []) :
    ∃ slots added, (world.executeSequential items log).2.2 = log ++ added ∧ About items added ∧
      Traced items slots (log ++ added) ∧
      slots.filterMap (·.result?) = (world.executeSequential items log).1 ∧
      ((∀ slot ∈ slots, slot.isDone = true) ∨ ∃ failure, .done (.error failure) ∈ slots) ∧
      (world.executeSequential items log).1.map (·.1) <+: items.map (·.call) := by
  induction items generalizing log with
  | nil =>
      exact ⟨[], [], (List.append_nil log).symm, List.forall_mem_nil _, .nil, rfl,
        .inl (List.forall_mem_nil _), List.prefix_rfl⟩
  | cons item items ih =>
      rw [List.map_cons, List.nodup_cons] at hdistinct
      obtain ⟨hitem, hitems⟩ := List.forall_mem_cons.mp hfresh
      obtain ⟨added, hlog, hadded, htrace⟩ := world.trace_executePrepared item log
      have hother : ∀ other ∈ items, ∀ event ∈ added, event.call? ≠ some other.call := by
        intro other hmem event hevent heq
        rw [hadded event hevent, Option.some.injEq] at heq
        exact hdistinct.1 (heq ▸ List.mem_map_of_mem hmem)
      have hfresh' : ∀ other ∈ items, traceOf other.call (log ++ added) = [] := by
        intro other hmem
        rw [traceOf_append, hitems other hmem, traceOf_eq_nil (hother other hmem)]
        rfl
      rw [executeSequential]
      cases hrun : world.executePrepared item log with
      | mk outcome reached =>
          rw [hrun] at hlog htrace
          obtain rfl : reached = log ++ added := hlog
          cases outcome with
          | ok result =>
              obtain ⟨slots, more, hmore, habout, htraced, hresults, hclosed, hprefix⟩ :=
                ih hdistinct.2 hfresh'
              have hhead : result.1 = item.call := by cases htrace <;> rfl
              refine ⟨.done (.ok result) :: slots, added ++ more, ?_,
                (About.of_call hadded).append habout.cons, .cons ?_ ?_, ?_, ?_, ?_⟩
              · rw [← List.append_assoc, ← hmore]
              · rw [traceOf_append, traceOf_append, hitem, traceOf_eq_self hadded,
                  traceOf_eq_nil (habout.other hdistinct.1), List.append_nil, List.nil_append]
                exact htrace
              · rw [← List.append_assoc]
                exact htraced
              · exact congrArg (result :: ·) hresults
              · rcases hclosed with hdone | ⟨failure, hfailure⟩
                · exact .inl (List.forall_mem_cons.mpr ⟨rfl, hdone⟩)
                · exact .inr ⟨failure, List.mem_cons_of_mem _ hfailure⟩
              · rw [List.map_cons, List.map_cons, hhead]
                exact List.prefix_cons_inj _ |>.mpr hprefix
          | error failure =>
              refine ⟨.done (.error failure) :: items.map .ready, added, rfl,
                .of_call hadded, .cons ?_ (traced_ready hfresh'), ?_,
                .inr ⟨failure, List.mem_cons_self⟩, List.nil_prefix⟩
              · rw [traceOf_append, hitem, traceOf_eq_self hadded]
                exact htrace
              · rw [List.filterMap_cons, List.filterMap_map]
                exact List.filterMap_eq_nil_iff.mpr fun _ _ => rfl

theorem asked_of_prepare (tools : ToolCatalog) (calls : List AgentToolCall) :
    ∀ event ∈ (world.prepare tools calls).log, ∃ call, event = .asked call := by
  induction calls using List.reverseRecOn with
  | nil => exact List.forall_mem_nil _
  | append_singleton calls call ih =>
      rw [prepare_append]
      have hprepares := world.prepares_prepareCall tools (world.prepare tools calls) call
      rcases hprepares.asked with hlog | hlog
      · rw [hlog]
        exact ih
      · rw [hlog]
        intro event hevent
        rcases List.mem_append.mp hevent with hearlier | hlast
        · exact ih event hearlier
        · exact ⟨call, List.mem_singleton.mp hlast⟩

theorem completed_collectOutcomes (slots : List Slot) (terminalError : Option Failure) :
    (collectOutcomes (slots.filterMap (·.outcome?)) terminalError).completed =
      slots.filterMap (·.result?) := by
  induction slots generalizing terminalError with
  | nil => rfl
  | cons slot slots ih =>
      cases slot with
      | done outcome =>
          cases outcome with
          | ok result => exact congrArg (result :: ·) (ih terminalError)
          | error failure => exact ih (some (terminalError.getD failure))
      | _ => exact ih terminalError

/-- What a run of a batch comes to. -/
structure Executed (mode : ToolExecutionMode) (items : List Prepared) (slots : List Slot)
    (outcome : BatchOutcome) : Prop where
  results : slots.filterMap (·.result?) = outcome.completed
  closed : (∀ slot ∈ slots, slot.isDone = true) ∨ ∃ failure, .done (.error failure) ∈ slots
  parallel : mode = .parallel → ∀ slot ∈ slots, slot.isDone = true
  sequential : mode = .sequential → outcome.completed.map (·.1) <+: items.map (·.call)

theorem executed_prepareAndExecute (tools : ToolCatalog) (mode : ToolExecutionMode)
    (schedule : List Nat) {calls : List AgentToolCall} (hdistinct : calls.Nodup) :
    ∃ slots added,
      (world.prepareAndExecute tools mode schedule calls).2 =
        (world.prepare tools calls).log ++ added ∧
      About (world.prepare tools calls).settle added ∧
      Traced (world.prepare tools calls).settle slots ((world.prepare tools calls).log ++ added) ∧
      ∀ outcome, (world.prepareAndExecute tools mode schedule calls).1 = some outcome →
        Executed mode (world.prepare tools calls).settle slots outcome := by
  have hitems : ((world.prepare tools calls).settle.map (·.call)).Nodup := by
    rw [settled_calls]
    exact hdistinct
  have hfresh : ∀ item ∈ (world.prepare tools calls).settle,
      traceOf item.call (world.prepare tools calls).log = [] := by
    intro item _
    apply traceOf_eq_nil
    intro event hevent
    obtain ⟨call, rfl⟩ := world.asked_of_prepare tools calls event hevent
    intro hcall
    cases hcall
  cases mode with
  | sequential =>
      rw [prepareAndExecute]
      obtain ⟨slots, added, hlog, habout, htraced, hresults, hclosed, hprefix⟩ :=
        world.traced_executeSequential hitems hfresh
      refine ⟨slots, added, ?_, habout, htraced, ?_⟩
      · rw [← hlog]
        split
        · next hrun => rw [hrun]
        · next hrun => rw [hrun]
      · intro outcome houtcome
        have hcompleted : outcome.completed =
            (world.executeSequential (world.prepare tools calls).settle
              (world.prepare tools calls).log).1 := by
          split at houtcome
          · next hrun => rw [← Option.some.inj houtcome, hrun]
          · next hrun => rw [← Option.some.inj houtcome, hrun]
        rw [← hcompleted] at hresults hprefix
        refine ⟨hresults, hclosed, ?_, fun _ => hprefix⟩
        intro hmode
        cases hmode
  | parallel =>
      rw [prepareAndExecute]
      obtain ⟨added, hlog, habout, htraced⟩ := world.traced_executeParallel schedule hitems hfresh
      refine ⟨_, added, hlog, habout, htraced, ?_⟩
      intro outcome houtcome
      dsimp only at houtcome
      split_ifs at houtcome with hdone
      rw [List.all_eq_true] at hdone
      obtain rfl := Option.some.inj houtcome
      refine ⟨(completed_collectOutcomes _ _).symm, .inl hdone, fun _ => hdone, ?_⟩
      intro hmode
      cases hmode

/-! ## The end of a schedule -/

/-- How often a call still goes on. -/
def Slot.remaining : Slot → Nat
  | .ready _ => 3
  | .started _ => 2
  | .executed .. => 1
  | .done _ => 0

theorem remaining_stepSlot {slot : Slot} (log : List BatchEvent) (hwaits : slot.isDone = false) :
    (world.stepSlot slot log).1.remaining < slot.remaining := by
  cases slot with
  | ready item =>
      cases item with
      | immediate call result => exact Nat.zero_lt_succ 2
      | execute call =>
          rw [stepSlot]
          rcases world.event_cases (.toolExecutionStarted call) log with hrun | ⟨failure, hrun⟩
          · rw [hrun]
            exact Nat.lt_succ_self 2
          · rw [hrun]
            exact Nat.zero_lt_succ 2
  | started call =>
      rw [stepSlot]
      rcases world.awaitCall_cases call log with ⟨result, hrun⟩ | ⟨failure, hrun⟩
      · rw [hrun]
        exact Nat.lt_succ_self 1
      · rw [hrun]
        exact Nat.zero_lt_succ 1
  | executed call result =>
      rw [stepSlot]
      rcases world.event_cases (.toolExecutionCompleted call result) log with hrun | ⟨failure, hrun⟩
      · rw [hrun]
        exact Nat.zero_lt_succ 0
      · rw [hrun]
        exact Nat.zero_lt_succ 0
  | done outcome => cases hwaits

/-- The first call that is waited for goes on. -/
theorem remaining_stepAt {slots : List Slot} (log : List BatchEvent)
    (hwaits : slots.all (·.isDone) = false) :
    ((world.stepAt (slots.takeWhile (·.isDone)).length slots log).1.map (·.remaining)).sum <
      (slots.map (·.remaining)).sum := by
  induction slots with
  | nil => cases hwaits
  | cons slot slots ih =>
      cases hdone : slot.isDone with
      | false =>
          have hstep := world.remaining_stepSlot log hdone
          rw [List.takeWhile_cons_of_neg (by simp [hdone])]
          exact Nat.add_lt_add_right hstep _
      | true =>
          rw [List.all_cons, hdone, Bool.true_and] at hwaits
          rw [List.takeWhile_cons_of_pos (by simp [hdone])]
          exact Nat.add_lt_add_left (ih hwaits) _

/-- Calls that wait can always go on, so that there is a schedule to the end. -/
theorem exists_schedule (state : List Slot × List BatchEvent) :
    ∃ schedule : List Nat, (schedule.foldl world.poll state).1.all (·.isDone) = true := by
  induction hmeasure : (state.1.map (·.remaining)).sum using Nat.strong_induction_on
    generalizing state with
  | h measure ih =>
      cases hdone : state.1.all (·.isDone) with
      | true => exact ⟨[], hdone⟩
      | false =>
          have hless := world.remaining_stepAt state.2 hdone
          obtain ⟨schedule, hschedule⟩ := ih _ (hmeasure ▸ hless) _ rfl
          refine ⟨(state.1.takeWhile (·.isDone)).length :: schedule, ?_⟩
          rw [List.foldl_cons, poll, if_pos (by rw [maxConcurrentTools]; omega)]
          exact hschedule

theorem exists_outcome (tools : ToolCatalog) (mode : ToolExecutionMode)
    (calls : List AgentToolCall) :
    ∃ schedule, (world.prepareAndExecute tools mode schedule calls).1.isSome = true := by
  cases mode with
  | sequential =>
      refine ⟨[], ?_⟩
      rw [prepareAndExecute]
      split <;> rfl
  | parallel =>
      obtain ⟨schedule, hdone⟩ := world.exists_schedule
        ((world.prepare tools calls).settle.map .ready, (world.prepare tools calls).log)
      refine ⟨schedule, ?_⟩
      rw [prepareAndExecute]
      dsimp only [executeParallel]
      rw [if_pos hdone]
      rfl

/-! ## What the traces say -/

section Traces

variable {items : List Prepared} {slots : List Slot} {log : List BatchEvent}

theorem Traced.of_item (htraced : Traced items slots log) {item : Prepared} (hitem : item ∈ items) :
    ∃ slot ∈ slots, Trace item slot (traceOf item.call log) := by
  induction htraced with
  | nil => cases hitem
  | cons htrace htraced ih =>
      rcases List.mem_cons.mp hitem with rfl | hrest
      · exact ⟨_, List.mem_cons_self, htrace⟩
      · obtain ⟨slot, hslot, hfound⟩ := ih hrest
        exact ⟨slot, List.mem_cons_of_mem _ hslot, hfound⟩

theorem Traced.of_slot (htraced : Traced items slots log) {slot : Slot} (hslot : slot ∈ slots) :
    ∃ item ∈ items, Trace item slot (traceOf item.call log) := by
  induction htraced with
  | nil => cases hslot
  | cons htrace htraced ih =>
      rcases List.mem_cons.mp hslot with rfl | hrest
      · exact ⟨_, List.mem_cons_self, htrace⟩
      · obtain ⟨item, hitem, hfound⟩ := ih hrest
        exact ⟨item, List.mem_cons_of_mem _ hitem, hfound⟩

theorem call_of_result {item : Prepared} {slot : Slot} {trace : List BatchEvent}
    (htrace : Trace item slot trace) {result : AgentToolCall × ToolOutcome}
    (hresult : slot.result? = some result) : result.1 = item.call := by
  cases htrace <;> cases hresult <;> rfl

theorem Traced.sublist (htraced : Traced items slots log) :
    ((slots.filterMap (·.result?)).map (·.1)).Sublist (items.map (·.call)) := by
  induction htraced with
  | nil => exact List.Sublist.slnil
  | @cons item slot items slots htrace htraced ih =>
      cases hresult : slot.result? with
      | none =>
          rw [List.filterMap_cons_none hresult, List.map_cons]
          exact ih.cons _
      | some result =>
          rw [List.filterMap_cons_some hresult, List.map_cons, List.map_cons,
            call_of_result htrace hresult]
          exact ih.cons_cons _

/-- A call that is done without a result was cut short. -/
theorem result_of_done {item : Prepared} {slot : Slot} {trace : List BatchEvent}
    (htrace : Trace item slot trace) (hdone : slot.isDone = true)
    (hcut : ∀ event ∈ trace, event.isCut = false) : ∃ result, slot.result? = some result := by
  cases htrace with
  | ready | started | executed => cases hdone
  | immediate call result => exact ⟨_, rfl⟩
  | completed call result => exact ⟨_, rfl⟩
  | refused call failure => cases hcut _ List.mem_cons_self
  | interrupted call failure => cases hcut (.interrupted call) (by simp)
  | unrecorded call result failure =>
      cases hcut (.event (.toolExecutionCompleted call result) false) (by simp)

theorem cut_of_failure {item : Prepared} {failure : Failure} {trace : List BatchEvent}
    (htrace : Trace item (.done (.error failure)) trace) : ∃ event ∈ trace, event.isCut = true := by
  cases htrace with
  | refused call => exact ⟨_, List.mem_cons_self, rfl⟩
  | interrupted call => exact ⟨.interrupted call, by simp, rfl⟩
  | unrecorded call result =>
      exact ⟨.event (.toolExecutionCompleted call result) false, by simp, rfl⟩

theorem Traced.all_recorded (htraced : Traced items slots log)
    (hdone : ∀ slot ∈ slots, slot.isDone = true) (hcut : ∀ event ∈ log, event.isCut = false) :
    (slots.filterMap (·.result?)).map (·.1) = items.map (·.call) := by
  induction htraced with
  | nil => rfl
  | @cons item slot items slots htrace htraced ih =>
      obtain ⟨hslot, hslots⟩ := List.forall_mem_cons.mp hdone
      obtain ⟨result, hresult⟩ := result_of_done htrace hslot fun event hevent =>
        hcut event (List.mem_filter.mp hevent).1
      rw [List.filterMap_cons_some hresult, List.map_cons, List.map_cons,
        call_of_result htrace hresult, ih hslots]

theorem Traced.done_of_closed (htraced : Traced items slots log)
    (hclosed : (∀ slot ∈ slots, slot.isDone = true) ∨ ∃ failure, .done (.error failure) ∈ slots)
    (hcut : ∀ event ∈ log, event.isCut = false) : ∀ slot ∈ slots, slot.isDone = true := by
  rcases hclosed with hdone | ⟨failure, hfailure⟩
  · exact hdone
  · obtain ⟨item, hitem, htrace⟩ := htraced.of_slot hfailure
    obtain ⟨event, hevent, hisCut⟩ := cut_of_failure htrace
    rw [hcut event (List.mem_filter.mp hevent).1] at hisCut
    cases hisCut

theorem mem_startedCalls {call : AgentToolCall} :
    call ∈ startedCalls log ↔ ∃ accepted, .event (.toolExecutionStarted call) accepted ∈ log := by
  rw [startedCalls, List.mem_filterMap]
  constructor
  · rintro ⟨event, hevent, hcall⟩
    unfold BatchEvent.startedCall? at hcall
    split at hcall
    · next accepted =>
        obtain rfl := Option.some.inj hcall
        exact ⟨accepted, hevent⟩
    · cases hcall
  · rintro ⟨accepted, hevent⟩
    exact ⟨_, hevent, rfl⟩

theorem count_startedCalls (call : AgentToolCall) (log : List BatchEvent) :
    (startedCalls log).count call = (startedCalls (traceOf call log)).count call := by
  induction log with
  | nil => rfl
  | cons event log ih =>
      rw [startedCalls, startedCalls, traceOf, List.filter_cons]
      cases hstarted : event.startedCall? with
      | none =>
          rw [List.filterMap_cons_none hstarted]
          split_ifs
          · rw [List.filterMap_cons_none hstarted]
            exact ih
          · exact ih
      | some other =>
          rw [List.filterMap_cons_some hstarted, BatchEvent.call_of_startedCall hstarted]
          by_cases hother : other = call
          · rw [hother, if_pos (decide_eq_true rfl), ← hother, List.filterMap_cons_some hstarted,
              List.count_cons_self, List.count_cons_self, hother]
            exact congrArg (· + 1) ih
          · rw [if_neg (by simpa using hother), List.count_cons_of_ne hother]
            exact ih

theorem started_of_trace {item : Prepared} {slot : Slot} {trace : List BatchEvent}
    (htrace : Trace item slot trace) (call : AgentToolCall) :
    (startedCalls trace).count call ≤ 1 := by
  have hone (other : AgentToolCall) : [other].count call ≤ 1 := List.count_le_length
  cases htrace with
  | ready => exact Nat.zero_le 1
  | immediate => exact Nat.zero_le 1
  | _ => exact hone _

/-- Each call is started at most once. -/
theorem Traced.nodup_started (htraced : Traced items slots log) (hknown : Known items log) :
    (startedCalls log).Nodup := by
  apply List.nodup_iff_count_le_one.mpr
  intro call
  rw [count_startedCalls]
  by_cases hcall : call ∈ items.map (·.call)
  · obtain ⟨item, hitem, rfl⟩ := List.mem_map.mp hcall
    obtain ⟨slot, -, htrace⟩ := htraced.of_item hitem
    exact started_of_trace htrace item.call
  · rw [traceOf_eq_nil fun event hevent heq => hcall (hknown event hevent call heq)]
    exact Nat.zero_le 1

/-- Only what was prepared for execution has a trace. -/
theorem Traced.execute_of_call (htraced : Traced items slots log) (hknown : Known items log)
    {event : BatchEvent} {call : AgentToolCall} (hevent : event ∈ log)
    (hcall : event.call? = some call) :
    ∃ slot ∈ slots, event ∈ traceOf call log ∧ .execute call ∈ items ∧
      Trace (.execute call) slot (traceOf call log) := by
  obtain ⟨item, hitem, rfl⟩ := List.mem_map.mp (hknown event hevent call hcall)
  obtain ⟨slot, hslot, htrace⟩ := htraced.of_item hitem
  have hmem : event ∈ traceOf item.call log :=
    List.mem_filter.mpr ⟨hevent, decide_eq_true hcall⟩
  refine ⟨slot, hslot, hmem, ?_⟩
  cases item with
  | immediate call result =>
      generalize traceOf _ log = trace at htrace hmem
      cases htrace <;> cases hmem
  | execute call => exact ⟨hitem, htrace⟩

theorem startedCalls_traceOf {call : AgentToolCall} (hunstarted : call ∉ startedCalls log) :
    startedCalls (traceOf call log) = [] := by
  apply List.filterMap_eq_nil_iff.mpr
  intro event hevent
  obtain ⟨hlogged, hcall⟩ := List.mem_filter.mp hevent
  cases hstarted : event.startedCall? with
  | none => rfl
  | some other =>
      rw [BatchEvent.call_of_startedCall hstarted, decide_eq_true_iff, Option.some.injEq] at hcall
      rw [hcall] at hstarted
      exact absurd (List.mem_filterMap.mpr ⟨event, hlogged, hstarted⟩) hunstarted

/-- What was executed was started before. -/
theorem Traced.started_of_call (htraced : Traced items slots log) (hknown : Known items log)
    {event : BatchEvent} {call : AgentToolCall} (hevent : event ∈ log)
    (hcall : event.call? = some call) : call ∈ startedCalls log := by
  obtain ⟨slot, -, hmem, -, htrace⟩ := htraced.execute_of_call hknown hevent hcall
  apply mem_startedCalls.mpr
  have hsub : ∀ event ∈ traceOf call log, event ∈ log :=
    fun event hmem => (List.mem_filter.mp hmem).1
  generalize traceOf call log = trace at htrace hmem hsub
  cases htrace with
  | ready => cases hmem
  | refused => exact ⟨false, hsub _ List.mem_cons_self⟩
  | _ => exact ⟨true, hsub _ List.mem_cons_self⟩

/-- A call that was started is recorded with the result whose completion was accepted. -/
theorem Traced.recorded_iff (htraced : Traced items slots log) (hknown : Known items log)
    (hdistinct : (items.map (·.call)).Nodup) {call : AgentToolCall}
    (hstarted : call ∈ startedCalls log) (result : ToolOutcome) :
    (call, result) ∈ slots.filterMap (·.result?) ↔
      .event (.toolExecutionCompleted call result) true ∈ log := by
  constructor
  · intro hrecorded
    obtain ⟨slot, hslot, hresult⟩ := List.mem_filterMap.mp hrecorded
    obtain ⟨item, hitem, htrace⟩ := htraced.of_slot hslot
    have hcall := call_of_result htrace hresult
    obtain ⟨accepted, hevent⟩ := mem_startedCalls.mp hstarted
    obtain ⟨-, -, -, hexecute, -⟩ := htraced.execute_of_call hknown hevent rfl
    obtain rfl : item = .execute call :=
      List.inj_on_of_nodup_map hdistinct hitem hexecute hcall.symm
    have hsub : ∀ event ∈ traceOf call log, event ∈ log :=
      fun event hmem => (List.mem_filter.mp hmem).1
    change Trace _ _ (traceOf call log) at htrace
    generalize traceOf call log = trace at htrace hsub
    cases htrace with
    | completed call result' =>
        obtain ⟨-, rfl⟩ := Prod.mk.inj (Option.some.inj hresult)
        exact hsub _ (by simp)
    | _ => cases hresult
  · intro hevent
    obtain ⟨slot, hslot, hmem, -, htrace⟩ := htraced.execute_of_call hknown hevent rfl
    apply List.mem_filterMap.mpr
    refine ⟨slot, hslot, ?_⟩
    generalize traceOf call log = trace at htrace hmem
    cases htrace with
    | completed call result' =>
        simp only [List.mem_cons, BatchEvent.event.injEq, reduceCtorEq, false_or,
          List.not_mem_nil, or_false, AgentEvent.toolExecutionCompleted.injEq, true_and,
          and_true] at hmem
        rw [hmem]
        rfl
    | _ => simp at hmem

end Traces

/-! ## The record -/

def recordedCalls (log : List BatchEvent) : List AgentToolCall :=
  log.filterMap BatchEvent.recordedCall?

/-- The results are recorded in their order, up to an event that is not accepted. -/
theorem recordedCalls_recordResults (completed : List (AgentToolCall × ToolOutcome))
    (terminalError : Option Failure) (log : List BatchEvent) :
    ∃ recorded, recordedCalls (world.recordResults completed terminalError log).2 =
        recordedCalls log ++ recorded ∧
      recorded <+: completed.map (·.1) ∧
      ((world.recordResults completed terminalError log).1.isOk = true →
        recorded = completed.map (·.1)) := by
  induction completed generalizing terminalError log with
  | nil => exact ⟨[], (List.append_nil _).symm, List.prefix_rfl, fun _ => rfl⟩
  | cons item completed ih =>
      obtain ⟨call, result⟩ := item
      have hrecord (replay : ToolOutcome) (next : Option Failure) :
          ∃ recorded, recordedCalls (Tx.andThen (world.event (.toolResultRecorded call replay))
              (fun _ => world.recordResults completed next) log).2 =
                recordedCalls log ++ recorded ∧
            recorded <+: call :: completed.map (·.1) ∧
            ((Tx.andThen (world.event (.toolResultRecorded call replay))
                (fun _ => world.recordResults completed next) log).1.isOk = true →
              recorded = call :: completed.map (·.1)) := by
        rw [Tx.andThen]
        rcases world.event_cases (.toolResultRecorded call replay) log with hrun | ⟨failure, hrun⟩
        · rw [hrun]
          obtain ⟨recorded, hlog, hprefix, hall⟩ := ih next
            (log ++ [.event (.toolResultRecorded call replay) true])
          refine ⟨call :: recorded, ?_, (List.prefix_cons_inj call).mpr hprefix, ?_⟩
          · rw [hlog, recordedCalls, List.filterMap_append, List.append_assoc]
            rfl
          · intro hok
            rw [hall hok]
        · rw [hrun]
          refine ⟨[], ?_, List.nil_prefix, ?_⟩
          · rw [recordedCalls, List.filterMap_append]
            rfl
          · intro hok
            cases hok
      cases hafter : world.afterTool log call result with
      | error failure =>
          simp only [recordResults, bind, Tx.andThen, Tx.reads, hafter]
          exact hrecord _ _
      | ok result =>
          simp only [recordResults, bind, Tx.andThen, Tx.reads, hafter]
          exact hrecord result terminalError

/-! ## Batches of a response -/

/-- Once the identities of a response are accepted they are distinct. -/
theorem nodup_of_validateToolCallIds {debug : String → String} {accepted ids : List String}
    {calls : List AgentToolCall} (hvalid : validateToolCallIds debug accepted calls ids = .ok ()) :
    (calls.map (·.id)).Nodup ∧ ∀ call ∈ calls, call.id ∉ accepted ∧ call.id ∉ ids := by
  induction calls generalizing ids with
  | nil => exact ⟨List.nodup_nil, List.forall_mem_nil _⟩
  | cons call calls ih =>
      rw [validateToolCallIds] at hvalid
      split_ifs at hvalid with hempty hlong hduplicate
      obtain ⟨hnodup, hfresh⟩ := ih hvalid
      refine ⟨List.nodup_cons.mpr ⟨?_, hnodup⟩, List.forall_mem_cons.mpr ⟨?_, ?_⟩⟩
      · intro hmem
        obtain ⟨other, hother, hid⟩ := List.mem_map.mp hmem
        exact (hfresh other hother).2 (hid ▸ List.mem_cons_self)
      · exact not_or.mp hduplicate
      · intro other hother
        obtain ⟨haccepted, hids⟩ := hfresh other hother
        exact ⟨haccepted, fun hmem => hids (List.mem_cons_of_mem _ hmem)⟩

theorem definition_of_validate {tools : ToolCatalog} {call : AgentToolCall}
    (hvalid : world.validate tools call = .ok ()) :
    ∃ definition ∈ tools.definitions, definition.name = call.name := by
  rw [validate] at hvalid
  cases hfound : tools.definitions.find? (·.name = call.name) with
  | none =>
      rw [hfound] at hvalid
      cases hvalid
  | some definition =>
      refine ⟨definition, List.mem_of_find?_eq_some hfound, ?_⟩
      simpa using List.find?_some hfound

/-- What is started of a batch. -/
structure StartsApproved (tools : ToolCatalog) (batch : List AgentToolCall)
    (log : List BatchEvent) : Prop where
  once : ((startedCalls log).map (·.id)).Nodup
  executed : ∀ call, .executed call ∈ log → call ∈ startedCalls log
  notStopped : ∀ call ∈ startedCalls log, (world.prepare tools batch).terminalError = none
  approved : ∀ call ∈ startedCalls log, ∃ before after, batch = before ++ call :: after ∧
    world.Approves tools (world.prepare tools before) call
  shown : ∀ call ∈ startedCalls log, call.catalogGeneration = tools.generation ∧
    ∃ definition ∈ tools.definitions, definition.name = call.name

/-- What is recorded of a batch. -/
structure RecordsFinished (mode : ToolExecutionMode) (batch : List AgentToolCall)
    (outcome : BatchOutcome) (log : List BatchEvent) : Prop where
  ordered : (outcome.completed.map (·.1)).Sublist batch
  all : (∀ event ∈ log, event.isCut = false) → outcome.completed.map (·.1) = batch
  finished : ∀ call ∈ startedCalls log, ∀ result, (call, result) ∈ outcome.completed ↔
    .event (.toolExecutionCompleted call result) true ∈ log
  parallel : mode = .parallel → ∀ call ∈ batch, call ∉ startedCalls log →
    call ∈ outcome.completed.map (·.1)
  sequential : mode = .sequential → outcome.completed.map (·.1) <+: batch
  recorded : recordedCalls (world.recordResults outcome.completed outcome.terminalError log).2 <+:
    outcome.completed.map (·.1)
  recordedAll : (world.recordResults outcome.completed outcome.terminalError log).1.isOk = true →
    recordedCalls (world.recordResults outcome.completed outcome.terminalError log).2 =
      outcome.completed.map (·.1)

theorem recorded_of_unstarted {item : Prepared} {slot : Slot} {trace : List BatchEvent}
    (htrace : Trace item slot trace) (hdone : slot.isDone = true)
    (hunstarted : startedCalls trace = []) : ∃ result, slot.result? = some result := by
  cases htrace with
  | immediate call result => exact ⟨_, rfl⟩
  | ready => cases hdone
  | _ => cases hunstarted

/-- No result is recorded before the batch is. -/
theorem recordedCalls_of_known {items : List Prepared} {log added : List BatchEvent}
    (hasked : ∀ event ∈ log, ∃ call, event = .asked call) (habout : About items added) :
    recordedCalls (log ++ added) = [] := by
  apply List.filterMap_eq_nil_iff.mpr
  intro event hevent
  rcases List.mem_append.mp hevent with hlog | hadded
  · obtain ⟨call, rfl⟩ := hasked event hlog
    rfl
  · obtain ⟨item, -, hcall⟩ := habout event hadded
    unfold BatchEvent.recordedCall?
    split
    · cases hcall
    · rfl

/-- The calls of a response are started at most once, after they were approved and under the
catalog that the model was shown; their results are recorded in the order of the calls, all of
them unless an execution was cut short, and then those that finished. -/
theorem batch_executed (tools : ToolCatalog) (mode : ToolExecutionMode) (schedule : List Nat)
    (calls : List AgentToolCall) (hdistinct : (calls.map (·.id)).Nodup) :
    world.StartsApproved tools (calls.map tools.stamp)
        (world.prepareAndExecute tools mode schedule (calls.map tools.stamp)).2 ∧
      ∀ outcome, (world.prepareAndExecute tools mode schedule (calls.map tools.stamp)).1 =
          some outcome →
        world.RecordsFinished mode (calls.map tools.stamp) outcome
          (world.prepareAndExecute tools mode schedule (calls.map tools.stamp)).2 := by
  have hids : ((calls.map tools.stamp).map (·.id)).Nodup := by
    rw [List.map_map]
    exact hdistinct
  have hstamped : ∀ call ∈ calls.map tools.stamp, call.catalogGeneration = tools.generation := by
    intro call hcall
    obtain ⟨unstamped, -, rfl⟩ := List.mem_map.mp hcall
    rfl
  generalize calls.map tools.stamp = batch at hids hstamped ⊢
  obtain ⟨slots, added, hlog, habout, htraced, hexecuted⟩ :=
    world.executed_prepareAndExecute tools mode schedule hids.of_map
  have hasked := world.asked_of_prepare tools batch
  have hcalls := world.settled_calls tools batch
  have hitems : ((world.prepare tools batch).settle.map (·.call)).Nodup := by
    rw [hcalls]
    exact hids.of_map
  have hunrecorded := recordedCalls_of_known hasked habout
  have hknown : Known (world.prepare tools batch).settle
      ((world.prepare tools batch).log ++ added) := by
    intro event hevent call hcall
    rcases List.mem_append.mp hevent with hprepared | hadded
    · obtain ⟨other, rfl⟩ := hasked event hprepared
      cases hcall
    · obtain ⟨item, hitem, hitemCall⟩ := habout event hadded
      rw [hcall, Option.some.injEq] at hitemCall
      exact hitemCall ▸ List.mem_map_of_mem hitem
  rw [hlog]
  generalize (world.prepare tools batch).log ++ added = log at htraced hknown hunrecorded
  have hprepared : ∀ call ∈ startedCalls log,
      Prepared.execute call ∈ (world.prepare tools batch).settle := by
    intro call hstarted
    obtain ⟨accepted, hevent⟩ := mem_startedCalls.mp hstarted
    obtain ⟨-, -, -, hexecute, -⟩ := htraced.execute_of_call hknown hevent rfl
    exact hexecute
  have hmem : ∀ call ∈ startedCalls log, call ∈ batch := by
    intro call hstarted
    rw [← hcalls]
    exact List.mem_map_of_mem (hprepared call hstarted)
  have happroved : ∀ call ∈ startedCalls log, ∃ before after, batch = before ++ call :: after ∧
      world.Approves tools (world.prepare tools before) call := fun call hstarted =>
    world.approves_of_mem tools (settled_execute (hprepared call hstarted)).2
  constructor
  · constructor
    · apply List.Nodup.map_on _ (htraced.nodup_started hknown)
      intro call hcall other hother hid
      exact List.inj_on_of_nodup_map hids (hmem call hcall) (hmem other hother) hid
    · exact fun call hevent => htraced.started_of_call hknown hevent rfl
    · exact fun call hstarted => (settled_execute (hprepared call hstarted)).1
    · exact happroved
    · intro call hstarted
      obtain ⟨before, after, -, happroves⟩ := happroved call hstarted
      exact ⟨hstamped call (hmem call hstarted), world.definition_of_validate happroves.valid⟩
  · intro outcome houtcome
    obtain ⟨hresults, hclosed, hparallel, hsequential⟩ := hexecuted outcome houtcome
    obtain ⟨recorded, hrecorded, hprefix, hall⟩ :=
      world.recordedCalls_recordResults outcome.completed outcome.terminalError log
    rw [hunrecorded, List.nil_append] at hrecorded
    constructor
    · rw [← hresults, ← hcalls]
      exact htraced.sublist
    · intro hcut
      rw [← hresults, ← hcalls]
      exact htraced.all_recorded (htraced.done_of_closed hclosed hcut) hcut
    · intro call hstarted result
      rw [← hresults]
      exact htraced.recorded_iff hknown hitems hstarted result
    · intro hmode call hcall hunstarted
      rw [← hcalls] at hcall
      obtain ⟨item, hitem, rfl⟩ := List.mem_map.mp hcall
      obtain ⟨slot, hslot, htrace⟩ := htraced.of_item hitem
      obtain ⟨result, hresult⟩ := recorded_of_unstarted htrace (hparallel hmode slot hslot)
        (startedCalls_traceOf hunstarted)
      rw [← call_of_result htrace hresult, ← hresults]
      exact List.mem_map_of_mem (List.mem_filterMap.mpr ⟨slot, hslot, hresult⟩)
    · intro hmode
      rw [← hcalls]
      exact hsequential hmode
    · rw [hrecorded]
      exact hprefix
    · intro hok
      rw [hrecorded]
      exact hall hok

end BatchWorld

namespace BatchWorld.TwoCalls

def read : ToolDefinition := { name := "read", description := "", agentId := none, schema := .null }

def tools : ToolCatalog := { generation := 7, definitions := [read] }

def call (id name : String) : AgentToolCall :=
  { id, name, arguments := .null, thoughtSignature := none, catalogGeneration := 0 }

/-- Every hook allows, every execution succeeds. -/
def world : BatchWorld where
  cancelled := fun _ => false
  beforeTool := fun _ _ => .ok .allow
  execute := fun _ _ => some (.ok (.success .null))
  accept := fun _ _ => .ok ()
  afterTool := fun _ _ result => .ok result
  schemaError := fun _ _ => none
  debug := id

/-- The first call is of a tool that was not shown, the second is executed. -/
theorem shown_call_executed :
    world.StartsApproved tools ([call "1" "write", call "2" "read"].map tools.stamp)
        (world.prepareAndExecute tools .parallel [0, 1, 1, 1]
          ([call "1" "write", call "2" "read"].map tools.stamp)).2 ∧
      ∀ outcome, (world.prepareAndExecute tools .parallel [0, 1, 1, 1]
          ([call "1" "write", call "2" "read"].map tools.stamp)).1 = some outcome →
        world.RecordsFinished .parallel ([call "1" "write", call "2" "read"].map tools.stamp)
          outcome (world.prepareAndExecute tools .parallel [0, 1, 1, 1]
            ([call "1" "write", call "2" "read"].map tools.stamp)).2 :=
  world.batch_executed tools .parallel [0, 1, 1, 1] [call "1" "write", call "2" "read"] (by decide)

end BatchWorld.TwoCalls

end Mews
