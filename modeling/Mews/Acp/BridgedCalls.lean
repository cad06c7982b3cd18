import Mews.Acp.Turn

/-!
# Tool calls of a Harness

Each call that the bridge hands to the Host is answered and passed to its hook,
unless its connection is dropped before.  A line of the Harness drops it silently;
a cancellation, a deadline or a broken pipe drops it together with the request.
-/

namespace Mews

open Protocol

/-- The call ran to a result that was passed to the hook and answered. -/
def BridgedCall.Handled (call : BridgedCall) : Prop :=
  call.result.isSome = true ∧ call.passed = true ∧ call.answered = true

namespace Bridge

variable {tools : BridgeTools} {bridge : Bridge} {serving : Serving} {call : ToolCall}

/-- The serving future is about the call. -/
def Holds (tools : BridgeTools) (serving : Serving) (started : BridgedCall) : Prop :=
  match serving with
  | .executing call => skill tools call = none ∧ started.id = call.callId
  | .after call _ =>
      skill tools call = none ∧ started.id = call.callId ∧ started.result.isSome = true
  | .answering (some call) =>
      skill tools call = none ∧ started.id = call.callId ∧ started.result.isSome = true ∧
        started.passed = true
  | _ => False

/-- Each call on the Host is handled, abandoned or being served. -/
def Tended (tools : BridgeTools) (bridge : Bridge) (serving : Serving) : Prop :=
  ∀ call ∈ bridge.calls,
    call.Handled ∨ (∃ dropped ∈ bridge.abandoned, dropped.id = call.id) ∨ Holds tools serving call

theorem tended_new : new.Tended tools .reading := fun _ hcall => absurd hcall List.not_mem_nil

theorem started_of_holds {started : BridgedCall} (h : Holds tools serving started) :
    ∃ call, Bridge.started tools serving = some call ∧ started.id = call.callId := by
  cases serving with
  | reading => exact h.elim
  | before call => exact h.elim
  | executing call => exact ⟨call, rfl, h.2⟩
  | after call result => exact ⟨call, by simp [Bridge.started, h.1], h.2.1⟩
  | answering call =>
      cases call with
      | none => exact h.elim
      | some call => exact ⟨call, by simp [Bridge.started, h.1], h.2.1⟩

theorem Tended.dropped (h : bridge.Tended tools serving) (method : String) (cause : Abandonment) :
    (bridge.drop tools method serving cause).Tended tools .reading := by
  intro call hcall
  rw [drop] at hcall ⊢
  cases hstarted : Bridge.started tools serving with
  | none =>
      rw [hstarted] at hcall
      rcases h call hcall with hhandled | habandoned | hholds
      · exact Or.inl hhandled
      · exact Or.inr (Or.inl habandoned)
      · obtain ⟨_, hsome, -⟩ := started_of_holds hholds
        cases hstarted.symm.trans hsome
  | some current =>
      rw [hstarted] at hcall
      rcases h call hcall with hhandled | ⟨dropped, hdropped, hid⟩ | hholds
      · exact Or.inl hhandled
      · exact Or.inr (Or.inl ⟨dropped, List.mem_cons_of_mem _ hdropped, hid⟩)
      · obtain ⟨_, hsome, hid⟩ := started_of_holds hholds
        rw [hstarted] at hsome
        rw [← Option.some.inj hsome] at hid
        exact Or.inr (Or.inl ⟨_, List.mem_cons_self, hid.symm⟩)

theorem abandoned_preserveEffectUncertainty (failure : Failure) :
    (bridge.preserveEffectUncertainty failure).abandoned = bridge.abandoned := by
  rw [preserveEffectUncertainty]
  cases failure.effectUncertainty <;> rfl

theorem abandoned_called (name : Option String) (arguments : Option Value)
    (valid : Except String Unit) :
    (bridge.called tools name arguments valid).2.abandoned = bridge.abandoned := by
  cases name with
  | none => rfl
  | some name =>
      by_cases hname : name ∈ tools.tools
      · cases valid <;> simp only [Bridge.called, if_pos hname, recordHook]
      · simp only [Bridge.called, if_neg hname]

theorem calls_called (name : Option String) (arguments : Option Value)
    (valid : Except String Unit) :
    (bridge.called tools name arguments valid).2.calls = bridge.calls := by
  cases name with
  | none => rfl
  | some name =>
      by_cases hname : name ∈ tools.tools
      · cases valid <;> simp only [Bridge.called, if_pos hname, recordHook]
      · simp only [Bridge.called, if_neg hname]

/-- The steps that hand no call to the Host and finish none. -/
theorem Tended.elsewhere {bridge' : Bridge} {serving' : Serving} (h : bridge.Tended tools serving)
    (hcalls : bridge'.calls = bridge.calls) (habandoned : bridge'.abandoned = bridge.abandoned)
    (hholds : ∀ started, ¬Holds tools serving started) : bridge'.Tended tools serving' := by
  intro started hstarted
  rw [hcalls] at hstarted
  rw [habandoned]
  rcases h started hstarted with hhandled | hdropped | hheld
  · exact Or.inl hhandled
  · exact Or.inr (Or.inl hdropped)
  · exact absurd hheld (hholds started)

/-- A note about the call being served moves it on; the others stay as they were. -/
theorem Tended.note {noted : Bridge} {serving' : Serving} {change : BridgedCall → BridgedCall}
    {id : String} (h : bridge.Tended tools serving) (hcalls : noted.calls = bridge.calls)
    (habandoned : noted.abandoned = bridge.abandoned)
    (hid : ∀ started, (change started).id = started.id)
    (hhandled : ∀ started : BridgedCall, started.Handled → (change started).Handled)
    (hheld : ∀ started, Holds tools serving started →
      started.id = id ∧ ((change started).Handled ∨ Holds tools serving' (change started))) :
    (noted.note id change).Tended tools serving' := by
  intro changed hchanged
  obtain ⟨started, hstarted, heq⟩ := List.mem_map.mp hchanged
  rw [hcalls] at hstarted
  have hnoted : (noted.note id change).abandoned = bridge.abandoned := habandoned
  rw [hnoted]
  by_cases hmatch : started.id = id
  · rw [if_pos hmatch] at heq
    rw [← heq]
    rcases h started hstarted with hdone | ⟨dropped, hdropped, hdroppedId⟩ | hholds
    · exact Or.inl (hhandled started hdone)
    · exact Or.inr (Or.inl ⟨dropped, hdropped, hdroppedId.trans (hid started).symm⟩)
    · rcases (hheld started hholds).2 with hdone | hholds'
      · exact Or.inl hdone
      · exact Or.inr (Or.inr hholds')
  · rw [if_neg hmatch] at heq
    rw [← heq]
    rcases h started hstarted with hdone | hdropped | hholds
    · exact Or.inl hdone
    · exact Or.inr (Or.inl hdropped)
    · exact absurd (hheld started hholds).1 hmatch

theorem Tended.beforeTool (h : bridge.Tended tools (.before call))
    (response : Except Failure Value) :
    (bridge.beforeTool tools call response).2.Tended tools
      (bridge.beforeTool tools call response).1 := by
  have hnone : ∀ started, ¬Holds tools (.before call) started := fun _ hheld => hheld
  cases response with
  | error failure =>
      exact h.elsewhere (calls_preserveEffectUncertainty failure)
        (abandoned_preserveEffectUncertainty failure) hnone
  | ok payload =>
      cases hdecision : beforeToolDecision call payload with
      | error detail =>
          simp only [Bridge.beforeTool, hdecision]
          exact h.elsewhere rfl rfl hnone
      | ok decision =>
          cases decision with
          | block reason =>
              simp only [Bridge.beforeTool, hdecision]
              exact h.elsewhere rfl rfl hnone
          | allow =>
              cases hskill : skill tools call with
              | some result =>
                  simp only [Bridge.beforeTool, hdecision, hskill]
                  exact h.elsewhere rfl rfl hnone
              | none =>
                  simp only [Bridge.beforeTool, hdecision, hskill]
                  intro started hstarted
                  rcases List.mem_cons.mp hstarted with rfl | hstarted
                  · exact Or.inr (Or.inr ⟨hskill, rfl⟩)
                  · rcases h started hstarted with hdone | hdropped | hheld
                    · exact Or.inl hdone
                    · exact Or.inr (Or.inl hdropped)
                    · exact absurd hheld (hnone started)

theorem Tended.executed (h : bridge.Tended tools (.executing call))
    (result : Except Failure Value) :
    (bridge.executed call result).2.Tended tools (bridge.executed call result).1 := by
  cases result with
  | ok value =>
      exact h.note rfl rfl (fun _ => rfl) (fun _ hdone => ⟨rfl, hdone.2⟩)
        fun _ hheld => ⟨hheld.2, Or.inr ⟨hheld.1, hheld.2, rfl⟩⟩
  | error failure =>
      exact h.note (calls_preserveEffectUncertainty failure)
        (abandoned_preserveEffectUncertainty failure) (fun _ => rfl)
        (fun _ hdone => ⟨rfl, hdone.2⟩)
        fun _ hheld => ⟨hheld.2, Or.inr ⟨hheld.1, hheld.2, rfl⟩⟩

theorem Tended.afterTool {result : ToolOutcome} (h : bridge.Tended tools (.after call result))
    (response : Except Failure Value) :
    (bridge.afterTool call result response).2.Tended tools
      (bridge.afterTool call result response).1 := by
  cases response with
  | error failure =>
      exact h.note (calls_preserveEffectUncertainty failure)
        (abandoned_preserveEffectUncertainty failure) (fun _ => rfl)
        (fun _ hdone => ⟨rfl, rfl, hdone.2.2⟩)
        fun _ hheld => ⟨hheld.2.1, Or.inr ⟨hheld.1, hheld.2.1, rfl, rfl⟩⟩
  | ok payload =>
      cases hparsed : parseAfterTool payload with
      | error detail =>
          simp only [Bridge.afterTool, hparsed]
          exact h.note rfl rfl (fun _ => rfl) (fun _ hdone => ⟨rfl, rfl, hdone.2.2⟩)
            fun _ hheld => ⟨hheld.2.1, Or.inr ⟨hheld.1, hheld.2.1, rfl, rfl⟩⟩
      | ok after =>
          simp only [Bridge.afterTool, hparsed]
          exact h.note rfl rfl (fun _ => rfl) (fun _ hdone => ⟨rfl, rfl, hdone.2.2⟩)
            fun _ hheld => ⟨hheld.2.1, Or.inr ⟨hheld.1, hheld.2.1, rfl, rfl⟩⟩

theorem Tended.written (h : bridge.Tended tools (.answering (some call))) :
    (bridge.note call.callId fun started => { started with answered := true }).Tended tools
      .reading :=
  h.note rfl rfl (fun _ => rfl) (fun _ hdone => ⟨hdone.1, hdone.2.1, rfl⟩)
    fun _ hheld => ⟨hheld.2.1, Or.inl ⟨hheld.2.2.1, hheld.2.2.2, rfl⟩⟩

theorem Tended.serve (h : bridge.Tended tools serving) (step : HttpStep) :
    (bridge.serve tools serving step).2.Tended tools
      ((bridge.serve tools serving step).1.next serving) := by
  cases step with
  | broken text => cases serving <;> exact h
  | immediate =>
      cases serving with
      | reading => exact h.elsewhere rfl rfl fun _ hheld => hheld
      | _ => exact h
  | called name arguments valid =>
      cases serving with
      | reading =>
          exact h.elsewhere (calls_called name arguments valid)
            (abandoned_called name arguments valid) fun _ hheld => hheld
      | _ => exact h
  | beforeTool response =>
      cases serving with
      | before call => exact h.beforeTool response
      | _ => exact h
  | executed result =>
      cases serving with
      | executing call => exact h.executed result
      | _ => exact h
  | afterTool response =>
      cases serving with
      | after call result => exact h.afterTool response
      | _ => exact h
  | written =>
      cases serving with
      | answering call =>
          cases call with
          | none => exact h.elsewhere rfl rfl fun _ hheld => hheld
          | some call => exact h.written
      | _ => exact h

theorem abandoned_beforeTool (response : Except Failure Value) :
    (bridge.beforeTool tools call response).2.abandoned = bridge.abandoned := by
  cases response with
  | error failure => exact abandoned_preserveEffectUncertainty failure
  | ok payload =>
      rw [Bridge.beforeTool]
      split
      · rfl
      · rfl
      · split <;> rfl

theorem abandoned_executed (result : Except Failure Value) :
    (bridge.executed call result).2.abandoned = bridge.abandoned := by
  cases result with
  | ok value => rfl
  | error failure => exact abandoned_preserveEffectUncertainty failure

theorem abandoned_afterTool (result : ToolOutcome) (response : Except Failure Value) :
    (bridge.afterTool call result response).2.abandoned = bridge.abandoned := by
  cases response with
  | error failure => exact abandoned_preserveEffectUncertainty failure
  | ok payload =>
      rw [Bridge.afterTool]
      cases parseAfterTool payload <;> rfl

/-- Serving a connection abandons nothing. -/
theorem abandoned_serve (step : HttpStep) :
    (bridge.serve tools serving step).2.abandoned = bridge.abandoned := by
  rw [Bridge.serve.eq_def]
  split
  · rfl
  · rfl
  · exact abandoned_called _ _ _
  · exact abandoned_beforeTool _
  · exact abandoned_executed _
  · exact abandoned_afterTool _ _
  · split <;> rfl
  · rfl

end Bridge

namespace Request

variable {request : Request} {tools : BridgeTools}

/-- What a request says about the calls that it abandons: a line took the place of
the call, or the request fails, as a cancellation where that was the cause. -/
structure Abandons (request : Request) (before : List AbandonedCall) (ended : RequestEnd) :
    Prop where
  kept : ∀ dropped ∈ before, dropped ∈ ended.bridge.abandoned
  told : ∀ dropped ∈ ended.bridge.abandoned, dropped ∉ before →
    dropped.method = request.method ∧
      (dropped.cause = .line ∨ ended.reply = none ∧
        (dropped.cause = .cancelled → ended.result = .error (.of .acpCancelled)))

theorem mem_abandoned_drop {bridge : Bridge} {serving : Serving} {method : String}
    {cause : Abandonment} {dropped : AbandonedCall}
    (h : dropped ∈ (bridge.drop tools method serving cause).abandoned) :
    dropped ∈ bridge.abandoned ∨ dropped.method = method ∧ dropped.cause = cause := by
  rw [Bridge.drop] at h
  cases hstarted : Bridge.started tools serving with
  | none =>
      rw [hstarted] at h
      exact Or.inl h
  | some call =>
      rw [hstarted] at h
      rcases List.mem_cons.mp h with rfl | h
      · exact Or.inr ⟨rfl, rfl⟩
      · exact Or.inl h

theorem mem_drop_abandoned {bridge : Bridge} {dropped : AbandonedCall}
    (h : dropped ∈ bridge.abandoned) (method : String) (serving : Serving) (cause : Abandonment) :
    dropped ∈ (bridge.drop tools method serving cause).abandoned := by
  rw [Bridge.drop]
  cases Bridge.started tools serving with
  | none => exact h
  | some call => exact List.mem_cons_of_mem _ h

theorem abandons_fails {bridge : Bridge} {failure : Failure} (serving : Serving)
    (cause : Abandonment) (h : cause = .cancelled → failure = .of .acpCancelled) :
    request.Abandons bridge.abandoned
      (fails failure (bridge.drop tools request.method serving cause)) := by
  refine ⟨fun dropped hdropped => mem_drop_abandoned hdropped _ _ _, fun dropped hdropped hnew => ?_⟩
  rcases mem_abandoned_drop hdropped with hold | ⟨hmethod, hcause⟩
  · exact absurd hold hnew
  · refine ⟨hmethod, Or.inr ⟨rfl, fun hcancelled => ?_⟩⟩
    rw [← h (hcause.symm.trans hcancelled)]
    rfl

/-- A line that is taken up is the only cause of what it abandons. -/
theorem Abandons.after_line {bridge : Bridge} {ended : RequestEnd} {serving : Serving}
    (h : request.Abandons (bridge.drop tools request.method serving .line).abandoned ended) :
    request.Abandons bridge.abandoned ended := by
  refine ⟨fun dropped hdropped => h.kept dropped (mem_drop_abandoned hdropped _ _ _),
    fun dropped hdropped hnew => ?_⟩
  by_cases hline : dropped ∈ (bridge.drop tools request.method serving .line).abandoned
  · rcases mem_abandoned_drop hline with hold | ⟨hmethod, hcause⟩
    · exact absurd hold hnew
    · exact ⟨hmethod, Or.inl hcause⟩
  · exact h.told dropped hdropped hline

theorem abandons_await (wakes : List RpcWake) (serving : Serving) (bridge : Bridge) :
    request.Abandons bridge.abandoned (request.await tools wakes serving bridge) := by
  have hkept : ∀ {bridge : Bridge} {ended : RequestEnd}, ended.bridge = bridge →
      request.Abandons bridge.abandoned ended := by
    rintro bridge ended rfl
    exact ⟨fun _ h => h, fun _ h hnew => absurd h hnew⟩
  induction wakes generalizing serving bridge with
  | nil => exact abandons_fails serving .elapsed (by intro h; cases h)
  | cons wake wakes ih =>
      cases wake with
      | cancelled => exact abandons_fails serving .cancelled fun _ => rfl
      | elapsed => exact abandons_fails serving .elapsed (by intro h; cases h)
      | http step =>
          rw [await]
          split_ifs
          · have hserve : (bridge.serve tools serving step).2.abandoned = bridge.abandoned :=
              Bridge.abandoned_serve step
            rcases hserved : bridge.serve tools serving step with ⟨served, bridge'⟩
            rw [hserved] at hserve
            rw [← hserve]
            cases served with
            | pending serving => exact ih serving bridge'
            | finished => exact ih .reading bridge'
            | failed text => exact abandons_fails serving .broken (by intro h; cases h)
          · exact ih serving bridge
      | line line =>
          rw [await]
          apply @Abandons.after_line request tools bridge _ serving
          cases request.receive line with
          | error failure => exact hkept rfl
          | ok received =>
              cases received with
              | none => exact ih .reading _
              | some message => exact hkept rfl

theorem tended_perform (exchange : Exchange) {bridge : Bridge}
    (h : bridge.Tended tools .reading) :
    (request.perform tools exchange bridge).bridge.Tended tools .reading :=
  perform_keeps (fun cause hkept => hkept.dropped request.method cause)
    (fun step hkept => hkept.serve step) exchange h

theorem abandons_perform (exchange : Exchange) (bridge : Bridge) :
    request.Abandons bridge.abandoned (request.perform tools exchange bridge) := by
  have hnothing : ∀ failure, request.Abandons bridge.abandoned (fails failure bridge) :=
    fun failure => ⟨fun _ h => h, fun _ h hnew => absurd h hnew⟩
  rw [perform]
  cases texted exchange.sent with
  | error failure => exact hnothing failure
  | ok sent =>
      dsimp only
      cases (if request.reported then texted exchange.dispatched else .ok ()) with
      | error failure => exact hnothing failure
      | ok dispatched => exact abandons_await exchange.wakes .reading bridge

end Request

/-- The abandonment makes the Turn uncertain: it is cancelled, or the prompt is
undecided. -/
def AbandonedCall.Excused (dropped : AbandonedCall) : Prop :=
  dropped.cause = .cancelled ∨ dropped.cause ≠ .line ∧ dropped.method = "session/prompt"

/-- No call was abandoned, or one was without an excuse. -/
def Bridge.Clean (bridge : Bridge) : Prop :=
  bridge.abandoned = [] ∨ ∃ dropped ∈ bridge.abandoned, ¬dropped.Excused

namespace Request

variable {request : Request} {tools : BridgeTools}

/-- A request from a clean bridge ends clean, or with an excused abandonment of its
own. -/
theorem clean_perform (exchange : Exchange) {bridge : Bridge} (h : bridge.Clean) :
    (request.perform tools exchange bridge).bridge.Clean ∨
      (request.perform tools exchange bridge).reply = none ∧
        (request.method = "session/prompt" ∨
          (request.perform tools exchange bridge).result = .error (.of .acpCancelled)) := by
  have habandons : request.Abandons bridge.abandoned (request.perform tools exchange bridge) :=
    request.abandons_perform exchange bridge
  generalize request.perform tools exchange bridge = ended at *
  rcases h with hnone | ⟨dropped, hdropped, hunexcused⟩
  · cases habandoned : ended.bridge.abandoned with
    | nil => exact Or.inl (Or.inl habandoned)
    | cons dropped rest =>
        have hmem : dropped ∈ ended.bridge.abandoned := by simp [habandoned]
        by_cases hexcused : dropped.Excused
        · obtain ⟨hmethod, htold⟩ := habandons.told dropped hmem (by simp [hnone])
          rcases htold with hline | ⟨hreply, hcancelled⟩
          · rcases hexcused with hcause | ⟨hcause, -⟩
            · exact nomatch hcause.symm.trans hline
            · exact absurd hline hcause
          · refine Or.inr ⟨hreply, ?_⟩
            rcases hexcused with hcause | ⟨-, hprompt⟩
            · exact Or.inr (hcancelled hcause)
            · exact Or.inl (hmethod.symm.trans hprompt)
        · exact Or.inl (Or.inr ⟨dropped, hmem, hexcused⟩)
  · exact Or.inl (Or.inr ⟨dropped, habandons.kept dropped hdropped, hunexcused⟩)

end Request

namespace AcpProcess

variable {tools : BridgeTools} {session : AcpSessionRequest} {round : SessionRound}

theorem carried_tended :
    Carried tools (fun progress => progress.bridge.Tended tools .reading)
      (fun _ progress => progress.bridge.Tended tools .reading) where
  exchange := by
    intro method sessionId sent progress hmethod h
    have htended : (exchange tools method sessionId sent progress).2.bridge.Tended tools .reading :=
      Request.tended_perform sent h
    exact settles_exchange htended
  active := fun _ h => h
  fails := fun _ h => h
  recovers := fun _ h => h

theorem carried_clean :
    Carried tools (fun progress => progress.bridge.Clean)
      (fun failure progress => progress.bridge.Clean ∨ failure = .of .acpCancelled) where
  exchange := by
    intro method sessionId sent progress hmethod h
    let request : Request :=
      { id := progress.nextId, method, sessionId, reported := false, http := tools.needsTransport }
    have hclean := @Request.clean_perform request tools sent progress.bridge h
    rw [Tx.settles]
    rcases hrun : exchange tools method sessionId sent progress with ⟨result, reached⟩
    have hresult : (request.perform tools sent progress.bridge).result = result :=
      congrArg Prod.fst hrun
    have hbridge : (request.perform tools sent progress.bridge).bridge = reached.bridge :=
      congrArg (fun run : Except Failure Value × Progress => run.2.bridge) hrun
    rw [hresult, hbridge] at hclean
    rcases hclean with hclean | ⟨-, hprompt | hcancelled⟩
    · cases result with
      | ok value => exact hclean
      | error failure => exact Or.inl hclean
    · exact absurd hprompt hmethod
    · rw [hcancelled]
      exact Or.inr rfl
  active := fun _ h => h
  fails := fun _ h => Or.inl h
  recovers := by
    rintro progress failure hmissing (hclean | rfl)
    · exact hclean
    · cases hmissing

theorem tended_lifecycle (nextId : Nat) :
    (lifecycle tools session round (.new nextId)).2.bridge.Tended tools .reading := by
  have hsettles : Tx.settles (lifecycle tools session round) (.new nextId)
      (fun _ progress => progress.bridge.Tended tools .reading)
      (fun _ progress => progress.bridge.Tended tools .reading) := by
    rw [lifecycle]
    apply Tx.settles_then (carried_tended.prepare Bridge.tended_new)
    intro opened progress h
    have hsent : (sendPrompt tools opened.sessionId opened.prompt round.prompted
        progress).2.bridge.Tended tools .reading := Request.tended_perform round.prompted h
    rw [prompt, Tx.settles_attempt_bind, Tx.settles_lift]
    split <;> exact hsent
  rw [Tx.settles] at hsettles
  split at hsettles <;> simp [*]

/-- A prompt from a clean bridge ends clean, or undecided. -/
theorem settles_prompt_clean {opened : OpenSession} {progress : Progress}
    (h : progress.bridge.Clean) :
    Tx.settles (prompt tools round opened) progress (fun _ reached => reached.bridge.Clean)
      (fun failure reached => reached.bridge.Clean ∨ failure.Carries) := by
  let request : Request :=
    { id := progress.nextId, method := "session/prompt", sessionId := some opened.sessionId,
      reported := true, http := tools.needsTransport }
  let ended := request.perform tools round.prompted progress.bridge
  have hended : ended.Answered "session/prompt" := request.answered_perform round.prompted _
  have hclean : ended.bridge.Clean ∨ ended.reply = none :=
    (request.clean_perform round.prompted h).imp id And.left
  rw [prompt, Tx.settles_attempt_bind, Tx.settles_lift]
  have hrun : (sendPrompt tools opened.sessionId opened.prompt round.prompted progress).1 =
      ended.result := rfl
  rw [hrun]
  cases houtcome : promptOutcome round opened ended.result with
  | ok outcome =>
      obtain ⟨value, reason, hreply, -⟩ := reply_of_promptOutcome hended houtcome
      rcases hclean with hclean | hnone
      · exact hclean
      · cases hnone.symm.trans hreply
  | error failure =>
      refine hclean.imp id fun hnone => carries_of_promptOutcome hended houtcome ?_
      intro error herror
      cases hnone.symm.trans herror

theorem clean_lifecycle (nextId : Nat) :
    (lifecycle tools session round (.new nextId)).2.bridge.Clean ∨
      ∃ failure, (lifecycle tools session round (.new nextId)).1 = .error failure ∧
        failure.Carries := by
  have hsettles : Tx.settles (lifecycle tools session round) (.new nextId)
      (fun _ progress => progress.bridge.Clean)
      (fun failure progress => progress.bridge.Clean ∨ failure.Carries) := by
    rw [lifecycle]
    have hnew : (Progress.new nextId).bridge.Clean := Or.inl rfl
    have hprepare : Tx.settles (AcpProcess.prepare tools session round) (.new nextId)
        (fun _ progress => progress.bridge.Clean)
        (fun failure progress => progress.bridge.Clean ∨ failure = .of .acpCancelled) :=
      carried_clean.prepare hnew
    rw [Tx.settles_bind]
    apply Tx.settles_mono _ _ hprepare
    · exact fun opened reached hreached => settles_prompt_clean hreached
    · rintro failure reached (hclean | rfl)
      · exact Or.inl hclean
      · exact Or.inr carries_acpCancelled
  rw [Tx.settles] at hsettles
  rcases hrun : lifecycle tools session round (.new nextId) with ⟨result, progress⟩
  rw [hrun] at hsettles
  cases result with
  | ok outcome => exact Or.inl hsettles
  | error failure => exact hsettles.imp id fun hcarries => ⟨failure, rfl, hcarries⟩

theorem conclude_carries {failure : Failure} (h : failure.Carries) (uncertainEffect : Option String)
    (audit : Except Failure Unit) :
    ∃ failure', conclude (.error failure) uncertainEffect audit = .error failure' ∧
      failure'.Carries := by
  cases uncertainEffect with
  | some reason => cases audit <;> exact ⟨_, rfl, Or.inl rfl⟩
  | none => cases audit <;> exact ⟨_, rfl, h⟩

end AcpProcess

namespace Attempt

variable {attempt : Attempt}

theorem tended (attempt : Attempt) :
    attempt.progress.bridge.Tended attempt.round.tools .reading := by
  rw [progress]
  rcases attempt.run_cases with ⟨failure, hrun⟩ | hrun
  · rw [hrun]
    exact Bridge.tended_new
  · rw [hrun, AcpProcess.runSession]
    cases texted attempt.round.session.bridge with
    | error failure => exact Bridge.tended_new
    | ok built => exact AcpProcess.tended_lifecycle _

theorem clean (attempt : Attempt) :
    attempt.progress.bridge.Clean ∨
      ∃ failure, attempt.result = .error failure ∧ failure.Carries := by
  rw [progress, result]
  rcases attempt.run_cases with ⟨failure, hrun⟩ | hrun
  · rw [hrun]
    exact Or.inl (Or.inl rfl)
  · rw [hrun, AcpProcess.runSession]
    cases texted attempt.round.session.bridge with
    | error failure => exact Or.inl (Or.inl rfl)
    | ok built =>
        rcases @AcpProcess.clean_lifecycle attempt.round.tools attempt.session
          attempt.round.session attempt.round.nextId with hclean | ⟨failure, hresult, hcarries⟩
        · exact Or.inl hclean
        · right
          dsimp only
          rw [hresult]
          exact AcpProcess.conclude_carries hcarries _ _

/-- No line has dropped a call of the attempt, and before the prompt only the
cancellation of the Turn has. -/
def Excused (attempt : Attempt) : Prop :=
  ∀ dropped ∈ attempt.progress.bridge.abandoned, dropped.Excused

/-- What the last attempt knows of its effects reaches the record of the Turn. -/
def Told (attempt : Attempt) (site : Site) (cancelled : Bool) : Prop :=
  cancelled = true ∨
    match site with
    | .hub => attempt.Reported
    | .host none => False
    | .host (some _) => True

/-- An attempt whose abandonments are excused has none, and handled all its calls, or
is uncertain. -/
theorem handled_or_carries (h : attempt.Excused) :
    (∀ call ∈ attempt.progress.bridge.calls, call.Handled) ∨
      attempt.progress.bridge.abandoned ≠ [] ∧
        ∃ failure, attempt.result = .error failure ∧ failure.Carries := by
  by_cases hnone : attempt.progress.bridge.abandoned = []
  · refine Or.inl fun call hcall => ?_
    rcases attempt.tended call hcall with hhandled | ⟨dropped, hdropped, -⟩ | hheld
    · exact hhandled
    · rw [hnone] at hdropped
      exact absurd hdropped List.not_mem_nil
    · exact hheld.elim
  · rcases attempt.clean with (hempty | ⟨dropped, hdropped, hunexcused⟩) | hcarries
    · exact absurd hempty hnone
    · exact absurd (h dropped hdropped) hunexcused
    · exact Or.inr ⟨hnone, hcarries⟩

/-- A failure that says so is recorded as uncertain. -/
theorem recorded_uncertain {site : Site} {cancelled : Bool} {failure : Failure}
    (hresult : attempt.result = .error failure) (hcarries : failure.Carries)
    (htold : attempt.Told site cancelled) :
    ∃ text, acpEffectOutcome (site.returned attempt.finish) cancelled true = .uncertain text := by
  have huncertain : ∀ failure : Failure, (cancelled = true ∨ failure.Carries) →
      ∃ text, acpEffectOutcome (.error failure) cancelled true = .uncertain text := by
    intro failure h
    rw [acpEffectOutcome]
    split_ifs with hreason hcancelled hother
    · exact ⟨_, rfl⟩
    · exact ⟨_, rfl⟩
    · rcases h with rfl | hcarries
      · simp at hcancelled
      · rcases hcarries with hreason' | hcancelled'
        · exact absurd hreason' hreason
        · simp [hcancelled'] at hcancelled
    · rcases h with rfl | hcarries
      · simp at hcancelled
      · rcases hcarries with hreason' | hcancelled'
        · exact absurd hreason' hreason
        · simp [hcancelled'] at hcancelled
  have hfails : ∃ cause, attempt.finish = .error cause := by
    cases hfinish : attempt.finish with
    | ok outcome => cases hresult.symm.trans (finish_ok hfinish).2
    | error cause => exact ⟨cause, rfl⟩
  obtain ⟨cause, hfinish⟩ := hfails
  cases site with
  | hub =>
      rw [Site.returned_hub]
      rcases htold with hcancelled | hreported
      · rw [hfinish]
        exact huncertain cause (Or.inl hcancelled)
      · rw [finish_error hreported hresult]
        exact huncertain _ (Or.inr hcarries)
  | host lost =>
      cases lost with
      | some reason => exact huncertain _ (Or.inr (Or.inl rfl))
      | none =>
          rw [Site.returned_host, hfinish]
          rcases htold with hcancelled | hnever
          · exact huncertain _ (Or.inl hcancelled)
          · exact hnever.elim

end Attempt

/-- Each call that was handed to the Host is handled, or the Turn is recorded as
uncertain; and no line has dropped a call. -/
structure CallsTended (cancelled : Bool) (attempts : List Attempt)
    (returned : Except Failure AcpSessionOutcome) : Prop where
  handled : (∀ attempt ∈ attempts, ∀ call ∈ attempt.progress.bridge.calls, call.Handled) ∨
    ∃ text, acpEffectOutcome returned cancelled true = .uncertain text
  lines : ∀ attempt ∈ attempts, ∀ dropped ∈ attempt.progress.bridge.abandoned,
    dropped.cause ≠ .line

theorem AbandonedCall.Excused.not_line {dropped : AbandonedCall} (h : dropped.Excused) :
    dropped.cause ≠ .line := by
  rcases h with hcancelled | ⟨hline, -⟩
  · rw [hcancelled]
    exact nofun
  · exact hline

theorem Executes.tended {session : AcpSessionRequest} {attempts : List Attempt}
    {result : Except Failure AcpSessionOutcome} (h : Executes session attempts result)
    {site : Site} {cancelled : Bool} (hexcused : ∀ attempt ∈ attempts, attempt.Excused)
    (hrestarted : ∀ attempt ∈ attempts.dropLast, attempt.progress.bridge.abandoned = [])
    (htold : ∀ attempt ∈ attempts.getLast?, attempt.progress.bridge.abandoned ≠ [] →
      attempt.Told site cancelled) :
    (∀ attempt ∈ attempts, ∀ call ∈ attempt.progress.bridge.calls, call.Handled) ∨
      ∃ text, acpEffectOutcome (site.returned result) cancelled true = .uncertain text := by
  induction h with
  | @ends attempt hends =>
      rcases attempt.handled_or_carries (hexcused attempt List.mem_cons_self) with
        hhandled | ⟨habandoned, failure, hresult, hcarries⟩
      · left
        intro other hother
        rw [List.mem_singleton.mp hother]
        exact hhandled
      · right
        exact Attempt.recorded_uncertain hresult hcarries (htold attempt rfl habandoned)
  | @restarts attempt attempts result hrestarts hrest ih =>
      have hne := hrest.ne_nil
      rw [List.dropLast_cons_of_ne_nil hne] at hrestarted
      have hlast : (attempt :: attempts).getLast? = attempts.getLast? := by
        cases attempts with
        | nil => exact absurd rfl hne
        | cons next rest => exact List.getLast?_cons_cons
      rw [hlast] at htold
      have htail := ih (fun other hother => hexcused other (List.mem_cons_of_mem attempt hother))
        (fun other hother => hrestarted other (List.mem_cons_of_mem attempt hother)) htold
      refine htail.imp (fun hhandled other hother => ?_) id
      rcases List.mem_cons.mp hother with rfl | hother
      · rcases other.handled_or_carries (hexcused other List.mem_cons_self) with
          hdone | ⟨habandoned, -⟩
        · exact hdone
        · exact absurd (hrestarted other List.mem_cons_self) habandoned
      · exact hhandled other hother

/-- In every Turn in which no line is taken up while a call is under way, no request
before the prompt ends under a call except by the cancellation, no attempt is restarted
after it has abandoned a call, and the end of an attempt that has is reported, the
calls of the Harness are tended. -/
theorem PooledTurn.calls_tended {session : AcpSessionRequest} {attempts : List Attempt}
    {result : Except Failure AcpSessionOutcome} (h : PooledTurn session attempts result)
    {site : Site} {cancelled : Bool} (hexcused : ∀ attempt ∈ attempts, attempt.Excused)
    (hrestarted : ∀ attempt ∈ attempts.dropLast, attempt.progress.bridge.abandoned = [])
    (htold : ∀ attempt ∈ attempts.getLast?, attempt.progress.bridge.abandoned ≠ [] →
      attempt.Told site cancelled) :
    CallsTended cancelled attempts (site.returned result) := by
  refine ⟨?_, fun attempt hattempt dropped hdropped =>
    (hexcused attempt hattempt dropped hdropped).not_line⟩
  cases h with
  | refused text => exact Or.inl fun _ hattempt => absurd hattempt List.not_mem_nil
  | cancelled finalized => exact Or.inl fun _ hattempt => absurd hattempt List.not_mem_nil
  | executed hexecuted => exact hexecuted.tended hexcused hrestarted htold

/-! ## A call that an update drops -/

namespace DroppedCall

open AnsweredPrompt (request answers)

/-- The Harness calls an extension tool while its prompt is pending; then comes what is
given, and the answer to the prompt. -/
def attempt (meanwhile : List RpcWake) : Attempt :=
  let answered := AnsweredPrompt.attempt (.ok ())
  let called : List RpcWake :=
    [.http (.called (some "deploy") none (.ok ())), .http (.beforeTool (.ok .null))]
  let reply := (AnsweredPrompt.reply 3 [("stopReason", .string "end_turn")]).wakes
  let prompted : Exchange :=
    { sent := .ok (), dispatched := .ok (), wakes := called ++ meanwhile ++ reply }
  { session := answered.session
    round :=
      { answered.round with
        tools := { tools := ["deploy"], skills := [], inventory := "[]" }
        session := { answered.round.session with prompted } } }

def update : RpcWake :=
  let message : RpcMessage :=
    { method := some (.string "session/update"), id := none, sessionId := some "s-1",
      update := some .null, error := none, result := none }
  .line (.message message answers)

def served : List RpcWake :=
  [.http (.executed (.ok (.string "deployed"))), .http (.afterTool (.ok .null)), .http .written]

theorem executed {meanwhile : List RpcWake} (h : (attempt meanwhile).result.isOk = true) :
    PooledTurn request [attempt meanwhile] (attempt meanwhile).finish :=
  .executed (.ends (Attempt.not_restarts h))

theorem attempt_served : (attempt served).result.isOk = true ∧
    (attempt served).progress.bridge.abandoned = [] := by
  decide

theorem attempt_update : (attempt [update]).result.isOk = true ∧
    (attempt [update]).finish.isOk = true ∧ (attempt [update]).progress.bridge.calls =
      [{ id := "mcp-1", tool := "deploy", result := none, passed := false, answered := false }] := by
  decide

/-- A call that is served without a line in between. -/
theorem served_tended :
    CallsTended false [attempt served] (Site.hub.returned (attempt served).finish) := by
  obtain ⟨hok, hnone⟩ := attempt_served
  apply (executed hok).calls_tended
  · intro other hother
    rw [List.mem_singleton.mp hother, Attempt.Excused, hnone]
    exact fun _ hdropped => absurd hdropped List.not_mem_nil
  · exact fun _ hother => absurd hother List.not_mem_nil
  · intro other hother habandoned
    rw [← Option.some.inj hother] at habandoned
    exact absurd hnone habandoned

/-- The Harness reports an update while the tool runs, and the Turn succeeds. -/
theorem dropped_silently :
    ¬∀ (session : AcpSessionRequest) (attempts : List Attempt)
      (result : Except Failure AcpSessionOutcome) (site : Site) (cancelled : Bool),
      PooledTurn session attempts result →
      CallsTended cancelled attempts (site.returned result) := by
  intro h
  obtain ⟨hok, hfinish, hcalls⟩ := attempt_update
  have htended := h request [attempt [update]] (attempt [update]).finish .hub false (executed hok)
  rcases htended.handled with hhandled | ⟨text, huncertain⟩
  · have hcall := hhandled _ List.mem_cons_self _ (by rw [hcalls]; exact List.mem_cons_self)
    exact nomatch hcall.1
  · rw [Site.returned_hub] at huncertain
    cases hresult : (attempt [update]).finish with
    | ok outcome =>
        rw [hresult] at huncertain
        exact nomatch huncertain
    | error failure =>
        rw [hresult] at hfinish
        exact nomatch hfinish

end DroppedCall

end Mews
