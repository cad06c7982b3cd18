import Mews.Acp.Rpc
import Mews.Core.Transaction

/-!
# One run of an ACP Session

A run opens or resumes a Session of the Harness, sends the prompt and waits for its
result, while the bridge serves the extension tools.  What the Harness, the hooks
and the event sink answer is a `SessionRound`; what is left behind, also by a run
that fails, is a `Progress`.
-/

namespace Mews

open Protocol

structure AcpHookMetadata where
  invokeTurnStart : Bool
  deriving DecidableEq

structure AcpSessionRequest where
  transition : AcpBindingTransition
  prompt : String
  recoveryPrompt : String
  contextText : String
  channel : AcpInstructionChannel
  hookMetadata : Option AcpHookMetadata
  deriving DecidableEq

def AcpSessionRequest.outboundPrompt (session : AcpSessionRequest) (text : String) : String :=
  match session.channel with
  | .firstPrompt => s!"{session.contextText}\n\n{text}"
  | .codexDeveloper | .claudeSystemAppend => text

/-- What the Harness has announced. -/
structure AcpCapabilities where
  resume : Bool
  loadSession : Bool
  httpMcp : Bool
  deriving DecidableEq

structure SessionRound where
  capabilities : AcpCapabilities
  /-- The bridge is built from the catalog of the Host. -/
  bridge : Except String Unit
  bindHttp : Except String Unit
  resumed : Exchange
  created : Exchange
  /-- The event sink takes `SessionBound`. -/
  sessionBound : Except String Unit
  /-- One request for each Harness option. -/
  options : List Exchange
  beforeModel : Except Failure Value
  /-- The event sink takes the outcome of the hook. -/
  beforeModelReported : Except String Unit
  contextDispatched : Except String Unit
  prompted : Exchange
  answer : String
  timings : AcpTimings
  /-- The event sink takes the hook outcomes of the bridge, one after the other. -/
  audit : Nat → Except String Unit

structure Progress where
  nextId : Nat
  bridge : Bridge
  activeSessionId : Option String
  /-- The Session and the prompt whose bytes have been flushed. -/
  prompted : Option (String × String)
  /-- The definitive answer of the Harness to the prompt. -/
  reply : Option Reply
  deriving DecidableEq

def Progress.new (nextId : Nat) : Progress :=
  { nextId, bridge := .new, activeSessionId := none, prompted := none, reply := none }

abbrev AcpTx := Tx Progress Failure

def codexRestartForRecovery : String := "mews: restart Codex adapter for ACP recovery"

def Failure.isResourceNotFound (failure : Failure) : Bool :=
  match failure.cause with
  | .acpRpc _ code _ => code = -32002
  | _ => false

def acpSkillToolNames : List String := ["mews_list_skills", "mews_read_skill"]

def BridgeTools.needsTransport (tools : BridgeTools) : Bool :=
  !tools.skills.isEmpty || tools.tools.any (· ∉ acpSkillToolNames)

def acpSessionId (response : Value) : Except Failure String :=
  let missing : Failure := .msg "ACP session/new response did not include a valid sessionId"
  match response with
  | .object members =>
      match members.lookup "sessionId" with
      | some (.string sessionId) =>
          if sessionId ≠ "" ∧ sessionId.utf8ByteSize ≤ maxAcpSessionIdBytes then .ok sessionId
          else .error missing
      | _ => .error missing
  | _ => .error missing

def stopReason : String → Option AcpStopReason
  | "end_turn" => some .endTurn
  | "max_tokens" => some .maxTokens
  | "max_turn_requests" => some .maxTurnRequests
  | "refusal" => some .refusal
  | "cancelled" => some .cancelled
  | "other" => some .other
  | _ => none

/-- The stop reason of a `PromptResult`. -/
def promptResult : Value → Except String AcpStopReason
  | .object members =>
      match members.lookup "stopReason" with
      | some (.string text) =>
          match stopReason text with
          | some reason => .ok reason
          | none => .error s!"unknown variant {text}"
      | some _ => .error "invalid type: expected string or map"
      | none => .error "missing field stopReason"
  | _ => .error "invalid type: expected struct PromptResult"

structure BeforeModel where
  block : Option String
  prompt : Option String
  deriving DecidableEq

def parseBeforeModel (value : Value) : Except String BeforeModel := do
  match ← HookPayload.object value with
  | none => return { block := none, prompt := none }
  | some object =>
      let block ← HookPayload.string object "block"
      let prompt ← HookPayload.string object "prompt"
      return { block, prompt }

/-- `before_model`: the hook may block the prompt or replace it. -/
def beforeModel (session : AcpSessionRequest) (round : SessionRound) (prompt : String) :
    Except Failure String :=
  match session.hookMetadata with
  | none => .ok prompt
  | some _ =>
      match round.beforeModel with
      | .error failure => do
          texted round.beforeModelReported
          throw (failure.context "ACP before_model hook failed")
      | .ok response =>
          match parseBeforeModel response with
          | .error detail => do
              texted round.beforeModelReported
              throw (.msg s!"invalid ACP before_model hook response: {detail}")
          | .ok response =>
              match response.block with
              | some reason => do
                  texted round.beforeModelReported
                  throw (.msg s!"ACP before_model hook blocked prompt: {boundedDetail reason}")
              | none => do
                  texted round.beforeModelReported
                  return response.prompt.getD prompt

namespace AcpProcess

section Run

variable (tools : BridgeTools)

/-- A request other than the prompt; its updates are ignored. -/
def exchange (method : String) (sessionId : Option String) (exchange : Exchange) :
    AcpTx Value := fun progress =>
  let request : Request :=
    { id := progress.nextId, method, sessionId, reported := false, http := tools.needsTransport }
  let ended := request.perform tools exchange progress.bridge
  (ended.result, { progress with nextId := progress.nextId + 1, bridge := ended.bridge })

def sendPrompt (sessionId prompt : String) (exchange : Exchange) : AcpTx Value := fun progress =>
  let request : Request :=
    { id := progress.nextId, method := "session/prompt", sessionId := some sessionId,
      reported := true, http := tools.needsTransport }
  let ended := request.perform tools exchange progress.bridge
  (ended.result,
    { progress with
      nextId := progress.nextId + 1
      bridge := ended.bridge
      prompted := if exchange.sent.isOk then some (sessionId, prompt) else progress.prompted
      reply := ended.reply })

def transport (round : SessionRound) : AcpTx Unit :=
  if tools.needsTransport then
    if round.capabilities.httpMcp then Tx.lift (texted round.bindHttp)
    else Tx.fail (.msg "ACP Harness does not support HTTP MCP required for MEWS extensions")
  else pure ()

/-- The Session a run works in. -/
structure OpenSession where
  sessionId : String
  replaced : Bool
  prompt : String
  transition : Option AcpBindingTransition

def createSession (round : SessionRound) : AcpTx String := do
  let created ← exchange tools "session/new" none round.created
  Tx.lift (acpSessionId created)

def openSession (session : AcpSessionRequest) (round : SessionRound) : AcpTx OpenSession :=
  match session.transition with
  | .resume sessionId =>
      if round.capabilities.resume || round.capabilities.loadSession then do
        let method := if round.capabilities.resume then "session/resume" else "session/load"
        match ← Tx.attempt (exchange tools method (some sessionId) round.resumed) with
        | .ok _ =>
            pure { sessionId, replaced := false, prompt := session.prompt, transition := none }
        | .error failure =>
            if failure.isResourceNotFound then
              if session.channel = .codexDeveloper then
                Tx.fail (.msg codexRestartForRecovery)
              else do
                let created ← createSession tools round
                pure
                  { sessionId := created
                    replaced := true
                    prompt := session.outboundPrompt session.recoveryPrompt
                    transition := some (.replace .resourceNotFound) }
            else Tx.fail failure
      else Tx.fail (.msg "ACP Harness cannot resume persistent Sessions")
  | .new => do
      let created ← createSession tools round
      pure
        { sessionId := created, replaced := false, prompt := session.outboundPrompt session.prompt,
          transition := some .new }
  | .replace reason => do
      let created ← createSession tools round
      pure
        { sessionId := created, replaced := true,
          prompt := session.outboundPrompt session.recoveryPrompt,
          transition := some (.replace reason) }

/-- The event sink is told, where there is something to tell. -/
def emit (condition : Prop) [Decidable condition] (taken : Except String Unit) : AcpTx Unit :=
  if condition then Tx.lift (texted taken) else pure ()

/-- Everything before the prompt is sent. -/
def prepare (session : AcpSessionRequest) (round : SessionRound) : AcpTx OpenSession := do
  transport tools round
  let opened ← openSession tools session round
  Tx.modify fun progress => { progress with activeSessionId := some opened.sessionId }
  emit (opened.transition.isSome = true) round.sessionBound
  Tx.each round.options fun option => do
    let _ ← exchange tools "session/set_config_option" (some opened.sessionId) option
    pure ()
  let prompt ← Tx.lift (beforeModel session round opened.prompt)
  emit (opened.transition.isSome = true ∧ session.channel = .firstPrompt) round.contextDispatched
  pure { opened with prompt }

/-- What the answer to the prompt makes of the run. -/
def promptOutcome (round : SessionRound) (opened : OpenSession) :
    Except Failure Value → Except Failure AcpSessionOutcome
  | .error failure =>
      if failure.isCancelled || failure.classified then .error failure
      else
        .error (.uncertain ("ACP prompt was dispatched but no definitive outcome was observed: " ++
          failure.chain))
  | .ok value =>
      match promptResult value with
      | .error error =>
          .error (.uncertain s!"ACP prompt returned an invalid terminal result: {error}")
      | .ok reason =>
          if reason = .cancelled then .error (.of .acpCancelled)
          else
            .ok
              { answer := round.answer, sessionId := opened.sessionId,
                sessionReplaced := opened.replaced, stopReason := reason,
                timings := round.timings }

def prompt (round : SessionRound) (opened : OpenSession) : AcpTx AcpSessionOutcome := do
  let result ← Tx.attempt (sendPrompt tools opened.sessionId opened.prompt round.prompted)
  Tx.lift (promptOutcome round opened result)

def lifecycle (session : AcpSessionRequest) (round : SessionRound) : AcpTx AcpSessionOutcome := do
  let opened ← prepare tools session round
  prompt tools round opened

/-- The event sink takes the hook outcomes up to the first that it refuses. -/
def drainMcpHookOutcomes (round : SessionRound) (bridge : Bridge) : Except Failure Unit :=
  (List.range bridge.hookOutcomes.length).forM fun index => texted (round.audit index)

/-- What is returned when the lifecycle and the audit of the hooks are through. -/
def conclude (lifecycle : Except Failure AcpSessionOutcome) (uncertainEffect : Option String)
    (audit : Except Failure Unit) : Except Failure AcpSessionOutcome :=
  match uncertainEffect with
  | some reason =>
      match audit with
      | .ok () => .error (.uncertain reason)
      | .error audit =>
          .error ((Failure.uncertain reason).context
            s!"failed to persist MCP hook audit after uncertain effect: {audit.chain}")
  | none =>
      match lifecycle, audit with
      | .ok outcome, .ok () => .ok outcome
      | .error primary, .ok () => .error primary
      | .ok _, .error audit => .error (audit.context "failed to persist MCP hook audit")
      | .error primary, .error audit =>
          .error (primary.context
            s!"ACP lifecycle failed; additionally failed to persist MCP hook audit: {audit.chain}")

/-- `run_session_with_extensions`. -/
def runSession (session : AcpSessionRequest) (round : SessionRound) (nextId : Nat) :
    Except Failure AcpSessionOutcome × Progress :=
  match texted round.bridge with
  | .error failure => (.error failure, .new nextId)
  | .ok () =>
      let (result, progress) := lifecycle tools session round (.new nextId)
      (conclude result progress.bridge.uncertainEffect
        (drainMcpHookOutcomes round progress.bridge), progress)

end Run

/-! ## What a run knows of its prompt -/

end AcpProcess

/-- The prompt was flushed without a definitive answer, or the outcome of a tool
call is uncertain. -/
def Progress.Undecided (progress : Progress) : Prop :=
  (progress.prompted.isSome = true ∧ progress.reply = none) ∨
    ∃ call ∈ progress.bridge.calls, ∃ result, call.result = some result ∧ result.uncertain = true

/-- The Harness has answered the prompt successfully. -/
def Progress.Answered (progress : Progress) : Prop :=
  ∃ value reason, progress.reply = some (.result value) ∧ promptResult value = .ok reason ∧
    reason ≠ .cancelled

/-- A failure that says that the effects are uncertain, or that it is a cancellation. -/
def Failure.Carries (failure : Failure) : Prop :=
  failure.effectUncertainty.isSome = true ∨ failure.isCancelled = true

namespace AcpProcess

variable {tools : BridgeTools} {session : AcpSessionRequest} {round : SessionRound}

/-- What each request before the prompt keeps, with what its failures say. -/
structure Carried (tools : BridgeTools) (invariant : Progress → Prop)
    (failed : Failure → Progress → Prop) : Prop where
  exchange : ∀ {method sessionId sent progress}, method ≠ "session/prompt" → invariant progress →
    Tx.settles (exchange tools method sessionId sent) progress (fun _ => invariant) failed
  active : ∀ {progress} sessionId, invariant progress →
    invariant { progress with activeSessionId := some sessionId }
  fails : ∀ {progress} failure, invariant progress → failed failure progress
  recovers : ∀ {progress failure}, failure.isResourceNotFound = true → failed failure progress →
    invariant progress

namespace Carried

variable {invariant : Progress → Prop} {failed : Failure → Progress → Prop} {progress : Progress}

theorem lift {A : Type} (h : Carried tools invariant failed) (outcome : Except Failure A)
    (hprogress : invariant progress) :
    Tx.settles (Tx.lift outcome) progress (fun _ => invariant) failed := by
  cases outcome with
  | ok value => exact hprogress
  | error failure => exact h.fails failure hprogress

theorem emit (h : Carried tools invariant failed) (condition : Prop) [Decidable condition]
    (taken : Except String Unit) (hprogress : invariant progress) :
    Tx.settles (AcpProcess.emit condition taken) progress (fun _ => invariant) failed := by
  rw [AcpProcess.emit]
  split_ifs
  · exact h.lift _ hprogress
  · exact hprogress

/-- A Session of the Harness is created and described. -/
theorem created {A : Type} (h : Carried tools invariant failed) (build : String → A)
    (hprogress : invariant progress) :
    Tx.settles (do let created ← createSession tools round; pure (build created)) progress
      (fun _ => invariant) failed := by
  refine Tx.settles_then ?_ fun _ _ hreached => hreached
  rw [createSession]
  apply Tx.settles_then (h.exchange (by decide) hprogress)
  exact fun _ _ hreached => h.lift _ hreached

theorem openSession (h : Carried tools invariant failed) (hprogress : invariant progress) :
    Tx.settles (openSession tools session round) progress (fun _ => invariant) failed := by
  rw [AcpProcess.openSession.eq_def]
  cases session.transition with
  | new => exact h.created _ hprogress
  | replace reason => exact h.created _ hprogress
  | resume sessionId =>
      by_cases hcapable :
          (round.capabilities.resume || round.capabilities.loadSession) = true
      · simp only [if_pos hcapable]
        rw [Tx.settles_attempt_bind]
        have hmethod :
            (if round.capabilities.resume then "session/resume" else "session/load") ≠
              "session/prompt" := by
          split_ifs <;> decide
        have hresumed := @h.exchange _ (some sessionId) round.resumed _ hmethod hprogress
        rw [Tx.settles] at hresumed
        rcases hrun : AcpProcess.exchange tools
          (if round.capabilities.resume then "session/resume" else "session/load")
          (some sessionId) round.resumed progress with ⟨result, reached⟩
        rw [hrun] at hresumed
        cases result with
        | ok value => exact hresumed
        | error failure =>
            dsimp only
            split_ifs with hmissing
            · exact h.fails _ (h.recovers hmissing hresumed)
            · exact h.created _ (h.recovers hmissing hresumed)
            · exact hresumed
      · simp only [if_neg hcapable]
        exact h.fails _ hprogress

theorem prepare (h : Carried tools invariant failed) (hprogress : invariant progress) :
    Tx.settles (prepare tools session round) progress (fun _ => invariant) failed := by
  rw [AcpProcess.prepare]
  apply Tx.settles_then
  · rw [transport]
    split_ifs
    · exact h.lift _ hprogress
    · exact h.fails _ hprogress
    · exact hprogress
  intro _ _ hprogress
  apply Tx.settles_then (h.openSession hprogress)
  intro opened _ hprogress
  rw [Tx.settles_bind, Tx.settles_modify]
  apply Tx.settles_then (h.emit _ _ (h.active opened.sessionId hprogress))
  intro _ _ hprogress
  apply Tx.settles_then (Tx.settles_each _ hprogress)
  · intro _ _ hprogress
    apply Tx.settles_then (h.lift _ hprogress)
    intro _ _ hprogress
    exact Tx.settles_then (h.emit _ _ hprogress) fun _ _ hprogress => hprogress
  · intro option _ hprogress
    exact Tx.settles_then (h.exchange (by decide) hprogress) fun _ _ hprogress => hprogress

end Carried

/-- Nothing of the prompt has left yet. -/
structure Unprompted (progress : Progress) : Prop where
  prompted : progress.prompted = none
  reply : progress.reply = none
  bridge : progress.bridge.Accounted .reading

/-- What a request makes of the bridge, whatever it returns. -/
theorem settles_exchange {invariant : Progress → Prop} {method : String}
    {sessionId : Option String} {sent : Exchange} {progress : Progress}
    (h : invariant (exchange tools method sessionId sent progress).2) :
    Tx.settles (exchange tools method sessionId sent) progress (fun _ => invariant)
      (fun _ => invariant) := by
  rw [Tx.settles]
  rcases hrun : exchange tools method sessionId sent progress with ⟨result, reached⟩
  rw [hrun] at h
  cases result <;> exact h

theorem carried_unprompted : Carried tools Unprompted fun _ => Unprompted where
  exchange := fun _ h =>
    settles_exchange ⟨h.prompted, h.reply, Request.accounted_perform _ h.bridge⟩
  active := fun _ h => ⟨h.prompted, h.reply, h.bridge⟩
  fails := fun _ h => h
  recovers := fun _ h => h

/-- What is left of the prompt of a run, and how the run failed. -/
structure Accountable (failure : Failure) (progress : Progress) : Prop where
  bridge : progress.bridge.Accounted .reading
  unanswered : progress.prompted.isSome = true → progress.reply = none → failure.Carries
  answered : ¬progress.Answered

theorem Unprompted.accountable {progress : Progress} (h : Unprompted progress)
    (failure : Failure) : Accountable failure progress := by
  refine ⟨h.bridge, fun hprompted => ?_, fun ⟨value, reason, hreply, _, _⟩ => ?_⟩
  · rw [h.prompted] at hprompted
    exact nomatch hprompted
  · rw [h.reply] at hreply
    exact nomatch hreply

theorem carries_uncertain (reason : String) : (Failure.uncertain reason).Carries := Or.inl rfl

theorem carries_acpCancelled : (Failure.of .acpCancelled).Carries := Or.inr rfl

/-- Only a refusal of the Harness makes a prompt fail definitively. -/
theorem carries_of_promptOutcome {opened : OpenSession} {ended : RequestEnd} {failure : Failure}
    (hended : ended.Answered "session/prompt")
    (hfailure : promptOutcome round opened ended.result = .error failure)
    (hreply : ∀ error, ended.reply ≠ some (.error error)) : failure.Carries := by
  rw [RequestEnd.Answered] at hended
  split at hended
  · next value hvalue =>
    rw [hended, promptOutcome] at hfailure
    split at hfailure
    · rw [← Except.error.inj hfailure]
      exact carries_uncertain _
    · split_ifs at hfailure
      rw [← Except.error.inj hfailure]
      exact carries_acpCancelled
  · next error herror => exact absurd herror (hreply error)
  · next hnone =>
    obtain ⟨cause, hresult, hplain⟩ := hended
    rw [hresult, promptOutcome] at hfailure
    rcases hplain with ⟨hclassified, hcancelled, -, -⟩ | rfl
    · rw [hclassified, hcancelled] at hfailure
      rw [← Except.error.inj hfailure]
      exact carries_uncertain _
    · rw [← Except.error.inj hfailure]
      exact carries_acpCancelled

/-- A prompt succeeds only on a valid answer of the Harness. -/
theorem reply_of_promptOutcome {opened : OpenSession} {ended : RequestEnd}
    {outcome : AcpSessionOutcome} (hended : ended.Answered "session/prompt")
    (houtcome : promptOutcome round opened ended.result = .ok outcome) :
    ∃ value reason, ended.reply = some (.result value) ∧ promptResult value = .ok reason ∧
      reason ≠ .cancelled := by
  rw [RequestEnd.Answered] at hended
  split at hended
  · next value hvalue =>
    rw [hended, promptOutcome] at houtcome
    split at houtcome
    · cases houtcome
    · next reason hreason =>
      split_ifs at houtcome with hcancelled
      exact ⟨value, reason, hvalue, hreason, hcancelled⟩
  · next error herror =>
    rw [hended] at houtcome
    cases houtcome
  · next hnone =>
    obtain ⟨cause, hresult, -⟩ := hended
    rw [hresult, promptOutcome] at houtcome
    split_ifs at houtcome

theorem settles_prompt {opened : OpenSession} {progress : Progress} (h : Unprompted progress) :
    Tx.settles (prompt tools round opened) progress
      (fun _ reached => reached.bridge.Accounted .reading ∧ reached.Answered) Accountable := by
  let request : Request :=
    { id := progress.nextId, method := "session/prompt", sessionId := some opened.sessionId,
      reported := true, http := tools.needsTransport }
  let ended := request.perform tools round.prompted progress.bridge
  have hended : ended.Answered "session/prompt" := request.answered_perform round.prompted _
  have hbridge : ended.bridge.Accounted .reading := Request.accounted_perform round.prompted h.bridge
  rw [prompt, Tx.settles_attempt_bind, Tx.settles_lift]
  have hrun : (sendPrompt tools opened.sessionId opened.prompt round.prompted progress).1 =
      ended.result := rfl
  rw [hrun]
  cases houtcome : promptOutcome round opened ended.result with
  | ok outcome => exact ⟨hbridge, reply_of_promptOutcome hended houtcome⟩
  | error failure =>
      refine ⟨hbridge, fun _ hreply => ?_, fun ⟨value, reason, hreply, hreason, hcancelled⟩ => ?_⟩
      · apply carries_of_promptOutcome hended houtcome
        intro error herror
        exact nomatch hreply.symm.trans herror
      · have hresult := hended.of_result hreply
        rw [hresult, promptOutcome, hreason] at houtcome
        simp [hcancelled] at houtcome

theorem settles_lifecycle (nextId : Nat) :
    Tx.settles (lifecycle tools session round) (.new nextId)
      (fun _ reached => reached.bridge.Accounted .reading ∧ reached.Answered) Accountable := by
  rw [lifecycle, Tx.settles_bind]
  have hnew : Unprompted (.new nextId) := ⟨rfl, rfl, Bridge.accounted_new⟩
  exact Tx.settles_mono (fun _ _ hreached => settles_prompt hreached)
    (fun failure _ hreached => hreached.accountable failure) (carried_unprompted.prepare hnew)

theorem Accountable.context {failure : Failure} {progress : Progress}
    (h : Accountable failure progress) (text : String) :
    Accountable (failure.context text) progress :=
  ⟨h.bridge, h.unanswered, h.answered⟩

/-- A run with an undecided prompt or an uncertain tool call says so. -/
theorem conclude_undecided {result : Except Failure AcpSessionOutcome} {progress : Progress}
    (hok : ∀ outcome, result = .ok outcome → progress.bridge.Accounted .reading ∧ progress.Answered)
    (herror : ∀ failure, result = .error failure → Accountable failure progress)
    (audit : Except Failure Unit) (hundecided : progress.Undecided) :
    ∃ failure, conclude result progress.bridge.uncertainEffect audit = .error failure ∧
      failure.Carries := by
  have hbridge : progress.bridge.Accounted .reading := by
    cases result with
    | ok outcome => exact (hok outcome rfl).1
    | error failure => exact (herror failure rfl).bridge
  cases huncertain : progress.bridge.uncertainEffect with
  | some reason => cases audit <;> exact ⟨_, rfl, Or.inl rfl⟩
  | none =>
      rcases hundecided with ⟨hprompted, hreply⟩ | ⟨call, hcall, outcome, hresult, hcallUncertain⟩
      · cases result with
        | ok outcome =>
            obtain ⟨-, value, reason, hanswer, -⟩ := hok outcome rfl
            exact nomatch hreply.symm.trans hanswer
        | error failure =>
            have hcarries := (herror failure rfl).unanswered hprompted hreply
            cases audit <;> exact ⟨_, rfl, hcarries⟩
      · have hsome := hbridge.calls call hcall outcome hresult hcallUncertain
        rw [huncertain] at hsome
        exact nomatch hsome

theorem lifecycle_ok {nextId : Nat} {outcome : AcpSessionOutcome}
    (h : (lifecycle tools session round (.new nextId)).1 = .ok outcome) :
    (lifecycle tools session round (.new nextId)).2.bridge.Accounted .reading ∧
      (lifecycle tools session round (.new nextId)).2.Answered := by
  have hsettles := @settles_lifecycle tools session round nextId
  rw [Tx.settles] at hsettles
  rcases hrun : lifecycle tools session round (.new nextId) with ⟨result, progress⟩
  rw [hrun] at h hsettles
  dsimp only at h
  subst h
  exact hsettles

theorem lifecycle_error {nextId : Nat} {failure : Failure}
    (h : (lifecycle tools session round (.new nextId)).1 = .error failure) :
    Accountable failure (lifecycle tools session round (.new nextId)).2 := by
  have hsettles := @settles_lifecycle tools session round nextId
  rw [Tx.settles] at hsettles
  rcases hrun : lifecycle tools session round (.new nextId) with ⟨result, progress⟩
  rw [hrun] at h hsettles
  dsimp only at h
  subst h
  exact hsettles

end AcpProcess

theorem Progress.not_undecided_new (nextId : Nat) : ¬(Progress.new nextId).Undecided := by
  rintro (⟨hprompted, -⟩ | ⟨call, hcall, -⟩)
  · exact nomatch hprompted
  · exact nomatch hcall

theorem Progress.not_answered_new (nextId : Nat) : ¬(Progress.new nextId).Answered :=
  fun ⟨_, _, hreply, _⟩ => nomatch hreply

namespace AcpProcess

variable {tools : BridgeTools} {session : AcpSessionRequest} {round : SessionRound}

theorem runSession_undecided {nextId : Nat}
    (h : (runSession tools session round nextId).2.Undecided) :
    ∃ failure, (runSession tools session round nextId).1 = .error failure ∧ failure.Carries := by
  rw [runSession] at h ⊢
  cases hbridge : texted round.bridge with
  | error failure =>
      rw [hbridge] at h
      exact absurd h (Progress.not_undecided_new nextId)
  | ok built =>
      rw [hbridge] at h
      exact conclude_undecided (fun _ => lifecycle_ok) (fun _ => lifecycle_error) _ h

/-- After a successful answer only an uncertain effect or a lost audit makes a run
fail. -/
theorem runSession_answered {nextId : Nat}
    (h : (runSession tools session round nextId).2.Answered) :
    ∃ outcome, (runSession tools session round nextId).1 =
      conclude (.ok outcome) (runSession tools session round nextId).2.bridge.uncertainEffect
        (drainMcpHookOutcomes round (runSession tools session round nextId).2.bridge) := by
  rw [runSession] at h ⊢
  cases hbridge : texted round.bridge with
  | error failure =>
      rw [hbridge] at h
      exact absurd h (Progress.not_answered_new nextId)
  | ok built =>
      rw [hbridge] at h
      dsimp only at h ⊢
      cases hresult : (lifecycle tools session round (.new nextId)).1 with
      | ok outcome => exact ⟨outcome, rfl⟩
      | error failure => exact absurd h (lifecycle_error hresult).answered

theorem failsPlainly_drainMcpHookOutcomes (bridge : Bridge) :
    FailsPlainly (drainMcpHookOutcomes round bridge) := by
  rw [drainMcpHookOutcomes]
  induction List.range bridge.hookOutcomes.length with
  | nil => exact failsPlainly_ok ()
  | cons index indexes ih =>
      exact FailsPlainly.bind (failsPlainly_texted (round.audit index)) fun _ => ih

end AcpProcess

end Mews
