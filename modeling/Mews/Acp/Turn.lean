import Mews.Acp.Session
import Mews.Host.Link

/-!
# ACP Turns

A Turn runs a Session of the Harness once, or again with a fresh adapter where the
first attempt asks for it, and then reports its end to the hooks.  The Hub records
the outcome of the prompt from what the Turn returns, here or on another Host.
-/

namespace Mews

open Protocol

/-- What the world answers in one attempt of a Turn. -/
structure TurnRound where
  /-- The token of the Turn is cancelled when the attempt begins. -/
  cancelled : Bool
  /-- A cached process that has exited is discarded. -/
  discarded : Except String Unit
  turnStart : Except Failure Value
  /-- The event sink takes the outcome of the hook. -/
  turnStartReported : Except String Unit
  /-- The instructions are put into the configuration of the Harness. -/
  channelPrepared : Except String Unit
  /-- The process of the Harness is started, or there is one. -/
  started : Except Failure Unit
  nextId : Nat
  tools : BridgeTools
  session : SessionRound
  afterStep : Except Failure Value
  afterStepReported : Except String Unit
  turnEnd : Except Failure Value
  turnEndReported : Except String Unit

/-- One attempt of a Turn. -/
structure Attempt where
  session : AcpSessionRequest
  round : TurnRound

namespace Attempt

def invokeTurnStart (attempt : Attempt) : Except Failure Unit :=
  match attempt.session.hookMetadata with
  | some { invokeTurnStart := true } =>
      match attempt.round.turnStart with
      | .ok _ => texted attempt.round.turnStartReported
      | .error failure => do
          texted attempt.round.turnStartReported
          throw (failure.context "ACP turn_start hook failed")
  | _ => .ok ()

/-- `execute_acp_attempt`. -/
def execute (attempt : Attempt) : Except Failure AcpSessionOutcome × Progress :=
  let new := Progress.new attempt.round.nextId
  match texted attempt.round.channelPrepared with
  | .error failure => (.error failure, new)
  | .ok () =>
      match attempt.round.started with
      | .error failure => (.error failure, new)
      | .ok () =>
          AcpProcess.runSession attempt.round.tools attempt.session attempt.round.session
            attempt.round.nextId

/-- What an attempt returns before the Turn is finalised. -/
def run (attempt : Attempt) : Except Failure AcpSessionOutcome × Progress :=
  let new := Progress.new attempt.round.nextId
  if attempt.round.cancelled then (.error (.of .acpCancelled), new)
  else
    match texted attempt.round.discarded with
    | .error failure => (.error failure, new)
    | .ok () =>
        match attempt.invokeTurnStart with
        | .error failure => (.error failure, new)
        | .ok () => attempt.execute

def result (attempt : Attempt) : Except Failure AcpSessionOutcome := attempt.run.1

def progress (attempt : Attempt) : Progress := attempt.run.2

/-- The attempt asks for a fresh adapter. -/
def Restarts (attempt : Attempt) : Prop :=
  match attempt.result with
  | .error failure => codexRestartForRecovery.toList <:+: failure.toString.toList
  | .ok _ => False

end Attempt

/-- The event sink is told about a telemetry hook, whatever the hook returned. -/
def recordTelemetryHook (response : Except Failure Value) (taken : Except String Unit) :
    Except Failure Unit :=
  match response with
  | .ok _ => texted taken
  | .error _ => texted taken

def finalizeTurnHooks (session : AcpSessionRequest) (result : Except Failure AcpSessionOutcome)
    (round : TurnRound) : Except Failure Unit :=
  match session.hookMetadata with
  | none => .ok ()
  | some _ =>
      let afterStep :=
        match result with
        | .ok _ => recordTelemetryHook round.afterStep round.afterStepReported
        | .error _ => .ok ()
      let turnEnd := recordTelemetryHook round.turnEnd round.turnEndReported
      match afterStep, turnEnd with
      | .error afterStep, .error turnEnd =>
          .error (afterStep.context s!"turn_end telemetry also failed: {turnEnd.chain}")
      | .error failure, .ok () => .error failure
      | .ok (), .error failure => .error failure
      | .ok (), .ok () => .ok ()

namespace Attempt

/-- The end of a Turn whose last attempt this is. -/
def finish (attempt : Attempt) : Except Failure AcpSessionOutcome :=
  match finalizeTurnHooks attempt.session attempt.result attempt.round with
  | .error failure => .error failure
  | .ok () => attempt.result.mapError fun failure => failure.context "ACP Harness failed"

end Attempt

/-- The request for a fresh adapter. -/
def AcpSessionRequest.replacement (session : AcpSessionRequest) : AcpSessionRequest :=
  { session with
    transition := .replace .resourceNotFound
    hookMetadata := session.hookMetadata.map fun metadata =>
      { metadata with invokeTurnStart := false } }

/-- `execute_acp_turn_inner_cached`, with the attempts it made. -/
inductive Executes :
    AcpSessionRequest → List Attempt → Except Failure AcpSessionOutcome → Prop where
  | ends {attempt : Attempt} (hends : ¬attempt.Restarts) :
      Executes attempt.session [attempt] attempt.finish
  | restarts {attempt : Attempt} {attempts : List Attempt}
      {result : Except Failure AcpSessionOutcome} (hrestarts : attempt.Restarts)
      (hrest : Executes attempt.session.replacement attempts result) :
      Executes attempt.session (attempt :: attempts) result

/-- A Turn in the pool of Harness processes. -/
inductive PooledTurn (session : AcpSessionRequest) :
    List Attempt → Except Failure AcpSessionOutcome → Prop where
  /-- No worker takes the Turn. -/
  | refused (text : String) : PooledTurn session [] (.error (.msg text))
  /-- The Turn is cancelled before a worker takes it. -/
  | cancelled (finalized : Except Failure Unit) :
      PooledTurn session []
        (match finalized with
        | .error failure => .error failure
        | .ok () => .error (.of .acpCancelled))
  | executed {attempts : List Attempt} {result : Except Failure AcpSessionOutcome}
      (hexecuted : Executes session attempts result) : PooledTurn session attempts result

/-- Where a Turn runs. -/
inductive Site where
  /-- On the Host of the Hub. -/
  | hub
  /-- On another Host; the wait for its reply may end without it. -/
  | host (lost : Option String)

/-- What the Hub gets from the Turn. -/
def Site.returned (site : Site) (result : Except Failure AcpSessionOutcome) :
    Except Failure AcpSessionOutcome :=
  match site with
  | .hub => result
  | .host (some reason) => .error (.uncertain reason)
  | .host none =>
      match requestInner (.replied (HostResult.acp result).message.reply) with
      | .ok (.acp outcome) => .ok outcome
      | .ok _ => .error (.uncertain "Host returned no definitive ACP outcome")
      | .error failure => .error failure

/-! ## How the outcome is classified -/

/-- An undecided prompt, or an uncertain tool call, makes the error uncertain or a
cancellation; a successful answer of the Harness is not recorded as a failure. -/
structure Classified (cancelled : Bool) (attempts : List Attempt)
    (returned : Except Failure AcpSessionOutcome) : Prop where
  undecided : (∃ attempt ∈ attempts, attempt.progress.Undecided) →
    ∀ failure, returned = .error failure → failure.Carries
  answered : (∃ attempt ∈ attempts, attempt.progress.Answered) →
    ∀ text, acpEffectOutcome returned cancelled true ≠ .failed text

namespace Attempt

variable {attempt : Attempt}

/-- The event sink takes the telemetry of the last hooks. -/
def Reported (attempt : Attempt) : Prop :=
  (finalizeTurnHooks attempt.session attempt.result attempt.round).isOk = true

/-- No effect is uncertain, and the event sink refuses a hook outcome of the
bridge. -/
def AuditLost (attempt : Attempt) : Prop :=
  attempt.progress.bridge.uncertainEffect = none ∧
    (AcpProcess.drainMcpHookOutcomes attempt.round.session attempt.progress.bridge).isOk = false

/-- The last attempt of a Turn loses nothing of what it knows. -/
def Kept (attempt : Attempt) (site : Site) (cancelled : Bool) : Prop :=
  match site with
  | .hub =>
      (attempt.progress.Undecided → attempt.Reported) ∧
        (attempt.progress.Answered → cancelled = false → attempt.Reported ∧ ¬attempt.AuditLost)
  | .host none =>
      ¬attempt.progress.Undecided ∧
        (attempt.progress.Answered → cancelled = false →
          attempt.Reported ∧ ¬attempt.AuditLost ∧ attempt.progress.bridge.uncertainEffect = none)
  | .host (some _) => True

theorem not_restarts (h : attempt.result.isOk = true) : ¬attempt.Restarts := by
  rw [Restarts]
  cases hresult : attempt.result with
  | ok outcome => exact id
  | error failure =>
      rw [hresult] at h
      exact nomatch h

/-- An attempt fails before its Session runs, or is the run of its Session. -/
theorem run_cases (attempt : Attempt) :
    (∃ failure, attempt.run = (.error failure, .new attempt.round.nextId)) ∨
      attempt.run = AcpProcess.runSession attempt.round.tools attempt.session
        attempt.round.session attempt.round.nextId := by
  rw [run]
  split_ifs
  · exact Or.inl ⟨_, rfl⟩
  · cases texted attempt.round.discarded with
    | error failure => exact Or.inl ⟨failure, rfl⟩
    | ok discarded =>
        cases hstart : attempt.invokeTurnStart with
        | error failure => exact Or.inl ⟨failure, rfl⟩
        | ok started =>
            dsimp only
            rw [execute]
            cases texted attempt.round.channelPrepared with
            | error failure => exact Or.inl ⟨failure, rfl⟩
            | ok prepared =>
                cases hstarted : attempt.round.started with
                | error failure => exact Or.inl ⟨failure, by simp⟩
                | ok process => exact Or.inr (by simp)

theorem undecided (h : attempt.progress.Undecided) :
    ∃ failure, attempt.result = .error failure ∧ failure.Carries := by
  rw [progress] at h
  rw [result]
  rcases attempt.run_cases with ⟨failure, hrun⟩ | hrun
  · rw [hrun] at h
    exact absurd h (Progress.not_undecided_new _)
  · rw [hrun] at h ⊢
    exact AcpProcess.runSession_undecided h

theorem answered (h : attempt.progress.Answered) :
    ∃ outcome, attempt.result =
      AcpProcess.conclude (.ok outcome) attempt.progress.bridge.uncertainEffect
        (AcpProcess.drainMcpHookOutcomes attempt.round.session attempt.progress.bridge) := by
  rw [progress] at h
  rw [result, progress]
  rcases attempt.run_cases with ⟨failure, hrun⟩ | hrun
  · rw [hrun] at h
    exact absurd h (Progress.not_answered_new _)
  · rw [hrun] at h ⊢
    exact AcpProcess.runSession_answered h

theorem finish_reported (h : attempt.Reported) :
    attempt.finish = attempt.result.mapError fun failure => failure.context "ACP Harness failed" := by
  rw [Reported] at h
  rw [finish]
  cases hfinal : finalizeTurnHooks attempt.session attempt.result attempt.round with
  | ok finalized => rfl
  | error failure =>
      rw [hfinal] at h
      exact nomatch h

theorem failsPlainly_recordTelemetryHook (response : Except Failure Value)
    (taken : Except String Unit) : FailsPlainly (recordTelemetryHook response taken) := by
  cases response <;> exact failsPlainly_texted taken

theorem failsPlainly_finalizeTurnHooks (session : AcpSessionRequest)
    (result : Except Failure AcpSessionOutcome) (round : TurnRound) :
    FailsPlainly (finalizeTurnHooks session result round) := by
  cases hmetadata : session.hookMetadata with
  | none =>
      rw [finalizeTurnHooks.eq_def, hmetadata]
      exact failsPlainly_ok ()
  | some metadata =>
      have hend := failsPlainly_recordTelemetryHook round.turnEnd round.turnEndReported
      have hafter := failsPlainly_recordTelemetryHook round.afterStep round.afterStepReported
      rw [finalizeTurnHooks.eq_def, hmetadata]
      cases hturnEnd : recordTelemetryHook round.turnEnd round.turnEndReported with
      | ok told =>
          cases result with
          | error failure => exact failsPlainly_ok ()
          | ok outcome =>
              cases hafterStep : recordTelemetryHook round.afterStep round.afterStepReported with
              | ok told => exact failsPlainly_ok ()
              | error failure => exact failsPlainly_error (hafter failure hafterStep)
      | error turnEnd =>
          cases result with
          | error failure => exact failsPlainly_error (hend turnEnd hturnEnd)
          | ok outcome =>
              cases hafterStep : recordTelemetryHook round.afterStep round.afterStepReported with
              | ok told => exact failsPlainly_error (hend turnEnd hturnEnd)
              | error failure => exact failsPlainly_error ((hafter failure hafterStep).context _)

theorem finish_unreported (h : ¬attempt.Reported) :
    ∃ failure, attempt.finish = .error failure ∧ failure.Plain := by
  rw [Reported] at h
  rw [finish]
  cases hfinal : finalizeTurnHooks attempt.session attempt.result attempt.round with
  | ok finalized =>
      rw [hfinal] at h
      exact absurd rfl h
  | error failure => exact ⟨failure, rfl, failsPlainly_finalizeTurnHooks _ _ _ failure hfinal⟩

end Attempt

theorem Failure.Plain.not_carries {failure : Failure} (h : failure.Plain) : ¬failure.Carries := by
  obtain ⟨-, hcancelled, -, huncertain⟩ := h
  simp [Failure.Carries, hcancelled, huncertain]

/-- When the prompt is recorded as failed. -/
theorem acpEffectOutcome_failed {returned : Except Failure AcpSessionOutcome} {cancelled : Bool} :
    (∃ text, acpEffectOutcome returned cancelled true = .failed text) ↔
      ∃ failure, returned = .error failure ∧ cancelled = false ∧ failure.isCancelled = false ∧
        failure.effectUncertainty = none := by
  cases returned with
  | ok outcome => simp [acpEffectOutcome]
  | error failure =>
      cases huncertain : failure.effectUncertainty with
      | some reason => simp [acpEffectOutcome, huncertain]
      | none =>
          cases cancelled with
          | true => simp [acpEffectOutcome, huncertain]
          | false =>
              cases hcancelled : failure.isCancelled <;>
                simp [acpEffectOutcome, huncertain, hcancelled]

theorem Failure.Plain.failed {failure : Failure} (h : failure.Plain) :
    ∃ text, acpEffectOutcome (.error failure) false true = .failed text :=
  acpEffectOutcome_failed.mpr ⟨failure, rfl, rfl, h.2.1, h.2.2.2⟩

namespace Site

@[simp] theorem returned_hub (result : Except Failure AcpSessionOutcome) :
    Site.hub.returned result = result := rfl

/-- A reply of another Host keeps the outcome, and of an error the text. -/
@[simp] theorem returned_host (result : Except Failure AcpSessionOutcome) :
    (Site.host none).returned result = result.mapError fun failure => .msg failure.toString := by
  cases result <;> rfl

@[simp] theorem returned_lost (reason : String) (result : Except Failure AcpSessionOutcome) :
    (Site.host (some reason)).returned result = .error (.uncertain reason) := rfl

end Site

namespace Attempt

variable {attempt : Attempt}

/-- A lost audit turns an answer of the Harness into a plain failure. -/
theorem result_auditLost (hanswered : attempt.progress.Answered) (hlost : attempt.AuditLost) :
    ∃ failure, attempt.result = .error failure ∧ failure.Plain := by
  obtain ⟨outcome, hresult⟩ := attempt.answered hanswered
  obtain ⟨huncertain, hdrained⟩ := hlost
  rw [huncertain] at hresult
  cases haudit : AcpProcess.drainMcpHookOutcomes attempt.round.session attempt.progress.bridge with
  | ok drained =>
      rw [haudit] at hdrained
      exact nomatch hdrained
  | error audit =>
      rw [haudit] at hresult
      have hplain := AcpProcess.failsPlainly_drainMcpHookOutcomes _ audit haudit
      exact ⟨_, hresult, hplain.context _⟩

/-- Else only an uncertain effect does. -/
theorem result_answered (hanswered : attempt.progress.Answered) (hlost : ¬attempt.AuditLost) :
    (attempt.progress.bridge.uncertainEffect = none ∧
        ∃ outcome, attempt.result = .ok outcome) ∨
      (attempt.progress.bridge.uncertainEffect ≠ none ∧
        ∃ failure, attempt.result = .error failure ∧ failure.effectUncertainty ≠ none) := by
  obtain ⟨outcome, hresult⟩ := attempt.answered hanswered
  cases huncertain : attempt.progress.bridge.uncertainEffect with
  | some reason =>
      rw [huncertain] at hresult
      cases haudit : AcpProcess.drainMcpHookOutcomes attempt.round.session
          attempt.progress.bridge with
      | ok drained =>
          rw [haudit] at hresult
          exact Or.inr ⟨nofun, _, hresult, nofun⟩
      | error audit =>
          rw [haudit] at hresult
          exact Or.inr ⟨nofun, _, hresult, nofun⟩
  | none =>
      rw [huncertain] at hresult
      cases haudit : AcpProcess.drainMcpHookOutcomes attempt.round.session
          attempt.progress.bridge with
      | ok drained =>
          rw [haudit] at hresult
          exact Or.inl ⟨rfl, outcome, hresult⟩
      | error audit =>
          refine absurd ⟨huncertain, ?_⟩ hlost
          rw [haudit]
          rfl

theorem finish_ok {outcome : AcpSessionOutcome} (h : attempt.finish = .ok outcome) :
    attempt.Reported ∧ attempt.result = .ok outcome := by
  by_cases hreported : attempt.Reported
  · rw [finish_reported hreported] at h
    cases hresult : attempt.result with
    | ok outcome' =>
        rw [hresult] at h
        exact ⟨hreported, congrArg Except.ok (Except.ok.inj h)⟩
    | error failure =>
        rw [hresult] at h
        exact nomatch h
  · obtain ⟨failure, hfinish, -⟩ := finish_unreported hreported
    exact nomatch hfinish.symm.trans h

theorem finish_error {failure : Failure} (hreported : attempt.Reported)
    (h : attempt.result = .error failure) :
    attempt.finish = .error (failure.context "ACP Harness failed") := by
  rw [finish_reported hreported, h]
  rfl

theorem classified_hub (cancelled : Bool) :
    Classified cancelled [attempt] attempt.finish ↔ attempt.Kept .hub cancelled := by
  constructor
  · intro h
    refine ⟨fun hundecided => ?_, fun hanswered hcancelled => ?_⟩
    · by_contra hreported
      obtain ⟨failure, hfinish, hplain⟩ := finish_unreported hreported
      exact hplain.not_carries
        (h.undecided ⟨attempt, List.mem_singleton_self attempt, hundecided⟩ failure hfinish)
    · have hnever := h.answered ⟨attempt, List.mem_singleton_self attempt, hanswered⟩
      have hplain : ∀ failure, attempt.finish = .error failure → ¬failure.Plain := by
        intro failure hfinish hplain
        obtain ⟨text, hfailed⟩ := hplain.failed
        rw [hcancelled, hfinish] at hnever
        exact hnever text hfailed
      have hreported : attempt.Reported := by
        by_contra hreported
        obtain ⟨failure, hfinish, hfailure⟩ := finish_unreported hreported
        exact hplain failure hfinish hfailure
      refine ⟨hreported, fun hlost => ?_⟩
      obtain ⟨failure, hresult, hfailure⟩ := result_auditLost hanswered hlost
      exact hplain _ (finish_error hreported hresult) (hfailure.context _)
  · rintro ⟨hundecided, hanswered⟩
    constructor
    · rintro ⟨attempt', hmem, h⟩ failure hfinish
      rw [List.mem_singleton.mp hmem] at h
      obtain ⟨cause, hresult, hcarries⟩ := attempt.undecided h
      rw [finish_error (hundecided h) hresult] at hfinish
      rw [← Except.error.inj hfinish]
      exact hcarries
    · rintro ⟨attempt', hmem, h⟩ text htext
      rw [List.mem_singleton.mp hmem] at h
      obtain ⟨failure, hfinish, hcancelled, -, huncertain⟩ := acpEffectOutcome_failed.mp ⟨text, htext⟩
      obtain ⟨hreported, hlost⟩ := hanswered h hcancelled
      rcases result_answered h hlost with ⟨-, outcome, hresult⟩ | ⟨-, cause, hresult, hcause⟩
      · rw [finish_reported hreported, hresult] at hfinish
        exact nomatch hfinish
      · rw [finish_error hreported hresult] at hfinish
        rw [← Except.error.inj hfinish] at huncertain
        exact hcause huncertain

theorem classified_host (cancelled : Bool) :
    Classified cancelled [attempt] ((Site.host none).returned attempt.finish) ↔
      attempt.Kept (.host none) cancelled := by
  have hflattened : ∀ {failure}, attempt.finish = .error failure →
      (Site.host none).returned attempt.finish = .error (.msg failure.toString) := by
    intro failure hfinish
    rw [Site.returned_host, hfinish]
    rfl
  constructor
  · intro h
    refine ⟨fun hundecided => ?_, fun hanswered hcancelled => ?_⟩
    · obtain ⟨cause, hresult, -⟩ := attempt.undecided hundecided
      cases hfinish : attempt.finish with
      | ok outcome => exact nomatch hresult.symm.trans (finish_ok hfinish).2
      | error failure =>
          exact (Failure.plain_msg _).not_carries
            (h.undecided ⟨attempt, List.mem_singleton_self attempt, hundecided⟩ _
              (hflattened hfinish))
    · have hnever := h.answered ⟨attempt, List.mem_singleton_self attempt, hanswered⟩
      cases hfinish : attempt.finish with
      | error failure =>
          obtain ⟨text, hfailed⟩ := (Failure.plain_msg failure.toString).failed
          rw [hcancelled, hflattened hfinish] at hnever
          exact absurd hfailed (hnever text)
      | ok outcome =>
          obtain ⟨hreported, hresult⟩ := finish_ok hfinish
          have hlost : ¬attempt.AuditLost := by
            intro hlost
            obtain ⟨failure, hfailure, -⟩ := result_auditLost hanswered hlost
            exact nomatch hresult.symm.trans hfailure
          rcases result_answered hanswered hlost with ⟨hnone, -⟩ | ⟨-, failure, hfailure, -⟩
          · exact ⟨hreported, hlost, hnone⟩
          · exact nomatch hresult.symm.trans hfailure
  · rintro ⟨hundecided, hanswered⟩
    constructor
    · rintro ⟨attempt', hmem, h⟩
      rw [List.mem_singleton.mp hmem] at h
      exact absurd h hundecided
    · rintro ⟨attempt', hmem, h⟩ text htext
      rw [List.mem_singleton.mp hmem] at h
      obtain ⟨failure, hreturned, hcancelled, -⟩ := acpEffectOutcome_failed.mp ⟨text, htext⟩
      obtain ⟨hreported, hlost, hnone⟩ := hanswered h hcancelled
      rcases result_answered h hlost with ⟨-, outcome, hresult⟩ | ⟨hsome, -⟩
      · rw [Site.returned_host, finish_reported hreported, hresult] at hreturned
        exact nomatch hreturned
      · exact hsome hnone

/-- A Turn of one attempt is classified exactly where nothing is lost. -/
theorem classified_singleton (site : Site) (cancelled : Bool) :
    Classified cancelled [attempt] (site.returned attempt.finish) ↔
      attempt.Kept site cancelled := by
  cases site with
  | hub => exact classified_hub cancelled
  | host lost =>
      cases lost with
      | none => exact classified_host cancelled
      | some reason =>
          refine ⟨fun _ => trivial, fun _ => ⟨fun _ failure hfailure => ?_, fun _ text htext => ?_⟩⟩
          · rw [Site.returned_lost] at hfailure
            rw [← Except.error.inj hfailure]
            exact AcpProcess.carries_uncertain reason
          · exact nomatch htext

end Attempt

/-- Only the last attempt of a Turn may leave something undecided or answered. -/
def Settled (attempts : List Attempt) : Prop :=
  ∀ attempt ∈ attempts.dropLast, ¬attempt.progress.Undecided ∧ ¬attempt.progress.Answered

theorem classified_nil (cancelled : Bool) (returned : Except Failure AcpSessionOutcome) :
    Classified cancelled [] returned :=
  ⟨fun ⟨_, hmem, _⟩ => absurd hmem List.not_mem_nil,
    fun ⟨_, hmem, _⟩ => absurd hmem List.not_mem_nil⟩

theorem Classified.cons_iff {cancelled : Bool} {attempt : Attempt} {attempts : List Attempt}
    {returned : Except Failure AcpSessionOutcome}
    (h : ¬attempt.progress.Undecided ∧ ¬attempt.progress.Answered) :
    Classified cancelled (attempt :: attempts) returned ↔
      Classified cancelled attempts returned := by
  have hundecided : (∃ other ∈ attempt :: attempts, other.progress.Undecided) ↔
      ∃ other ∈ attempts, other.progress.Undecided := by simp [h.1]
  have hanswered : (∃ other ∈ attempt :: attempts, other.progress.Answered) ↔
      ∃ other ∈ attempts, other.progress.Answered := by simp [h.2]
  constructor
  · rintro ⟨hcarries, hnever⟩
    exact ⟨fun h => hcarries (hundecided.mpr h), fun h => hnever (hanswered.mpr h)⟩
  · rintro ⟨hcarries, hnever⟩
    exact ⟨fun h => hcarries (hundecided.mp h), fun h => hnever (hanswered.mp h)⟩

theorem Executes.ne_nil {session : AcpSessionRequest} {attempts : List Attempt}
    {result : Except Failure AcpSessionOutcome} (h : Executes session attempts result) :
    attempts ≠ [] := by
  cases h <;> exact List.cons_ne_nil _ _

theorem Executes.classified {session : AcpSessionRequest} {attempts : List Attempt}
    {result : Except Failure AcpSessionOutcome} (h : Executes session attempts result)
    (hsettled : Settled attempts) (site : Site) (cancelled : Bool) :
    Classified cancelled attempts (site.returned result) ↔
      ∀ attempt ∈ attempts.getLast?, attempt.Kept site cancelled := by
  induction h with
  | @ends attempt hends =>
      rw [Attempt.classified_singleton]
      simp
  | @restarts attempt attempts result hrestarts hrest ih =>
      have hne := hrest.ne_nil
      rw [Settled, List.dropLast_cons_of_ne_nil hne] at hsettled
      rw [Classified.cons_iff (hsettled attempt List.mem_cons_self),
        ih fun other hother => hsettled other (List.mem_cons_of_mem attempt hother)]
      cases attempts with
      | nil => exact absurd rfl hne
      | cons next rest => rw [List.getLast?_cons_cons]

/-- In a Turn in which no attempt is restarted with a prompt undecided or answered,
the outcome is classified exactly where the last attempt loses nothing. -/
theorem PooledTurn.outcome_classified {session : AcpSessionRequest} {attempts : List Attempt}
    {result : Except Failure AcpSessionOutcome} (h : PooledTurn session attempts result)
    (hsettled : Settled attempts) (site : Site) (cancelled : Bool) :
    Classified cancelled attempts (site.returned result) ↔
      ∀ attempt ∈ attempts.getLast?, attempt.Kept site cancelled := by
  cases h with
  | refused text => exact iff_of_true (classified_nil _ _) (by simp)
  | cancelled finalized => exact iff_of_true (classified_nil _ _) (by simp)
  | executed hexecuted => exact hexecuted.classified hsettled site cancelled

/-! ## A success that is recorded as a failure -/

namespace AnsweredPrompt

def request : AcpSessionRequest :=
  { transition := .new, prompt := "hello", recoveryPrompt := "", contextText := "",
    channel := .claudeSystemAppend, hookMetadata := some { invokeTurnStart := false } }

def answers : Answers :=
  { sink := .ok (), options := .ok [], decision := .ok .cancelled, write := .ok () }

/-- The Harness replies to the request `id`. -/
def reply (id : Nat) (members : List (String × Value)) : Exchange :=
  let message : RpcMessage :=
    { method := none, id := some (.number (toString id)), sessionId := none, update := none,
      error := none, result := some (.object members) }
  { sent := .ok (), dispatched := .ok (), wakes := [.line (.message message answers)] }

def timings : AcpTimings :=
  { queueMs := 0, spawnMs := 0, initializeMs := 0, continuationMs := 0,
    promptToFirstUpdateMs := none, promptToFirstTokenMs := none, promptMs := 0, totalMs := 0 }

/-- The Harness answers the prompt; the event sink takes the last hook outcome as
told. -/
def attempt (turnEndReported : Except String Unit) : Attempt :=
  let session : SessionRound :=
    { capabilities := { resume := true, loadSession := true, httpMcp := true }
      bridge := .ok (), bindHttp := .ok (), resumed := reply 2 []
      created := reply 2 [("sessionId", .string "s-1")], sessionBound := .ok (), options := []
      beforeModel := .ok .null, beforeModelReported := .ok (), contextDispatched := .ok ()
      prompted := reply 3 [("stopReason", .string "end_turn")], answer := "done", timings
      audit := fun _ => .ok () }
  { session := request
    round :=
      { cancelled := false, discarded := .ok (), turnStart := .ok .null
        turnStartReported := .ok (), channelPrepared := .ok (), started := .ok (), nextId := 2
        tools := { tools := [], skills := [], inventory := "[]" }, session
        afterStep := .ok .null, afterStepReported := .ok (), turnEnd := .ok .null
        turnEndReported } }

theorem attempt_ok : (attempt (.ok ())).result.isOk = true := by
  decide

theorem attempt_error :
    let last := attempt (.error "database is locked")
    let value := Value.object [("stopReason", .string "end_turn")]
    last.result.isOk = true ∧
      (last.progress.reply = some (.result value) ∧ promptResult value = .ok .endTurn) ∧
      (finalizeTurnHooks last.session last.result last.round).isOk = false := by
  decide

/-- Where the hooks are told, the Turn succeeds. -/
theorem classified_told :
    Classified false [attempt (.ok ())] (Site.hub.returned (attempt (.ok ())).finish) := by
  have hexecuted : PooledTurn request [attempt (.ok ())] (attempt (.ok ())).finish :=
    .executed (.ends (Attempt.not_restarts attempt_ok))
  have hreported : (attempt (.ok ())).Reported := rfl
  have haudit : (AcpProcess.drainMcpHookOutcomes (attempt (.ok ())).round.session
      (attempt (.ok ())).progress.bridge).isOk = true := rfl
  apply (hexecuted.outcome_classified (by simp [Settled]) .hub false).mpr
  intro last hlast
  rw [← Option.some.inj hlast]
  refine ⟨fun _ => hreported, fun _ _ => ⟨hreported, fun hlost => ?_⟩⟩
  exact nomatch haudit.symm.trans hlost.2

/-- The Store refuses the outcome of the `turn_end` hook. -/
theorem recorded_failed :
    ¬∀ (session : AcpSessionRequest) (attempts : List Attempt)
      (result : Except Failure AcpSessionOutcome) (site : Site) (cancelled : Bool),
      PooledTurn session attempts result →
      Classified cancelled attempts (site.returned result) := by
  intro h
  let last := attempt (.error "database is locked")
  obtain ⟨hok, ⟨hreply, hreason⟩, hrefused⟩ := attempt_error
  have hexecuted : PooledTurn request [last] last.finish :=
    .executed (.ends (Attempt.not_restarts hok))
  have hanswered : last.progress.Answered := ⟨_, _, hreply, hreason, nofun⟩
  have hkept := (Attempt.classified_singleton .hub false).mp
    (h request [last] last.finish .hub false hexecuted)
  have hreported := (hkept.2 hanswered rfl).1
  exact nomatch hrefused.symm.trans hreported

end AnsweredPrompt

end Mews
