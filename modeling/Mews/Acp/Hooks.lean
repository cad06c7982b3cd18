import Mews.Acp.Serving
import Mathlib.Data.List.Count

/-!
# The hooks of a Turn

`turn_end` is invoked by whoever ends the Turn: the worker that runs its job, or the
caller that has withdrawn it.  The state of the job says which of them it is, and
the worker that runs the job is the one it was sent to.
-/

namespace Mews.AcpRuntimePool

variable {Fingerprint : Type}

/-! ## One Turn on a worker -/

/-- The hooks of a Turn that is not over. -/
structure Open (hookMetadata : Option AcpHookMetadata) (hooks : List LifecycleHook) : Prop where
  starts : hooks.count .turnStart ≤ 1
  unended : .turnEnd ∉ hooks
  unhooked : hookMetadata = none → .turnStart ∉ hooks

/-- The hooks of a Turn that is over: without hooks there is none, and else `turn_end` is the
last one. -/
structure Over (hookMetadata : Option AcpHookMetadata) (hooks : List LifecycleHook) : Prop where
  starts : hooks.count .turnStart ≤ 1
  ends : hookMetadata = none ∧ .turnStart ∉ hooks ∧ .turnEnd ∉ hooks ∨
    ∃ before, hooks = before ++ [.turnEnd] ∧ .turnEnd ∉ before

/-- What has been invoked when a Turn has come to a stage. -/
def Stage.Invoked (hookMetadata : Option AcpHookMetadata) (hooks : List LifecycleHook) :
    Stage → Prop
  | .entered true => Open hookMetadata hooks ∧ .turnStart ∉ hooks
  | .returned _ => Over hookMetadata hooks
  | _ => Open hookMetadata hooks

theorem open_nil (hookMetadata : Option AcpHookMetadata) : Open hookMetadata [] where
  starts := Nat.zero_le 1
  unended := List.not_mem_nil
  unhooked := fun _ => List.not_mem_nil

theorem invoked_nil (hookMetadata : Option AcpHookMetadata) (invokeTurnStart : Bool) :
    (Stage.entered invokeTurnStart).Invoked hookMetadata [] := by
  cases invokeTurnStart with
  | false => exact open_nil hookMetadata
  | true => exact ⟨open_nil hookMetadata, List.not_mem_nil⟩

theorem Stage.Invoked.isOpen {hookMetadata : Option AcpHookMetadata} {hooks : List LifecycleHook}
    {stage : Stage} (h : stage.Invoked hookMetadata hooks)
    (hstage : ∀ reply, stage ≠ .returned reply) : Open hookMetadata hooks := by
  cases stage with
  | entered invokeTurnStart =>
      cases invokeTurnStart with
      | false => exact h
      | true => exact h.1
  | returned reply => exact absurd rfl (hstage reply)
  | _ => exact h

namespace Open

variable {hookMetadata : Option AcpHookMetadata} {hooks : List LifecycleHook}

theorem append (h : Open hookMetadata hooks) {hook : LifecycleHook} (hstart : hook ≠ .turnStart)
    (hend : hook ≠ .turnEnd) : Open hookMetadata (hooks ++ [hook]) where
  starts := by
    rw [List.count_append, List.count_singleton, if_neg (by simpa using hstart)]
    exact h.starts
  unended := by
    intro hmem
    obtain hmem | hmem := List.mem_append.mp hmem
    · exact h.unended hmem
    · exact hend (List.mem_singleton.mp hmem).symm
  unhooked := by
    intro hnone hmem
    obtain hmem | hmem := List.mem_append.mp hmem
    · exact h.unhooked hnone hmem
    · exact hstart (List.mem_singleton.mp hmem).symm

theorem start (h : Open hookMetadata hooks) (hnew : .turnStart ∉ hooks)
    (hhooked : hookMetadata.isSome = true) : Open hookMetadata (hooks ++ [.turnStart]) where
  starts := by
    rw [List.count_append, List.count_eq_zero_of_not_mem hnew]
    decide
  unended := by
    intro hmem
    obtain hmem | hmem := List.mem_append.mp hmem
    · exact h.unended hmem
    · cases List.mem_singleton.mp hmem
  unhooked := by
    rintro rfl
    cases hhooked

theorem finish (h : Open hookMetadata hooks) : Over hookMetadata (hooks ++ [.turnEnd]) where
  starts := by
    rw [List.count_append]
    exact h.starts
  ends := Or.inr ⟨hooks, rfl, h.unended⟩

end Open

theorem Stage.invoked_step {hookMetadata : Option AcpHookMetadata} {hooks : List LifecycleHook}
    {cancelled : Bool} {stage : Stage} {event : TurnEvent} {next : Stage × List LifecycleHook}
    (h : stage.Invoked hookMetadata hooks)
    (hstep : stage.step hookMetadata cancelled event = some next) :
    next.1.Invoked hookMetadata (hooks ++ next.2) := by
  unfold step at hstep
  split at hstep
  case h_1 invokeTurnStart inspected =>
    have hopen := h.isOpen (fun reply heq => by cases heq)
    split at hstep
    case isTrue =>
      obtain rfl := Option.some.inj hstep
      rwa [List.append_nil]
    case isFalse =>
      split at hstep
      case isTrue =>
        obtain rfl := Option.some.inj hstep
        rwa [List.append_nil]
      case isFalse =>
        split at hstep
        case isTrue hstarts =>
          obtain rfl := Option.some.inj hstep
          rw [Bool.and_eq_true] at hstarts
          obtain ⟨hhooked, rfl⟩ := hstarts
          exact hopen.start h.2 hhooked
        case isFalse =>
          obtain rfl := Option.some.inj hstep
          rwa [List.append_nil]
  case h_2 =>
    obtain rfl := Option.some.inj hstep
    rwa [List.append_nil]
  case h_3 =>
    split at hstep
    case isTrue => cases hstep
    case isFalse =>
      obtain rfl := Option.some.inj hstep
      rwa [List.append_nil]
  case h_4 hook =>
    split at hstep
    case isTrue hallowed =>
      obtain rfl := Option.some.inj hstep
      apply Open.append h
      · rintro rfl
        simp at hallowed
      · rintro rfl
        simp at hallowed
    case isFalse => cases hstep
  case h_5 =>
    obtain rfl := Option.some.inj hstep
    rwa [List.append_nil]
  case h_6 =>
    obtain rfl := Option.some.inj hstep
    rwa [List.append_nil]
  case h_7 result reported hrestarts =>
    split at hstep
    case isTrue hnone =>
      obtain rfl := Option.some.inj hstep
      rw [List.append_nil]
      rw [Option.isNone_iff_eq_none] at hnone
      exact ⟨h.starts, Or.inl ⟨hnone, h.unhooked hnone, h.unended⟩⟩
    case isFalse =>
      split at hstep
      case isTrue =>
        obtain rfl := Option.some.inj hstep
        exact Open.append h (by decide) (by decide)
      case isFalse =>
        obtain rfl := Option.some.inj hstep
        rwa [List.append_nil]
  case h_8 =>
    obtain rfl := Option.some.inj hstep
    exact Open.finish h
  case h_9 => cases hstep

/-! ## Who runs a job -/

namespace Submission

variable (submission : Submission Fingerprint)

/-- The worker has the job, which is withdrawn, or awaited, or run for a caller that is
dropped. -/
def With (generation : ℕ) : Prop :=
  submission.sentTo = some generation ∧
    (submission.jobState = .cancelled ∨
      (submission.calling = .awaiting generation ∧ submission.result = none) ∨
        (submission.jobState = .running ∧ submission.calling = .dropped))

/-- A job that is not run has no hooks, but for the `turn_end` of its caller. -/
structure Told : Prop where
  pending : submission.calling.isPending = true →
    submission.sentTo = none ∧ submission.jobState = .queued ∧ submission.result = none
  finalizing : submission.calling = .finalizing → submission.jobState ≠ .running
  unrun : submission.jobState ≠ .running → submission.hooks = [] ∨
    submission.hooks = [.turnEnd] ∧ ∃ reply, submission.calling = .returned reply

/-- A submission goes on and leaves what the worker invokes alone. -/
structure Proceeds (after : Submission Fingerprint) : Prop where
  told : after.Told
  sentTo : submission.jobState = .running → after.sentTo = submission.sentTo
  hookMetadata : after.hookMetadata = submission.hookMetadata
  running : after.jobState = .running ↔ submission.jobState = .running
  hooks : submission.jobState = .running → after.hooks = submission.hooks

/-- It also stays with its worker. -/
structure Follows (after : Submission Fingerprint) : Prop extends submission.Proceeds after where
  located : ∀ generation, submission.With generation → after.With generation

variable {submission} {after : Submission Fingerprint}

theorem told_submit [DecidableEq Fingerprint] (fingerprint : Fingerprint) (sessionKey : String)
    (hookMetadata : Option AcpHookMetadata) :
    (Pool.submit fingerprint sessionKey hookMetadata).Told where
  pending := fun _ => ⟨rfl, rfl, rfl⟩
  finalizing := by
    intro hfinalizing hrunning
    cases hrunning
  unrun := fun _ => Or.inl rfl

theorem Told.hooks_nil (h : submission.Told) (hrun : submission.jobState ≠ .running)
    (hcalling : ∀ reply, submission.calling ≠ .returned reply) : submission.hooks = [] := by
  obtain hnil | ⟨-, reply, hreturned⟩ := h.unrun hrun
  · exact hnil
  · exact absurd hreturned (hcalling reply)

theorem With.not_pending {generation : ℕ} (h : submission.With generation)
    (htold : submission.Told) : submission.calling.isPending = false := by
  rw [← Bool.not_eq_true]
  intro hpending
  cases h.1.symm.trans (htold.pending hpending).1

/-- A caller that looks for a worker goes on. -/
theorem follows_pending (htold : submission.Told) (hpending : submission.calling.isPending = true)
    (calling : Calling) (notified : Bool) :
    submission.Follows { submission with calling, notified } where
  told := by
    have hqueued := (htold.pending hpending).2.1
    refine ⟨fun _ => htold.pending hpending, ?_, ?_⟩
    · intro _ hrunning
      cases hqueued.symm.trans hrunning
    · intro hrun
      left
      apply htold.hooks_nil hrun
      intro reply hreturned
      rw [hreturned] at hpending
      cases hpending
  sentTo := fun _ => rfl
  hookMetadata := rfl
  running := Iff.rfl
  hooks := fun _ => rfl
  located := by
    intro generation hwith
    cases (hwith.not_pending htold).symm.trans hpending

/-- What neither moves the caller nor touches the job. -/
theorem follows_same (htold : submission.Told) (hcalling : after.calling = submission.calling)
    (hsent : after.sentTo = submission.sentTo)
    (hmetadata : after.hookMetadata = submission.hookMetadata)
    (hstate : after.jobState = submission.jobState) (hhooks : after.hooks = submission.hooks)
    (hresult : after.result = submission.result) : submission.Follows after where
  told := by
    refine ⟨?_, ?_, ?_⟩
    · rw [hcalling, hsent, hstate, hresult]
      exact htold.pending
    · rw [hcalling, hstate]
      exact htold.finalizing
    · rw [hstate, hhooks, hcalling]
      exact htold.unrun
  sentTo := fun _ => hsent
  hookMetadata := hmetadata
  running := by rw [hstate]
  hooks := fun _ => hhooks
  located := by
    intro generation hwith
    rw [With, hsent, hstate, hcalling, hresult]
    exact hwith

/-- A caller that gives its job up before it is run, or drops it. -/
theorem follows_cancelOnDrop (htold : submission.Told) {calling : Calling}
    (hcalling : calling = .dropped ∨ ∃ reply, calling = .returned reply ∧
      submission.jobState = .queued)
    (hlive : ∀ reply, submission.calling ≠ .returned reply) :
    submission.Follows { submission.cancelOnDrop with calling } where
  told := by
    refine ⟨?_, ?_, ?_⟩
    · intro hpending
      obtain rfl | ⟨reply, rfl, -⟩ := hcalling <;> cases hpending
    · intro hfinalizing
      obtain rfl | ⟨reply, rfl, -⟩ := hcalling <;> cases hfinalizing
    · intro hrun
      left
      apply htold.hooks_nil _ hlive
      intro hrunning
      apply hrun
      rw [← hrunning]
      simp [cancelOnDrop, hrunning]
  sentTo := fun _ => rfl
  hookMetadata := rfl
  running := by
    simp only [cancelOnDrop]
    split
    case isTrue hqueued => simp [hqueued]
    case isFalse => rfl
  hooks := fun _ => rfl
  located := by
    rintro generation ⟨hsent, hwith⟩
    refine ⟨hsent, ?_⟩
    simp only [cancelOnDrop]
    cases hstate : submission.jobState with
    | queued => exact Or.inl (if_pos rfl)
    | cancelled => exact Or.inl (if_neg (by decide))
    | running =>
        obtain rfl | ⟨reply, rfl, hqueued⟩ := hcalling
        · exact Or.inr (Or.inr ⟨if_neg (by decide), rfl⟩)
        · cases hstate.symm.trans hqueued

/-- A caller that is done with its own `turn_end`, or does not invoke it. -/
theorem follows_left (htold : submission.Told) (hfinalizing : submission.calling = .finalizing)
    {calling : Calling} {hooks : List LifecycleHook} (hpending : calling.isPending = true → False)
    (hleft : calling = .finalizing → False)
    (hhooks : hooks = submission.hooks ∨
      hooks = submission.hooks ++ [.turnEnd] ∧ ∃ reply, calling = .returned reply) :
    submission.Follows { submission with calling, hooks } where
  told := by
    refine ⟨fun h => (hpending h).elim, fun h => (hleft h).elim, ?_⟩
    intro hrun
    have hnil := htold.hooks_nil hrun fun reply hreturned => by
      cases hfinalizing.symm.trans hreturned
    rw [hnil, List.nil_append] at hhooks
    exact hhooks
  sentTo := fun _ => rfl
  hookMetadata := rfl
  running := Iff.rfl
  hooks := fun hrunning => absurd hrunning (htold.finalizing hfinalizing)
  located := by
    rintro generation ⟨hsent, hcancelled | ⟨hawaiting, -⟩ | ⟨-, hdropped⟩⟩
    · exact ⟨hsent, Or.inl hcancelled⟩
    · cases hfinalizing.symm.trans hawaiting
    · cases hfinalizing.symm.trans hdropped

theorem follows_finalized (htold : submission.Told) (hfinalizing : submission.calling = .finalizing)
    (reported : Bool) : submission.Follows (submission.finalized reported) := by
  rw [finalized]
  split
  · apply follows_left htold hfinalizing _ _ (Or.inl rfl)
    · intro hpending
      cases hpending
    · intro hleft
      cases hleft
  · apply follows_left htold hfinalizing _ _ (Or.inr ⟨rfl, _, rfl⟩)
    · intro hpending
      cases hpending
    · intro hleft
      cases hleft

theorem Acts.follows {action : CallerAction} (h : submission.Acts action after)
    (htold : submission.Told) : submission.Follows after := by
  cases h with
  | cancelled => exact follows_same htold rfl rfl rfl rfl rfl rfl
  | registered hcalling => exact follows_pending htold (by rw [hcalling]; rfl) _ _
  | woken hcalling => exact follows_pending htold (by rw [hcalling]; rfl) _ submission.notified
  | aborted hcalling =>
      apply follows_pending htold _ _ submission.notified
      obtain hcalling | hcalling := hcalling <;> rw [hcalling] <;> rfl
  | @withdrawn generation hcalling hqueued =>
      have hnot : submission.jobState ≠ .running := fun hrunning => by
        cases hqueued.symm.trans hrunning
      refine ⟨⟨⟨?_, ?_, ?_⟩, fun _ => rfl, rfl, ?_, fun _ => rfl⟩,
        fun other hwith => ⟨hwith.1, Or.inl rfl⟩⟩
      · intro hpending
        cases hpending
      · intro _ hrunning
        cases hrunning
      · intro _
        left
        apply htold.hooks_nil hnot
        intro reply hreturned
        cases hcalling.symm.trans hreturned
      · apply iff_of_false _ hnot
        intro hrunning
        cases hrunning
  | observed => exact follows_same htold rfl rfl rfl rfl rfl rfl
  | finalized hcalling reported => exact follows_finalized htold hcalling reported
  | @collected generation reply hcalling hresult =>
      refine ⟨⟨⟨?_, ?_, ?_⟩, fun _ => rfl, rfl, Iff.rfl, fun _ => rfl⟩, ?_⟩
      · intro hpending
        cases hpending
      · intro hfinalizing
        cases hfinalizing
      · intro hrun
        left
        apply htold.hooks_nil hrun
        intro reply hreturned
        cases hcalling.symm.trans hreturned
      · rintro other ⟨hsent, hcancelled | ⟨-, hnone⟩ | ⟨-, hdropped⟩⟩
        · exact ⟨hsent, Or.inl hcancelled⟩
        · cases hresult.symm.trans hnone
        · cases hcalling.symm.trans hdropped
  | dropped hcalling =>
      apply follows_cancelOnDrop htold (Or.inl rfl)
      intro reply hreturned
      obtain hcalling | hcalling | ⟨generation, hcalling⟩ := hcalling <;>
        cases hcalling.symm.trans hreturned
  | abandoned hcalling =>
      apply follows_left htold hcalling _ _ (Or.inl rfl)
      · intro hpending
        cases hpending
      · intro hfinalizing
        cases hfinalizing

end Submission

/-- The thread runs a Turn, or has panicked in one. -/
def Thread.turning : Thread → Bool
  | .executing _ _ | .crashed => true
  | _ => false

namespace Pool

/-- Every job is with the one worker it was sent to, and what is invoked of its hooks is
what its Turn has come to. -/
structure Paired (pool : Pool Fingerprint) : Prop where
  nodup : ∀ generation worker, pool.workers generation = some worker → worker.jobs.Nodup
  located : ∀ generation worker i, pool.workers generation = some worker → i ∈ worker.jobs →
    ∃ submission, pool.submissions i = some submission ∧ submission.With generation
  executing : ∀ generation worker i stage, pool.workers generation = some worker →
    worker.thread = .executing i stage → ∃ submission, pool.submissions i = some submission ∧
      submission.jobState = .running ∧ (∀ reply, stage ≠ .returned reply) ∧
        stage.Invoked submission.hookMetadata submission.hooks
  told : ∀ i submission, pool.submissions i = some submission → submission.Told
  ran : ∀ i submission, pool.submissions i = some submission → submission.jobState = .running →
    Over submission.hookMetadata submission.hooks ∨
      Open submission.hookMetadata submission.hooks ∧ ∃ generation worker,
        submission.sentTo = some generation ∧ pool.workers generation = some worker ∧
          ((∃ stage, worker.thread = .executing i stage) ∨ worker.thread = .crashed)

theorem paired_initial : (initial : Pool Fingerprint).Paired where
  nodup := by intro generation worker hworker; cases hworker
  located := by intro generation worker i hworker; cases hworker
  executing := by intro generation worker i stage hworker; cases hworker
  told := by intro i submission hsubmission; cases hsubmission
  ran := by intro i submission hsubmission; cases hsubmission

section Steps

variable {pool reached : Pool Fingerprint} {generation : ℕ}
  {worker after : PersistentWorker Fingerprint}

/-- The callers go on, and nothing happens to the workers. -/
theorem Paired.followed (h : pool.Paired) (hworkers : reached.workers = pool.workers)
    (hfollows : ∀ i submission, pool.submissions i = some submission →
      ∃ after, reached.submissions i = some after ∧ submission.Proceeds after ∧
        ∀ generation worker, pool.workers generation = some worker → i ∈ worker.jobs →
          submission.With generation → after.With generation)
    (hnew : ∀ i after, reached.submissions i = some after → pool.submissions i = none →
      after.Told ∧ after.jobState ≠ .running) : reached.Paired where
  nodup := by
    rw [hworkers]
    exact h.nodup
  located := by
    intro generation worker i hworker hjob
    rw [hworkers] at hworker
    obtain ⟨submission, hsubmission, hwith⟩ := h.located generation worker i hworker hjob
    obtain ⟨after, hafter, -, hlocated⟩ := hfollows i submission hsubmission
    exact ⟨after, hafter, hlocated generation worker hworker hjob hwith⟩
  executing := by
    intro generation worker i stage hworker hthread
    rw [hworkers] at hworker
    obtain ⟨submission, hsubmission, hrunning, hstage, hinvoked⟩ :=
      h.executing generation worker i stage hworker hthread
    obtain ⟨after, hafter, hfollowed, -⟩ := hfollows i submission hsubmission
    refine ⟨after, hafter, hfollowed.running.mpr hrunning, hstage, ?_⟩
    rw [hfollowed.hookMetadata, hfollowed.hooks hrunning]
    exact hinvoked
  told := by
    intro i after hafter
    cases hsubmission : pool.submissions i with
    | none => exact (hnew i after hafter hsubmission).1
    | some submission =>
        obtain ⟨found, hfound, hfollowed, -⟩ := hfollows i submission hsubmission
        obtain rfl := Option.some.inj (hafter.symm.trans hfound)
        exact hfollowed.told
  ran := by
    intro i after hafter hrunning
    cases hsubmission : pool.submissions i with
    | none => exact absurd hrunning (hnew i after hafter hsubmission).2
    | some submission =>
        obtain ⟨found, hfound, hfollowed, -⟩ := hfollows i submission hsubmission
        obtain rfl := Option.some.inj (hafter.symm.trans hfound)
        have hbefore := hfollowed.running.mp hrunning
        rw [hfollowed.hookMetadata, hfollowed.hooks hbefore, hfollowed.sentTo hbefore, hworkers]
        exact h.ran i submission hsubmission hbefore

/-- One caller goes on whose job no worker has. -/
theorem Paired.followed_one (h : pool.Paired) {i : ℕ} {submission found : Submission Fingerprint}
    (hsubmission : pool.submissions i = some submission) (hproceeds : submission.Proceeds found)
    (hfree : ∀ generation worker, pool.workers generation = some worker → i ∉ worker.jobs) :
    (pool.setSubmission i found).Paired := by
  have hworkers : (pool.setSubmission i found).workers = pool.workers := rfl
  apply h.followed hworkers
  · intro j other hother
    by_cases hj : j = i
    · subst hj
      obtain rfl := Option.some.inj (hsubmission.symm.trans hother)
      refine ⟨found, Function.update_self .., hproceeds, ?_⟩
      intro generation worker hworker hjob
      exact absurd hjob (hfree generation worker hworker)
    · refine ⟨other, (Function.update_of_ne hj _ _).trans hother, ?_, fun _ _ _ _ => id⟩
      exact ⟨h.told j other hother, fun _ => rfl, rfl, Iff.rfl, fun _ => rfl⟩
  · intro j other hother hnone
    obtain ⟨rfl, -⟩ | hkept := setSubmission_cases hother
    · cases hsubmission.symm.trans hnone
    · cases hkept.symm.trans hnone

theorem Paired.follows (h : pool.Paired) (hworkers : reached.workers = pool.workers)
    (hfollows : ∀ i submission, pool.submissions i = some submission →
      ∃ after, reached.submissions i = some after ∧ submission.Follows after)
    (hnew : ∀ i after, reached.submissions i = some after → pool.submissions i = none →
      after.Told ∧ after.jobState ≠ .running) : reached.Paired := by
  apply h.followed hworkers _ hnew
  intro i submission hsubmission
  obtain ⟨after, hafter, hfollowed⟩ := hfollows i submission hsubmission
  exact ⟨after, hafter, hfollowed.toProceeds, fun generation _ _ _ => hfollowed.located generation⟩

/-- One caller goes on. -/
theorem Paired.follow (h : pool.Paired) {i : ℕ} {submission found : Submission Fingerprint}
    (hsubmission : pool.submissions i = some submission) (hfollowed : submission.Follows found)
    (hworkers : reached.workers = pool.workers)
    (hsubmissions : reached.submissions = Function.update pool.submissions i (some found)) :
    reached.Paired := by
  apply h.follows hworkers
  · intro j other hother
    by_cases hj : j = i
    · subst hj
      obtain rfl := Option.some.inj (hsubmission.symm.trans hother)
      exact ⟨found, by rw [hsubmissions, Function.update_self], hfollowed⟩
    · refine ⟨other, by rw [hsubmissions, Function.update_of_ne hj, hother], ?_⟩
      exact Submission.follows_same (h.told j other hother) rfl rfl rfl rfl rfl rfl
  · intro j other hother hnone
    rw [hsubmissions] at hother
    have hj : j ≠ i := by
      rintro rfl
      cases hsubmission.symm.trans hnone
    rw [Function.update_of_ne hj] at hother
    cases hother.symm.trans hnone

/-- One worker goes on, and nothing happens to the callers. -/
theorem Paired.worked (h : pool.Paired) (hsubmissions : reached.submissions = pool.submissions)
    (hworkers : reached.workers = Function.update pool.workers generation (some after))
    (hnodup : after.jobs.Nodup)
    (hlocated : ∀ i ∈ after.jobs, ∃ submission, pool.submissions i = some submission ∧
      submission.With generation)
    (hruns : ∀ i stage, after.thread = .executing i stage →
      ∃ worker, pool.workers generation = some worker ∧ worker.thread = .executing i stage)
    (hkeeps : ∀ worker, pool.workers generation = some worker → worker.thread.turning = true →
      after.thread = worker.thread ∨ after.thread = .crashed) : reached.Paired where
  nodup := by
    intro other found hfound
    rw [hworkers] at hfound
    by_cases hother : other = generation
    · subst hother
      obtain rfl := eq_of_update_self hfound
      exact hnodup
    · rw [Function.update_of_ne hother] at hfound
      exact h.nodup other found hfound
  located := by
    intro other found i hfound hjob
    rw [hworkers] at hfound
    rw [hsubmissions]
    by_cases hother : other = generation
    · subst hother
      obtain rfl := eq_of_update_self hfound
      exact hlocated i hjob
    · rw [Function.update_of_ne hother] at hfound
      exact h.located other found i hfound hjob
  executing := by
    intro other found i stage hfound hthread
    rw [hworkers] at hfound
    rw [hsubmissions]
    by_cases hother : other = generation
    · subst hother
      obtain rfl := eq_of_update_self hfound
      obtain ⟨worker, hworker, hbefore⟩ := hruns i stage hthread
      exact h.executing other worker i stage hworker hbefore
    · rw [Function.update_of_ne hother] at hfound
      exact h.executing other found i stage hfound hthread
  told := by
    rw [hsubmissions]
    exact h.told
  ran := by
    intro i submission hsubmission hrunning
    rw [hsubmissions] at hsubmission
    obtain hover | ⟨hopen, other, found, hsent, hfound, hthread⟩ :=
      h.ran i submission hsubmission hrunning
    · exact Or.inl hover
    · refine Or.inr ⟨hopen, other, ?_⟩
      rw [hworkers]
      by_cases hother : other = generation
      · subst hother
        refine ⟨after, hsent, Function.update_self .., ?_⟩
        have hturning : found.thread.turning = true := by
          obtain ⟨stage, hexecuting⟩ | hcrashed := hthread
          · rw [hexecuting]
            rfl
          · rw [hcrashed]
            rfl
        obtain hsame | hcrashed := hkeeps found hfound hturning
        · rwa [hsame]
        · exact Or.inr hcrashed
      · exact ⟨found, hsent, by rw [Function.update_of_ne hother, hfound], hthread⟩

/-- A thread that runs no Turn goes on. -/
theorem Paired.rethreaded (h : pool.Paired) (hworker : pool.workers generation = some worker)
    (hsubmissions : reached.submissions = pool.submissions)
    (hworkers : reached.workers = Function.update pool.workers generation (some after))
    (hjobs : after.jobs.Sublist worker.jobs) (hbefore : worker.thread.turning = false)
    (hafter : after.thread.turning = false) : reached.Paired := by
  apply h.worked hsubmissions hworkers ((h.nodup generation worker hworker).sublist hjobs)
  · intro i hjob
    exact h.located generation worker i hworker (hjobs.subset hjob)
  · intro i stage hexecuting
    rw [hexecuting] at hafter
    cases hafter
  · intro found hfound hturning
    obtain rfl := Option.some.inj (hworker.symm.trans hfound)
    exact absurd (hbefore.symm.trans hturning) Bool.false_ne_true

/-- What leaves the thread where it is. -/
theorem Paired.retained (h : pool.Paired) (hworker : pool.workers generation = some worker)
    (hsubmissions : reached.submissions = pool.submissions)
    (hworkers : reached.workers = Function.update pool.workers generation (some after))
    (hjobs : after.jobs = worker.jobs) (hthread : after.thread = worker.thread) :
    reached.Paired := by
  apply h.worked hsubmissions hworkers (hjobs ▸ h.nodup generation worker hworker)
  · rw [hjobs]
    exact fun i hjob => h.located generation worker i hworker hjob
  · intro i stage hexecuting
    exact ⟨worker, hworker, hthread.symm.trans hexecuting⟩
  · intro found hfound hturning
    obtain rfl := Option.some.inj (hworker.symm.trans hfound)
    exact Or.inl hthread

/-- The jobs that no worker has any more are answered. -/
theorem Paired.answered (h : pool.Paired) {jobs : List ℕ} {reply : Reply}
    (hworkers : reached.workers = pool.workers)
    (hsubmissions : ∀ i, reached.submissions i = (pool.submissions i).map (answered jobs reply i))
    (hgone : ∀ generation worker i, pool.workers generation = some worker → i ∈ worker.jobs →
      i ∉ jobs) : reached.Paired := by
  apply h.followed hworkers
  · intro i submission hsubmission
    refine ⟨Pool.answered jobs reply i submission, by rw [hsubmissions, hsubmission]; rfl, ?_, ?_⟩
    · have htold := h.told i submission hsubmission
      rw [Pool.answered]
      split
      case h_1 hcalling =>
        split
        · refine ⟨⟨?_, htold.finalizing, htold.unrun⟩, fun _ => rfl, rfl, Iff.rfl, fun _ => rfl⟩
          intro hpending
          rw [hcalling] at hpending
          cases hpending
        · exact ⟨htold, fun _ => rfl, rfl, Iff.rfl, fun _ => rfl⟩
      case h_2 => exact ⟨htold, fun _ => rfl, rfl, Iff.rfl, fun _ => rfl⟩
    · intro generation worker hworker hjob hwith
      have hi := hgone generation worker i hworker hjob
      rw [Pool.answered]
      split
      · rwa [if_neg hi]
      · exact hwith
  · intro i after hafter hnone
    rw [hsubmissions, hnone] at hafter
    cases hafter

theorem Paired.notified (h : pool.Paired) : pool.notifyWaiters.Paired := by
  have hworkers : pool.notifyWaiters.workers = pool.workers := rfl
  apply h.follows hworkers
  · intro i submission hsubmission
    refine ⟨{ submission with notified := true }, ?_, ?_⟩
    · change (pool.submissions i).map _ = _
      rw [hsubmission]
      rfl
    · exact Submission.follows_same (h.told i submission hsubmission) rfl rfl rfl rfl rfl rfl
  · intro i after hafter hnone
    change (pool.submissions i).map _ = _ at hafter
    rw [hnone] at hafter
    cases hafter

/-- The caller's step of `try_worker`. -/
theorem Tries.follows [DecidableEq Fingerprint] {limits : Limits} {i : ℕ} {spawned : Bool}
    {choice : Choice} {submission : Submission Fingerprint}
    (h : Tries limits pool i submission spawned choice reached) (htold : submission.Told)
    (hcalling : submission.calling = .choosing choice) :
    ∃ found, submission.Follows found ∧
      reached.submissions = Function.update pool.submissions i (some found) := by
  have hgoes : ∀ calling, submission.Follows { submission with calling } := fun calling =>
    Submission.follows_pending htold (by rw [hcalling]; rfl) calling submission.notified
  have hextends : Extends limits pool i submission reached → ∃ found, submission.Follows found ∧
      reached.submissions = Function.update pool.submissions i (some found) := by
    intro hextends
    obtain ⟨next, hnext⟩ := hextends.submissions
    exact ⟨_, hgoes _, hnext⟩
  cases h with
  | alone hempty hextended => exact hextends hextended
  | unweighed hextended => exact hextends hextended
  | loaded hroom hextended => exact hextends hextended
  | unstarted =>
      refine ⟨_, Submission.follows_cancelOnDrop htold (Or.inr ⟨.failed, rfl, ?_⟩) ?_, rfl⟩
      · exact (htold.pending (by rw [hcalling]; rfl)).2.1
      · intro reply hreturned
        cases hcalling.symm.trans hreturned
  | _ => exact ⟨_, hgoes _, rfl⟩

/-- A job that is in no queue is sent to a worker. -/
theorem Paired.queued (h : pool.Paired) {i : ℕ} {submission : Submission Fingerprint}
    (hsubmission : pool.submissions i = some submission) (hwith : submission.With generation)
    (hfree : ∀ other found, pool.workers other = some found → i ∉ found.jobs)
    (hworker : pool.workers generation = some worker)
    (hsubmissions : reached.submissions = pool.submissions)
    (hworkers : reached.workers = Function.update pool.workers generation (some after))
    (hjobs : after.jobs = worker.jobs ++ [i]) (hthread : after.thread = worker.thread) :
    reached.Paired := by
  apply h.worked hsubmissions hworkers
  · rw [hjobs, List.nodup_append_comm, List.singleton_append, List.nodup_cons]
    exact ⟨hfree generation worker hworker, h.nodup generation worker hworker⟩
  · intro j hjob
    rw [hjobs] at hjob
    obtain hjob | hjob := List.mem_append.mp hjob
    · exact h.located generation worker j hworker hjob
    · obtain rfl := List.mem_singleton.mp hjob
      exact ⟨submission, hsubmission, hwith⟩
  · intro j stage hexecuting
    exact ⟨worker, hworker, hthread.symm.trans hexecuting⟩
  · intro found hfound hturning
    obtain rfl := Option.some.inj (hworker.symm.trans hfound)
    exact Or.inl hthread

/-- A job goes on at its worker. -/
theorem Paired.ranOn (h : pool.Paired) {job : ℕ} {submission found : Submission Fingerprint}
    (hworker : pool.workers generation = some worker)
    (hsubmission : pool.submissions job = some submission)
    (hworkers : reached.workers = Function.update pool.workers generation (some after))
    (hsubmissions : reached.submissions = Function.update pool.submissions job (some found))
    (hhand : worker.thread.inHand = some job) (hjobs : after.jobs = worker.jobs)
    (hstate : submission.jobState ≠ .cancelled) (hsent : found.sentTo = submission.sentTo)
    (hcalling : found.calling = submission.calling) (hresult : found.result = submission.result)
    (hrunning : found.jobState = .running)
    (hnext : (∃ reply, after.thread = .finished job reply ∧ Over found.hookMetadata found.hooks) ∨
      ∃ stage, after.thread = .executing job stage ∧ (∀ reply, stage ≠ .returned reply) ∧
        stage.Invoked found.hookMetadata found.hooks) : reached.Paired := by
  have hmem : job ∈ worker.jobs := PersistentWorker.mem_jobs.mpr (Or.inl hhand)
  obtain ⟨again, hagain, hwith⟩ := h.located generation worker job hworker hmem
  obtain rfl := Option.some.inj (hsubmission.symm.trans hagain)
  clear hagain
  have hawaits : submission.calling = .awaiting generation ∧ submission.result = none ∨
      submission.jobState = .running ∧ submission.calling = .dropped :=
    hwith.2.resolve_left hstate
  have hlocated : ∀ other, submission.With other → found.With other := by
    rintro other ⟨hsent', hcancelled | hawaiting | ⟨-, hdropped⟩⟩
    · exact absurd hcancelled hstate
    · exact ⟨hsent.trans hsent', Or.inr (Or.inl ⟨hcalling.trans hawaiting.1,
        hresult.trans hawaiting.2⟩)⟩
    · exact ⟨hsent.trans hsent', Or.inr (Or.inr ⟨hrunning, hcalling.trans hdropped⟩)⟩
  -- no other worker has the job
  have halone : ∀ other same, pool.workers other = some same → job ∈ same.jobs →
      other = generation := by
    intro other same hsame hjob
    obtain ⟨again, hagain, hwith'⟩ := h.located other same job hsame hjob
    obtain rfl := Option.some.inj (hsubmission.symm.trans hagain)
    exact Option.some.inj (hwith'.1.symm.trans hwith.1)
  refine ⟨?_, ?_, ?_, ?_, ?_⟩
  · intro other same hsame
    rw [hworkers] at hsame
    by_cases hother : other = generation
    · subst hother
      obtain rfl := eq_of_update_self hsame
      rw [hjobs]
      exact h.nodup other worker hworker
    · rw [Function.update_of_ne hother] at hsame
      exact h.nodup other same hsame
  · intro other same i hsame hjob
    have hbefore : ∃ submission, pool.submissions i = some submission ∧ submission.With other := by
      rw [hworkers] at hsame
      by_cases hother : other = generation
      · subst hother
        obtain rfl := eq_of_update_self hsame
        rw [hjobs] at hjob
        exact h.located other worker i hworker hjob
      · rw [Function.update_of_ne hother] at hsame
        exact h.located other same i hsame hjob
    obtain ⟨before, hbefore, hwith'⟩ := hbefore
    rw [hsubmissions]
    by_cases hi : i = job
    · subst hi
      obtain rfl := Option.some.inj (hsubmission.symm.trans hbefore)
      exact ⟨found, Function.update_self .., hlocated other hwith'⟩
    · exact ⟨before, by rw [Function.update_of_ne hi, hbefore], hwith'⟩
  · intro other same i stage hsame hexecuting
    rw [hworkers] at hsame
    rw [hsubmissions]
    by_cases hother : other = generation
    · subst hother
      obtain rfl := eq_of_update_self hsame
      obtain ⟨reply, hfinished, -⟩ | ⟨next, hthread, hstage, hinvoked⟩ := hnext
      · cases hexecuting.symm.trans hfinished
      · obtain ⟨rfl, rfl⟩ := Thread.executing.inj (hexecuting.symm.trans hthread)
        exact ⟨found, Function.update_self .., hrunning, hstage, hinvoked⟩
    · rw [Function.update_of_ne hother] at hsame
      have hi : i ≠ job := by
        rintro rfl
        apply hother
        apply halone other same hsame
        rw [PersistentWorker.mem_jobs, hexecuting]
        exact Or.inl rfl
      rw [Function.update_of_ne hi]
      exact h.executing other same i stage hsame hexecuting
  · intro i same hsame
    rw [hsubmissions] at hsame
    by_cases hi : i = job
    · subst hi
      obtain rfl := eq_of_update_self hsame
      refine ⟨?_, ?_, fun hrun => absurd hrunning hrun⟩
      · rw [hcalling]
        intro hpending
        exact absurd ((hwith.not_pending (h.told i submission hsubmission)).symm.trans hpending)
          Bool.false_ne_true
      · rw [hcalling]
        intro hfinalizing
        obtain ⟨hawaiting, -⟩ | ⟨-, hdropped⟩ := hawaits
        · cases hfinalizing.symm.trans hawaiting
        · cases hfinalizing.symm.trans hdropped
    · rw [Function.update_of_ne hi] at hsame
      exact h.told i same hsame
  · intro i same hsame hran
    rw [hsubmissions] at hsame
    by_cases hi : i = job
    · subst hi
      obtain rfl := eq_of_update_self hsame
      obtain ⟨reply, -, hover⟩ | ⟨next, hthread, hstage, hinvoked⟩ := hnext
      · exact Or.inl hover
      · refine Or.inr ⟨hinvoked.isOpen hstage, generation, after, hsent.trans hwith.1, ?_,
          Or.inl ⟨next, hthread⟩⟩
        rw [hworkers, Function.update_self]
    · rw [Function.update_of_ne hi] at hsame
      obtain hover | ⟨hopen, other, same', hsent', hsame', hthread⟩ := h.ran i same hsame hran
      · exact Or.inl hover
      · refine Or.inr ⟨hopen, other, same', hsent', ?_, hthread⟩
        have hother : other ≠ generation := by
          rintro rfl
          obtain rfl := Option.some.inj (hworker.symm.trans hsame')
          obtain ⟨stage, hexecuting⟩ | hcrashed := hthread
          · rw [hexecuting] at hhand
            exact hi (Option.some.inj hhand)
          · rw [hcrashed] at hhand
            cases hhand
        rw [hworkers, Function.update_of_ne hother, hsame']

theorem jobs_sublist (hhand : after.thread.inHand = worker.thread.inHand)
    (hqueue : after.queue.Sublist worker.queue) : after.jobs.Sublist worker.jobs := by
  rw [PersistentWorker.jobs, PersistentWorker.jobs, hhand]
  exact (hqueue.filterMap _).append_left _

theorem jobs_stopAccepting (worker : PersistentWorker Fingerprint) :
    worker.stopAccepting.jobs = worker.jobs := by
  rw [PersistentWorker.stopAccepting]
  split
  · simp only [PersistentWorker.jobs]
    split
    · rfl
    · simp [PersistentCommand.job]
  · rfl

/-- A step of a worker outside its Turns. -/
theorem Paired.works (h : pool.Paired) {action : WorkerAction}
    (hworker : pool.workers generation = some worker) (hworks : worker.Works action after) :
    (pool.setWorker generation after).Paired := by
  cases hworks with
  | launched => exact h.retained hworker rfl rfl rfl rfl
  | discarded => exact h.retained hworker rfl rfl rfl rfl
  | received hthread hqueue =>
      refine h.rethreaded hworker rfl rfl ?_ (by rw [hthread]; rfl) rfl
      simp [PersistentWorker.jobs, hthread, hqueue, Thread.inHand, PersistentCommand.job]
  | dismissed hthread hqueue =>
      refine h.rethreaded hworker rfl rfl ?_ (by rw [hthread]; rfl) rfl
      apply jobs_sublist (by rw [hthread]; rfl)
      rw [hqueue]
      exact List.sublist_cons_self _ _
  | idled hthread | counted hthread | left hthread | shut hthread =>
      refine h.rethreaded hworker rfl rfl ?_ (by rw [hthread]; rfl) rfl
      exact jobs_sublist (by rw [hthread]; rfl) (List.Sublist.refl _)

/-- The queue of a thread that panics is gone. -/
theorem Paired.crashed (h : pool.Paired) (generation : ℕ) (worker : PersistentWorker Fingerprint) :
    (pool.setWorker generation
      { worker with queue := [], thread := .crashed, live := false }).Paired := by
  refine h.worked rfl rfl ?_ ?_ ?_ ?_
  · exact List.nodup_nil
  · intro i hjob
    cases hjob
  · intro i stage hexecuting
    cases hexecuting
  · intro found hfound hturning
    exact Or.inr rfl

/-- A worker that is done with a job has it no more. -/
theorem Paired.gone (h : pool.Paired) {jobs : List ℕ}
    (hworker : pool.workers generation = some worker) (hjobs : ∀ i ∈ jobs, i ∈ worker.jobs)
    (hafter : ∀ i ∈ jobs, i ∉ after.jobs) :
    ∀ other found i, (pool.setWorker generation after).workers other = some found →
      i ∈ found.jobs → i ∉ jobs := by
  intro other found i hfound hjob hi
  by_cases hother : other = generation
  · subst hother
    obtain rfl := eq_of_update_self hfound
    exact hafter i hi hjob
  · obtain ⟨submission, hsubmission, hwith⟩ := h.located generation worker i hworker (hjobs i hi)
    have hbefore := (Function.update_of_ne hother _ _).symm.trans hfound
    obtain ⟨same, hsame, hwith'⟩ := h.located other found i hbefore hjob
    obtain rfl := Option.some.inj (hsubmission.symm.trans hsame)
    exact hother (Option.some.inj (hwith'.1.symm.trans hwith.1))

/-- A job is run from its start on, or it is withdrawn. -/
theorem Paired.began (h : pool.Paired) {job : ℕ} {submission : Submission Fingerprint}
    (hworker : pool.workers generation = some worker) (hthread : worker.thread = .took job)
    (hsubmission : pool.submissions job = some submission) :
    (pool.begin generation worker job submission).Paired := by
  rw [begin]
  split
  case isTrue hqueued =>
    have hhand : worker.thread.inHand = some job := by rw [hthread]; rfl
    have hnot : submission.jobState ≠ .running := by
      rw [hqueued]
      decide
    obtain ⟨same, hsame, hwith⟩ :=
      h.located generation worker job hworker (PersistentWorker.mem_jobs.mpr (Or.inl hhand))
    obtain rfl := Option.some.inj (hsubmission.symm.trans hsame)
    have hnil : submission.hooks = [] := by
      apply (h.told job submission hsubmission).hooks_nil hnot
      intro reply hreturned
      obtain hcancelled | ⟨hawaiting, -⟩ | ⟨hrunning, -⟩ := hwith.2
      · cases hqueued.symm.trans hcancelled
      · cases hawaiting.symm.trans hreturned
      · exact hnot hrunning
    refine h.ranOn hworker hsubmission rfl rfl hhand ?_ ?_ rfl rfl rfl rfl (Or.inr ⟨_, rfl, ?_, ?_⟩)
    · rw [PersistentWorker.jobs, PersistentWorker.jobs, hthread]
      rfl
    · rw [hqueued]
      decide
    · intro reply hreturned
      cases hreturned
    · rw [hnil]
      exact invoked_nil submission.hookMetadata _
  case isFalse =>
    refine h.rethreaded hworker rfl rfl ?_ (by rw [hthread]; rfl) rfl
    exact jobs_sublist (by rw [hthread]; rfl) (List.Sublist.refl _)

theorem Paired.turned (h : pool.Paired) {job : ℕ} {stage : Stage} {event : TurnEvent}
    (hworker : pool.workers generation = some worker)
    (hthread : worker.thread = .executing job stage)
    (hturn : pool.turn generation worker job stage event = some reached) : reached.Paired := by
  obtain ⟨submission, hsubmission, hturn⟩ := Option.bind_eq_some_iff.mp hturn
  obtain ⟨next, hnext, rfl⟩ := Option.map_eq_some_iff.mp hturn
  have hhand : worker.thread.inHand = some job := by rw [hthread]; rfl
  obtain ⟨same, hsame, hrunning, hstage, hinvoked⟩ :=
    h.executing generation worker job stage hworker hthread
  obtain rfl := Option.some.inj (hsubmission.symm.trans hsame)
  have hnow := stage.invoked_step hinvoked hnext
  refine h.ranOn hworker hsubmission rfl rfl hhand ?_ ?_ rfl rfl rfl hrunning ?_
  · rw [PersistentWorker.jobs, PersistentWorker.jobs, hthread]
    cases next.1 <;> rfl
  · rw [hrunning]
    decide
  · generalize next.1 = found at hnow ⊢
    cases found with
    | returned reply => exact Or.inl ⟨reply, rfl, hnow⟩
    | _ => exact Or.inr ⟨_, rfl, fun reply hreturned => Stage.noConfusion hreturned, hnow⟩

theorem Paired.sent (h : pool.Paired) {i : ℕ} {submission : Submission Fingerprint}
    (hsubmission : pool.submissions i = some submission)
    (hcalling : submission.calling = .holding generation)
    (hworker : pool.workers generation = some worker) :
    (pool.send i submission generation worker).Paired := by
  have htold := h.told i submission hsubmission
  have hpending : submission.calling.isPending = true := by rw [hcalling]; rfl
  obtain ⟨hunsent, hqueued, hnone⟩ := htold.pending hpending
  rw [send]
  split
  case isTrue =>
    exact h.follow hsubmission
      (Submission.follows_pending htold hpending .selecting submission.notified) rfl rfl
  case isFalse =>
    -- no worker has the job before
    have hfree : ∀ other found, pool.workers other = some found → i ∉ found.jobs := by
      intro other found hfound hjob
      obtain ⟨same, hsame, hwith⟩ := h.located other found i hfound hjob
      obtain rfl := Option.some.inj (hsubmission.symm.trans hsame)
      cases hunsent.symm.trans hwith.1
    have hnot : submission.jobState ≠ .running := by
      rw [hqueued]
      decide
    have hsent : (pool.setSubmission i { submission with
        calling := .awaiting generation
        sentTo := some generation }).Paired := by
      apply h.followed_one hsubmission _ hfree
      refine ⟨⟨?_, ?_, ?_⟩, fun hrunning => absurd hrunning hnot, rfl, Iff.rfl, fun _ => rfl⟩
      · intro hpending
        cases hpending
      · intro hfinalizing
        cases hfinalizing
      · intro _
        left
        apply htold.hooks_nil hnot
        intro reply hreturned
        cases hcalling.symm.trans hreturned
    refine hsent.queued (Function.update_self ..) ⟨rfl, Or.inr (Or.inl ⟨rfl, hnone⟩)⟩ hfree hworker
      rfl rfl ?_ rfl
    simp [PersistentWorker.jobs, PersistentCommand.job]

variable [DecidableEq Fingerprint] {limits : Limits}

theorem Paired.tried (h : pool.Paired) (hconsistent : pool.Consistent limits) {i : ℕ}
    {spawned : Bool} {choice : Choice} {submission : Submission Fingerprint}
    (hsubmission : pool.submissions i = some submission)
    (hcalling : submission.calling = .choosing choice)
    (htries : Tries limits pool i submission spawned choice reached) : reached.Paired := by
  obtain ⟨found, hfollowed, hsubmissions⟩ :=
    htries.follows (h.told i submission hsubmission) hcalling
  -- the caller first, and then the worker
  have hcaller : ({ pool with submissions := reached.submissions } : Pool Fingerprint).Paired :=
    h.follow hsubmission hfollowed rfl hsubmissions
  cases htries with
  | started =>
      refine hcaller.worked rfl rfl ?_ ?_ ?_ ?_
      · exact List.nodup_nil
      · intro j hjob
        cases hjob
      · intro j stage hexecuting
        cases hexecuting
      · intro worker hworker
        exact absurd (hconsistent.known _ worker hworker) (Nat.lt_irrefl _)
  | @evicted generation worker hworker =>
      exact hcaller.retained hworker rfl rfl
        (jobs_stopAccepting worker) (PersistentWorker.stopAccepting_appends worker).1
  | alone hempty hextends => cases hextends <;> exact h.follow hsubmission hfollowed rfl hsubmissions
  | unweighed hextends => cases hextends <;> exact h.follow hsubmission hfollowed rfl hsubmissions
  | loaded hroom hextends =>
      cases hextends <;> exact h.follow hsubmission hfollowed rfl hsubmissions
  | _ => exact h.follow hsubmission hfollowed rfl hsubmissions

theorem Paired.step (h : pool.Paired) (hconsistent : pool.Consistent limits)
    {action : Action Fingerprint} (hmoved : Moved limits pool action reached) : reached.Paired := by
  cases hmoved with
  | @submitted i fingerprint sessionKey hookMetadata hfree =>
      have hworkers : (pool.setSubmission i
          (submit fingerprint sessionKey hookMetadata)).workers = pool.workers := rfl
      apply h.follows hworkers
      · intro j submission hsubmission
        refine ⟨submission, ?_, ?_⟩
        · have hj : j ≠ i := by
            rintro rfl
            cases hfree.symm.trans hsubmission
          exact (Function.update_of_ne hj _ _).trans hsubmission
        · exact Submission.follows_same (h.told j submission hsubmission) rfl rfl rfl rfl rfl rfl
      · intro j found hfound hnone
        obtain ⟨-, rfl⟩ | hkept := setSubmission_cases hfound
        · refine ⟨Submission.told_submit fingerprint sessionKey hookMetadata, ?_⟩
          intro hrunning
          cases hrunning
        · cases hkept.symm.trans hnone
  | acted hsubmission hacts =>
      exact h.follow hsubmission (hacts.follows (h.told _ _ hsubmission)) rfl rfl
  | @locked i submission hsubmission hcalling hfree =>
      exact h.follow hsubmission (Submission.follows_pending (h.told _ _ hsubmission)
        (by rw [hcalling]; rfl) _ submission.notified) rfl rfl
  | tried hsubmission hcalling htried =>
      exact h.tried hconsistent hsubmission hcalling (tries_of_tryWorker htried)
  | sent hsubmission hcalling hworker => exact h.sent hsubmission hcalling hworker
  | worked hworker hworks => exact h.works hworker hworks
  | began hworker hthread hsubmission => exact h.began hworker hthread hsubmission
  | turned hworker hthread hturn => exact h.turned hworker hthread hturn
  | @announced generation job reply worker hworker hthread =>
      apply Paired.notified
      refine h.rethreaded hworker rfl rfl ?_ (by rw [hthread]; rfl) rfl
      exact jobs_sublist (by rw [hthread]; rfl) (List.Sublist.refl _)
  | @replied generation job reply worker hworker hthread =>
      have hjobs : worker.jobs = job :: worker.queue.filterMap PersistentCommand.job := by
        rw [PersistentWorker.jobs, hthread]
        rfl
      have hnodup := h.nodup generation worker hworker
      rw [hjobs, List.nodup_cons] at hnodup
      have hleft : (pool.setWorker generation { worker with thread := .receiving }).Paired := by
        refine h.rethreaded hworker rfl rfl ?_ (by rw [hthread]; rfl) rfl
        rw [hjobs]
        exact List.sublist_cons_self _ _
      refine hleft.answered rfl (fun i => submissions_answer job i reply) ?_
      apply h.gone hworker
      · intro i hi
        rw [List.mem_singleton.mp hi, hjobs]
        exact List.mem_cons_self
      · intro i hi
        rw [List.mem_singleton.mp hi]
        exact hnodup.1
  | @unlisted generation worker hworker hthread hfree =>
      refine h.rethreaded hworker rfl rfl ?_ (by rw [hthread]; rfl) rfl
      exact jobs_sublist (by rw [hthread]; rfl) (List.Sublist.refl _)
  | exited hworker hthread =>
      apply Paired.notified
      refine h.rethreaded hworker rfl rfl ?_ (by rw [hthread]; rfl) rfl
      exact jobs_sublist (by rw [hthread]; rfl) (List.Sublist.refl _)
  | @crashed generation job stage worker hworker hthread =>
      obtain ⟨hworkers, -⟩ := answers_frame (pool.setWorker generation
        { worker with queue := [], thread := .crashed, live := false }) .failed worker.jobs
      refine (h.crashed generation worker).answered hworkers
        (fun i => submissions_answers worker.jobs i .failed) ?_
      apply h.gone hworker
      · exact fun i hi => hi
      · intro i _ hjob
        cases hjob

end Steps

/-! ## Every Turn is ended once -/

theorem count_over {hookMetadata : Option AcpHookMetadata} {hooks : List LifecycleHook}
    (h : Over hookMetadata hooks) : hooks.count .turnEnd ≤ 1 := by
  obtain ⟨-, -, hnone⟩ | ⟨before, rfl, hbefore⟩ := h.ends
  · rw [List.count_eq_zero_of_not_mem hnone]
    exact Nat.zero_le 1
  · rw [List.count_append, List.count_eq_zero_of_not_mem hbefore]
    decide

theorem last_over {hookMetadata : Option AcpHookMetadata} {before after : List LifecycleHook}
    (h : Over hookMetadata (before ++ .turnEnd :: after)) : after = [] := by
  obtain ⟨-, -, hnone⟩ | ⟨others, heq, hothers⟩ := h.ends
  · exact absurd (List.mem_append_right _ List.mem_cons_self) hnone
  · obtain rfl | ⟨init, last, rfl⟩ := List.eq_nil_or_concat after
    · rfl
    · rw [List.concat_eq_append, ← List.cons_append, ← List.append_assoc] at heq
      have hinit := (List.append_inj' heq rfl).1
      rw [← hinit] at hothers
      exact absurd (List.mem_append_right _ List.mem_cons_self) hothers

variable [DecidableEq Fingerprint] {limits : Limits} {reached : Pool Fingerprint}

theorem paired_runs {actions : List (Action Fingerprint)}
    (hruns : initial.runs limits (fun _ _ => true) actions = some reached) : reached.Paired := by
  have hboth : reached.Consistent limits ∧ reached.Paired := by
    apply holds_runs _ _ hruns
    · intro pool next action hpool _ hmoved
      exact ⟨hpool.1.step hmoved, hpool.2.step hpool.1 hmoved⟩
    · exact ⟨consistent_initial, paired_initial⟩
  exact hboth.2

/-- `turn_start` and `turn_end` are invoked at most once and nothing is invoked after
`turn_end`; a call that returns has ended the Turn it has started, unless the thread that
ran it has panicked. -/
theorem hooks_paired (limits : Limits) (actions : List (Action Fingerprint))
    (hruns : initial.runs limits (fun _ _ => true) actions = some reached) (i : ℕ)
    (submission : Submission Fingerprint) (hsubmission : reached.submissions i = some submission) :
    submission.hooks.count .turnStart ≤ 1 ∧ submission.hooks.count .turnEnd ≤ 1 ∧
      (∀ before after, submission.hooks = before ++ .turnEnd :: after → after = []) ∧
      ∀ reply, submission.calling = .returned reply → .turnStart ∈ submission.hooks →
        (∀ generation worker, submission.sentTo = some generation →
          reached.workers generation = some worker → worker.thread ≠ .crashed) →
            submission.hooks.count .turnEnd = 1 := by
  have hpaired := paired_runs hruns
  have htold := hpaired.told i submission hsubmission
  by_cases hrunning : submission.jobState = .running
  case neg =>
    -- the job was not run, so that only its caller can have ended it
    obtain hnil | ⟨hend, -⟩ := htold.unrun hrunning
    · rw [hnil]
      refine ⟨Nat.zero_le 1, Nat.zero_le 1, ?_, ?_⟩
      · intro before after heq
        exact absurd heq.symm (List.append_ne_nil_of_right_ne_nil _ (List.cons_ne_nil _ _))
      · intro reply _ hstart
        cases hstart
    · have hover : Over submission.hookMetadata submission.hooks := by
        rw [hend]
        exact (open_nil submission.hookMetadata).finish
      refine ⟨hover.starts, count_over hover, ?_, ?_⟩
      · intro before after heq
        rw [heq] at hover
        exact last_over hover
      · intro reply _ _ _
        rw [hend]
        rfl
  case pos =>
    obtain hover | ⟨hopen, generation, worker, hsent, hworker, hthread⟩ :=
      hpaired.ran i submission hsubmission hrunning
    · refine ⟨hover.starts, count_over hover, ?_, ?_⟩
      · intro before after heq
        rw [heq] at hover
        exact last_over hover
      · intro reply _ hstart _
        obtain ⟨-, hnone, -⟩ | ⟨before, heq, hbefore⟩ := hover.ends
        · exact absurd hstart hnone
        · rw [heq, List.count_append, List.count_eq_zero_of_not_mem hbefore]
          rfl
    · refine ⟨hopen.starts, ?_, ?_, ?_⟩
      · rw [List.count_eq_zero_of_not_mem hopen.unended]
        exact Nat.zero_le 1
      · intro before after heq
        apply absurd _ hopen.unended
        rw [heq]
        exact List.mem_append_right _ List.mem_cons_self
      · intro reply hreturned _ hsound
        obtain ⟨stage, hexecuting⟩ | hcrashed := hthread
        · -- a job that is run is still awaited, or its caller is dropped
          have hjob : i ∈ worker.jobs := by
            rw [PersistentWorker.mem_jobs, hexecuting]
            exact Or.inl rfl
          obtain ⟨same, hsame, -, hwith⟩ := hpaired.located generation worker i hworker hjob
          obtain rfl := Option.some.inj (hsubmission.symm.trans hsame)
          obtain hcancelled | ⟨hawaiting, -⟩ | ⟨-, hdropped⟩ := hwith
          · cases hrunning.symm.trans hcancelled
          · cases hreturned.symm.trans hawaiting
          · cases hreturned.symm.trans hdropped
        · exact absurd hcrashed (hsound generation worker hsent hworker)

namespace RestartedTurn

/-- A Turn with hooks whose first attempt asks for a fresh Harness. -/
def actions : List (Action ℕ) :=
  [.submit 0 0 "session" (some { invokeTurnStart := true }), .caller 0 .register, .lock 0,
    .choose 0 0 false, .choose 0 0 true, .send 0, .worker 1 .receive, .begin 1,
    .turn 1 (.enter true), .turn 1 .started, .worker 1 .launch, .turn 1 (.result .restarts),
    .turn 1 (.conclude true), .turn 1 (.enter true), .worker 1 .launch,
    .turn 1 (.hook .beforeModel), .turn 1 (.result .succeeded), .turn 1 (.conclude true),
    .turn 1 (.finish true), .worker 1 .count, .announce 1, .reply 1, .caller 0 .collect]

/-- It is started once and ended once. -/
theorem turn_paired : ∃ pool submission,
    initial.runs (withLimits 1 1) (fun _ _ => true) actions = some pool ∧
      pool.submissions 0 = some submission ∧ submission.calling = .returned .executed ∧
        submission.hooks = [.turnStart, .beforeModel, .afterStep, .turnEnd] ∧
          submission.hooks.count .turnEnd = 1 := by
  have hruns : ((initial.runs (withLimits 1 1) (fun _ _ => true) actions).any fun pool =>
      (pool.submissions 0).any (fun submission => submission.calling = .returned .executed &&
        submission.hooks = [.turnStart, .beforeModel, .afterStep, .turnEnd] &&
          submission.sentTo = some 1) &&
        (pool.workers 1).any (fun worker => worker.thread = .receiving)) = true := by
    decide
  simp only [Option.any_eq_true, Bool.and_eq_true, decide_eq_true_iff] at hruns
  obtain ⟨pool, hpool, ⟨submission, hsubmission, ⟨hreturned, hhooks⟩, hsent⟩, worker, hworker,
    hthread⟩ := hruns
  refine ⟨pool, submission, hpool, hsubmission, hreturned, hhooks, ?_⟩
  apply (hooks_paired (withLimits 1 1) actions hpool 0 submission hsubmission).2.2.2 .executed
    hreturned
  · rw [hhooks]
    exact List.mem_cons_self
  · intro generation found hfound hother hcrashed
    obtain rfl := Option.some.inj (hsent.symm.trans hfound)
    obtain rfl := Option.some.inj (hworker.symm.trans hother)
    cases hthread.symm.trans hcrashed

end RestartedTurn

end Pool

end Mews.AcpRuntimePool
