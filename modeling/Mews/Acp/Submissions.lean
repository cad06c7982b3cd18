import Mews.Acp.Groups

/-!
# The submissions of the pool

`Becomes` lists what a step makes of a submission, as for the workers.  A job is run by
whoever moves its state from queued to running, so that it is run at most once.
-/

namespace Mews.AcpRuntimePool

variable {Fingerprint : Type}

namespace Submission

inductive Becomes (submission : Submission Fingerprint) : Submission Fingerprint → Prop
  | same : Becomes submission submission
  | notified : Becomes submission { submission with notified := true }
  | answered {generation : ℕ} (hcalling : submission.calling = .awaiting generation)
      (reply : Reply) :
      Becomes submission { submission with result := submission.result.or (some reply) }
  | acted {action : CallerAction} {after : Submission Fingerprint}
      (hacts : submission.Acts action after) : Becomes submission after
  | locked (unread : List ℕ) (hcalling : submission.calling = .registered) :
      Becomes submission { submission with calling := .choosing (.pruning unread) }
  | chose {choice : Choice} {calling : Calling}
      (hcalling : submission.calling = .choosing choice)
      (hchose : (∃ next, calling = .choosing next) ∨ (∃ generation, calling = .holding generation) ∨
        calling = .asleep) : Becomes submission { submission with calling }
  | failed (hcalling : submission.calling = .choosing .spawning) :
      Becomes submission { submission.cancelOnDrop with calling := .returned .failed }
  | bounced {generation : ℕ} (hcalling : submission.calling = .holding generation) :
      Becomes submission { submission with calling := .selecting }
  | sent {generation : ℕ} (hcalling : submission.calling = .holding generation) :
      Becomes submission { submission with
        calling := .awaiting generation
        sentTo := some generation }
  | began (hqueued : submission.jobState = .queued) :
      Becomes submission { submission with
        jobState := .running
        executions := submission.executions + 1 }
  | hooked (hooks : List LifecycleHook) :
      Becomes submission { submission with hooks := submission.hooks ++ hooks }

/-- The job is run once if its state says so, and else it was not. -/
def Counted (submission : Submission Fingerprint) : Prop :=
  submission.executions = if submission.jobState = .running then 1 else 0

end Submission

namespace Pool

/-- What a step makes of the submissions. -/
structure Attended (pool reached : Pool Fingerprint) : Prop where
  becomes : ∀ i submission, pool.submissions i = some submission →
    ∃ after, reached.submissions i = some after ∧ submission.Becomes after
  known : ∀ i after, reached.submissions i = some after →
    (∃ submission, pool.submissions i = some submission ∧ submission.Becomes after) ∨
      ∃ fingerprint sessionKey hookMetadata, after = submit fingerprint sessionKey hookMetadata

variable {pool reached : Pool Fingerprint}

theorem Attended.of_eq (hsubmissions : reached.submissions = pool.submissions) :
    pool.Attended reached where
  becomes := by
    intro i submission hsubmission
    exact ⟨submission, by rw [hsubmissions, hsubmission], .same⟩
  known := by
    intro i after hafter
    exact Or.inl ⟨after, by rw [← hsubmissions, hafter], .same⟩

theorem attended_setSubmission {i : ℕ} {submission after : Submission Fingerprint}
    (hsubmission : pool.submissions i = some submission) (hbecomes : submission.Becomes after)
    (hsubmissions : reached.submissions = Function.update pool.submissions i (some after)) :
    pool.Attended reached where
  becomes := by
    intro j before hbefore
    by_cases hj : j = i
    · subst hj
      obtain rfl := Option.some.inj (hsubmission.symm.trans hbefore)
      exact ⟨after, by rw [hsubmissions, Function.update_self], hbecomes⟩
    · exact ⟨before, by rw [hsubmissions, Function.update_of_ne hj, hbefore], .same⟩
  known := by
    intro j found hfound
    rw [hsubmissions] at hfound
    by_cases hj : j = i
    · subst hj
      obtain rfl := eq_of_update_self hfound
      exact Or.inl ⟨submission, hsubmission, hbecomes⟩
    · rw [Function.update_of_ne hj] at hfound
      exact Or.inl ⟨found, hfound, .same⟩

/-- A step that does the same to every submission there is. -/
theorem attended_map {change : ℕ → Submission Fingerprint → Submission Fingerprint}
    (hbecomes : ∀ i (submission : Submission Fingerprint),
      submission.Becomes (change i submission))
    (hsubmissions : ∀ i, reached.submissions i = (pool.submissions i).map (change i)) :
    pool.Attended reached where
  becomes := by
    intro i submission hsubmission
    exact ⟨change i submission, by rw [hsubmissions, hsubmission, Option.map_some],
      hbecomes i submission⟩
  known := by
    intro i after hafter
    rw [hsubmissions] at hafter
    obtain ⟨submission, hsubmission, rfl⟩ := Option.map_eq_some_iff.mp hafter
    exact Or.inl ⟨submission, hsubmission, hbecomes i submission⟩

/-- What the reply to some jobs makes of a submission. -/
def answered (jobs : List ℕ) (reply : Reply) (i : ℕ) (submission : Submission Fingerprint) :
    Submission Fingerprint :=
  match submission.calling with
  | .awaiting _ =>
      if i ∈ jobs then { submission with result := submission.result.or (some reply) }
      else submission
  | _ => submission

theorem becomes_answered (jobs : List ℕ) (reply : Reply) (i : ℕ)
    (submission : Submission Fingerprint) :
    submission.Becomes (answered jobs reply i submission) := by
  rw [answered]
  split
  case h_1 generation hcalling =>
    split
    · exact .answered hcalling reply
    · exact .same
  case h_2 => exact .same

theorem submissions_answer (job i : ℕ) (reply : Reply) :
    (pool.answer job reply).submissions i =
      (pool.submissions i).map (answered [job] reply i) := by
  rw [answer]
  dsimp only
  cases hsubmission : pool.submissions i with
  | none => simp
  | some submission =>
      by_cases hi : i = job
      · rw [if_pos hi, Option.map_some, Option.map_some, answered]
        cases hcalling : submission.calling <;> simp [hi]
      · rw [if_neg hi, Option.map_some, answered]
        cases hcalling : submission.calling <;> simp [hi]

theorem submissions_answers (jobs : List ℕ) (i : ℕ) (reply : Reply) :
    (jobs.foldl (fun left job => left.answer job reply) pool).submissions i =
      (pool.submissions i).map (answered jobs reply i) := by
  induction jobs generalizing pool with
  | nil =>
      cases hsubmission : pool.submissions i with
      | none => simp [hsubmission]
      | some submission =>
          rw [List.foldl_nil, hsubmission, Option.map_some, answered]
          cases hcalling : submission.calling <;> simp
  | cons job jobs ih =>
      rw [List.foldl_cons, ih, submissions_answer, Option.map_map]
      cases hsubmission : pool.submissions i with
      | none => rfl
      | some submission =>
          rw [Option.map_some, Option.map_some, Function.comp_apply]
          apply congrArg
          cases hcalling : submission.calling with
          | awaiting generation =>
              by_cases hi : i = job
              · simp [answered, hcalling, hi]
              · by_cases hjobs : i ∈ jobs <;> simp [answered, hcalling, hi, hjobs]
          | _ => simp [answered, hcalling]

variable [DecidableEq Fingerprint] {limits : Limits}

omit [DecidableEq Fingerprint] in
theorem Extends.submissions {i : ℕ} {submission : Submission Fingerprint}
    (h : Extends limits pool i submission reached) :
    ∃ choice, reached.submissions =
      Function.update pool.submissions i (some { submission with calling := .choosing choice }) := by
  cases h with
  | searches => exact ⟨_, rfl⟩
  | spawns => exact ⟨_, rfl⟩

/-- A step of `try_worker` moves the caller on. -/
theorem Tries.submissions {i : ℕ} {spawned : Bool} {choice : Choice}
    {submission : Submission Fingerprint} (h : Tries limits pool i submission spawned choice reached)
    (hcalling : submission.calling = .choosing choice) :
    ∃ after, submission.Becomes after ∧
      reached.submissions = Function.update pool.submissions i (some after) := by
  have hextends : ∀ {extended : Pool Fingerprint}, Extends limits pool i submission extended →
      ∃ after, submission.Becomes after ∧
        extended.submissions = Function.update pool.submissions i (some after) := by
    intro extended hextended
    obtain ⟨next, hnext⟩ := hextended.submissions
    exact ⟨_, .chose hcalling (Or.inl ⟨next, rfl⟩), hnext⟩
  have hholds : ∀ generation, submission.Becomes { submission with calling := .holding generation } :=
    fun generation => .chose hcalling (Or.inr (Or.inl ⟨generation, rfl⟩))
  have hsleeps : submission.Becomes { submission with calling := .asleep } :=
    .chose hcalling (Or.inr (Or.inr rfl))
  cases h with
  | alone hempty hextended => exact hextends hextended
  | unweighed hextended => exact hextends hextended
  | loaded hroom hextended => exact hextends hextended
  | bound => exact ⟨_, hholds _, rfl⟩
  | shares => exact ⟨_, hholds _, rfl⟩
  | started => exact ⟨_, hholds _, rfl⟩
  | queued => exact ⟨_, hholds _, rfl⟩
  | unstarted => exact ⟨_, .failed hcalling, rfl⟩
  | evicted => exact ⟨_, hsleeps, rfl⟩
  | sleeps => exact ⟨_, hsleeps, rfl⟩
  | _ => exact ⟨_, .chose hcalling (Or.inl ⟨_, rfl⟩), rfl⟩

theorem Moved.attended {action : Action Fingerprint} (h : Moved limits pool action reached) :
    pool.Attended reached := by
  cases h with
  | @submitted i fingerprint sessionKey hookMetadata hfree =>
      refine ⟨?_, ?_⟩
      · intro j submission hsubmission
        have hj : j ≠ i := by
          rintro rfl
          cases hfree.symm.trans hsubmission
        exact ⟨submission, (Function.update_of_ne hj _ _).trans hsubmission, .same⟩
      · intro j after hafter
        by_cases hj : j = i
        · subst hj
          exact Or.inr ⟨fingerprint, sessionKey, hookMetadata, (eq_of_update_self hafter).symm⟩
        · exact Or.inl ⟨after, (Function.update_of_ne hj _ _).symm.trans hafter, .same⟩
  | acted hsubmission hacts => exact attended_setSubmission hsubmission (.acted hacts) rfl
  | locked hsubmission hcalling =>
      exact attended_setSubmission hsubmission (.locked _ hcalling) rfl
  | tried hsubmission hcalling htried =>
      obtain ⟨after, hbecomes, hsubmissions⟩ :=
        (tries_of_tryWorker htried).submissions hcalling
      exact attended_setSubmission hsubmission hbecomes hsubmissions
  | sent hsubmission hcalling hworker =>
      rw [send]
      split
      · exact attended_setSubmission hsubmission (.bounced hcalling) rfl
      · exact attended_setSubmission hsubmission (.sent hcalling) rfl
  | worked => exact .of_eq rfl
  | began hworker hthread hsubmission =>
      rw [begin]
      split
      case isTrue hqueued => exact attended_setSubmission hsubmission (.began hqueued) rfl
      case isFalse => exact .of_eq rfl
  | turned hworker hthread hturn =>
      obtain ⟨submission, hsubmission, hturn⟩ := Option.bind_eq_some_iff.mp hturn
      obtain ⟨next, hnext, rfl⟩ := Option.map_eq_some_iff.mp hturn
      exact attended_setSubmission hsubmission (.hooked next.2) rfl
  | announced => exact attended_map (fun i submission => .notified) fun i => rfl
  | @replied generation job reply worker hworker hthread =>
      exact attended_map (becomes_answered [job] reply) fun i => submissions_answer job i reply
  | unlisted => exact .of_eq rfl
  | exited => exact attended_map (fun i submission => .notified) fun i => rfl
  | @crashed generation job stage worker hworker hthread =>
      exact attended_map (becomes_answered worker.jobs .failed) fun i =>
        submissions_answers worker.jobs i .failed

end Pool

/-! ## Every job is run at most once -/

theorem Submission.Counted.cancelOnDrop {submission : Submission Fingerprint}
    (h : submission.Counted) : submission.cancelOnDrop.Counted := by
  rw [Counted] at h
  cases hstate : submission.jobState <;>
    simp [Counted, Submission.cancelOnDrop, h, hstate]

namespace Submission.Becomes

variable {submission after : Submission Fingerprint}

theorem counted (h : submission.Becomes after) (hcounted : submission.Counted) :
    after.Counted := by
  cases h with
  | acted hacts =>
      cases hacts with
      | withdrawn hcalling hqueued =>
          rw [Counted, hqueued] at hcounted
          exact hcounted
      | finalized hcalling reported =>
          rw [finalized]
          split <;> exact hcounted
      | dropped => exact hcounted.cancelOnDrop
      | _ => exact hcounted
  | failed => exact hcounted.cancelOnDrop
  | began hqueued =>
      rw [Counted, hqueued] at hcounted
      rw [Counted, hcounted]
      rfl
  | _ => exact hcounted

/-- A reply is final. -/
theorem returned (h : submission.Becomes after) {reply : Reply}
    (hreturned : submission.calling = .returned reply) : after.calling = .returned reply := by
  cases h with
  | acted hacts =>
      cases hacts with
      | cancelled => exact hreturned
      | observed => exact hreturned
      | aborted hcalling =>
          obtain hcalling | hcalling := hcalling <;> cases hcalling.symm.trans hreturned
      | dropped hcalling =>
          obtain hcalling | hcalling | ⟨generation, hcalling⟩ := hcalling <;>
            cases hcalling.symm.trans hreturned
      | registered hcalling => cases hcalling.symm.trans hreturned
      | woken hcalling => cases hcalling.symm.trans hreturned
      | withdrawn hcalling => cases hcalling.symm.trans hreturned
      | finalized hcalling => cases hcalling.symm.trans hreturned
      | collected hcalling => cases hcalling.symm.trans hreturned
      | abandoned hcalling => cases hcalling.symm.trans hreturned
  | same => exact hreturned
  | notified => exact hreturned
  | answered => exact hreturned
  | began => exact hreturned
  | hooked => exact hreturned
  | locked unread hcalling => cases hcalling.symm.trans hreturned
  | chose hcalling => cases hcalling.symm.trans hreturned
  | failed hcalling => cases hcalling.symm.trans hreturned
  | bounced hcalling => cases hcalling.symm.trans hreturned
  | sent hcalling => cases hcalling.symm.trans hreturned

/-- Who awaits a worker did so before, or has just been given it. -/
theorem awaiting (h : submission.Becomes after) {generation : ℕ}
    (hawaiting : after.calling = .awaiting generation) (hresult : after.result = none) :
    (submission.calling = .awaiting generation ∧ submission.result = none) ∨
      submission.calling = .holding generation := by
  cases h with
  | same => exact Or.inl ⟨hawaiting, hresult⟩
  | notified => exact Or.inl ⟨hawaiting, hresult⟩
  | began => exact Or.inl ⟨hawaiting, hresult⟩
  | hooked => exact Or.inl ⟨hawaiting, hresult⟩
  | answered hcalling reply =>
      refine Or.inl ⟨hawaiting, ?_⟩
      cases hfound : submission.result with
      | none => rfl
      | some found =>
          change submission.result.or (some reply) = none at hresult
          rw [hfound] at hresult
          cases hresult
  | acted hacts =>
      cases hacts with
      | cancelled => exact Or.inl ⟨hawaiting, hresult⟩
      | observed => exact Or.inl ⟨hawaiting, hresult⟩
      | finalized =>
          rw [finalized] at hawaiting
          split at hawaiting <;> cases hawaiting
      | _ => cases hawaiting
  | chose hcalling hchose =>
      obtain ⟨next, rfl⟩ | ⟨bound, rfl⟩ | rfl := hchose <;> cases hawaiting
  | sent hcalling =>
      obtain rfl := Calling.awaiting.inj hawaiting
      exact Or.inr hcalling
  | _ => cases hawaiting

end Submission.Becomes

end Mews.AcpRuntimePool
