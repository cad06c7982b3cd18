import Mews.Acp.Jobs

/-!
# Submissions that wait for a worker

A caller that finds no worker sleeps until a worker notifies.  It has enabled the notification
before it looked, so that what it has seen is still so, or a worker owes it a
notification.
-/

namespace Mews.AcpRuntimePool

variable {Fingerprint : Type}

/-- The worker has counted a job off or refuses jobs, and has not notified since. -/
def PersistentWorker.owes (worker : PersistentWorker Fingerprint) : Bool :=
  match worker.thread with
  | .counted _ _ => true
  | .ended | .crashed => false
  | _ => !worker.accepting

/-- The thread has taken its entry out of the groups. -/
def Thread.outside : Thread → Bool
  | .unlisted | .shut | .ended => true
  | _ => false

/-- The caller looks for a worker, or has found none. -/
def Calling.looks : Calling → Bool
  | .choosing _ | .asleep => true
  | _ => false

namespace PersistentWorker.Becomes

variable {worker after : PersistentWorker Fingerprint}

/-- A worker owes its notification until it gives it. -/
theorem owes (h : worker.Becomes after) (howes : worker.owes = true) :
    after.owes = true ∨ after.thread ≠ worker.thread ∧
      ((∃ job reply, after.thread = .announced job reply) ∨ after.thread = .ended ∨
        after.thread = .crashed) := by
  cases h with
  | same => exact Or.inl howes
  | launched => exact Or.inl howes
  | discarded => exact Or.inl howes
  | counted => exact Or.inl rfl
  | idled => exact Or.inl rfl
  | left => exact Or.inl rfl
  | announced hthread =>
      rw [hthread]
      exact Or.inr ⟨fun heq => Thread.noConfusion heq, Or.inl ⟨_, _, rfl⟩⟩
  | exited hthread =>
      rw [hthread]
      exact Or.inr ⟨fun heq => Thread.noConfusion heq, Or.inr (Or.inl rfl)⟩
  | crashed hthread =>
      rw [hthread]
      exact Or.inr ⟨fun heq => Thread.noConfusion heq, Or.inr (Or.inr rfl)⟩
  | stopped =>
      left
      rw [stopAccepting]
      split
      case isTrue haccepting =>
        rw [PersistentWorker.owes] at howes ⊢
        dsimp only
        split at howes <;> simp_all
      case isFalse => exact howes
  | queued haccepting => exact Or.inl howes
  | _ hthread =>
      rw [PersistentWorker.owes, hthread] at howes
      exact Or.inl howes

/-- A job is counted off by a worker that then owes a notification. -/
theorem pending (h : worker.Becomes after) :
    worker.pending ≤ after.pending ∨ after.owes = true := by
  cases h with
  | counted => exact Or.inr rfl
  | queued => exact Or.inl (Nat.le_succ _)
  | stopped =>
      rw [stopAccepting]
      split <;> exact Or.inl (Nat.le_refl _)
  | _ => exact Or.inl (Nat.le_refl _)

theorem outside (h : worker.Becomes after) (hafter : after.thread.outside = true) :
    worker.thread.outside = true ∨
      after.thread ≠ worker.thread ∧ after.thread = .unlisted := by
  cases h with
  | same => exact Or.inl hafter
  | launched => exact Or.inl hafter
  | discarded => exact Or.inl hafter
  | queued => exact Or.inl hafter
  | stopped =>
      left
      rwa [(stopAccepting_appends worker).1] at hafter
  | shut hthread =>
      rw [hthread]
      exact Or.inl rfl
  | exited hthread =>
      rw [hthread]
      exact Or.inl rfl
  | unlisted hthread =>
      rw [hthread]
      exact Or.inr ⟨fun heq => Thread.noConfusion heq, rfl⟩
  | _ => cases hafter

end PersistentWorker.Becomes

namespace Pool

section Waiting

variable (limits : Limits) (pool : Pool Fingerprint)

/-- A worker owes a notification. -/
def Owed : Prop :=
  ∃ generation worker, pool.workers generation = some worker ∧ worker.owes = true

/-- The workers in the groups have jobs, but for those that have not been looked at. -/
def Busy (unread : List ℕ) : Prop :=
  ∀ generation ∈ pool.groups.generations, generation ∉ unread →
    ∀ worker, pool.workers generation = some worker → 0 < worker.pending

/-- Every worker has been notified of. -/
def AllNotified : Prop :=
  ∀ i submission, pool.submissions i = some submission → submission.notified = true

variable [DecidableEq Fingerprint]

/-- There is no worker for the Turn: none can be started, none is idle, and none is of its
group. -/
def Full (fingerprint : Fingerprint) : Prop :=
  limits.maxTotalProcesses ≤ pool.groups.entries.length ∧ pool.Busy [] ∧
    pool.groups.workers fingerprint = []

/-- What a caller has not looked at when it searches for an idle worker. -/
def unseen : Choice → Option (List ℕ)
  | .searching unread => some unread
  | .queueing _ _ => some []
  | _ => none

/-- What a caller has found in the groups when it searches for an idle worker. -/
def Finds : Choice → Prop
  | .searching unread => unread ⊆ pool.groups.generations
  | .evicting idle => idle ∈ pool.groups.generations
  | _ => True

/-- As long as no thread panics, whoever sleeps without being notified has no worker to hope
for, or is about to be notified. -/
structure Wakeful : Prop where
  unbroken : ∀ generation worker, pool.workers generation = some worker →
    worker.thread ≠ .crashed
  present : ∀ generation ∈ pool.groups.generations, ∀ worker,
    pool.workers generation = some worker → worker.thread.outside = false
  found : ∀ i submission choice, pool.submissions i = some submission →
    submission.calling = .choosing choice → pool.Finds choice
  asleep : ∀ i submission, pool.submissions i = some submission →
    submission.calling = .asleep → submission.notified = false →
      pool.Full limits submission.fingerprint ∨ pool.Owed
  looking : ∀ i submission choice unread, pool.submissions i = some submission →
    submission.calling = .choosing choice → submission.notified = false →
      unseen choice = some unread → pool.Busy unread ∨ pool.Owed

end Waiting

variable [DecidableEq Fingerprint] {limits : Limits} {pool reached : Pool Fingerprint}

theorem wakeful_initial : (initial : Pool Fingerprint).Wakeful limits where
  unbroken := by intro generation worker hworker; cases hworker
  present := by intro generation hmem; cases hmem
  found := by intro i submission choice hsubmission; cases hsubmission
  asleep := by intro i submission hsubmission; cases hsubmission
  looking := by intro i submission choice unread hsubmission; cases hsubmission

/-! ## What a step does to those who wait -/

section Steps

variable {generation : ℕ} {worker after : PersistentWorker Fingerprint}
  {action : Action Fingerprint}

omit [DecidableEq Fingerprint] in
theorem allNotified_notifyWaiters : pool.notifyWaiters.AllNotified := by
  intro i submission hsubmission
  obtain ⟨found, hfound, rfl⟩ := Option.map_eq_some_iff.mp hsubmission
  rfl

omit [DecidableEq Fingerprint] in
theorem mem_generations {groups : Groups Fingerprint} :
    generation ∈ groups.generations ↔ ∃ fingerprint, (fingerprint, generation) ∈ groups.entries := by
  simp [Groups.generations]

omit [DecidableEq Fingerprint] in
theorem not_mem_generations_retire (groups : Groups Fingerprint) :
    generation ∉ (groups.retire generation).generations := by
  intro hmem
  obtain ⟨fingerprint, hentry⟩ := mem_generations.mp hmem
  exact (Groups.mem_retire.mp hentry).2 rfl

/-- What a step has done that has brought the thread of a worker there. -/
def Marked (action : Action Fingerprint) (generation : ℕ) (reached : Pool Fingerprint) :
    Thread → Prop
  | .announced _ _ | .ended => reached.AllNotified
  | .unlisted => generation ∉ reached.groups.generations
  | .crashed => action = .crash generation
  | _ => True

theorem Moved.marked (h : Moved limits pool action reached)
    (hworker : pool.workers generation = some worker) (hknown : generation < pool.nextGeneration)
    (hafter : reached.workers generation = some after) (hmoves : after.thread ≠ worker.thread) :
    Marked action generation reached after.thread := by
  -- it is a step of the worker's own
  have hown : action.worker? = some generation := by
    by_contra hother
    obtain ⟨found, hfound, hthread, -⟩ := h.tended.stays hother hworker hknown
    obtain rfl := Option.some.inj (hafter.symm.trans hfound)
    exact hmoves hthread
  have hsame : ∀ {other : ℕ} {found : PersistentWorker Fingerprint},
      some other = some generation → pool.workers other = some found →
        generation = other ∧ worker = found := by
    intro other found heq hfound
    obtain rfl := Option.some.inj heq
    exact ⟨rfl, Option.some.inj (hworker.symm.trans hfound)⟩
  cases h with
  | submitted => cases hown
  | acted => cases hown
  | locked => cases hown
  | tried => cases hown
  | sent => cases hown
  | worked hother hworks =>
      obtain ⟨rfl, rfl⟩ := hsame hown hother
      obtain rfl := setWorker_self hafter
      cases hworks with
      | launched => exact absurd rfl hmoves
      | discarded => exact absurd rfl hmoves
      | _ => trivial
  | began hother hthread hsubmission =>
      obtain ⟨rfl, rfl⟩ := hsame hown hother
      rw [begin] at hafter
      split at hafter
      · obtain rfl := setWorker_self hafter
        trivial
      · obtain rfl := setWorker_self hafter
        trivial
  | turned hother hthread hturn =>
      obtain ⟨rfl, rfl⟩ := hsame hown hother
      obtain ⟨submission, hsubmission, hturn⟩ := Option.bind_eq_some_iff.mp hturn
      obtain ⟨next, hnext, rfl⟩ := Option.map_eq_some_iff.mp hturn
      obtain rfl := setWorker_self hafter
      cases next.1 <;> trivial
  | announced hother hthread =>
      obtain ⟨rfl, rfl⟩ := hsame hown hother
      obtain rfl := setWorker_self hafter
      exact allNotified_notifyWaiters
  | replied hother hthread =>
      obtain ⟨rfl, rfl⟩ := hsame hown hother
      obtain rfl := setWorker_self hafter
      trivial
  | unlisted hother hthread =>
      obtain ⟨rfl, rfl⟩ := hsame hown hother
      obtain rfl := setWorker_self hafter
      exact not_mem_generations_retire pool.groups
  | exited hother hthread =>
      obtain ⟨rfl, rfl⟩ := hsame hown hother
      obtain rfl := setWorker_self hafter
      exact allNotified_notifyWaiters
  | crashed hother hthread =>
      obtain ⟨rfl, rfl⟩ := hsame hown hother
      obtain ⟨hworkers, -⟩ := answers_frame (pool.setWorker generation
        { worker with queue := [], thread := .crashed, live := false }) .failed worker.jobs
      rw [hworkers] at hafter
      obtain rfl := setWorker_self hafter
      exact rfl

/-- The workers that a pool already has go on, and a new one receives. -/
theorem Tended.origin (h : pool.Tended action reached)
    (hafter : reached.workers generation = some after) :
    (∃ worker, pool.workers generation = some worker ∧ worker.Becomes after) ∨
      ∃ fingerprint, after = PersistentWorker.new fingerprint := by
  obtain hkept | ⟨i, other, submission, -, -, -, rfl⟩ := h.cases
  · exact Or.inl (hkept.known generation after hafter)
  · by_cases hnew : generation = pool.nextGeneration
    · subst hnew
      obtain rfl := eq_of_update_self hafter
      exact Or.inr ⟨submission.fingerprint, rfl⟩
    · exact Or.inl ⟨after, (Function.update_of_ne hnew _ _).symm.trans hafter, .same⟩

/-- What becomes of a worker that was there. -/
theorem Moved.goesOn (h : Moved limits pool action reached)
    (hworker : pool.workers generation = some worker) (hknown : generation < pool.nextGeneration) :
    ∃ after, reached.workers generation = some after ∧ worker.Becomes after ∧
      (after.thread = worker.thread ∨ Marked action generation reached after.thread) := by
  obtain ⟨after, hafter, hbecomes⟩ : ∃ after, reached.workers generation = some after ∧
      worker.Becomes after := by
    obtain hkept | ⟨i, other, submission, -, -, -, rfl⟩ := h.tended.cases
    · exact hkept.becomes generation worker hworker
    · exact ⟨worker, (Function.update_of_ne (Nat.ne_of_lt hknown) _ _).trans hworker, .same⟩
  refine ⟨after, hafter, hbecomes, ?_⟩
  by_cases hthread : after.thread = worker.thread
  · exact Or.inl hthread
  · exact Or.inr (h.marked hworker hknown hafter hthread)

/-- What a step does to the entries of the groups. -/
theorem Moved.regroups (h : Moved limits pool action reached) (hconsistent : pool.Consistent limits) :
    reached.groups.entries = pool.groups.entries ∨
      (∃ generation worker, reached.groups.entries = (pool.groups.retire generation).entries ∧
        reached.workers generation = some worker ∧ worker.accepting = false) ∨
      ∃ i submission, pool.submissions i = some submission ∧
        submission.calling = .choosing .spawning ∧ reached = pool.spawn i submission := by
  cases h with
  | @tried i generation spawned submission choice reached hsubmission hcalling htried =>
      cases tries_of_tryWorker htried with
      | alone hempty hextends => cases hextends <;> exact Or.inl rfl
      | unweighed hextends => cases hextends <;> exact Or.inl rfl
      | loaded hroom hextends => cases hextends <;> exact Or.inl rfl
      | @pruned read unread worker hunread hworker =>
          by_cases haccepting : worker.accepting = true
          · left
            dsimp only
            rw [if_pos haccepting]
          · refine Or.inr (Or.inl ⟨read, worker, ?_, hworker, Bool.not_eq_true _ ▸ haccepting⟩)
            dsimp only
            rw [if_neg haccepting]
      | started => exact Or.inr (Or.inr ⟨i, submission, hsubmission, hcalling, rfl⟩)
      | @evicted idle worker hworker =>
          exact Or.inr (Or.inl ⟨idle, worker.stopAccepting, rfl, Function.update_self ..,
            accepting_stopAccepting worker⟩)
      | _ => exact Or.inl rfl
  | sent =>
      left
      rw [send]
      split <;> rfl
  | began =>
      left
      rw [begin]
      split <;> rfl
  | turned hworker hthread hturn =>
      obtain ⟨submission, hsubmission, hturn⟩ := Option.bind_eq_some_iff.mp hturn
      obtain ⟨next, hnext, rfl⟩ := Option.map_eq_some_iff.mp hturn
      exact Or.inl rfl
  | @unlisted generation worker hworker hthread =>
      have hrefuses := hconsistent.closed generation worker hworker (by rw [hthread]; rfl)
      exact Or.inr (Or.inl ⟨generation, _, rfl, Function.update_self .., hrefuses⟩)
  | @crashed generation job stage worker hworker hthread =>
      obtain ⟨-, -, hgroups, -⟩ := answers_frame (pool.setWorker generation
        { worker with queue := [], thread := .crashed, live := false }) .failed worker.jobs
      exact Or.inl (congrArg Groups.entries hgroups)
  | _ => exact Or.inl rfl

/-- Only a worker that is started is new in the groups. -/
theorem Moved.listed (h : Moved limits pool action reached) (hconsistent : pool.Consistent limits)
    (hmem : generation ∈ reached.groups.generations) :
    generation ∈ pool.groups.generations ∨ ∃ i submission, generation = pool.nextGeneration ∧
      reached = pool.spawn i submission := by
  obtain ⟨fingerprint, hentry⟩ := mem_generations.mp hmem
  obtain hsame | ⟨retired, worker, hentries, -⟩ | ⟨i, submission, -, -, rfl⟩ :=
    h.regroups hconsistent
  · rw [hsame] at hentry
    exact Or.inl (mem_generations.mpr ⟨fingerprint, hentry⟩)
  · rw [hentries] at hentry
    exact Or.inl (mem_generations.mpr ⟨fingerprint, (Groups.mem_retire.mp hentry).1⟩)
  · obtain hentry | hnew := List.mem_append.mp hentry
    · exact Or.inl (mem_generations.mpr ⟨fingerprint, hentry⟩)
    · exact Or.inr ⟨i, submission, congrArg Prod.snd (List.mem_singleton.mp hnew), rfl⟩

section Calm

variable (hwakeful : pool.Wakeful limits) (hconsistent : pool.Consistent limits)
  (hmoved : Moved limits pool action reached) (hcalm : ∀ generation, action ≠ .crash generation)

include hwakeful hconsistent hmoved hcalm

theorem unbroken_step (hafter : reached.workers generation = some after) :
    after.thread ≠ .crashed := by
  intro hcrashed
  obtain ⟨worker, hworker, hbecomes⟩ | ⟨fingerprint, rfl⟩ := hmoved.tended.origin hafter
  · by_cases hthread : after.thread = worker.thread
    · exact hwakeful.unbroken generation worker hworker (hthread.symm.trans hcrashed)
    · have hmarked := hmoved.marked hworker (hconsistent.known generation worker hworker) hafter
        hthread
      rw [hcrashed] at hmarked
      exact hcalm generation hmarked
  · cases hcrashed

theorem Owed.step (howed : pool.Owed) : reached.Owed ∨ reached.AllNotified := by
  obtain ⟨generation, worker, hworker, howes⟩ := howed
  obtain ⟨after, hafter, hbecomes, -⟩ :=
    hmoved.goesOn hworker (hconsistent.known generation worker hworker)
  obtain howes | ⟨hmoves, hthread⟩ := hbecomes.owes howes
  · exact Or.inl ⟨generation, after, hafter, howes⟩
  · have hmarked := hmoved.marked hworker (hconsistent.known generation worker hworker) hafter
      hmoves
    obtain ⟨job, reply, hannounced⟩ | hended | hcrashed := hthread
    · rw [hannounced] at hmarked
      exact Or.inr hmarked
    · rw [hended] at hmarked
      exact Or.inr hmarked
    · exact absurd hcrashed
        (unbroken_step hwakeful hconsistent hmoved hcalm hafter)

/-- A worker of the groups that refuses jobs still has to notify. -/
theorem owes_of_refuses (hmem : generation ∈ pool.groups.generations)
    (hafter : reached.workers generation = some after) (hrefuses : after.accepting = false) :
    after.owes = true := by
  have hcrashed := unbroken_step hwakeful hconsistent hmoved hcalm hafter
  obtain ⟨fingerprint, hentry⟩ := mem_generations.mp hmem
  obtain ⟨worker, hworker, -⟩ := hconsistent.listed fingerprint generation hentry
  obtain ⟨found, hfound, hbecomes, -⟩ :=
    hmoved.goesOn hworker (hconsistent.known generation worker hworker)
  obtain rfl := Option.some.inj (hafter.symm.trans hfound)
  have hended : after.thread ≠ .ended := by
    intro hended
    obtain houtside | ⟨-, hunlisted⟩ := hbecomes.outside (by rw [hended]; rfl)
    · exact Bool.false_ne_true
        ((hwakeful.present generation hmem worker hworker).symm.trans houtside)
    · cases hended.symm.trans hunlisted
  rw [PersistentWorker.owes]
  split
  · rfl
  case h_2 hthread => exact absurd hthread hended
  case h_3 hthread => exact absurd hthread hcrashed
  case h_4 =>
    rw [hrefuses]
    rfl

/-- A worker that leaves the groups owes a notification. -/
theorem regrouped : reached.groups.entries = pool.groups.entries ∨ reached.Owed ∨
    ∃ i submission, pool.submissions i = some submission ∧
      submission.calling = .choosing .spawning ∧ reached = pool.spawn i submission := by
  obtain hsame | ⟨generation, worker, hentries, hworker, hrefuses⟩ | hspawn :=
    hmoved.regroups hconsistent
  · exact Or.inl hsame
  · by_cases hmem : generation ∈ pool.groups.generations
    · exact Or.inr (Or.inl ⟨generation, worker, hworker,
        owes_of_refuses hwakeful hconsistent hmoved hcalm hmem hworker hrefuses⟩)
    · left
      rw [hentries]
      apply List.filter_eq_self.mpr
      intro entry hentry
      apply decide_eq_true
      rintro rfl
      exact hmem (mem_generations.mpr ⟨entry.1, hentry⟩)
  · exact Or.inr (Or.inr hspawn)

omit hwakeful hcalm in
/-- Who is busy stays so, or has counted a job off. -/
theorem Busy.step {unread : List ℕ} (hbusy : pool.Busy unread)
    (hentries : reached.groups.entries = pool.groups.entries) :
    reached.Busy unread ∨ reached.Owed := by
  by_cases howed : reached.Owed
  · exact Or.inr howed
  left
  intro generation hmem hseen after hafter
  rw [Groups.generations, hentries] at hmem
  obtain ⟨fingerprint, hentry⟩ := mem_generations.mp hmem
  obtain ⟨worker, hworker, -⟩ := hconsistent.listed fingerprint generation hentry
  obtain ⟨found, hfound, hbecomes, -⟩ :=
    hmoved.goesOn hworker (hconsistent.known generation worker hworker)
  obtain rfl := Option.some.inj (hafter.symm.trans hfound)
  obtain hpending | howes := hbecomes.pending
  · exact Nat.lt_of_lt_of_le (hbusy generation hmem hseen worker hworker) hpending
  · exact absurd ⟨generation, after, hafter, howes⟩ howed

theorem Full.step {fingerprint : Fingerprint} (hfull : pool.Full limits fingerprint) :
    reached.Full limits fingerprint ∨ reached.Owed := by
  obtain ⟨hlength, hbusy, hnone⟩ := hfull
  obtain hentries | howed | ⟨i, submission, hsubmission, hcalling, -⟩ :=
    regrouped hwakeful hconsistent hmoved hcalm
  · obtain hbusy | howed := Busy.step hconsistent hmoved hbusy hentries
    · left
      refine ⟨by rwa [hentries], hbusy, ?_⟩
      rwa [Groups.workers, hentries]
    · exact Or.inr howed
  · exact Or.inr howed
  · -- there is room for a worker that is to be started
    obtain ⟨-, -, hroom, -⟩ := hconsistent.locked i submission .spawning hsubmission hcalling
    exact absurd hlength (Nat.not_le_of_lt hroom)

end Calm

omit [DecidableEq Fingerprint] in
/-- A caller that is still where it was has not been notified since. -/
theorem unnotified {submission found : Submission Fingerprint} (h : submission.Becomes found)
    (hnotified : found.notified = false) (hcalling : found.calling ≠ .registered) :
    submission.notified = false := by
  cases h with
  | notified => cases hnotified
  | acted hacts =>
      cases hacts with
      | registered => exact absurd rfl hcalling
      | finalized =>
          rw [Submission.finalized] at hnotified
          split at hnotified <;> exact hnotified
      | _ => exact hnotified
  | _ => exact hnotified

omit [DecidableEq Fingerprint] in
theorem fingerprint_becomes {submission found : Submission Fingerprint}
    (h : submission.Becomes found) : found.fingerprint = submission.fingerprint := by
  cases h with
  | acted hacts =>
      cases hacts with
      | finalized =>
          rw [Submission.finalized]
          split <;> rfl
      | _ => rfl
  | _ => rfl

omit [DecidableEq Fingerprint] in
theorem looks_submit (fingerprint : Fingerprint) (sessionKey : String)
    (hookMetadata : Option AcpHookMetadata) :
    (submit fingerprint sessionKey hookMetadata).calling.looks = false := by
  rw [submit]
  dsimp only
  split <;> rfl

/-- A caller that looks for a worker, or has found none, did so before, or has taken a step of
`try_worker`. -/
theorem Moved.looks (h : Moved limits pool action reached) (hconsistent : pool.Consistent limits)
    {i : ℕ} {found : Submission Fingerprint} (hfound : reached.submissions i = some found)
    (hlooks : found.calling.looks = true) :
    ∃ submission, pool.submissions i = some submission ∧ submission.Becomes found ∧
      ((found.calling = submission.calling ∧ ∀ choice, submission.calling = .choosing choice →
          reached.groups.entries = pool.groups.entries) ∨
        (∃ unread, found.calling = .choosing (.pruning unread)) ∨
        ∃ choice spawned, submission.calling = .choosing choice ∧
          Tries limits pool i submission spawned choice reached) := by
  obtain ⟨submission, hsubmission, hbecomes⟩ | ⟨fingerprint, sessionKey, hookMetadata, rfl⟩ :=
    h.attended.known i found hfound
  case inr =>
    rw [looks_submit] at hlooks
    cases hlooks
  refine ⟨submission, hsubmission, hbecomes, ?_⟩
  by_cases hown : action.caller? = some i
  case pos =>
    have hsame : ∀ {j : ℕ} {same : Submission Fingerprint}, some j = some i →
        pool.submissions j = some same → j = i ∧ same = submission := by
      intro j same heq hsame
      obtain rfl := Option.some.inj heq
      exact ⟨rfl, Option.some.inj (hsame.symm.trans hsubmission)⟩
    cases h with
    | acted hother hacts =>
        obtain ⟨rfl, rfl⟩ := hsame hown hother
        obtain rfl := eq_of_update_self hfound
        cases hacts with
        | cancelled => exact Or.inl ⟨rfl, fun choice hchoice => rfl⟩
        | observed => exact Or.inl ⟨rfl, fun choice hchoice => rfl⟩
        | finalized =>
            rw [Submission.finalized] at hlooks
            split at hlooks <;> cases hlooks
        | _ => cases hlooks
    | locked hother hcalling =>
        obtain ⟨rfl, rfl⟩ := hsame hown hother
        obtain rfl := eq_of_update_self hfound
        exact Or.inr (Or.inl ⟨_, rfl⟩)
    | tried hother hcalling htried =>
        obtain ⟨rfl, rfl⟩ := hsame hown hother
        exact Or.inr (Or.inr ⟨_, _, hcalling, tries_of_tryWorker htried⟩)
    | sent hother hcalling hworker =>
        obtain ⟨rfl, rfl⟩ := hsame hown hother
        rw [send] at hfound
        split at hfound
        · obtain rfl := eq_of_update_self hfound
          cases hlooks
        · obtain rfl := eq_of_update_self hfound
          cases hlooks
    | _ => cases hown
  case neg =>
    refine Or.inl ⟨h.stands hown hsubmission hfound, fun choice hchoice => ?_⟩
    -- the caller has the lock
    obtain ⟨hlocked, -⟩ := hconsistent.locked i submission choice hsubmission hchoice
    cases h with
    | tried hother hcalling =>
        obtain ⟨hlocked', -⟩ := hconsistent.locked _ _ _ hother hcalling
        exact absurd (hlocked'.symm.trans hlocked) hown
    | sent =>
        rw [send]
        split <;> rfl
    | began =>
        rw [begin]
        split <;> rfl
    | turned hworker hthread hturn =>
        obtain ⟨job, hjob, hturn⟩ := Option.bind_eq_some_iff.mp hturn
        obtain ⟨next, hnext, rfl⟩ := Option.map_eq_some_iff.mp hturn
        rfl
    | unlisted hworker hthread hfree => cases hfree.symm.trans hlocked
    | @crashed generation job stage worker hworker hthread =>
        obtain ⟨-, -, hgroups, -⟩ := answers_frame (pool.setWorker generation
          { worker with queue := [], thread := .crashed, live := false }) .failed worker.jobs
        exact congrArg Groups.entries hgroups
    | _ => rfl

section Tries

variable {i : ℕ} {spawned : Bool} {before choice : Choice}
  {submission found : Submission Fingerprint}

theorem Tries.finds (h : Tries limits pool i submission spawned before reached)
    (hfinds : pool.Finds before) (hfound : reached.submissions i = some found)
    (hcalling : found.calling = .choosing choice) : reached.Finds choice := by
  have hextends : Extends limits pool i submission reached → reached.Finds choice := by
    intro hextends
    cases hextends with
    | searches =>
        obtain rfl := eq_of_update_self hfound
        obtain rfl := Calling.choosing.inj hcalling
        exact List.Subset.refl _
    | spawns =>
        obtain rfl := eq_of_update_self hfound
        obtain rfl := Calling.choosing.inj hcalling
        trivial
  cases h with
  | alone hempty hextended => exact hextends hextended
  | unweighed hextended => exact hextends hextended
  | loaded hroom hextended => exact hextends hextended
  | idle hunread =>
      obtain rfl := eq_of_update_self hfound
      obtain rfl := Calling.choosing.inj hcalling
      exact hfinds hunread
  | busy =>
      obtain rfl := eq_of_update_self hfound
      obtain rfl := Calling.choosing.inj hcalling
      exact List.Subset.trans List.erase_subset hfinds
  | unbound | free | pruned | leastWeighed | weighs | searched | queues =>
      obtain rfl := eq_of_update_self hfound
      obtain rfl := Calling.choosing.inj hcalling
      trivial
  | _ =>
      obtain rfl := eq_of_update_self hfound
      cases hcalling

/-- What has not been looked at is what may be idle. -/
theorem Tries.looking (h : Tries limits pool i submission spawned before reached)
    (hlooking : ∀ unread, unseen before = some unread → pool.Busy unread ∨ pool.Owed)
    (hfound : reached.submissions i = some found) (hcalling : found.calling = .choosing choice)
    {unread : List ℕ} (hunseen : unseen choice = some unread) :
    reached.Busy unread ∨ reached.Owed := by
  have hextends : Extends limits pool i submission reached →
      reached.Busy unread ∨ reached.Owed := by
    intro hextends
    cases hextends with
    | searches =>
        obtain rfl := eq_of_update_self hfound
        obtain rfl := Calling.choosing.inj hcalling
        obtain rfl := Option.some.inj hunseen
        exact Or.inl fun generation hmem hseen => absurd hmem hseen
    | spawns =>
        obtain rfl := eq_of_update_self hfound
        obtain rfl := Calling.choosing.inj hcalling
        cases hunseen
  cases h with
  | alone hempty hextended => exact hextends hextended
  | unweighed hextended => exact hextends hextended
  | loaded hroom hextended => exact hextends hextended
  | @busy generation read worker hread hworker hbusy =>
      obtain rfl := eq_of_update_self hfound
      obtain rfl := Calling.choosing.inj hcalling
      obtain rfl := Option.some.inj hunseen
      obtain hothers | howed := hlooking read rfl
      · left
        intro other hmem hseen same hsame
        by_cases hother : other = generation
        · subst hother
          obtain rfl := Option.some.inj (hworker.symm.trans hsame)
          exact Nat.pos_of_ne_zero hbusy
        · apply hothers other hmem _ same hsame
          intro hunread
          exact hseen ((List.mem_erase_of_ne hother).mpr hunread)
      · exact Or.inr howed
  | searched | queues =>
      obtain rfl := eq_of_update_self hfound
      obtain rfl := Calling.choosing.inj hcalling
      exact hlooking unread hunseen
  | unbound | free | pruned | leastWeighed | weighs | idle =>
      obtain rfl := eq_of_update_self hfound
      obtain rfl := Calling.choosing.inj hcalling
      cases hunseen
  | _ =>
      obtain rfl := eq_of_update_self hfound
      cases hcalling

/-- Who has just fallen asleep has seen that the pool is full, or has stopped a worker. -/
theorem Tries.asleep (h : Tries limits pool i submission spawned before reached)
    (hwakeful : pool.Wakeful limits) (hconsistent : pool.Consistent limits)
    (hmoved : Moved limits pool action reached) (hcalm : ∀ generation, action ≠ .crash generation)
    (hsubmission : pool.submissions i = some submission)
    (hchoosing : submission.calling = .choosing before) (hnotified : submission.notified = false)
    (hfound : reached.submissions i = some found) (hasleep : found.calling = .asleep) :
    reached.Full limits submission.fingerprint ∨ reached.Owed := by
  cases h with
  | @evicted idle worker hworker =>
      have hmem : idle ∈ pool.groups.generations :=
        hwakeful.found i submission (.evicting idle) hsubmission hchoosing
      exact Or.inr ⟨idle, worker.stopAccepting, Function.update_self ..,
        owes_of_refuses hwakeful hconsistent hmoved hcalm hmem (Function.update_self ..)
          (accepting_stopAccepting worker)⟩
  | sleeps =>
      obtain ⟨-, -, hfull, -, hnone, -⟩ :=
        hconsistent.locked i submission (.queueing [] none) hsubmission hchoosing
      obtain hbusy | howed := hwakeful.looking i submission (.queueing [] none) [] hsubmission
        hchoosing hnotified rfl
      · exact Or.inl ⟨hfull, hbusy, (hnone rfl).symm⟩
      · exact Or.inr howed
  | alone hempty hextends =>
      cases hextends <;>
        · obtain rfl := eq_of_update_self hfound
          cases hasleep
  | unweighed hextends =>
      cases hextends <;>
        · obtain rfl := eq_of_update_self hfound
          cases hasleep
  | loaded hroom hextends =>
      cases hextends <;>
        · obtain rfl := eq_of_update_self hfound
          cases hasleep
  | _ =>
      obtain rfl := eq_of_update_self hfound
      cases hasleep

end Tries

theorem Wakeful.step (hwakeful : pool.Wakeful limits) (hconsistent : pool.Consistent limits)
    (hmoved : Moved limits pool action reached) (hcalm : ∀ generation, action ≠ .crash generation) :
    reached.Wakeful limits where
  unbroken := by
    intro generation after hafter
    exact unbroken_step hwakeful hconsistent hmoved hcalm hafter
  present := by
    intro generation hmem after hafter
    rw [← Bool.not_eq_true]
    intro houtside
    obtain hmem' | ⟨i, submission, rfl, rfl⟩ := hmoved.listed hconsistent hmem
    · obtain ⟨fingerprint, hentry⟩ := mem_generations.mp hmem'
      obtain ⟨worker, hworker, -⟩ := hconsistent.listed fingerprint generation hentry
      have hknown := hconsistent.known generation worker hworker
      obtain ⟨found, hfound, hbecomes, -⟩ := hmoved.goesOn hworker hknown
      obtain rfl := Option.some.inj (hafter.symm.trans hfound)
      obtain hbefore | ⟨hmoves, hunlisted⟩ := hbecomes.outside houtside
      · exact Bool.false_ne_true
          ((hwakeful.present generation hmem' worker hworker).symm.trans hbefore)
      · have hmarked := hmoved.marked hworker hknown hafter hmoves
        rw [hunlisted] at hmarked
        exact hmarked hmem
    · obtain rfl := eq_of_update_self hafter
      cases houtside
  found := by
    intro i found choice hfound hcalling
    obtain ⟨submission, hsubmission, -, ⟨hsame, hentries⟩ | ⟨unread, hpruning⟩ |
        ⟨before, spawned, hbefore, htries⟩⟩ :=
      hmoved.looks hconsistent hfound (by rw [hcalling]; rfl)
    · have hchoosing := hsame.symm.trans hcalling
      have hfinds := hwakeful.found i submission choice hsubmission hchoosing
      cases choice with
      | searching unread =>
          change unread ⊆ reached.groups.entries.map Prod.snd
          rw [hentries _ hchoosing]
          exact hfinds
      | evicting idle =>
          change idle ∈ reached.groups.entries.map Prod.snd
          rw [hentries _ hchoosing]
          exact hfinds
      | _ => trivial
    · obtain rfl := Calling.choosing.inj (hpruning.symm.trans hcalling)
      trivial
    · exact htries.finds (hwakeful.found i submission before hsubmission hbefore) hfound hcalling
  asleep := by
    intro i found hfound hasleep hnotified
    obtain ⟨submission, hsubmission, hbecomes, hlooks⟩ :=
      hmoved.looks hconsistent hfound (by rw [hasleep]; rfl)
    have hbefore := unnotified hbecomes hnotified
      (fun hregistered => by cases hasleep.symm.trans hregistered)
    rw [fingerprint_becomes hbecomes]
    obtain ⟨hsame, -⟩ | ⟨unread, hpruning⟩ | ⟨before, spawned, hchoosing, htries⟩ := hlooks
    · obtain hfull | howed :=
        hwakeful.asleep i submission hsubmission (hsame.symm.trans hasleep) hbefore
      · exact Full.step hwakeful hconsistent hmoved hcalm hfull
      · obtain howed | hall := Owed.step hwakeful hconsistent hmoved hcalm howed
        · exact Or.inr howed
        · cases hnotified.symm.trans (hall i found hfound)
    · cases hasleep.symm.trans hpruning
    · exact htries.asleep hwakeful hconsistent hmoved hcalm hsubmission hchoosing hbefore hfound
        hasleep
  looking := by
    intro i found choice unread hfound hcalling hnotified hunseen
    obtain ⟨submission, hsubmission, hbecomes, hlooks⟩ :=
      hmoved.looks hconsistent hfound (by rw [hcalling]; rfl)
    have hbefore := unnotified hbecomes hnotified
      (fun hregistered => by cases hcalling.symm.trans hregistered)
    obtain ⟨hsame, hentries⟩ | ⟨others, hpruning⟩ | ⟨before, spawned, hchoosing, htries⟩ := hlooks
    · have hchoosing := hsame.symm.trans hcalling
      obtain hbusy | howed :=
        hwakeful.looking i submission choice unread hsubmission hchoosing hbefore hunseen
      · exact Busy.step hconsistent hmoved hbusy (hentries choice hchoosing)
      · obtain howed | hall := Owed.step hwakeful hconsistent hmoved hcalm howed
        · exact Or.inr howed
        · cases hnotified.symm.trans (hall i found hfound)
    · obtain rfl := Calling.choosing.inj (hpruning.symm.trans hcalling)
      cases hunseen
    · apply htries.looking _ hfound hcalling hunseen
      intro others hothers
      exact hwakeful.looking i submission before others hsubmission hchoosing hbefore hothers

end Steps

end Pool

end Mews.AcpRuntimePool
