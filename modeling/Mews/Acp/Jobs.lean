import Mews.Acp.Submissions

/-!
# Where the jobs are

A job whose caller awaits it is with its worker, in hand or in the queue, until the worker
replies to it or its thread panics.  `distance` says how many steps of the worker are left; the
worker's own steps shorten it, and nothing lengthens it.
-/

namespace Mews.AcpRuntimePool

variable {Fingerprint : Type}

/-- The thread no longer receives. -/
def Thread.over : Thread → Bool
  | .leaving | .closed | .unlisted | .shut | .ended | .crashed => true
  | _ => false

/-- The steps that are left with the job in hand. -/
def Thread.steps : Thread → ℕ
  | .took _ => 5
  | .executing _ _ => 4
  | .finished _ _ => 3
  | .counted _ _ => 2
  | .announced _ _ => 1
  | _ => 0

theorem Thread.inHand_of_over {thread : Thread} (hover : thread.over = true) :
    thread.inHand = none := by
  cases thread <;> first | rfl | cases hover

/-- The thread is where it was, or goes on with the same Turn. -/
def Thread.Stays (thread after : Thread) : Prop :=
  after = thread ∨ ∃ job stage next, thread = .executing job stage ∧ after = .executing job next

namespace PersistentWorker

def distance (worker : PersistentWorker Fingerprint) (job : ℕ) : ℕ :=
  worker.thread.steps +
    if worker.thread.inHand = some job then 0 else 6 * (worker.queue.idxOf (.execute job) + 1)

theorem mem_jobs {worker : PersistentWorker Fingerprint} {job : ℕ} :
    job ∈ worker.jobs ↔
      worker.thread.inHand = some job ∨ .execute job ∈ worker.queue := by
  rw [jobs, List.mem_append, Option.mem_toList, List.mem_filterMap]
  apply or_congr Iff.rfl
  constructor
  · rintro ⟨command, hcommand, hjob⟩
    cases command with
    | execute other =>
        obtain rfl := Option.some.inj hjob
        exact hcommand
    | shutdown => cases hjob
  · intro hcommand
    exact ⟨.execute job, hcommand, rfl⟩

/-- What was sent to a worker: a `Shutdown` comes last, and nothing after the loop is left. -/
structure Orderly (worker : PersistentWorker Fingerprint) : Prop where
  drained : worker.thread.over = true → worker.queue = []
  left : worker.thread.over = true → worker.accepting = true → worker.thread = .crashed
  accepting : worker.accepting = true → ∃ jobs : List ℕ, worker.queue = jobs.map .execute
  stopped : worker.accepting = false → worker.thread.over = false →
    ∃ jobs : List ℕ, worker.queue = jobs.map .execute ++ [.shutdown]

theorem orderly_new (fingerprint : Fingerprint) :
    (PersistentWorker.new fingerprint).Orderly where
  drained := by intro hover; cases hover
  left := by intro hover; cases hover
  accepting := fun _ => ⟨[], rfl⟩
  stopped := by intro haccepting; cases haccepting

/-- Only the queue matters while the thread is not over. -/
theorem Orderly.moves {worker after : PersistentWorker Fingerprint} (h : worker.Orderly)
    (haccepting : after.accepting = worker.accepting) (hqueue : after.queue = worker.queue)
    (hbefore : worker.thread.over = false) (hafter : after.thread.over = false) :
    after.Orderly where
  drained := by
    intro hover
    rw [hafter] at hover
    cases hover
  left := by
    intro hover
    rw [hafter] at hover
    cases hover
  accepting := by
    rw [haccepting, hqueue]
    exact h.accepting
  stopped := by
    rw [haccepting, hqueue]
    intro hrefuses _
    exact h.stopped hrefuses hbefore

/-- A thread that is over, and no longer accepts jobs. -/
theorem Orderly.of_over {worker : PersistentWorker Fingerprint} (hqueue : worker.queue = [])
    (hrefuses : worker.accepting = false) (hover : worker.thread.over = true) : worker.Orderly where
  drained := fun _ => hqueue
  left := by
    intro _ haccepting
    exact absurd (hrefuses.symm.trans haccepting) Bool.false_ne_true
  accepting := by
    intro haccepting
    exact absurd (hrefuses.symm.trans haccepting) Bool.false_ne_true
  stopped := by
    intro _ hrunning
    exact absurd (hrunning.symm.trans hover) Bool.false_ne_true

theorem Orderly.refuses {worker : PersistentWorker Fingerprint} (h : worker.Orderly)
    (hover : worker.thread.over = true) (hcrashed : worker.thread ≠ .crashed) :
    worker.accepting = false := by
  cases haccepting : worker.accepting with
  | false => rfl
  | true => exact absurd (h.left hover haccepting) hcrashed

/-- A `Shutdown` that is received was the last command. -/
theorem Orderly.dismissed {worker : PersistentWorker Fingerprint} (h : worker.Orderly)
    (hrunning : worker.thread.over = false) {queue : List PersistentCommand}
    (hqueue : worker.queue = .shutdown :: queue) : worker.accepting = false ∧ queue = [] := by
  have hrefuses : worker.accepting = false := by
    cases haccepting : worker.accepting with
    | false => rfl
    | true =>
        obtain ⟨jobs, hjobs⟩ := h.accepting haccepting
        rw [hqueue] at hjobs
        cases jobs <;> cases hjobs
  refine ⟨hrefuses, ?_⟩
  obtain ⟨jobs, hjobs⟩ := h.stopped hrefuses hrunning
  rw [hqueue] at hjobs
  cases jobs with
  | nil => exact (List.cons.inj hjobs).2
  | cons first jobs => cases hjobs

theorem Becomes.orderly {worker after : PersistentWorker Fingerprint} (h : worker.Becomes after)
    (horderly : worker.Orderly) : after.Orderly := by
  cases h with
  | same => exact horderly
  | @received job queue hthread hqueue =>
      have hbefore : worker.thread.over = false := by rw [hthread]; rfl
      refine ⟨?_, ?_, ?_, ?_⟩
      · intro hover
        cases hover
      · intro hover
        cases hover
      · intro haccepting
        obtain ⟨jobs, hjobs⟩ := horderly.accepting haccepting
        rw [hqueue] at hjobs
        cases jobs with
        | nil => cases hjobs
        | cons first jobs => exact ⟨jobs, (List.cons.inj hjobs).2⟩
      · intro hrefuses _
        obtain ⟨jobs, hjobs⟩ := horderly.stopped hrefuses hbefore
        rw [hqueue] at hjobs
        cases jobs with
        | nil => cases hjobs
        | cons first jobs => exact ⟨jobs, (List.cons.inj hjobs).2⟩
  | dismissed hthread hqueue =>
      obtain ⟨hrefuses, hempty⟩ := horderly.dismissed (by rw [hthread]; rfl) hqueue
      exact .of_over hempty hrefuses rfl
  | idled hthread hqueue => exact .of_over hqueue rfl rfl
  | launched hthread =>
      have hbefore : worker.thread.over = false := by rw [hthread]; rfl
      exact horderly.moves rfl rfl hbefore hbefore
  | discarded hthread =>
      have hbefore : worker.thread.over = false := by rw [hthread]; rfl
      exact horderly.moves rfl rfl hbefore hbefore
  | left hthread => exact .of_over (horderly.drained (by rw [hthread]; rfl)) rfl rfl
  | shut hthread =>
      have hover : worker.thread.over = true := by rw [hthread]; rfl
      exact .of_over (horderly.drained hover)
        (horderly.refuses hover fun hcrashed => by cases hthread.symm.trans hcrashed) rfl
  | unlisted hthread =>
      have hover : worker.thread.over = true := by rw [hthread]; rfl
      exact .of_over (horderly.drained hover)
        (horderly.refuses hover fun hcrashed => by cases hthread.symm.trans hcrashed) rfl
  | exited hthread =>
      have hover : worker.thread.over = true := by rw [hthread]; rfl
      exact .of_over (horderly.drained hover)
        (horderly.refuses hover fun hcrashed => by cases hthread.symm.trans hcrashed) rfl
  | crashed =>
      refine ⟨fun _ => rfl, fun _ _ => rfl, fun _ => ⟨[], rfl⟩, ?_⟩
      intro _ hover
      cases hover
  | stopped =>
      rw [stopAccepting]
      split
      case isFalse => exact horderly
      case isTrue haccepting =>
        split
        case isTrue hcrashed =>
          have hover : worker.thread.over = true := by rw [hcrashed]; rfl
          exact .of_over (horderly.drained hover) rfl hover
        case isFalse hcrashed =>
          have hrunning : worker.thread.over = false := by
            cases hover : worker.thread.over with
            | false => rfl
            | true => exact absurd (horderly.left hover haccepting) hcrashed
          obtain ⟨jobs, hjobs⟩ := horderly.accepting haccepting
          refine ⟨?_, ?_, ?_, ?_⟩
          · intro hover
            exact absurd (hrunning.symm.trans hover) Bool.false_ne_true
          · intro _ haccepting
            cases haccepting
          · intro haccepting
            cases haccepting
          · intro _ _
            exact ⟨jobs, by rw [hjobs]⟩
  | @queued job haccepting hthread =>
      have hrunning : worker.thread.over = false := by
        cases hover : worker.thread.over with
        | false => rfl
        | true => exact absurd (horderly.left hover haccepting) hthread
      obtain ⟨jobs, hjobs⟩ := horderly.accepting haccepting
      refine ⟨?_, ?_, ?_, ?_⟩
      · intro hover
        exact absurd (hrunning.symm.trans hover) Bool.false_ne_true
      · intro hover
        exact absurd (hrunning.symm.trans hover) Bool.false_ne_true
      · intro _
        refine ⟨jobs ++ [job], ?_⟩
        rw [hjobs, List.map_append, List.map_singleton]
      · intro hrefuses
        exact absurd (hrefuses.symm.trans haccepting) Bool.false_ne_true
  | _ hthread =>
      have hbefore : worker.thread.over = false := by rw [hthread]; rfl
      exact horderly.moves rfl rfl hbefore rfl

/-! ## The way of a job -/

section Nearer

variable {worker after : PersistentWorker Fingerprint} {job : ℕ}

theorem Orderly.not_mem_jobs (h : worker.Orderly) (hover : worker.thread.over = true) :
    job ∉ worker.jobs := by
  intro hjob
  obtain hhand | hqueue := mem_jobs.mp hjob
  · rw [Thread.inHand_of_over hover] at hhand
    cases hhand
  · rw [h.drained hover] at hqueue
    cases hqueue

/-- The job comes nearer, or is as near as before while the thread stays where it is. -/
def Nearer (worker after : PersistentWorker Fingerprint) (job : ℕ) : Prop :=
  job ∈ after.jobs ∧ (after.distance job < worker.distance job ∨
    after.distance job = worker.distance job ∧ worker.thread.Stays after.thread)

theorem nearer_of_steps (hjob : job ∈ worker.jobs) (hqueue : after.queue = worker.queue)
    (hhand : after.thread.inHand = worker.thread.inHand)
    (hsteps : after.thread.steps < worker.thread.steps) : worker.Nearer after job := by
  refine ⟨?_, Or.inl ?_⟩
  · rw [mem_jobs, hqueue, hhand]
    exact mem_jobs.mp hjob
  · rw [distance, distance, hqueue, hhand]
    exact Nat.add_lt_add_right hsteps _

theorem nearer_of_stays (hjob : job ∈ worker.jobs) (hqueue : after.queue = worker.queue)
    (hhand : after.thread.inHand = worker.thread.inHand)
    (hsteps : after.thread.steps = worker.thread.steps)
    (hstays : worker.thread.Stays after.thread) : worker.Nearer after job := by
  refine ⟨?_, Or.inr ⟨?_, hstays⟩⟩
  · rw [mem_jobs, hqueue, hhand]
    exact mem_jobs.mp hjob
  · rw [distance, distance, hqueue, hhand, hsteps]

/-- What is sent to the worker comes behind. -/
theorem nearer_of_append (hjob : job ∈ worker.jobs) {commands : List PersistentCommand}
    (hqueue : after.queue = worker.queue ++ commands) (hthread : after.thread = worker.thread) :
    worker.Nearer after job := by
  refine ⟨?_, Or.inr ⟨?_, Or.inl hthread⟩⟩
  · rw [mem_jobs, hqueue, hthread]
    exact (mem_jobs.mp hjob).imp_right (List.mem_append_left _)
  · rw [distance, distance, hthread]
    split
    case isTrue => rfl
    case isFalse hhand =>
      have hmem := (mem_jobs.mp hjob).resolve_left hhand
      rw [hqueue, List.idxOf_append_of_mem hmem]

theorem nearer_received {other : ℕ} {queue : List PersistentCommand}
    (hjob : job ∈ worker.jobs) (hthread : worker.thread = .receiving)
    (hqueue : worker.queue = .execute other :: queue) :
    worker.Nearer { worker with queue, thread := .took other } job := by
  have hmem : PersistentCommand.execute job ∈ worker.queue := by
    apply (mem_jobs.mp hjob).resolve_left
    rw [hthread]
    intro hhand
    cases hhand
  by_cases hother : other = job
  · subst hother
    refine ⟨mem_jobs.mpr (Or.inl rfl), Or.inl ?_⟩
    rw [distance, distance, hthread, hqueue]
    simp [Thread.steps, Thread.inHand]
  · rw [hqueue, List.mem_cons] at hmem
    have hrest := hmem.resolve_left fun heq => hother (PersistentCommand.execute.inj heq).symm
    refine ⟨mem_jobs.mpr (Or.inr hrest), Or.inl ?_⟩
    have hne : PersistentCommand.execute other ≠ .execute job :=
      fun heq => hother (PersistentCommand.execute.inj heq)
    rw [distance, distance, hthread, hqueue, List.idxOf_cons_ne _ hne]
    simp [Thread.steps, Thread.inHand, hother]
    omega

theorem Becomes.nearer (h : worker.Becomes after) (horderly : worker.Orderly)
    (hjob : job ∈ worker.jobs) :
    worker.Nearer after job ∨ (∃ reply, worker.thread = .announced job reply) ∨
      after.thread = .crashed := by
  cases h with
  | same => exact Or.inl (nearer_of_stays hjob rfl rfl rfl (Or.inl rfl))
  | launched => exact Or.inl (nearer_of_stays hjob rfl rfl rfl (Or.inl rfl))
  | discarded => exact Or.inl (nearer_of_stays hjob rfl rfl rfl (Or.inl rfl))
  | received hthread hqueue => exact Or.inl (nearer_received hjob hthread hqueue)
  | dismissed hthread hqueue =>
      obtain ⟨-, rfl⟩ := horderly.dismissed (by rw [hthread]; rfl) hqueue
      obtain hhand | hmem := mem_jobs.mp hjob
      · rw [hthread] at hhand
        cases hhand
      · rw [hqueue, List.mem_singleton] at hmem
        cases hmem
  | idled hthread hqueue =>
      obtain hhand | hmem := mem_jobs.mp hjob
      · rw [hthread] at hhand
        cases hhand
      · rw [hqueue] at hmem
        cases hmem
  | counted hthread =>
      exact Or.inl (nearer_of_steps hjob rfl (by rw [hthread]; rfl) (by rw [hthread]; exact Nat.lt_succ_self _))
  | left hthread => exact absurd hjob (horderly.not_mem_jobs (by rw [hthread]; rfl))
  | shut hthread => exact absurd hjob (horderly.not_mem_jobs (by rw [hthread]; rfl))
  | unlisted hthread => exact absurd hjob (horderly.not_mem_jobs (by rw [hthread]; rfl))
  | exited hthread => exact absurd hjob (horderly.not_mem_jobs (by rw [hthread]; rfl))
  | stopped =>
      left
      rw [stopAccepting]
      split
      · split
        · exact nearer_of_stays hjob rfl rfl rfl (Or.inl rfl)
        · exact nearer_of_append hjob rfl rfl
      · exact nearer_of_stays hjob rfl rfl rfl (Or.inl rfl)
  | queued => exact Or.inl (nearer_of_append hjob rfl rfl)
  | began hthread =>
      exact Or.inl (nearer_of_steps hjob rfl (by rw [hthread]; rfl) (by rw [hthread]; exact Nat.lt_succ_self _))
  | refused hthread =>
      have hsteps : 3 < worker.thread.steps := by
        rw [hthread]
        exact Nat.lt_add_of_pos_right (Nat.zero_lt_succ 1)
      exact Or.inl (nearer_of_steps hjob rfl (by rw [hthread]; rfl) hsteps)
  | stepped hthread =>
      exact Or.inl (nearer_of_stays hjob rfl (by rw [hthread]; rfl) (by rw [hthread]; rfl)
        (Or.inr ⟨_, _, _, hthread, rfl⟩))
  | finished hthread =>
      exact Or.inl (nearer_of_steps hjob rfl (by rw [hthread]; rfl) (by rw [hthread]; exact Nat.lt_succ_self _))
  | announced hthread =>
      exact Or.inl (nearer_of_steps hjob rfl (by rw [hthread]; rfl) (by rw [hthread]; exact Nat.lt_succ_self _))
  | @replied other reply hthread =>
      by_cases hother : other = job
      · subst hother
        exact Or.inr (Or.inl ⟨reply, hthread⟩)
      · left
        have hhand : worker.thread.inHand ≠ some job := by
          rw [hthread]
          intro hhand
          exact hother (Option.some.inj hhand)
        have hmem := (mem_jobs.mp hjob).resolve_left hhand
        refine ⟨mem_jobs.mpr (Or.inr hmem), Or.inl ?_⟩
        rw [distance, distance, if_neg hhand, hthread]
        simp [Thread.steps, Thread.inHand]
  | crashed => exact Or.inr (Or.inr rfl)

theorem Becomes.nears (h : worker.Becomes after) (horderly : worker.Orderly)
    (hjob : job ∈ worker.jobs) (hquiet : ∀ reply, worker.thread ≠ .announced job reply)
    (hcrashed : after.thread ≠ .crashed) : worker.Nearer after job := by
  obtain hnearer | ⟨reply, hannounced⟩ | hpanicked := h.nearer horderly hjob
  · exact hnearer
  · exact absurd hannounced (hquiet reply)
  · exact absurd hpanicked hcrashed

end Nearer

end PersistentWorker

section Quiet

variable {worker after : PersistentWorker Fingerprint} {action : WorkerAction}

/-- A worker that acts by itself has no reply to give. -/
theorem PersistentWorker.Works.not_announced (h : worker.Works action after) (job : ℕ)
    (reply : Reply) : worker.thread ≠ .announced job reply := by
  intro hannounced
  cases h with
  | _ hthread => cases hthread.symm.trans hannounced

theorem PersistentWorker.Works.not_crashed (h : worker.Works action after) :
    after.thread ≠ .crashed := by
  intro hcrashed
  cases h with
  | launched hthread => cases hthread.symm.trans hcrashed
  | discarded hthread => cases hthread.symm.trans hcrashed
  | _ => cases hcrashed

/-- It moves on unless it runs a Turn. -/
theorem PersistentWorker.Works.executing (h : worker.Works action after)
    (hstays : after.thread = worker.thread) :
    ∃ job stage, worker.thread = .executing job stage := by
  cases h with
  | launched hthread => exact ⟨_, _, hthread⟩
  | discarded hthread => exact ⟨_, _, hthread⟩
  | _ hthread => cases hstays.trans hthread

end Quiet

namespace Pool

variable [DecidableEq Fingerprint] {limits : Limits} {pool reached : Pool Fingerprint}

/-! ## Where a job is -/

/-- The queues are orderly, and a job that is awaited is with its worker. -/
structure Tracked (pool : Pool Fingerprint) : Prop where
  orderly : ∀ generation worker, pool.workers generation = some worker → worker.Orderly
  located : ∀ i submission generation, pool.submissions i = some submission →
    submission.calling = .awaiting generation → submission.result = none →
      ∃ worker, pool.workers generation = some worker ∧ i ∈ worker.jobs

section Own

variable {generation : ℕ} {worker after : PersistentWorker Fingerprint}

omit [DecidableEq Fingerprint] in
theorem setWorker_self {changed : PersistentWorker Fingerprint}
    (hafter : (pool.setWorker generation changed).workers generation = some after) :
    after = changed :=
  (eq_of_update_self hafter).symm

/-- The thread moves on with a step of its own, unless it runs a Turn. -/
theorem Moved.moves {action : Action Fingerprint} (h : Moved limits pool action reached)
    (hown : action.worker? = some generation) (hworker : pool.workers generation = some worker)
    (hafter : reached.workers generation = some after) (hstays : after.thread = worker.thread) :
    ∃ job stage, worker.thread = .executing job stage := by
  have hsame : ∀ {other : ℕ} {found : PersistentWorker Fingerprint},
      some other = some generation → pool.workers other = some found →
        generation = other ∧ worker = found := by
    intro other found heq hfound
    obtain rfl := Option.some.inj heq
    exact ⟨rfl, Option.some.inj (hworker.symm.trans hfound)⟩
  cases h with
  | submitted | acted | locked | tried | sent => cases hown
  | worked hother hworks =>
      obtain ⟨rfl, rfl⟩ := hsame hown hother
      obtain rfl := setWorker_self hafter
      exact hworks.executing hstays
  | began hother hthread hsubmission =>
      obtain ⟨rfl, rfl⟩ := hsame hown hother
      rw [begin] at hafter
      split at hafter
      · obtain rfl := setWorker_self hafter
        cases hstays.trans hthread
      · obtain rfl := setWorker_self hafter
        cases hstays.trans hthread
  | turned hother hthread hturn =>
      obtain ⟨rfl, rfl⟩ := hsame hown hother
      exact ⟨_, _, hthread⟩
  | announced hother hthread | replied hother hthread
  | unlisted hother hthread | exited hother hthread =>
      obtain ⟨rfl, rfl⟩ := hsame hown hother
      obtain rfl := setWorker_self hafter
      cases hstays.trans hthread
  | crashed hother hthread =>
      obtain ⟨rfl, rfl⟩ := hsame hown hother
      exact ⟨_, _, hthread⟩

/-- A step of the worker's own brings a job nearer or replies to it. -/
theorem Moved.own {action : Action Fingerprint} (h : Moved limits pool action reached)
    (hown : action.worker? = some generation) (hworker : pool.workers generation = some worker)
    (hafter : reached.workers generation = some after) (horderly : worker.Orderly) {i : ℕ}
    (hjob : i ∈ worker.jobs) :
    worker.Nearer after i ∨ ∃ jobs reply, i ∈ jobs ∧ ∀ j, reached.submissions j =
      (pool.submissions j).map (answered jobs reply j) := by
  -- the worker of the step is the one that is looked at
  have hsame : ∀ {other : ℕ} {found : PersistentWorker Fingerprint},
      some other = some generation → pool.workers other = some found →
        generation = other ∧ worker = found := by
    intro other found heq hfound
    obtain rfl := Option.some.inj heq
    exact ⟨rfl, Option.some.inj (hworker.symm.trans hfound)⟩
  have hquiet : ∀ {thread : Thread}, worker.thread = thread →
      (∀ reply, thread ≠ .announced i reply) → ∀ reply, worker.thread ≠ .announced i reply := by
    rintro thread rfl hthread
    exact hthread
  cases h with
  | submitted | acted | locked | tried | sent => cases hown
  | worked hother hworks =>
      obtain ⟨rfl, rfl⟩ := hsame hown hother
      obtain rfl := setWorker_self hafter
      left
      exact hworks.becomes.nears horderly hjob (hworks.not_announced i) hworks.not_crashed
  | began hother hthread hsubmission =>
      obtain ⟨rfl, rfl⟩ := hsame hown hother
      have hnot := hquiet hthread fun reply heq => Thread.noConfusion heq
      rw [begin] at hafter
      split at hafter
      case isTrue =>
        obtain rfl := setWorker_self hafter
        left
        exact (PersistentWorker.Becomes.began hthread).nears horderly hjob hnot
          (fun hcrashed => by cases hcrashed)
      case isFalse =>
        obtain rfl := setWorker_self hafter
        left
        exact (PersistentWorker.Becomes.refused hthread).nears horderly hjob hnot
          (fun hcrashed => by cases hcrashed)
  | turned hother hthread hturn =>
      obtain ⟨rfl, rfl⟩ := hsame hown hother
      have hnot := hquiet hthread fun reply heq => Thread.noConfusion heq
      obtain ⟨submission, hsubmission, hturn⟩ := Option.bind_eq_some_iff.mp hturn
      obtain ⟨next, hnext, rfl⟩ := Option.map_eq_some_iff.mp hturn
      obtain rfl := setWorker_self hafter
      left
      apply (PersistentWorker.becomes_advance hthread next.1).nears horderly hjob hnot
      intro hcrashed
      cases hstage : next.1 <;> rw [hstage] at hcrashed <;> cases hcrashed
  | announced hother hthread =>
      obtain ⟨rfl, rfl⟩ := hsame hown hother
      have hnot := hquiet hthread fun reply heq => Thread.noConfusion heq
      obtain rfl := setWorker_self hafter
      left
      apply (PersistentWorker.Becomes.announced hthread).nears horderly hjob hnot
      intro hcrashed
      cases hcrashed
  | @replied other job reply found hother hthread =>
      obtain ⟨rfl, rfl⟩ := hsame hown hother
      obtain rfl := setWorker_self hafter
      by_cases hi : i = job
      · subst hi
        exact Or.inr ⟨[i], reply, List.mem_singleton_self i, fun j => submissions_answer i j reply⟩
      · left
        apply (PersistentWorker.Becomes.replied hthread).nears horderly hjob
        · intro other hannounced
          cases hthread.symm.trans hannounced
          exact hi rfl
        · intro hcrashed
          cases hcrashed
  | unlisted hother hthread =>
      obtain ⟨rfl, rfl⟩ := hsame hown hother
      exact absurd hjob (horderly.not_mem_jobs (by rw [hthread]; rfl))
  | exited hother hthread =>
      obtain ⟨rfl, rfl⟩ := hsame hown hother
      exact absurd hjob (horderly.not_mem_jobs (by rw [hthread]; rfl))
  | crashed hother hthread =>
      obtain ⟨rfl, rfl⟩ := hsame hown hother
      exact Or.inr ⟨worker.jobs, .failed, hjob, fun j => submissions_answers worker.jobs j .failed⟩

/-- Any other step leaves the thread where it is. -/
theorem Tended.stays {action : Action Fingerprint} (h : pool.Tended action reached)
    (hother : action.worker? ≠ some generation) (hworker : pool.workers generation = some worker)
    (hknown : generation < pool.nextGeneration) :
    ∃ after, reached.workers generation = some after ∧ after.thread = worker.thread ∧
      ∃ commands, after.queue = worker.queue ++ commands := by
  cases h with
  | unchanged hworkers hnext =>
      exact ⟨worker, by rw [hworkers, hworker], rfl, [], (List.append_nil _).symm⟩
  | @told action reached other found after hfound hbecomes hthread hqueue hworkers hnext =>
      by_cases heq : generation = other
      · subst heq
        obtain rfl := Option.some.inj (hworker.symm.trans hfound)
        exact ⟨after, by rw [hworkers, Function.update_self], hthread, hqueue⟩
      · refine ⟨worker, ?_, rfl, [], (List.append_nil _).symm⟩
        rw [hworkers, Function.update_of_ne heq, hworker]
  | @changed action reached other found after hown hfound hbecomes hworkers hnext =>
      have heq : generation ≠ other := by
        rintro rfl
        exact hother hown
      refine ⟨worker, ?_, rfl, [], (List.append_nil _).symm⟩
      rw [hworkers, Function.update_of_ne heq, hworker]
  | spawned hsubmission hcalling =>
      refine ⟨worker, ?_, rfl, [], (List.append_nil _).symm⟩
      exact (Function.update_of_ne (Nat.ne_of_lt hknown) _ _).trans hworker

/-- A step brings a job nearer, or leaves it as near as it is, or replies to it. -/
theorem Moved.nearer {action : Action Fingerprint} (h : Moved limits pool action reached)
    (hworker : pool.workers generation = some worker) (hknown : generation < pool.nextGeneration)
    (horderly : worker.Orderly) {i : ℕ} (hjob : i ∈ worker.jobs) :
    (∃ after, reached.workers generation = some after ∧ worker.Nearer after i) ∨
      ∃ jobs reply, i ∈ jobs ∧ ∀ j, reached.submissions j =
        (pool.submissions j).map (answered jobs reply j) := by
  by_cases hown : action.worker? = some generation
  · have hafter : ∃ after, reached.workers generation = some after := by
      obtain hkept | ⟨i, other, submission, rfl, -⟩ := h.tended.cases
      · obtain ⟨after, hafter, -⟩ := hkept.becomes generation worker hworker
        exact ⟨after, hafter⟩
      · cases hown
    obtain ⟨after, hafter⟩ := hafter
    obtain hnearer | hreplied := h.own hown hworker hafter horderly hjob
    · exact Or.inl ⟨after, hafter, hnearer⟩
    · exact Or.inr hreplied
  · obtain ⟨after, hafter, hthread, commands, hqueue⟩ := h.tended.stays hown hworker hknown
    exact Or.inl ⟨after, hafter, PersistentWorker.nearer_of_append hjob hqueue hthread⟩

omit [DecidableEq Fingerprint] in
theorem tracked_initial : (initial : Pool Fingerprint).Tracked where
  orderly := by intro generation worker hworker; cases hworker
  located := by intro i submission generation hsubmission; cases hsubmission

omit [DecidableEq Fingerprint] in
/-- What an answered submission awaits is no longer missing. -/
theorem result_answered {jobs : List ℕ} {reply : Reply} {i : ℕ}
    {submission : Submission Fingerprint} (hi : i ∈ jobs)
    (hcalling : submission.calling = .awaiting generation) :
    (answered jobs reply i submission).result ≠ none := by
  rw [answered, hcalling]
  dsimp only
  rw [if_pos hi]
  cases submission.result <;> exact Option.some_ne_none _

omit [DecidableEq Fingerprint] in
theorem setSubmission_cases {i j : ℕ} {changed found : Submission Fingerprint}
    (hfound : (pool.setSubmission i changed).submissions j = some found) :
    (j = i ∧ found = changed) ∨ pool.submissions j = some found := by
  by_cases hj : j = i
  · subst hj
    exact Or.inl ⟨rfl, (eq_of_update_self hfound).symm⟩
  · exact Or.inr ((Function.update_of_ne hj _ _).symm.trans hfound)

omit [DecidableEq Fingerprint] in
theorem calling_answered (jobs : List ℕ) (reply : Reply) (i : ℕ)
    (submission : Submission Fingerprint) :
    (answered jobs reply i submission).calling = submission.calling := by
  rw [answered]
  split
  · split <;> rfl
  · rfl

/-- A caller goes on by its own steps. -/
theorem Moved.stands {action : Action Fingerprint} (h : Moved limits pool action reached)
    {i : ℕ} (hother : action.caller? ≠ some i) {submission found : Submission Fingerprint}
    (hsubmission : pool.submissions i = some submission)
    (hfound : reached.submissions i = some found) : found.calling = submission.calling := by
  have hsame : ∀ {same : Submission Fingerprint}, pool.submissions i = some same →
      same.calling = submission.calling := by
    intro same hsame
    rw [Option.some.inj (hsubmission.symm.trans hsame)]
  have hself : ∀ {j : ℕ}, some j ≠ some i → i ≠ j := by
    rintro j hj rfl
    exact hj rfl
  cases h with
  | submitted hfree =>
      obtain ⟨rfl, rfl⟩ | hkept := setSubmission_cases hfound
      · cases hfree.symm.trans hsubmission
      · exact hsame hkept
  | acted => exact hsame ((Function.update_of_ne (hself hother) _ _).symm.trans hfound)
  | locked => exact hsame ((Function.update_of_ne (hself hother) _ _).symm.trans hfound)
  | tried hchooser hcalling htried =>
      obtain ⟨after, hbecomes, hsubmissions⟩ :=
        (tries_of_tryWorker htried).submissions hcalling
      rw [hsubmissions, Function.update_of_ne (hself hother)] at hfound
      exact hsame hfound
  | sent =>
      rw [send] at hfound
      split at hfound
      · exact hsame ((Function.update_of_ne (hself hother) _ _).symm.trans hfound)
      · exact hsame ((Function.update_of_ne (hself hother) _ _).symm.trans hfound)
  | worked => exact hsame hfound
  | began hworker hthread hjob =>
      rw [begin] at hfound
      split at hfound
      · obtain ⟨rfl, rfl⟩ | hkept := setSubmission_cases hfound
        · have hcalling := hsame hjob
          exact hcalling
        · exact hsame hkept
      · exact hsame hfound
  | turned hworker hthread hturn =>
      obtain ⟨job, hjob, hturn⟩ := Option.bind_eq_some_iff.mp hturn
      obtain ⟨next, hnext, rfl⟩ := Option.map_eq_some_iff.mp hturn
      obtain ⟨rfl, rfl⟩ | hkept := setSubmission_cases hfound
      · have hcalling := hsame hjob
        exact hcalling
      · exact hsame hkept
  | announced =>
      obtain ⟨same, hkept, rfl⟩ := Option.map_eq_some_iff.mp hfound
      have hcalling := hsame hkept
      exact hcalling
  | replied =>
      rw [submissions_answer] at hfound
      obtain ⟨same, hkept, rfl⟩ := Option.map_eq_some_iff.mp hfound
      rw [calling_answered]
      exact hsame hkept
  | unlisted => exact hsame hfound
  | exited =>
      obtain ⟨same, hkept, rfl⟩ := Option.map_eq_some_iff.mp hfound
      have hcalling := hsame hkept
      exact hcalling
  | crashed =>
      rw [submissions_answers] at hfound
      obtain ⟨same, hkept, rfl⟩ := Option.map_eq_some_iff.mp hfound
      rw [calling_answered]
      exact hsame hkept

/-- A job that a caller has sent is in the queue. -/
theorem Moved.sends {action : Action Fingerprint} (h : Moved limits pool action reached)
    {i : ℕ} {submission found : Submission Fingerprint}
    (hsubmission : pool.submissions i = some submission)
    (hholding : submission.calling = .holding generation)
    (hfound : reached.submissions i = some found)
    (hawaiting : found.calling = .awaiting generation) :
    ∃ after, reached.workers generation = some after ∧ i ∈ after.jobs := by
  by_cases hown : action.caller? = some i
  case neg =>
    have hcalling := h.stands hown hsubmission hfound
    cases hholding.symm.trans (hcalling.symm.trans hawaiting)
  case pos =>
    have hsame : ∀ {j : ℕ} {same : Submission Fingerprint}, some j = some i →
        pool.submissions j = some same → j = i ∧ same = submission := by
      intro j same heq hsame
      obtain rfl := Option.some.inj heq
      exact ⟨rfl, Option.some.inj (hsame.symm.trans hsubmission)⟩
    cases h with
    | acted hother hacts =>
        obtain ⟨rfl, rfl⟩ := hsame hown hother
        obtain rfl := eq_of_update_self hfound
        cases hacts with
        | cancelled => cases hholding.symm.trans hawaiting
        | observed => cases hholding.symm.trans hawaiting
        | finalized hcalling => cases hholding.symm.trans hcalling
        | _ => cases hawaiting
    | locked hother hcalling =>
        obtain ⟨rfl, rfl⟩ := hsame hown hother
        cases hholding.symm.trans hcalling
    | tried hother hcalling =>
        obtain ⟨rfl, rfl⟩ := hsame hown hother
        cases hholding.symm.trans hcalling
    | sent hother hcalling hworker =>
        obtain ⟨rfl, rfl⟩ := hsame hown hother
        obtain rfl := Calling.holding.inj (hholding.symm.trans hcalling)
        rw [send] at hfound ⊢
        split
        case isTrue hrefused =>
          rw [if_pos hrefused] at hfound
          obtain rfl := eq_of_update_self hfound
          cases hawaiting
        case isFalse =>
          refine ⟨_, Function.update_self .., ?_⟩
          exact PersistentWorker.mem_jobs.mpr
            (Or.inr (List.mem_append_right _ (List.mem_singleton_self _)))
    | _ => cases hown

theorem Tracked.step (h : pool.Tracked) (hconsistent : pool.Consistent limits)
    {action : Action Fingerprint} (hmoved : Moved limits pool action reached) :
    reached.Tracked where
  orderly := by
    intro generation after hafter
    obtain hkept | ⟨i, other, submission, -, -, -, rfl⟩ := hmoved.tended.cases
    · obtain ⟨worker, hworker, hbecomes⟩ := hkept.known generation after hafter
      exact hbecomes.orderly (h.orderly generation worker hworker)
    · by_cases hnew : generation = pool.nextGeneration
      · subst hnew
        obtain rfl := eq_of_update_self hafter
        exact PersistentWorker.orderly_new submission.fingerprint
      · exact h.orderly generation after ((Function.update_of_ne hnew _ _).symm.trans hafter)
  located := by
    intro i found generation hfound hawaiting hresult
    obtain ⟨submission, hsubmission, hbecomes⟩ | ⟨fingerprint, sessionKey, hookMetadata, rfl⟩ :=
      hmoved.attended.known i found hfound
    · obtain ⟨hcalling, hmissing⟩ | hholding := hbecomes.awaiting hawaiting hresult
      · obtain ⟨worker, hworker, hjob⟩ := h.located i submission generation hsubmission hcalling
          hmissing
        obtain ⟨after, hafter, hnearer⟩ | ⟨jobs, reply, hi, hsubmissions⟩ :=
          hmoved.nearer hworker (hconsistent.known generation worker hworker)
            (h.orderly generation worker hworker) hjob
        · exact ⟨after, hafter, hnearer.1⟩
        · rw [hsubmissions, hsubmission, Option.map_some] at hfound
          obtain rfl := Option.some.inj hfound
          exact absurd hresult (result_answered hi hcalling)
      · exact hmoved.sends hsubmission hholding hfound hawaiting
    · rw [submit] at hawaiting
      dsimp only at hawaiting
      split at hawaiting <;> cases hawaiting

end Own

end Pool

end Mews.AcpRuntimePool
