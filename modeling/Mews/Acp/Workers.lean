import Mews.Acp.Pool

/-!
# The workers of the pool

A step of the pool changes at most one worker, or starts one.  `Becomes` lists the
changes; what holds of a worker over a whole run is read off it.
-/

namespace Mews.AcpRuntimePool

variable {Fingerprint : Type}

/-! ## What becomes of a worker -/

namespace PersistentWorker

inductive Becomes (worker : PersistentWorker Fingerprint) : PersistentWorker Fingerprint → Prop
  | same : Becomes worker worker
  | received {job : ℕ} {queue : List PersistentCommand} (hthread : worker.thread = .receiving)
      (hqueue : worker.queue = .execute job :: queue) :
      Becomes worker { worker with queue, thread := .took job }
  | dismissed {queue : List PersistentCommand} (hthread : worker.thread = .receiving)
      (hqueue : worker.queue = .shutdown :: queue) :
      Becomes worker { worker with queue, thread := .leaving }
  | idled (hthread : worker.thread = .receiving) (hqueue : worker.queue = []) :
      Becomes worker { worker with accepting := false, thread := .leaving }
  | launched {job : ℕ} (hthread : worker.thread = .executing job .attempting)
      (hlive : worker.live = false) : Becomes worker { worker with live := true }
  | discarded {job : ℕ} {stage : Stage} (hthread : worker.thread = .executing job stage) :
      Becomes worker { worker with live := false }
  | counted {job : ℕ} {reply : Reply} (hthread : worker.thread = .finished job reply) :
      Becomes worker
        { worker with pending := worker.pending - 1, thread := .counted job reply }
  | left (hthread : worker.thread = .leaving) :
      Becomes worker { worker with accepting := false, thread := .closed }
  | shut (hthread : worker.thread = .unlisted) :
      Becomes worker { worker with live := false, thread := .shut }
  | stopped : Becomes worker worker.stopAccepting
  | queued {job : ℕ} (haccepting : worker.accepting = true)
      (hthread : worker.thread ≠ .crashed) :
      Becomes worker { worker with
        pending := worker.pending + 1
        queue := worker.queue ++ [.execute job] }
  | began {job : ℕ} {stage : Stage} (hthread : worker.thread = .took job) :
      Becomes worker { worker with thread := .executing job stage }
  | refused {job : ℕ} (hthread : worker.thread = .took job) :
      Becomes worker { worker with thread := .finished job .cancelled }
  | stepped {job : ℕ} {stage next : Stage} {live : Bool}
      (hthread : worker.thread = .executing job stage) (hlive : live = true → worker.live = true) :
      Becomes worker { worker with thread := .executing job next, live }
  | finished {job : ℕ} {stage : Stage} {reply : Reply} {live : Bool}
      (hthread : worker.thread = .executing job stage) (hlive : live = true → worker.live = true) :
      Becomes worker { worker with thread := .finished job reply, live }
  | announced {job : ℕ} {reply : Reply} (hthread : worker.thread = .counted job reply) :
      Becomes worker { worker with thread := .announced job reply }
  | replied {job : ℕ} {reply : Reply} (hthread : worker.thread = .announced job reply) :
      Becomes worker { worker with thread := .receiving }
  | unlisted (hthread : worker.thread = .closed) :
      Becomes worker { worker with thread := .unlisted }
  | exited (hthread : worker.thread = .shut) : Becomes worker { worker with thread := .ended }
  | crashed {job : ℕ} {stage : Stage} (hthread : worker.thread = .executing job stage) :
      Becomes worker { worker with queue := [], thread := .crashed, live := false }

theorem Works.becomes {worker after : PersistentWorker Fingerprint} {action : WorkerAction}
    (h : worker.Works action after) : worker.Becomes after := by
  cases h with
  | received hthread hqueue => exact .received hthread hqueue
  | dismissed hthread hqueue => exact .dismissed hthread hqueue
  | idled hthread hqueue => exact .idled hthread hqueue
  | launched hthread hlive => exact .launched hthread hlive
  | discarded hthread => exact .discarded hthread
  | counted hthread => exact .counted hthread
  | left hthread => exact .left hthread
  | shut hthread => exact .shut hthread

theorem becomes_advance {worker : PersistentWorker Fingerprint} {job : ℕ} {stage : Stage}
    (hthread : worker.thread = .executing job stage) (next : Stage) :
    worker.Becomes (worker.advance job next) := by
  cases next with
  | returned reply =>
      apply Becomes.finished hthread
      intro hlive
      exact (Bool.and_eq_true_iff.mp hlive).1
  | entered invokeTurnStart => exact .stepped hthread (fun hlive => by cases hlive)
  | starting => exact .stepped hthread id
  | attempting => exact .stepped hthread id
  | attempted result => exact .stepped hthread id
  | ending result reported => exact .stepped hthread id

theorem stopAccepting_appends (worker : PersistentWorker Fingerprint) :
    worker.stopAccepting.thread = worker.thread ∧
      ∃ commands, worker.stopAccepting.queue = worker.queue ++ commands := by
  rw [stopAccepting]
  split
  · refine ⟨rfl, ?_⟩
    split
    · exact ⟨[], (List.append_nil _).symm⟩
    · exact ⟨[.shutdown], rfl⟩
  · exact ⟨rfl, [], (List.append_nil _).symm⟩

end PersistentWorker

namespace Pool

variable [DecidableEq Fingerprint] {limits : Limits} {pool reached : Pool Fingerprint}

/-! ## What a step does to the workers -/

/-- No worker changes, or a caller sends something to one, or one takes a step, or one is
started. -/
inductive Tended (pool : Pool Fingerprint) :
    Action Fingerprint → Pool Fingerprint → Prop
  | unchanged {action : Action Fingerprint} {reached : Pool Fingerprint}
      (hworkers : reached.workers = pool.workers)
      (hnext : reached.nextGeneration = pool.nextGeneration) : Tended pool action reached
  | told {action : Action Fingerprint} {reached : Pool Fingerprint} {generation : ℕ}
      {worker after : PersistentWorker Fingerprint}
      (hworker : pool.workers generation = some worker) (hbecomes : worker.Becomes after)
      (hthread : after.thread = worker.thread)
      (hqueue : ∃ commands, after.queue = worker.queue ++ commands)
      (hworkers : reached.workers = Function.update pool.workers generation (some after))
      (hnext : reached.nextGeneration = pool.nextGeneration) : Tended pool action reached
  | changed {action : Action Fingerprint} {reached : Pool Fingerprint} {generation : ℕ}
      {worker after : PersistentWorker Fingerprint} (hown : action.worker? = some generation)
      (hworker : pool.workers generation = some worker) (hbecomes : worker.Becomes after)
      (hworkers : reached.workers = Function.update pool.workers generation (some after))
      (hnext : reached.nextGeneration = pool.nextGeneration) : Tended pool action reached
  | spawned {i generation : ℕ} {submission : Submission Fingerprint}
      (hsubmission : pool.submissions i = some submission)
      (hcalling : submission.calling = .choosing .spawning) :
      Tended pool (.choose i generation true) (pool.spawn i submission)

variable (pool) in
omit [DecidableEq Fingerprint] in
/-- The senders of the results of several jobs are dropped. -/
theorem answers_frame (reply : Reply) (jobs : List ℕ) :
    let answered := jobs.foldl (fun left job => left.answer job reply) pool
    answered.workers = pool.workers ∧ answered.nextGeneration = pool.nextGeneration ∧
      answered.groups = pool.groups ∧ answered.lockedBy = pool.lockedBy := by
  induction jobs generalizing pool with
  | nil => exact ⟨rfl, rfl, rfl, rfl⟩
  | cons job jobs ih =>
      rw [List.foldl_cons]
      exact ih (pool.answer job reply)

theorem Extends.tended {action : Action Fingerprint} {i : ℕ} {submission : Submission Fingerprint}
    (h : Extends limits pool i submission reached) : pool.Tended action reached := by
  cases h with
  | searches => exact .unchanged rfl rfl
  | spawns => exact .unchanged rfl rfl

theorem Tries.tended {i generation : ℕ} {spawned : Bool} {choice : Choice}
    {submission : Submission Fingerprint} (h : Tries limits pool i submission spawned choice reached)
    (hsubmission : pool.submissions i = some submission)
    (hcalling : submission.calling = .choosing choice) :
    pool.Tended (.choose i generation spawned) reached := by
  cases h with
  | alone hempty hextends => exact hextends.tended
  | unweighed hextends => exact hextends.tended
  | loaded hroom hextends => exact hextends.tended
  | started hspawned =>
      subst hspawned
      exact .spawned hsubmission hcalling
  | @evicted generation worker hworker =>
      obtain ⟨hthread, hqueue⟩ := PersistentWorker.stopAccepting_appends worker
      exact .told hworker .stopped hthread hqueue rfl rfl
  | _ => exact .unchanged rfl rfl

theorem tended_turn {generation job : ℕ} {event : TurnEvent} {stage : Stage}
    {worker : PersistentWorker Fingerprint} (hworker : pool.workers generation = some worker)
    (hthread : worker.thread = .executing job stage)
    (hturn : pool.turn generation worker job stage event = some reached) :
    pool.Tended (.turn generation event) reached := by
  obtain ⟨submission, hsubmission, hturn⟩ := Option.bind_eq_some_iff.mp hturn
  obtain ⟨next, hnext, rfl⟩ := Option.map_eq_some_iff.mp hturn
  exact .changed rfl hworker (PersistentWorker.becomes_advance hthread next.1) rfl rfl

theorem Moved.tended {action : Action Fingerprint} (h : Moved limits pool action reached) :
    pool.Tended action reached := by
  cases h with
  | submitted => exact .unchanged rfl rfl
  | acted => exact .unchanged rfl rfl
  | locked => exact .unchanged rfl rfl
  | tried hsubmission hcalling htried =>
      exact (tries_of_tryWorker htried).tended hsubmission hcalling
  | @sent i generation submission worker hsubmission hcalling hworker =>
      rw [send]
      split
      case isTrue => exact .unchanged rfl rfl
      case isFalse hopen =>
        rw [not_or, Bool.not_eq_false] at hopen
        exact .told hworker (.queued hopen.1 hopen.2) rfl ⟨_, rfl⟩ rfl rfl
  | worked hworker hworks => exact .changed rfl hworker hworks.becomes rfl rfl
  | began hworker hthread hsubmission =>
      rw [begin]
      split
      · exact .changed rfl hworker (.began hthread) rfl rfl
      · exact .changed rfl hworker (.refused hthread) rfl rfl
  | turned hworker hthread hturn => exact tended_turn hworker hthread hturn
  | announced hworker hthread => exact .changed rfl hworker (.announced hthread) rfl rfl
  | replied hworker hthread => exact .changed rfl hworker (.replied hthread) rfl rfl
  | unlisted hworker hthread => exact .changed rfl hworker (.unlisted hthread) rfl rfl
  | exited hworker hthread => exact .changed rfl hworker (.exited hthread) rfl rfl
  | @crashed generation job stage worker hworker hthread =>
      obtain ⟨hworkers, hnext, -, -⟩ := answers_frame (pool.setWorker generation
        { worker with queue := [], thread := .crashed, live := false }) .failed worker.jobs
      exact .changed rfl hworker (.crashed hthread) hworkers hnext

/-- Every worker is still there, and none is new. -/
structure Kept (pool reached : Pool Fingerprint) : Prop where
  nextGeneration : reached.nextGeneration = pool.nextGeneration
  becomes : ∀ generation worker, pool.workers generation = some worker →
    ∃ after, reached.workers generation = some after ∧ worker.Becomes after
  known : ∀ generation after, reached.workers generation = some after →
    ∃ worker, pool.workers generation = some worker ∧ worker.Becomes after

omit [DecidableEq Fingerprint] in
theorem Kept.of_eq (hworkers : reached.workers = pool.workers)
    (hnext : reached.nextGeneration = pool.nextGeneration) : pool.Kept reached where
  nextGeneration := hnext
  becomes := by
    intro generation worker hworker
    exact ⟨worker, by rw [hworkers, hworker], .same⟩
  known := by
    intro generation after hafter
    exact ⟨after, by rw [← hworkers, hafter], .same⟩

omit [DecidableEq Fingerprint] in
theorem kept_setWorker {generation : ℕ} {worker after : PersistentWorker Fingerprint}
    (hworker : pool.workers generation = some worker) (hbecomes : worker.Becomes after)
    (hworkers : reached.workers = Function.update pool.workers generation (some after))
    (hnext : reached.nextGeneration = pool.nextGeneration) : pool.Kept reached where
  nextGeneration := hnext
  becomes := by
    intro other before hbefore
    by_cases hother : other = generation
    · subst hother
      rw [hworker] at hbefore
      obtain rfl := Option.some.inj hbefore
      exact ⟨after, by rw [hworkers, Function.update_self], hbecomes⟩
    · exact ⟨before, by rw [hworkers, Function.update_of_ne hother, hbefore], .same⟩
  known := by
    intro other found hfound
    rw [hworkers] at hfound
    by_cases hother : other = generation
    · subst hother
      rw [Function.update_self] at hfound
      obtain rfl := Option.some.inj hfound
      exact ⟨worker, hworker, hbecomes⟩
    · rw [Function.update_of_ne hother] at hfound
      exact ⟨found, hfound, .same⟩

theorem Tended.cases {action : Action Fingerprint} (h : pool.Tended action reached) :
    pool.Kept reached ∨ ∃ i generation submission, action = .choose i generation true ∧
      pool.submissions i = some submission ∧ submission.calling = .choosing .spawning ∧
      reached = pool.spawn i submission := by
  cases h with
  | unchanged hworkers hnext => exact Or.inl (.of_eq hworkers hnext)
  | told hworker hbecomes _ _ hworkers hnext =>
      exact Or.inl (kept_setWorker hworker hbecomes hworkers hnext)
  | changed _ hworker hbecomes hworkers hnext =>
      exact Or.inl (kept_setWorker hworker hbecomes hworkers hnext)
  | spawned hsubmission hcalling =>
      exact Or.inr ⟨_, _, _, rfl, hsubmission, hcalling, rfl⟩

end Pool

end Mews.AcpRuntimePool
