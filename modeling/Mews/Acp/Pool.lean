import Mews.Acp.Session
import Mathlib.Data.List.Basic
import Mathlib.Logic.Function.Basic

/-!
# The pool of ACP Harness processes

A Turn is handed as a job to a worker: a thread with a queue and at most one process of
the Harness.  The pool finds the worker of a Turn by what the process is launched from
and by the Session; it holds the lock of its groups while it does so, but the
counters of the workers move meanwhile.  Callers and workers take their steps one after
the other, in any order.
-/

namespace Mews

inductive LifecycleHook where
  | turnStart
  | beforeModel
  | beforeTool
  | afterTool
  | afterStep
  | turnEnd
  deriving DecidableEq, Repr

namespace AcpRuntimePool

inductive JobState where
  | queued
  | running
  | cancelled
  deriving DecidableEq, Repr

/-- What `execute_turn` returns. -/
inductive Reply where
  | executed
  | failed
  | cancelled
  deriving DecidableEq, Repr

/-! ## One Turn on a worker -/

/-- What an attempt returns; `restarts` is an error whose text asks for a fresh adapter. -/
inductive Attempted where
  | succeeded
  | restarts
  | cancelled
  | failed
  deriving DecidableEq, Repr

def Attempted.reply : Attempted → Reply
  | .succeeded => .executed
  | .cancelled => .cancelled
  | _ => .failed

/-- How far `execute_acp_turn_inner_cached` has come. -/
inductive Stage where
  | entered (invokeTurnStart : Bool)
  | starting
  | attempting
  | attempted (result : Attempted)
  /-- `turn_end` is next; `reported` says whether the event sink took `after_step`. -/
  | ending (result : Attempted) (reported : Bool)
  | returned (reply : Reply)
  deriving DecidableEq, Repr

inductive TurnEvent where
  /-- The Turn begins; the cached process could be inspected or not. -/
  | enter (inspected : Bool)
  /-- The hook `turn_start` has answered. -/
  | started
  /-- A hook of the Session itself. -/
  | hook (hook : LifecycleHook)
  | result (result : Attempted)
  | conclude (reported : Bool)
  | finish (reported : Bool)
  deriving DecidableEq, Repr

/-- The next stage, and the hooks that are invoked on the way. -/
def Stage.step (hookMetadata : Option AcpHookMetadata) (cancelled : Bool) :
    Stage → TurnEvent → Option (Stage × List LifecycleHook)
  | .entered invokeTurnStart, .enter inspected =>
      if cancelled then some (.attempted .cancelled, [])
      else if inspected = false then some (.attempted .failed, [])
      else if hookMetadata.isSome && invokeTurnStart then some (.starting, [.turnStart])
      else some (.attempting, [])
  | .starting, .started => some (.attempting, [])
  | .starting, .result result =>
      if result = .succeeded then none else some (.attempted result, [])
  | .attempting, .hook hook =>
      if hook = .beforeModel ∨ hook = .beforeTool ∨ hook = .afterTool then
        some (.attempting, [hook])
      else none
  | .attempting, .result result => some (.attempted result, [])
  | .attempted .restarts, .conclude _ => some (.entered false, [])
  | .attempted result, .conclude reported =>
      if hookMetadata.isNone then some (.returned result.reply, [])
      else if result = .succeeded then some (.ending result reported, [.afterStep])
      else some (.ending result true, [])
  | .ending result reported, .finish reported' =>
      some (.returned (if reported && reported' then result.reply else .failed), [.turnEnd])
  | _, _ => none

/-! ## Callers and workers -/

/-- What `try_worker` is at while it holds the lock of the groups. -/
inductive Choice where
  /-- Workers whose `is_accepting` is still to be read. -/
  | pruning (unread : List ℕ)
  /-- `min_by_key`: the workers of the group to come, and the least loaded one so far. -/
  | weighing (unread : List ℕ) (least : Option (ℕ × ℕ))
  /-- The load of the least loaded worker is read once more. -/
  | weighed (generation : ℕ)
  | spawning
  /-- Workers that may still be idle. -/
  | searching (unread : List ℕ)
  | evicting (generation : ℕ)
  /-- `min_by_key` again: a busy worker can queue the Turn. -/
  | queueing (unread : List ℕ) (least : Option (ℕ × ℕ))
  deriving DecidableEq, Repr

/-- How far `execute_persistent_acp_turn` has come. -/
inductive Calling where
  | selecting
  /-- The notification is enabled. -/
  | registered
  | choosing (choice : Choice)
  | asleep
  | holding (generation : ℕ)
  /-- The job is accepted. -/
  | awaiting (generation : ℕ)
  /-- `finalize_cancelled_before_start`. -/
  | finalizing
  | returned (reply : Reply)
  | dropped
  deriving DecidableEq, Repr

/-- A call of `execute_turn` with its job.  `notified` says whether the workers have notified
since the notification was enabled, and `result` is what is in the channel of the
result.  The last fields are the history: the worker that has accepted the job, how often
the job was run, and the hooks of the Turn. -/
structure Submission (Fingerprint : Type) where
  fingerprint : Fingerprint
  sessionKey : String
  hookMetadata : Option AcpHookMetadata
  calling : Calling
  notified : Bool
  jobState : JobState
  cancellation : Bool
  observeCancellation : Bool
  result : Option Reply
  sentTo : Option ℕ
  executions : ℕ
  hooks : List LifecycleHook
  deriving DecidableEq

inductive PersistentCommand where
  | execute (job : ℕ)
  | shutdown
  deriving DecidableEq, Repr

/-- What the thread of a worker is at. -/
inductive Thread where
  | receiving
  | took (job : ℕ)
  | executing (job : ℕ) (stage : Stage)
  | finished (job : ℕ) (reply : Reply)
  /-- The job is no longer pending. -/
  | counted (job : ℕ) (reply : Reply)
  | announced (job : ℕ) (reply : Reply)
  /-- The loop is left. -/
  | leaving
  | closed
  | unlisted
  | shut
  | ended
  /-- The code of a Turn has panicked. -/
  | crashed
  deriving DecidableEq, Repr

/-- `live` says whether the worker holds a process of its Harness. -/
structure PersistentWorker (Fingerprint : Type) where
  fingerprint : Fingerprint
  accepting : Bool
  pending : ℕ
  queue : List PersistentCommand
  thread : Thread
  live : Bool
  deriving DecidableEq

/-- The groups of the pool: their workers in the order of their start, each with the
fingerprint of its group, and the session bindings.  A group without a worker does not
exist. -/
structure Groups (Fingerprint : Type) where
  entries : List (Fingerprint × ℕ)
  bindings : Fingerprint → String → Option ℕ

/-- Both limits are at least one. -/
structure Limits where
  maxProcessesPerFingerprint : ℕ
  maxTotalProcesses : ℕ
  perFingerprint_pos : 0 < maxProcessesPerFingerprint
  total_pos : 0 < maxTotalProcesses

def withLimits (maxProcessesPerFingerprint maxTotalProcesses : ℕ) : Limits where
  maxProcessesPerFingerprint := max maxProcessesPerFingerprint 1
  maxTotalProcesses := max maxTotalProcesses 1
  perFingerprint_pos := Nat.lt_of_lt_of_le Nat.zero_lt_one (Nat.le_max_right _ _)
  total_pos := Nat.lt_of_lt_of_le Nat.zero_lt_one (Nat.le_max_right _ _)

/-- `lockedBy` is the caller that holds the lock of the groups. -/
structure Pool (Fingerprint : Type) where
  groups : Groups Fingerprint
  lockedBy : Option ℕ
  nextGeneration : ℕ
  workers : ℕ → Option (PersistentWorker Fingerprint)
  submissions : ℕ → Option (Submission Fingerprint)

variable {Fingerprint : Type}

/-! ## The groups -/

namespace Groups

variable [DecidableEq Fingerprint] (groups : Groups Fingerprint)

def generations : List ℕ := groups.entries.map Prod.snd

/-- The workers of one group. -/
def workers (fingerprint : Fingerprint) : List ℕ :=
  (groups.entries.filter fun entry => entry.1 = fingerprint).map Prod.snd

/-- A worker leaves its group, and its session bindings go with it. -/
def retire (generation : ℕ) : Groups Fingerprint where
  entries := groups.entries.filter fun entry => entry.2 ≠ generation
  bindings := fun fingerprint key =>
    (groups.bindings fingerprint key).filter fun bound => bound ≠ generation

def bind (fingerprint : Fingerprint) (key : String) (bound : Option ℕ) : Groups Fingerprint :=
  { groups with
    bindings := Function.update groups.bindings fingerprint
      (Function.update (groups.bindings fingerprint) key bound) }

def push (fingerprint : Fingerprint) (generation : ℕ) : Groups Fingerprint :=
  { groups with entries := groups.entries ++ [(fingerprint, generation)] }

end Groups

/-! ## What a caller does by itself -/

/-- The history of a Turn that is finalised by its caller. -/
def Submission.finalized (submission : Submission Fingerprint) (reported : Bool) :
    Submission Fingerprint :=
  if submission.hookMetadata.isNone then { submission with calling := .returned .cancelled }
  else { submission with
    calling := .returned (if reported then .cancelled else .failed)
    hooks := submission.hooks ++ [.turnEnd] }

/-- The drop of an armed `CancelOnDrop`. -/
def Submission.cancelOnDrop (submission : Submission Fingerprint) : Submission Fingerprint :=
  { submission with
    jobState := if submission.jobState = .queued then .cancelled else submission.jobState
    cancellation := true }

inductive CallerAction where
  /-- The cancellation of the Turn is asked for. -/
  | cancel
  | register
  | wake
  /-- The cancellation is seen before a worker is found. -/
  | abort
  /-- The cancellation is seen while the job is with a worker. -/
  | observe
  | finalize (reported : Bool)
  | collect
  /-- The caller stops awaiting the Turn. -/
  | drop
  deriving DecidableEq, Repr

def Submission.act (submission : Submission Fingerprint) :
    CallerAction → Option (Submission Fingerprint)
  | .cancel => some { submission with cancellation := true }
  | .register =>
      if submission.calling = .selecting then
        some { submission with calling := .registered, notified := false }
      else none
  | .wake =>
      if submission.calling = .asleep ∧ submission.notified then
        some { submission with calling := .selecting }
      else none
  | .abort =>
      if (submission.calling = .selecting ∨ submission.calling = .asleep) ∧
          submission.cancellation then
        some { submission with calling := .finalizing }
      else none
  | .observe =>
      match submission.calling with
      | .awaiting _ =>
          if submission.observeCancellation && submission.cancellation then
            if submission.jobState = .queued then
              some { submission with jobState := .cancelled, calling := .finalizing }
            else some { submission with observeCancellation := false }
          else none
      | _ => none
  | .finalize reported =>
      if submission.calling = .finalizing then some (submission.finalized reported) else none
  | .collect =>
      match submission.calling, submission.result with
      | .awaiting _, some reply => some { submission with calling := .returned reply }
      | _, _ => none
  | .drop =>
      match submission.calling with
      | .selecting | .asleep | .awaiting _ =>
          some { submission.cancelOnDrop with calling := .dropped }
      -- the guard is disarmed
      | .finalizing => some { submission with calling := .dropped }
      | _ => none

namespace Submission

/-- An action of a caller with what it has found. -/
inductive Acts (submission : Submission Fingerprint) :
    CallerAction → Submission Fingerprint → Prop
  | cancelled : Acts submission .cancel { submission with cancellation := true }
  | registered (hcalling : submission.calling = .selecting) :
      Acts submission .register { submission with calling := .registered, notified := false }
  | woken (hcalling : submission.calling = .asleep) (hnotified : submission.notified = true) :
      Acts submission .wake { submission with calling := .selecting }
  | aborted (hcalling : submission.calling = .selecting ∨ submission.calling = .asleep) :
      Acts submission .abort { submission with calling := .finalizing }
  | withdrawn {generation : ℕ} (hcalling : submission.calling = .awaiting generation)
      (hqueued : submission.jobState = .queued) :
      Acts submission .observe { submission with jobState := .cancelled, calling := .finalizing }
  | observed {generation : ℕ} (hcalling : submission.calling = .awaiting generation)
      (hobserves : submission.observeCancellation = true) :
      Acts submission .observe { submission with observeCancellation := false }
  | finalized (hcalling : submission.calling = .finalizing) (reported : Bool) :
      Acts submission (.finalize reported) (submission.finalized reported)
  | collected {generation : ℕ} {reply : Reply} (hcalling : submission.calling = .awaiting generation)
      (hresult : submission.result = some reply) :
      Acts submission .collect { submission with calling := .returned reply }
  | dropped (hcalling : submission.calling = .selecting ∨ submission.calling = .asleep ∨
        ∃ generation, submission.calling = .awaiting generation) :
      Acts submission .drop { submission.cancelOnDrop with calling := .dropped }
  | abandoned (hcalling : submission.calling = .finalizing) :
      Acts submission .drop { submission with calling := .dropped }

theorem acts_of_act {submission after : Submission Fingerprint} {action : CallerAction}
    (hact : submission.act action = some after) : submission.Acts action after := by
  cases action with
  | cancel =>
      obtain rfl := Option.some.inj hact
      exact .cancelled
  | register =>
      rw [act] at hact
      split at hact
      case isTrue hcalling =>
        obtain rfl := Option.some.inj hact
        exact .registered hcalling
      case isFalse => cases hact
  | wake =>
      rw [act] at hact
      split at hact
      case isTrue hcalling =>
        obtain rfl := Option.some.inj hact
        exact .woken hcalling.1 hcalling.2
      case isFalse => cases hact
  | abort =>
      rw [act] at hact
      split at hact
      case isTrue hcalling =>
        obtain rfl := Option.some.inj hact
        exact .aborted hcalling.1
      case isFalse => cases hact
  | observe =>
      rw [act] at hact
      split at hact
      case h_1 hcalling =>
        split at hact
        case isTrue hobserves =>
          split at hact
          case isTrue hqueued =>
            obtain rfl := Option.some.inj hact
            exact .withdrawn hcalling hqueued
          case isFalse =>
            obtain rfl := Option.some.inj hact
            exact .observed hcalling (Bool.and_eq_true_iff.mp hobserves).1
        case isFalse => cases hact
      case h_2 => cases hact
  | finalize reported =>
      rw [act] at hact
      split at hact
      case isTrue hcalling =>
        obtain rfl := Option.some.inj hact
        exact .finalized hcalling reported
      case isFalse => cases hact
  | collect =>
      rw [act] at hact
      split at hact
      case h_1 hcalling hresult =>
        obtain rfl := Option.some.inj hact
        exact .collected hcalling hresult
      case h_2 => cases hact
  | drop =>
      rw [act] at hact
      split at hact
      case h_1 hcalling =>
        obtain rfl := Option.some.inj hact
        exact .dropped (Or.inl hcalling)
      case h_2 hcalling =>
        obtain rfl := Option.some.inj hact
        exact .dropped (Or.inr (Or.inl hcalling))
      case h_3 hcalling =>
        obtain rfl := Option.some.inj hact
        exact .dropped (Or.inr (Or.inr ⟨_, hcalling⟩))
      case h_4 hcalling =>
        obtain rfl := Option.some.inj hact
        exact .abandoned hcalling
      case h_5 => cases hact

end Submission

/-! ## What a worker does by itself -/

/-- `spawn_persistent_worker`. -/
def PersistentWorker.new (fingerprint : Fingerprint) : PersistentWorker Fingerprint where
  fingerprint := fingerprint
  accepting := true
  pending := 0
  queue := []
  thread := .receiving
  live := false

/-- `PersistentWorker::stop_accepting`. -/
def PersistentWorker.stopAccepting (worker : PersistentWorker Fingerprint) :
    PersistentWorker Fingerprint :=
  if worker.accepting then
    { worker with
      accepting := false
      -- nothing is sent to a thread that has panicked
      queue := if worker.thread = .crashed then worker.queue else worker.queue ++ [.shutdown] }
  else worker

inductive WorkerAction where
  | receive
  /-- The worker has been idle for too long. -/
  | timeout
  /-- A process is started in an attempt. -/
  | launch
  /-- The process is given up, or it has exited. -/
  | discard
  | count
  | leave
  | shutdown
  deriving DecidableEq, Repr

def PersistentWorker.act (worker : PersistentWorker Fingerprint) :
    WorkerAction → Option (PersistentWorker Fingerprint)
  | .receive =>
      match worker.thread, worker.queue with
      | .receiving, .execute job :: queue => some { worker with queue, thread := .took job }
      | .receiving, .shutdown :: queue => some { worker with queue, thread := .leaving }
      | _, _ => none
  | .timeout =>
      -- a command that came just in time is received
      if worker.thread = .receiving ∧ worker.queue = [] then
        some { worker with accepting := false, thread := .leaving }
      else none
  | .launch =>
      match worker.thread with
      | .executing _ .attempting => if worker.live then none else some { worker with live := true }
      | _ => none
  | .discard =>
      match worker.thread with
      | .executing _ _ => some { worker with live := false }
      | _ => none
  | .count =>
      match worker.thread with
      | .finished job reply =>
          some { worker with pending := worker.pending - 1, thread := .counted job reply }
      | _ => none
  | .leave =>
      if worker.thread = .leaving then
        some { worker with accepting := false, thread := .closed }
      else none
  | .shutdown =>
      if worker.thread = .unlisted then some { worker with live := false, thread := .shut }
      else none

/-- The worker after a step of the Turn; every error drops the process, in the Turn or in
the loop of the worker. -/
def PersistentWorker.advance (worker : PersistentWorker Fingerprint) (job : ℕ) :
    Stage → PersistentWorker Fingerprint
  | .returned reply => { worker with
      thread := .finished job reply
      live := worker.live && reply = .executed }
  | .entered invokeTurnStart => { worker with
      thread := .executing job (.entered invokeTurnStart)
      live := false }
  | stage => { worker with thread := .executing job stage }

namespace PersistentWorker

/-- An action of a worker with what it has found. -/
inductive Works (worker : PersistentWorker Fingerprint) :
    WorkerAction → PersistentWorker Fingerprint → Prop
  | received {job : ℕ} {queue : List PersistentCommand} (hthread : worker.thread = .receiving)
      (hqueue : worker.queue = .execute job :: queue) :
      Works worker .receive { worker with queue, thread := .took job }
  | dismissed {queue : List PersistentCommand} (hthread : worker.thread = .receiving)
      (hqueue : worker.queue = .shutdown :: queue) :
      Works worker .receive { worker with queue, thread := .leaving }
  | idled (hthread : worker.thread = .receiving) (hqueue : worker.queue = []) :
      Works worker .timeout { worker with accepting := false, thread := .leaving }
  | launched {job : ℕ} (hthread : worker.thread = .executing job .attempting)
      (hlive : worker.live = false) : Works worker .launch { worker with live := true }
  | discarded {job : ℕ} {stage : Stage} (hthread : worker.thread = .executing job stage) :
      Works worker .discard { worker with live := false }
  | counted {job : ℕ} {reply : Reply} (hthread : worker.thread = .finished job reply) :
      Works worker .count
        { worker with pending := worker.pending - 1, thread := .counted job reply }
  | left (hthread : worker.thread = .leaving) :
      Works worker .leave { worker with accepting := false, thread := .closed }
  | shut (hthread : worker.thread = .unlisted) :
      Works worker .shutdown { worker with live := false, thread := .shut }

theorem works_of_act {worker acted : PersistentWorker Fingerprint} {action : WorkerAction}
    (hact : worker.act action = some acted) : worker.Works action acted := by
  cases action with
  | receive =>
      rw [act] at hact
      split at hact
      case h_1 hthread hqueue =>
        obtain rfl := Option.some.inj hact
        exact .received hthread hqueue
      case h_2 hthread hqueue =>
        obtain rfl := Option.some.inj hact
        exact .dismissed hthread hqueue
      case h_3 => cases hact
  | timeout =>
      rw [act] at hact
      split at hact
      case isTrue hidle =>
        obtain rfl := Option.some.inj hact
        exact .idled hidle.1 hidle.2
      case isFalse => cases hact
  | launch =>
      rw [act] at hact
      split at hact
      case h_1 job hthread =>
        split at hact
        case isTrue => cases hact
        case isFalse hlive =>
          obtain rfl := Option.some.inj hact
          exact .launched hthread (Bool.not_eq_true _ ▸ hlive)
      case h_2 => cases hact
  | discard =>
      rw [act] at hact
      split at hact
      case h_1 hthread =>
        obtain rfl := Option.some.inj hact
        exact .discarded hthread
      case h_2 => cases hact
  | count =>
      rw [act] at hact
      split at hact
      case h_1 hthread =>
        obtain rfl := Option.some.inj hact
        exact .counted hthread
      case h_2 => cases hact
  | leave =>
      rw [act] at hact
      split at hact
      case isTrue hthread =>
        obtain rfl := Option.some.inj hact
        exact .left hthread
      case isFalse => cases hact
  | shutdown =>
      rw [act] at hact
      split at hact
      case isTrue hthread =>
        obtain rfl := Option.some.inj hact
        exact .shut hthread
      case isFalse => cases hact

end PersistentWorker

/-- The job that a thread has in hand. -/
def Thread.inHand : Thread → Option ℕ
  | .took job | .executing job _ | .finished job _ | .counted job _ | .announced job _ => some job
  | _ => none

def PersistentCommand.job : PersistentCommand → Option ℕ
  | .execute job => some job
  | .shutdown => none

/-- The jobs that are with a worker. -/
def PersistentWorker.jobs (worker : PersistentWorker Fingerprint) : List ℕ :=
  worker.thread.inHand.toList ++ worker.queue.filterMap PersistentCommand.job

/-! ## The pool -/

namespace Pool

section Steps

variable (pool : Pool Fingerprint)

def initial : Pool Fingerprint where
  groups := { entries := [], bindings := fun _ _ => none }
  lockedBy := none
  nextGeneration := 1
  workers := fun _ => none
  submissions := fun _ => none

def setSubmission (i : ℕ) (submission : Submission Fingerprint) : Pool Fingerprint :=
  { pool with submissions := Function.update pool.submissions i (some submission) }

def setWorker (generation : ℕ) (worker : PersistentWorker Fingerprint) : Pool Fingerprint :=
  { pool with workers := Function.update pool.workers generation (some worker) }

/-- `notify_waiters`. -/
def notifyWaiters : Pool Fingerprint :=
  { pool with submissions := fun i =>
      (pool.submissions i).map fun submission => { submission with notified := true } }

/-- The result of a job reaches a caller that still awaits it. -/
def answer (job : ℕ) (reply : Reply) : Pool Fingerprint :=
  { pool with submissions := fun i =>
      if i = job then (pool.submissions i).map fun submission =>
        match submission.calling with
        | .awaiting _ => { submission with result := submission.result.or (some reply) }
        | _ => submission
      else pool.submissions i }

/-- The lock is released. -/
def choose (i : ℕ) (submission : Submission Fingerprint) (calling : Calling) :
    Pool Fingerprint :=
  { pool.setSubmission i { submission with calling } with lockedBy := none }

variable [DecidableEq Fingerprint]

/-- The next step of `try_worker`. -/
def goOn (i : ℕ) (submission : Submission Fingerprint) (choice : Choice) : Pool Fingerprint :=
  pool.setSubmission i { submission with calling := .choosing choice }

/-- The Turn sticks to the worker. -/
def stick (i : ℕ) (submission : Submission Fingerprint) (generation : ℕ) : Pool Fingerprint :=
  { pool.choose i submission (.holding generation) with
    groups := pool.groups.bind submission.fingerprint submission.sessionKey (some generation) }

/-- The read of one load by `min_by_key`, which keeps the first of equal ones. -/
def weigh (generation : ℕ) (least : Option (ℕ × ℕ)) : Option (ℕ × ℕ) :=
  match pool.workers generation, least with
  | some worker, some (best, load) =>
      if worker.pending < load then some (generation, worker.pending) else some (best, load)
  | some worker, none => some (generation, worker.pending)
  | none, least => least

variable (limits : Limits)

/-- No worker of the group will do. -/
def extend (i : ℕ) (submission : Submission Fingerprint) : Pool Fingerprint :=
  if limits.maxTotalProcesses ≤ pool.groups.entries.length then
    pool.goOn i submission (.searching pool.groups.generations)
  else pool.goOn i submission .spawning

/-- The worker of the Session, or the least loaded one of the group. -/
def select (i : ℕ) (submission : Submission Fingerprint) : Pool Fingerprint :=
  let workers := pool.groups.workers submission.fingerprint
  if workers = [] then pool.extend limits i submission
  else
    match pool.groups.bindings submission.fingerprint submission.sessionKey with
    | some bound =>
        if bound ∈ workers then pool.choose i submission (.holding bound)
        else { pool.goOn i submission (.weighing workers none) with
          groups := pool.groups.bind submission.fingerprint submission.sessionKey none }
    | none => pool.goOn i submission (.weighing workers none)

/-- `spawn_worker`, with the entry for it. -/
def spawn (i : ℕ) (submission : Submission Fingerprint) : Pool Fingerprint :=
  let generation := pool.nextGeneration
  { pool.choose i submission (.holding generation) with
    groups := (pool.groups.push submission.fingerprint generation).bind
      submission.fingerprint submission.sessionKey (some generation)
    nextGeneration := generation + 1
    workers := Function.update pool.workers generation
      (some (PersistentWorker.new submission.fingerprint)) }

/-- `try_worker`, one read of a shared counter after the other.  The groups are a hash map:
a generation says which worker is read next where they are iterated. -/
def tryWorker (i : ℕ) (submission : Submission Fingerprint) (generation : ℕ) (spawned : Bool) :
    Choice → Option (Pool Fingerprint)
  | .pruning [] => some (pool.select limits i submission)
  | .pruning unread =>
      if generation ∈ unread then
        (pool.workers generation).map fun worker =>
          { pool.goOn i submission (.pruning (unread.erase generation)) with
            groups :=
              if worker.accepting then pool.groups else pool.groups.retire generation }
      else none
  | .weighing [] none => some (pool.extend limits i submission)
  | .weighing [] (some (best, _)) => some (pool.goOn i submission (.weighed best))
  | .weighing (next :: unread) least =>
      some (pool.goOn i submission (.weighing unread (pool.weigh next least)))
  | .weighed best =>
      (pool.workers best).map fun worker =>
        if worker.pending = 0 ∨ limits.maxProcessesPerFingerprint ≤
            (pool.groups.workers submission.fingerprint).length then
          pool.stick i submission best
        else pool.extend limits i submission
  | .spawning =>
      if spawned then some (pool.spawn i submission)
      else some (pool.choose i submission.cancelOnDrop (.returned .failed))
  | .searching [] =>
      some (pool.goOn i submission
        (.queueing (pool.groups.workers submission.fingerprint) none))
  | .searching unread =>
      if generation ∈ unread then
        (pool.workers generation).map fun worker =>
          if worker.pending = 0 then pool.goOn i submission (.evicting generation)
          else pool.goOn i submission (.searching (unread.erase generation))
      else none
  | .evicting idle =>
      (pool.workers idle).map fun worker =>
        { (pool.setWorker idle worker.stopAccepting).choose i submission .asleep with
          groups := pool.groups.retire idle }
  | .queueing [] none => some (pool.choose i submission .asleep)
  | .queueing [] (some (best, _)) => some (pool.stick i submission best)
  | .queueing (next :: unread) least =>
      some (pool.goOn i submission (.queueing unread (pool.weigh next least)))

/-- `PersistentWorker::send`. -/
def send (i : ℕ) (submission : Submission Fingerprint) (generation : ℕ)
    (worker : PersistentWorker Fingerprint) : Pool Fingerprint :=
  -- a thread that has panicked no longer has its end of the channel
  if worker.accepting = false ∨ worker.thread = .crashed then
    pool.setSubmission i { submission with calling := .selecting }
  else
    (pool.setSubmission i { submission with
      calling := .awaiting generation
      sentTo := some generation }).setWorker generation
        { worker with
          pending := worker.pending + 1
          queue := worker.queue ++ [.execute i] }

end Steps

end Pool

inductive Action (Fingerprint : Type) where
  | submit (i : ℕ) (fingerprint : Fingerprint) (sessionKey : String)
      (hookMetadata : Option AcpHookMetadata)
  | caller (i : ℕ) (action : CallerAction)
  | lock (i : ℕ)
  | choose (i : ℕ) (generation : ℕ) (spawned : Bool)
  | send (i : ℕ)
  | worker (generation : ℕ) (action : WorkerAction)
  /-- The job state is compared and exchanged. -/
  | begin (generation : ℕ)
  | turn (generation : ℕ) (event : TurnEvent)
  | announce (generation : ℕ)
  | reply (generation : ℕ)
  | unlist (generation : ℕ)
  | announceExit (generation : ℕ)
  | crash (generation : ℕ)
  deriving DecidableEq

/-- The worker whose thread takes the step. -/
def Action.worker? : Action Fingerprint → Option ℕ
  | .worker generation _ | .begin generation | .turn generation _ | .announce generation
  | .reply generation | .unlist generation | .announceExit generation | .crash generation =>
      some generation
  | _ => none

/-- The call that takes the step. -/
def Action.caller? : Action Fingerprint → Option ℕ
  | .caller i _ | .lock i | .choose i _ _ | .send i => some i
  | _ => none

namespace Pool

variable [DecidableEq Fingerprint] (limits : Limits)

def submit (fingerprint : Fingerprint) (sessionKey : String)
    (hookMetadata : Option AcpHookMetadata) : Submission Fingerprint where
  fingerprint := fingerprint
  sessionKey := sessionKey
  hookMetadata := hookMetadata
  calling := if sessionKey = "" then .returned .failed else .selecting
  notified := false
  jobState := .queued
  cancellation := false
  observeCancellation := true
  result := none
  sentTo := none
  executions := 0
  hooks := []

/-- What a Turn does next on its worker. -/
def turn (pool : Pool Fingerprint) (generation : ℕ) (worker : PersistentWorker Fingerprint)
    (job : ℕ) (stage : Stage) (event : TurnEvent) : Option (Pool Fingerprint) :=
  (pool.submissions job).bind fun submission =>
    (stage.step submission.hookMetadata submission.cancellation event).map fun next =>
      (pool.setSubmission job { submission with hooks := submission.hooks ++ next.2 }).setWorker
        generation (worker.advance job next.1)

def begin (pool : Pool Fingerprint) (generation : ℕ) (worker : PersistentWorker Fingerprint)
    (job : ℕ) (submission : Submission Fingerprint) : Pool Fingerprint :=
  if submission.jobState = .queued then
    (pool.setSubmission job { submission with
      jobState := .running
      executions := submission.executions + 1 }).setWorker generation
        { worker with
          thread := .executing job
            (.entered (submission.hookMetadata.any AcpHookMetadata.invokeTurnStart)) }
  else pool.setWorker generation { worker with thread := .finished job .cancelled }

def step (pool : Pool Fingerprint) : Action Fingerprint → Option (Pool Fingerprint)
  | .submit i fingerprint sessionKey hookMetadata =>
      if (pool.submissions i).isNone then
        some (pool.setSubmission i (submit fingerprint sessionKey hookMetadata))
      else none
  | .caller i action =>
      (pool.submissions i).bind fun submission =>
        (submission.act action).map fun acted => pool.setSubmission i acted
  | .lock i =>
      (pool.submissions i).bind fun submission =>
        if submission.calling = .registered ∧ pool.lockedBy = none then
          some { pool.goOn i submission (.pruning pool.groups.generations) with
            lockedBy := some i }
        else none
  | .choose i generation spawned =>
      (pool.submissions i).bind fun submission =>
        match submission.calling with
        | .choosing choice => pool.tryWorker limits i submission generation spawned choice
        | _ => none
  | .send i =>
      (pool.submissions i).bind fun submission =>
        match submission.calling with
        | .holding generation =>
            (pool.workers generation).map fun worker => pool.send i submission generation worker
        | _ => none
  | .worker generation action =>
      (pool.workers generation).bind fun worker =>
        (worker.act action).map fun acted => pool.setWorker generation acted
  | .begin generation =>
      (pool.workers generation).bind fun worker =>
        match worker.thread with
        | .took job =>
            (pool.submissions job).map fun submission =>
              pool.begin generation worker job submission
        | _ => none
  | .turn generation event =>
      (pool.workers generation).bind fun worker =>
        match worker.thread with
        | .executing job stage => pool.turn generation worker job stage event
        | _ => none
  | .announce generation =>
      (pool.workers generation).bind fun worker =>
        match worker.thread with
        | .counted job reply =>
            some (pool.setWorker generation
              { worker with thread := .announced job reply }).notifyWaiters
        | _ => none
  | .reply generation =>
      (pool.workers generation).bind fun worker =>
        match worker.thread with
        | .announced job reply =>
            some ((pool.setWorker generation { worker with thread := .receiving }).answer job
              reply)
        | _ => none
  | .unlist generation =>
      (pool.workers generation).bind fun worker =>
        if worker.thread = .closed ∧ pool.lockedBy = none then
          some { pool.setWorker generation { worker with thread := .unlisted } with
            groups := pool.groups.retire generation }
        else none
  | .announceExit generation =>
      (pool.workers generation).bind fun worker =>
        if worker.thread = .shut then
          some (pool.setWorker generation { worker with thread := .ended }).notifyWaiters
        else none
  | .crash generation =>
      (pool.workers generation).bind fun worker =>
        match worker.thread with
        | .executing _ _ =>
            -- the channel is closed with all the jobs in it
            some (worker.jobs.foldl (fun left job => left.answer job .failed)
              (pool.setWorker generation
                { worker with queue := [], thread := .crashed, live := false }))
        | _ => none

/-- A run from a pool, as long as every step is allowed where it is taken. -/
def runs (allowed : Pool Fingerprint → Action Fingerprint → Bool) (pool : Pool Fingerprint) :
    List (Action Fingerprint) → Option (Pool Fingerprint)
  | [] => some pool
  | action :: actions =>
      if allowed pool action then
        (pool.step limits action).bind fun reached => reached.runs allowed actions
      else none

/-! ## What a step does -/

variable {limits} {pool reached : Pool Fingerprint}

/-- Where the search goes when no worker of the group will do. -/
inductive Extends (limits : Limits) (pool : Pool Fingerprint) (i : ℕ)
    (submission : Submission Fingerprint) : Pool Fingerprint → Prop
  | searches (hfull : limits.maxTotalProcesses ≤ pool.groups.entries.length) :
      Extends limits pool i submission (pool.goOn i submission (.searching pool.groups.generations))
  | spawns (hroom : pool.groups.entries.length < limits.maxTotalProcesses) :
      Extends limits pool i submission (pool.goOn i submission .spawning)

omit [DecidableEq Fingerprint] in
theorem extends_extend (i : ℕ) (submission : Submission Fingerprint) :
    Extends limits pool i submission (pool.extend limits i submission) := by
  rw [extend]
  split
  case isTrue hfull => exact .searches hfull
  case isFalse hroom => exact .spawns (Nat.lt_of_not_le hroom)

/-- A step of `try_worker` with what it has found. -/
inductive Tries (limits : Limits) (pool : Pool Fingerprint) (i : ℕ)
    (submission : Submission Fingerprint) (spawned : Bool) : Choice → Pool Fingerprint → Prop
  | alone {reached : Pool Fingerprint}
      (hempty : pool.groups.workers submission.fingerprint = [])
      (hextends : Extends limits pool i submission reached) :
      Tries limits pool i submission spawned (.pruning []) reached
  | bound {generation : ℕ} (hbinding : pool.groups.bindings submission.fingerprint
        submission.sessionKey = some generation)
      (hmem : generation ∈ pool.groups.workers submission.fingerprint) :
      Tries limits pool i submission spawned (.pruning []) (pool.choose i submission (.holding generation))
  | unbound {generation : ℕ} (hbinding : pool.groups.bindings submission.fingerprint
        submission.sessionKey = some generation)
      (hmem : generation ∉ pool.groups.workers submission.fingerprint) :
      Tries limits pool i submission spawned (.pruning [])
        { pool.goOn i submission
            (.weighing (pool.groups.workers submission.fingerprint) none) with
          groups := pool.groups.bind submission.fingerprint submission.sessionKey none }
  | free (hbinding : pool.groups.bindings submission.fingerprint submission.sessionKey = none) :
      Tries limits pool i submission spawned (.pruning [])
        (pool.goOn i submission (.weighing (pool.groups.workers submission.fingerprint) none))
  | pruned {generation : ℕ} {unread : List ℕ} {worker : PersistentWorker Fingerprint}
      (hunread : generation ∈ unread) (hworker : pool.workers generation = some worker) :
      Tries limits pool i submission spawned (.pruning unread)
        { pool.goOn i submission (.pruning (unread.erase generation)) with
          groups := if worker.accepting then pool.groups else pool.groups.retire generation }
  | unweighed {reached : Pool Fingerprint} (hextends : Extends limits pool i submission reached) :
      Tries limits pool i submission spawned (.weighing [] none) reached
  | leastWeighed (best load : ℕ) :
      Tries limits pool i submission spawned (.weighing [] (some (best, load)))
        (pool.goOn i submission (.weighed best))
  | weighs (next : ℕ) (unread : List ℕ) (least : Option (ℕ × ℕ)) :
      Tries limits pool i submission spawned (.weighing (next :: unread) least)
        (pool.goOn i submission (.weighing unread (pool.weigh next least)))
  | shares {best : ℕ} {worker : PersistentWorker Fingerprint}
      (hworker : pool.workers best = some worker) :
      Tries limits pool i submission spawned (.weighed best) (pool.stick i submission best)
  | loaded {best : ℕ} {reached : Pool Fingerprint}
      (hroom : (pool.groups.workers submission.fingerprint).length <
        limits.maxProcessesPerFingerprint)
      (hextends : Extends limits pool i submission reached) :
      Tries limits pool i submission spawned (.weighed best) reached
  | started (hspawned : spawned = true) :
      Tries limits pool i submission spawned .spawning (pool.spawn i submission)
  | unstarted : Tries limits pool i submission spawned .spawning
      (pool.choose i submission.cancelOnDrop (.returned .failed))
  | searched : Tries limits pool i submission spawned (.searching [])
      (pool.goOn i submission (.queueing (pool.groups.workers submission.fingerprint) none))
  | idle {generation : ℕ} {unread : List ℕ} {worker : PersistentWorker Fingerprint}
      (hunread : generation ∈ unread) (hworker : pool.workers generation = some worker)
      (hidle : worker.pending = 0) :
      Tries limits pool i submission spawned (.searching unread)
        (pool.goOn i submission (.evicting generation))
  | busy {generation : ℕ} {unread : List ℕ} {worker : PersistentWorker Fingerprint}
      (hunread : generation ∈ unread) (hworker : pool.workers generation = some worker)
      (hbusy : worker.pending ≠ 0) :
      Tries limits pool i submission spawned (.searching unread)
        (pool.goOn i submission (.searching (unread.erase generation)))
  | evicted {generation : ℕ} {worker : PersistentWorker Fingerprint}
      (hworker : pool.workers generation = some worker) :
      Tries limits pool i submission spawned (.evicting generation)
        { (pool.setWorker generation worker.stopAccepting).choose i submission .asleep with
          groups := pool.groups.retire generation }
  | sleeps : Tries limits pool i submission spawned (.queueing [] none)
      (pool.choose i submission .asleep)
  | queued (best load : ℕ) : Tries limits pool i submission spawned (.queueing [] (some (best, load)))
      (pool.stick i submission best)
  | queues (next : ℕ) (unread : List ℕ) (least : Option (ℕ × ℕ)) :
      Tries limits pool i submission spawned (.queueing (next :: unread) least)
        (pool.goOn i submission (.queueing unread (pool.weigh next least)))

theorem tries_select (i : ℕ) (submission : Submission Fingerprint) (spawned : Bool) :
    Tries limits pool i submission spawned (.pruning []) (pool.select limits i submission) := by
  rw [select]
  split
  case isTrue hempty => exact .alone hempty (extends_extend i submission)
  case isFalse =>
    split
    case h_1 hbinding =>
      split
      case isTrue hmem => exact .bound hbinding hmem
      case isFalse hmem => exact .unbound hbinding hmem
    case h_2 hbinding => exact .free hbinding

theorem tries_of_tryWorker {i generation : ℕ} {spawned : Bool} {choice : Choice}
    {submission : Submission Fingerprint}
    (htried : pool.tryWorker limits i submission generation spawned choice = some reached) :
    Tries limits pool i submission spawned choice reached := by
  cases choice with
  | pruning unread =>
      cases unread with
      | nil =>
          obtain rfl := Option.some.inj htried
          exact tries_select i submission spawned
      | cons next unread =>
          rw [tryWorker] at htried
          · split at htried
            case isTrue hunread =>
              obtain ⟨worker, hworker, rfl⟩ := Option.map_eq_some_iff.mp htried
              exact .pruned hunread hworker
            case isFalse => cases htried
          · intro hnil
            cases hnil
  | weighing unread least =>
      cases unread with
      | nil =>
          cases least with
          | none =>
              obtain rfl := Option.some.inj htried
              exact .unweighed (extends_extend i submission)
          | some best =>
              obtain rfl := Option.some.inj htried
              exact .leastWeighed best.1 best.2
      | cons next unread =>
          obtain rfl := Option.some.inj htried
          exact .weighs next unread least
  | weighed best =>
      obtain ⟨worker, hworker, rfl⟩ := Option.map_eq_some_iff.mp htried
      split
      case isTrue => exact .shares hworker
      case isFalse hbusy =>
        rw [not_or, Nat.not_le] at hbusy
        exact .loaded hbusy.2 (extends_extend i submission)
  | spawning =>
      cases spawned with
      | true =>
          obtain rfl := Option.some.inj htried
          exact .started rfl
      | false =>
          obtain rfl := Option.some.inj htried
          exact .unstarted
  | searching unread =>
      cases unread with
      | nil =>
          obtain rfl := Option.some.inj htried
          exact .searched
      | cons next unread =>
          rw [tryWorker] at htried
          · split at htried
            case isTrue hunread =>
              obtain ⟨worker, hworker, rfl⟩ := Option.map_eq_some_iff.mp htried
              split
              case isTrue hidle => exact .idle hunread hworker hidle
              case isFalse hbusy => exact .busy hunread hworker hbusy
            case isFalse => cases htried
          · intro hnil
            cases hnil
  | evicting idle =>
      obtain ⟨worker, hworker, rfl⟩ := Option.map_eq_some_iff.mp htried
      exact .evicted hworker
  | queueing unread least =>
      cases unread with
      | nil =>
          cases least with
          | none =>
              obtain rfl := Option.some.inj htried
              exact .sleeps
          | some best =>
              obtain rfl := Option.some.inj htried
              exact .queued best.1 best.2
      | cons next unread =>
          obtain rfl := Option.some.inj htried
          exact .queues next unread least

/-- A step with what it has found. -/
inductive Moved (limits : Limits) (pool : Pool Fingerprint) :
    Action Fingerprint → Pool Fingerprint → Prop
  | submitted {i : ℕ} {fingerprint : Fingerprint} {sessionKey : String}
      {hookMetadata : Option AcpHookMetadata} (hfree : pool.submissions i = none) :
      Moved limits pool (.submit i fingerprint sessionKey hookMetadata)
        (pool.setSubmission i (submit fingerprint sessionKey hookMetadata))
  | acted {i : ℕ} {action : CallerAction} {submission acted : Submission Fingerprint}
      (hsubmission : pool.submissions i = some submission)
      (hacts : submission.Acts action acted) :
      Moved limits pool (.caller i action) (pool.setSubmission i acted)
  | locked {i : ℕ} {submission : Submission Fingerprint}
      (hsubmission : pool.submissions i = some submission)
      (hcalling : submission.calling = .registered) (hfree : pool.lockedBy = none) :
      Moved limits pool (.lock i)
        { pool.goOn i submission (.pruning pool.groups.generations) with lockedBy := some i }
  | tried {i generation : ℕ} {spawned : Bool} {submission : Submission Fingerprint}
      {choice : Choice} {reached : Pool Fingerprint}
      (hsubmission : pool.submissions i = some submission)
      (hcalling : submission.calling = .choosing choice)
      (htried : pool.tryWorker limits i submission generation spawned choice = some reached) :
      Moved limits pool (.choose i generation spawned) reached
  | sent {i generation : ℕ} {submission : Submission Fingerprint}
      {worker : PersistentWorker Fingerprint}
      (hsubmission : pool.submissions i = some submission)
      (hcalling : submission.calling = .holding generation)
      (hworker : pool.workers generation = some worker) :
      Moved limits pool (.send i) (pool.send i submission generation worker)
  | worked {generation : ℕ} {action : WorkerAction} {worker acted : PersistentWorker Fingerprint}
      (hworker : pool.workers generation = some worker)
      (hworks : worker.Works action acted) :
      Moved limits pool (.worker generation action) (pool.setWorker generation acted)
  | began {generation job : ℕ} {worker : PersistentWorker Fingerprint}
      {submission : Submission Fingerprint}
      (hworker : pool.workers generation = some worker) (hthread : worker.thread = .took job)
      (hsubmission : pool.submissions job = some submission) :
      Moved limits pool (.begin generation) (pool.begin generation worker job submission)
  | turned {generation job : ℕ} {event : TurnEvent} {worker : PersistentWorker Fingerprint}
      {stage : Stage} {reached : Pool Fingerprint}
      (hworker : pool.workers generation = some worker)
      (hthread : worker.thread = .executing job stage)
      (hturn : pool.turn generation worker job stage event = some reached) :
      Moved limits pool (.turn generation event) reached
  | announced {generation job : ℕ} {reply : Reply} {worker : PersistentWorker Fingerprint}
      (hworker : pool.workers generation = some worker)
      (hthread : worker.thread = .counted job reply) :
      Moved limits pool (.announce generation)
        (pool.setWorker generation { worker with thread := .announced job reply }).notifyWaiters
  | replied {generation job : ℕ} {reply : Reply} {worker : PersistentWorker Fingerprint}
      (hworker : pool.workers generation = some worker)
      (hthread : worker.thread = .announced job reply) :
      Moved limits pool (.reply generation)
        ((pool.setWorker generation { worker with thread := .receiving }).answer job reply)
  | unlisted {generation : ℕ} {worker : PersistentWorker Fingerprint}
      (hworker : pool.workers generation = some worker) (hthread : worker.thread = .closed)
      (hfree : pool.lockedBy = none) :
      Moved limits pool (.unlist generation)
        { pool.setWorker generation { worker with thread := .unlisted } with
          groups := pool.groups.retire generation }
  | exited {generation : ℕ} {worker : PersistentWorker Fingerprint}
      (hworker : pool.workers generation = some worker) (hthread : worker.thread = .shut) :
      Moved limits pool (.announceExit generation)
        (pool.setWorker generation { worker with thread := .ended }).notifyWaiters
  | crashed {generation job : ℕ} {stage : Stage} {worker : PersistentWorker Fingerprint}
      (hworker : pool.workers generation = some worker)
      (hthread : worker.thread = .executing job stage) :
      Moved limits pool (.crash generation)
        (worker.jobs.foldl (fun left job => left.answer job .failed)
          (pool.setWorker generation
            { worker with queue := [], thread := .crashed, live := false }))

theorem moved_of_step {action : Action Fingerprint}
    (hstep : pool.step limits action = some reached) : Moved limits pool action reached := by
  cases action with
  | submit i fingerprint sessionKey hookMetadata =>
      rw [step] at hstep
      split at hstep
      case isTrue hfree =>
        obtain rfl := Option.some.inj hstep
        exact .submitted (Option.isNone_iff_eq_none.mp hfree)
      case isFalse => cases hstep
  | caller i action =>
      obtain ⟨submission, hsubmission, hstep⟩ := Option.bind_eq_some_iff.mp hstep
      obtain ⟨acted, hact, rfl⟩ := Option.map_eq_some_iff.mp hstep
      exact .acted hsubmission (Submission.acts_of_act hact)
  | lock i =>
      obtain ⟨submission, hsubmission, hstep⟩ := Option.bind_eq_some_iff.mp hstep
      dsimp only at hstep
      split at hstep
      case isTrue hready =>
        obtain rfl := Option.some.inj hstep
        exact .locked hsubmission hready.1 hready.2
      case isFalse => cases hstep
  | choose i generation spawned =>
      obtain ⟨submission, hsubmission, hstep⟩ := Option.bind_eq_some_iff.mp hstep
      split at hstep
      case h_1 choice hcalling => exact .tried hsubmission hcalling hstep
      case h_2 => cases hstep
  | send i =>
      obtain ⟨submission, hsubmission, hstep⟩ := Option.bind_eq_some_iff.mp hstep
      split at hstep
      case h_1 generation hcalling =>
        obtain ⟨worker, hworker, rfl⟩ := Option.map_eq_some_iff.mp hstep
        exact .sent hsubmission hcalling hworker
      case h_2 => cases hstep
  | worker generation action =>
      obtain ⟨worker, hworker, hstep⟩ := Option.bind_eq_some_iff.mp hstep
      obtain ⟨acted, hact, rfl⟩ := Option.map_eq_some_iff.mp hstep
      exact .worked hworker (PersistentWorker.works_of_act hact)
  | begin generation =>
      obtain ⟨worker, hworker, hstep⟩ := Option.bind_eq_some_iff.mp hstep
      split at hstep
      case h_1 job hthread =>
        obtain ⟨submission, hsubmission, rfl⟩ := Option.map_eq_some_iff.mp hstep
        exact .began hworker hthread hsubmission
      case h_2 => cases hstep
  | turn generation event =>
      obtain ⟨worker, hworker, hstep⟩ := Option.bind_eq_some_iff.mp hstep
      split at hstep
      case h_1 job stage hthread => exact .turned hworker hthread hstep
      case h_2 => cases hstep
  | announce generation =>
      obtain ⟨worker, hworker, hstep⟩ := Option.bind_eq_some_iff.mp hstep
      split at hstep
      case h_1 job reply hthread =>
        obtain rfl := Option.some.inj hstep
        exact .announced hworker hthread
      case h_2 => cases hstep
  | reply generation =>
      obtain ⟨worker, hworker, hstep⟩ := Option.bind_eq_some_iff.mp hstep
      split at hstep
      case h_1 job reply hthread =>
        obtain rfl := Option.some.inj hstep
        exact .replied hworker hthread
      case h_2 => cases hstep
  | unlist generation =>
      obtain ⟨worker, hworker, hstep⟩ := Option.bind_eq_some_iff.mp hstep
      dsimp only at hstep
      split at hstep
      case isTrue hready =>
        obtain rfl := Option.some.inj hstep
        exact .unlisted hworker hready.1 hready.2
      case isFalse => cases hstep
  | announceExit generation =>
      obtain ⟨worker, hworker, hstep⟩ := Option.bind_eq_some_iff.mp hstep
      split at hstep
      case isTrue hthread =>
        obtain rfl := Option.some.inj hstep
        exact .exited hworker hthread
      case isFalse => cases hstep
  | crash generation =>
      obtain ⟨worker, hworker, hstep⟩ := Option.bind_eq_some_iff.mp hstep
      split at hstep
      case h_1 job stage hthread =>
        obtain rfl := Option.some.inj hstep
        exact .crashed hworker hthread
      case h_2 => cases hstep

variable {allowed : Pool Fingerprint → Action Fingerprint → Bool}

/-- What the steps preserve holds at the end of a run. -/
theorem holds_runs {invariant : Pool Fingerprint → Prop}
    (hstep : ∀ {pool reached : Pool Fingerprint} {action : Action Fingerprint}, invariant pool →
      allowed pool action = true → Moved limits pool action reached → invariant reached)
    {actions : List (Action Fingerprint)} (hpool : invariant pool)
    (hruns : pool.runs limits allowed actions = some reached) : invariant reached := by
  induction actions generalizing pool with
  | nil =>
      obtain rfl := Option.some.inj hruns
      exact hpool
  | cons action actions ih =>
      rw [runs] at hruns
      split at hruns
      case isTrue hallowed =>
        obtain ⟨middle, hmiddle, hruns⟩ := Option.bind_eq_some_iff.mp hruns
        exact ih (hstep hpool hallowed (moved_of_step hmiddle)) hruns
      case isFalse => cases hruns

end Pool

end AcpRuntimePool

end Mews
