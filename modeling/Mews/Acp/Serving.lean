import Mews.Core.LeadsTo
import Mews.Acp.Wakeups

/-!
# What the pool does for its callers

A run of the pool does not end; nothing may happen at a point of it.  Fairness is what the
pool is given: threads and callers that can go on are scheduled, and a Turn on a
worker comes to its end.  Then every accepted job is answered, and as long as no
thread panics whoever sleeps while there is a worker to hope for is woken.
-/

namespace Mews.AcpRuntimePool

variable {Fingerprint : Type}

/-- The thread has a step to take that does not wait for a Turn. -/
def PersistentWorker.waits (worker : PersistentWorker Fingerprint) : Bool :=
  match worker.thread with
  | .receiving => !worker.queue.isEmpty
  | .executing _ _ | .ended | .crashed => false
  | _ => true

/-- The caller has not handed its job to a worker, and may still do so. -/
def Calling.isPending : Calling → Bool
  | .selecting | .registered | .choosing _ | .asleep | .holding _ => true
  | _ => false

/-- How far a thread is from its next notification. -/
def Thread.alarm : Thread → ℕ
  | .announced _ _ => 6
  | .receiving => 5
  | .took _ | .leaving => 4
  | .executing _ _ | .closed => 3
  | .finished _ _ | .unlisted => 2
  | .counted _ _ | .shut => 1
  | .ended | .crashed => 0

theorem alarm_of_stays {thread after : Thread} (h : thread.Stays after) :
    after.alarm = thread.alarm := by
  obtain rfl | ⟨job, stage, next, rfl, rfl⟩ := h
  · rfl
  · rfl

namespace PersistentWorker.Becomes

/-- A thread that moves comes nearer to its next notification, or has just notified. -/
theorem alarm {worker after : PersistentWorker Fingerprint} (h : worker.Becomes after) :
    worker.thread.Stays after.thread ∨ after.thread.alarm < worker.thread.alarm ∨
      after.thread ≠ worker.thread ∧
        ((∃ job reply, after.thread = .announced job reply) ∨ after.thread = .ended ∨
          after.thread = .crashed) := by
  cases h with
  | same | launched | discarded | queued => exact Or.inl (Or.inl rfl)
  | stopped => exact Or.inl (Or.inl (stopAccepting_appends worker).1)
  | stepped hthread => exact Or.inl (Or.inr ⟨_, _, _, hthread, rfl⟩)
  | announced hthread =>
      rw [hthread]
      exact Or.inr (Or.inr ⟨fun heq => Thread.noConfusion heq, Or.inl ⟨_, _, rfl⟩⟩)
  | exited hthread =>
      rw [hthread]
      exact Or.inr (Or.inr ⟨fun heq => Thread.noConfusion heq, Or.inr (Or.inl rfl)⟩)
  | crashed hthread =>
      rw [hthread]
      exact Or.inr (Or.inr ⟨fun heq => Thread.noConfusion heq, Or.inr (Or.inr rfl)⟩)
  | received hthread | dismissed hthread | idled hthread | counted hthread | left hthread
  | shut hthread | began hthread | refused hthread | finished hthread | replied hthread
  | unlisted hthread =>
      rw [hthread]
      exact Or.inr (Or.inl (by simp [Thread.alarm]))

end PersistentWorker.Becomes

namespace Submission

/-- The caller has a step to take. -/
def ready (submission : Submission Fingerprint) : Bool :=
  match submission.calling with
  | .asleep => submission.notified
  | .awaiting _ => submission.result.isSome
  | .finalizing => true
  | _ => false

/-- The job is answered, or its caller no longer waits for the answer. -/
def settled (submission : Submission Fingerprint) : Bool :=
  match submission.calling with
  | .awaiting _ => submission.result.isSome
  | .finalizing | .returned _ | .dropped => true
  | _ => false

/-- The call is over. -/
def Ended (submission : Submission Fingerprint) : Prop :=
  (∃ reply, submission.calling = .returned reply) ∨ submission.calling = .dropped

namespace Becomes

variable {submission after : Submission Fingerprint}

theorem settled (h : submission.Becomes after) (hsettled : submission.settled = true) :
    after.settled = true := by
  have hnot : submission.calling.isPending = true → after.settled = true := by
    intro hpending
    rw [Submission.settled] at hsettled
    cases hcalling : submission.calling with
    | awaiting | finalizing | returned | dropped =>
        rw [hcalling] at hpending
        cases hpending
    | _ =>
        rw [hcalling] at hsettled
        cases hsettled
  cases h with
  | same | notified | began | hooked => exact hsettled
  | answered hcalling =>
      rw [Submission.settled]
      dsimp only
      rw [hcalling]
      cases submission.result <;> rfl
  | acted hacts =>
      cases hacts with
      | cancelled | observed => exact hsettled
      | registered hcalling | woken hcalling => exact hnot (by rw [hcalling]; rfl)
      | finalized =>
          rw [finalized]
          split <;> rfl
      | _ => rfl
  | failed => rfl
  | locked unread hcalling | chose hcalling | bounced hcalling | sent hcalling =>
      exact hnot (by rw [hcalling]; rfl)

theorem awaits (h : submission.Becomes after) {generation : ℕ}
    (hawaiting : submission.calling = .awaiting generation) :
    after.calling = .awaiting generation ∨ after.settled = true := by
  cases h with
  | same | notified | answered | began | hooked => exact Or.inl hawaiting
  | acted hacts =>
      cases hacts with
      | cancelled | observed => exact Or.inl hawaiting
      | registered hcalling | woken hcalling => cases hcalling.symm.trans hawaiting
      | finalized =>
          right
          rw [finalized]
          split <;> rfl
      | _ => exact Or.inr rfl
  | failed => exact Or.inr rfl
  | locked unread hcalling | chose hcalling | bounced hcalling | sent hcalling =>
      cases hcalling.symm.trans hawaiting

end Becomes

/-- A caller that is settled and has no step to take is through. -/
theorem ended_of_settled {submission : Submission Fingerprint} (hsettled : submission.settled = true)
    (hready : submission.ready = false) : submission.Ended := by
  rw [Submission.settled] at hsettled
  rw [ready] at hready
  cases hcalling : submission.calling with
  | returned reply => exact Or.inl ⟨reply, hcalling⟩
  | dropped => exact Or.inr hcalling
  | awaiting generation =>
      rw [hcalling] at hsettled hready
      exact absurd (hsettled.symm.trans hready) (by decide)
  | finalizing =>
      rw [hcalling] at hready
      cases hready
  | _ =>
      rw [hcalling] at hsettled
      cases hsettled

end Submission

variable [DecidableEq Fingerprint]

/-- A run that does not end. -/
structure Run (Fingerprint : Type) [DecidableEq Fingerprint] (limits : Limits) where
  state : ℕ → Pool Fingerprint
  action : ℕ → Option (Action Fingerprint)
  starts : state 0 = .initial
  follows : ∀ n, match action n with
    | none => state (n + 1) = state n
    | some action => (state n).step limits action = some (state (n + 1))

namespace Run

variable {limits : Limits} (run : Run Fingerprint limits)

/-- What the threads, the callers and the Turns do in time.  Who can take a step
takes it, also where it takes a lock, and no Turn runs for ever. -/
structure Fair : Prop where
  threads : ∀ n generation, ∃ m, n ≤ m ∧
    ((∃ action, run.action m = some action ∧ action.worker? = some generation) ∨
      ∀ worker, (run.state m).workers generation = some worker → worker.waits = false)
  turns : ∀ n generation job, ∃ m, n ≤ m ∧ ∀ worker stage,
    (run.state m).workers generation = some worker → worker.thread ≠ .executing job stage
  callers : ∀ n i, ∃ m, n ≤ m ∧ ∀ submission,
    (run.state m).submissions i = some submission → submission.ready = false

/-- No thread panics. -/
def Calm : Prop := ∀ n generation, run.action n ≠ some (.crash generation)

theorem moved (n : ℕ) : (run.action n = none ∧ run.state (n + 1) = run.state n) ∨
    ∃ action, run.action n = some action ∧
      Pool.Moved limits (run.state n) action (run.state (n + 1)) := by
  have hfollows := run.follows n
  cases haction : run.action n with
  | none =>
      rw [haction] at hfollows
      exact Or.inl ⟨rfl, hfollows⟩
  | some action =>
      rw [haction] at hfollows
      exact Or.inr ⟨action, rfl, Pool.moved_of_step hfollows⟩

theorem consistent (n : ℕ) : (run.state n).Consistent limits := by
  induction n with
  | zero =>
      rw [run.starts]
      exact Pool.consistent_initial
  | succ n ih =>
      obtain ⟨-, hsame⟩ | ⟨action, -, hmoved⟩ := run.moved n
      · rwa [hsame]
      · exact ih.step hmoved

theorem tracked (n : ℕ) : (run.state n).Tracked := by
  induction n with
  | zero =>
      rw [run.starts]
      exact Pool.tracked_initial
  | succ n ih =>
      obtain ⟨-, hsame⟩ | ⟨action, -, hmoved⟩ := run.moved n
      · rwa [hsame]
      · exact ih.step (run.consistent n) hmoved

theorem wakeful (hcalm : run.Calm) (n : ℕ) : (run.state n).Wakeful limits := by
  induction n with
  | zero =>
      rw [run.starts]
      exact Pool.wakeful_initial
  | succ n ih =>
      obtain ⟨-, hsame⟩ | ⟨action, haction, hmoved⟩ := run.moved n
      · rwa [hsame]
      · apply ih.step (run.consistent n) hmoved
        rintro generation rfl
        exact hcalm n generation haction

/-! ## The callers -/

/-- What becomes of a submission from one point to the next. -/
theorem becomes {n i : ℕ} {submission : Submission Fingerprint}
    (hsubmission : (run.state n).submissions i = some submission) :
    ∃ after, (run.state (n + 1)).submissions i = some after ∧ submission.Becomes after := by
  obtain ⟨-, hsame⟩ | ⟨action, -, hmoved⟩ := run.moved n
  · exact ⟨submission, hsame ▸ hsubmission, .same⟩
  · exact hmoved.attended.becomes i submission hsubmission

theorem counted (n i : ℕ) (submission : Submission Fingerprint)
    (hsubmission : (run.state n).submissions i = some submission) : submission.Counted := by
  induction n generalizing submission with
  | zero =>
      rw [run.starts] at hsubmission
      cases hsubmission
  | succ n ih =>
      obtain ⟨-, hsame⟩ | ⟨action, -, hmoved⟩ := run.moved n
      · exact ih submission (hsame ▸ hsubmission)
      · obtain ⟨before, hbefore, hbecomes⟩ | ⟨fingerprint, sessionKey, hookMetadata, rfl⟩ :=
          hmoved.attended.known i submission hsubmission
        · exact hbecomes.counted (ih before hbefore)
        · rfl

/-- What every step keeps of a submission is there from then on. -/
theorem keeps {property : Submission Fingerprint → Prop}
    (hkeeps : ∀ {submission after : Submission Fingerprint}, submission.Becomes after →
      property submission → property after)
    {n m i : ℕ} (hnm : n ≤ m) {submission : Submission Fingerprint}
    (hsubmission : (run.state n).submissions i = some submission) (hholds : property submission) :
    ∃ after, (run.state m).submissions i = some after ∧ property after := by
  induction hnm with
  | refl => exact ⟨submission, hsubmission, hholds⟩
  | step _ ih =>
      obtain ⟨middle, hmiddle, hholds⟩ := ih
      obtain ⟨after, hafter, hbecomes⟩ := run.becomes hmiddle
      exact ⟨after, hafter, hkeeps hbecomes hholds⟩

/-- A settled call comes to its end. -/
theorem settled_leadsTo (hfair : run.Fair) (i : ℕ) :
    LeadsTo (fun n => ∃ submission, (run.state n).submissions i = some submission ∧
        submission.settled = true)
      fun n => ∃ submission, (run.state n).submissions i = some submission ∧ submission.Ended := by
  rintro n ⟨submission, hsubmission, hsettled⟩
  obtain ⟨m, hnm, hready⟩ := hfair.callers n i
  obtain ⟨after, hafter, hsettled⟩ := run.keeps Submission.Becomes.settled hnm hsubmission hsettled
  exact ⟨m, hnm, after, hafter, Submission.ended_of_settled hsettled (hready after hafter)⟩

/-! ## The threads -/

/-- A Turn does not go on for ever. -/
theorem turn_ends (hfair : run.Fair) {n generation job : ℕ} {stage : Stage}
    {worker : PersistentWorker Fingerprint}
    (hstalled : ∀ m, n ≤ m → ∃ worker after, (run.state m).workers generation = some worker ∧
      (run.state (m + 1)).workers generation = some after ∧
        worker.thread.Stays after.thread ∧
          (worker.waits = true ∨ ∃ job stage, worker.thread = .executing job stage))
    (hworker : (run.state n).workers generation = some worker)
    (hexecuting : worker.thread = .executing job stage) : False := by
  obtain ⟨m, hnm, hends⟩ := hfair.turns n generation job
  have hgoes : ∃ found stage, (run.state m).workers generation = some found ∧
      found.thread = .executing job stage := by
    clear hends
    induction hnm with
    | refl => exact ⟨worker, stage, hworker, hexecuting⟩
    | @step m hnm ih =>
        obtain ⟨found, stage, hfound, hthread⟩ := ih
        obtain ⟨before, next, hbefore, hnext, hstays, -⟩ := hstalled m hnm
        obtain rfl := Option.some.inj (hfound.symm.trans hbefore)
        obtain heq | ⟨other, first, second, hother, hnext'⟩ := hstays
        · exact ⟨next, stage, hnext, heq.trans hthread⟩
        · obtain ⟨rfl, -⟩ := Thread.executing.inj (hother.symm.trans hthread)
          exact ⟨next, second, hnext, hnext'⟩
  obtain ⟨found, stage, hfound, hthread⟩ := hgoes
  exact hends found stage hfound hthread

/-- A thread with a step to take, or with a Turn, does not stay where it is. -/
theorem moves_on (hfair : run.Fair) (n generation : ℕ) :
    ¬∀ m, n ≤ m → ∃ worker after, (run.state m).workers generation = some worker ∧
      (run.state (m + 1)).workers generation = some after ∧
        worker.thread.Stays after.thread ∧
          (worker.waits = true ∨ ∃ job stage, worker.thread = .executing job stage) := by
  intro hstalled
  obtain ⟨worker, after, hworker, hafter, hstays, hwaits | ⟨job, stage, hexecuting⟩⟩ :=
    hstalled n (Nat.le_refl n)
  · by_cases hturn : ∃ job stage, worker.thread = .executing job stage
    · obtain ⟨job, stage, hexecuting⟩ := hturn
      exact run.turn_ends hfair hstalled hworker hexecuting
    have hsame : ∀ m, n ≤ m → ∃ found, (run.state m).workers generation = some found ∧
        found.thread = worker.thread := by
      intro m hnm
      induction hnm with
      | refl => exact ⟨worker, hworker, rfl⟩
      | @step m hnm ih =>
          obtain ⟨found, hfound, hthread⟩ := ih
          obtain ⟨before, next, hbefore, hnext, hstays, -⟩ := hstalled m hnm
          obtain rfl := Option.some.inj (hfound.symm.trans hbefore)
          obtain heq | ⟨job, stage, other, hexecuting, -⟩ := hstays
          · exact ⟨next, hnext, heq.trans hthread⟩
          · exact absurd ⟨job, stage, hthread.symm.trans hexecuting⟩ hturn
    obtain ⟨m, hnm, ⟨action, haction, hown⟩ | hidle⟩ := hfair.threads n generation
    · obtain ⟨before, hbefore, hthread⟩ := hsame m hnm
      obtain ⟨next, hnext, hthread'⟩ := hsame (m + 1) (Nat.le_succ_of_le hnm)
      obtain ⟨hnone, -⟩ | ⟨taken, htaken, hmoved⟩ := run.moved m
      · cases hnone.symm.trans haction
      · obtain rfl := Option.some.inj (htaken.symm.trans haction)
        obtain ⟨job, stage, hexecuting⟩ :=
          hmoved.moves hown hbefore hnext (hthread'.trans hthread.symm)
        exact hturn ⟨job, stage, hthread.symm.trans hexecuting⟩
    · obtain ⟨before, hbefore, hthread⟩ := hsame m hnm
      obtain ⟨found, next, hfound, -, -, hwaits | ⟨job, stage, hexecuting⟩⟩ := hstalled m hnm
      · exact Bool.false_ne_true ((hidle found hfound).symm.trans hwaits)
      · obtain rfl := Option.some.inj (hfound.symm.trans hbefore)
        exact hturn ⟨job, stage, hthread.symm.trans hexecuting⟩
  · exact run.turn_ends hfair hstalled hworker hexecuting

/-! ## Every accepted job is answered -/

/-- The job is with the worker, and there is no reply to it. -/
def Unanswered (i generation n : ℕ) : Prop :=
  ∃ submission, (run.state n).submissions i = some submission ∧
    submission.calling = .awaiting generation ∧ submission.result = none

/-- How far the job is from its reply. -/
def distance (i generation n : ℕ) : ℕ :=
  ((run.state n).workers generation).elim 0 fun worker => worker.distance i

variable {run} {i generation n : ℕ}

theorem Unanswered.located (h : run.Unanswered i generation n) :
    ∃ worker, (run.state n).workers generation = some worker ∧ i ∈ worker.jobs ∧
      worker.Orderly ∧ run.distance i generation n = worker.distance i := by
  obtain ⟨submission, hsubmission, hawaiting, hresult⟩ := h
  obtain ⟨worker, hworker, hjob⟩ :=
    (run.tracked n).located i submission generation hsubmission hawaiting hresult
  refine ⟨worker, hworker, hjob, (run.tracked n).orderly generation worker hworker, ?_⟩
  rw [distance, hworker]
  rfl

theorem Unanswered.next (h : run.Unanswered i generation n) :
    (∃ submission, (run.state (n + 1)).submissions i = some submission ∧
      submission.settled = true) ∨ run.Unanswered i generation (n + 1) := by
  obtain ⟨submission, hsubmission, hawaiting, hresult⟩ := h
  obtain ⟨after, hafter, hbecomes⟩ := run.becomes hsubmission
  obtain hstill | hsettled := hbecomes.awaits hawaiting
  · cases hanswer : after.result with
    | some reply =>
        refine Or.inl ⟨after, hafter, ?_⟩
        rw [Submission.settled, hstill, hanswer]
        rfl
    | none => exact Or.inr ⟨after, hafter, hstill, hanswer⟩
  · exact Or.inl ⟨after, hafter, hsettled⟩

/-- As long as it is not answered, the job comes nearer or its thread stays where it is. -/
theorem Unanswered.nears (h : run.Unanswered i generation n)
    (hnext : run.Unanswered i generation (n + 1)) :
    ∃ worker after, (run.state n).workers generation = some worker ∧
      (run.state (n + 1)).workers generation = some after ∧
        (after.distance i < worker.distance i ∨
          after.distance i = worker.distance i ∧ worker.thread.Stays after.thread) := by
  obtain ⟨worker, hworker, hjob, horderly, -⟩ := h.located
  obtain ⟨-, hsame⟩ | ⟨action, -, hmoved⟩ := run.moved n
  · exact ⟨worker, worker, hworker, by rw [hsame, hworker], Or.inr ⟨rfl, Or.inl rfl⟩⟩
  · obtain ⟨after, hafter, hnearer⟩ | ⟨jobs, reply, hi, hsubmissions⟩ :=
      hmoved.nearer hworker ((run.consistent n).known generation worker hworker) horderly hjob
    · exact ⟨worker, after, hworker, hafter, hnearer.2⟩
    · obtain ⟨submission, hsubmission, hawaiting, -⟩ := h
      obtain ⟨after, hafter, -, hanswer⟩ := hnext
      rw [hsubmissions, hsubmission, Option.map_some] at hafter
      obtain rfl := Option.some.inj hafter
      exact absurd hanswer (Pool.result_answered hi hawaiting)

omit [DecidableEq Fingerprint] in
/-- A worker with a job has a step to take, or runs a Turn. -/
theorem waits_of_job {worker : PersistentWorker Fingerprint} (horderly : worker.Orderly)
    (hjob : i ∈ worker.jobs) :
    worker.waits = true ∨ ∃ job stage, worker.thread = .executing job stage := by
  have hrunning : worker.thread.over = true → False := fun hover =>
    horderly.not_mem_jobs hover hjob
  rw [PersistentWorker.waits]
  cases hthread : worker.thread with
  | receiving =>
      left
      obtain hhand | hqueue := PersistentWorker.mem_jobs.mp hjob
      · rw [hthread] at hhand
        cases hhand
      · cases hempty : worker.queue with
        | nil =>
            rw [hempty] at hqueue
            cases hqueue
        | cons command queue => rfl
  | executing job stage => exact Or.inr ⟨job, stage, rfl⟩
  | ended | crashed => exact (hrunning (by rw [hthread]; rfl)).elim
  | _ => exact Or.inl rfl

theorem unanswered_leadsTo (hfair : run.Fair) (i generation : ℕ) :
    LeadsTo (run.Unanswered i generation) fun n => ∃ submission,
      (run.state n).submissions i = some submission ∧ submission.settled = true := by
  apply LeadsTo.of_unstalled (run.distance i generation)
  · intro n hn
    obtain hsettled | hnext := hn.next
    · exact Or.inl hsettled
    · refine Or.inr ⟨hnext, ?_⟩
      obtain ⟨worker, after, hworker, hafter, hnears⟩ := hn.nears hnext
      rw [distance, distance, hworker, hafter]
      exact hnears.elim Nat.le_of_lt fun hsame => Nat.le_of_eq hsame.1
  · intro n hstalled
    apply run.moves_on hfair n generation
    intro m hnm
    obtain ⟨hm, -, hrank⟩ := hstalled m hnm
    obtain ⟨hnext, -, hrank'⟩ := hstalled (m + 1) (Nat.le_succ_of_le hnm)
    obtain ⟨worker, after, hworker, hafter, hnears⟩ := hm.nears hnext
    rw [distance, hworker] at hrank
    rw [distance, hafter] at hrank'
    obtain ⟨found, hfound, hjob, horderly, -⟩ := hm.located
    obtain rfl := Option.some.inj (hworker.symm.trans hfound)
    refine ⟨worker, after, hworker, hafter, ?_, waits_of_job horderly hjob⟩
    obtain hless | ⟨-, hstays⟩ := hnears
    · exact absurd (hrank'.trans hrank.symm) (Nat.ne_of_lt hless)
    · exact hstays

/-! ## Who sleeps is notified -/

/-- How far the thread is from its next notification. -/
def alarm (generation n : ℕ) : ℕ :=
  ((run.state n).workers generation).elim 0 fun worker => worker.thread.alarm

/-- The worker owes a notification. -/
def Owes (run : Run Fingerprint limits) (generation n : ℕ) : Prop :=
  ∃ worker, (run.state n).workers generation = some worker ∧ worker.owes = true

/-- A worker that owes a notification gives it, or comes nearer to it, or stays where it is. -/
theorem Owes.next (h : run.Owes generation n) (hcalm : run.Calm) :
    (run.state (n + 1)).AllNotified ∨ run.Owes generation (n + 1) ∧
      ∃ worker after, (run.state n).workers generation = some worker ∧
        (run.state (n + 1)).workers generation = some after ∧
          (after.thread.alarm < worker.thread.alarm ∨ worker.thread.Stays after.thread) := by
  obtain ⟨worker, hworker, howes⟩ := h
  obtain ⟨-, hsame⟩ | ⟨action, haction, hmoved⟩ := run.moved n
  case inl =>
    exact Or.inr ⟨⟨worker, by rw [hsame, hworker], howes⟩, worker, worker, hworker,
      by rw [hsame, hworker], Or.inr (Or.inl rfl)⟩
  have hknown := (run.consistent n).known generation worker hworker
  obtain ⟨after, hafter, hbecomes, -⟩ := hmoved.goesOn hworker hknown
  -- a thread that has come to an announcement has notified
  have hnotified : after.thread ≠ worker.thread →
      ((∃ job reply, after.thread = .announced job reply) ∨ after.thread = .ended ∨
        after.thread = .crashed) → (run.state (n + 1)).AllNotified := by
    intro hmoves hthread
    have hmarked := hmoved.marked hworker hknown hafter hmoves
    obtain ⟨job, reply, hannounced⟩ | hended | hcrashed := hthread
    · rw [hannounced] at hmarked
      exact hmarked
    · rw [hended] at hmarked
      exact hmarked
    · rw [hcrashed] at hmarked
      exact absurd (haction.trans (congrArg some hmarked)) (hcalm n generation)
  obtain howes' | ⟨hmoves, hthread⟩ := hbecomes.owes howes
  case inr => exact Or.inl (hnotified hmoves hthread)
  obtain hstays | hless | ⟨hmoves, hthread⟩ := hbecomes.alarm
  · exact Or.inr ⟨⟨after, hafter, howes'⟩, worker, after, hworker, hafter, Or.inr hstays⟩
  · exact Or.inr ⟨⟨after, hafter, howes'⟩, worker, after, hworker, hafter, Or.inl hless⟩
  · exact Or.inl (hnotified hmoves hthread)

omit [DecidableEq Fingerprint] in
/-- A worker that owes a notification has a step to take, or runs a Turn. -/
theorem waits_of_owes {worker : PersistentWorker Fingerprint} (horderly : worker.Orderly)
    (howes : worker.owes = true) :
    worker.waits = true ∨ ∃ job stage, worker.thread = .executing job stage := by
  rw [PersistentWorker.owes] at howes
  rw [PersistentWorker.waits]
  cases hthread : worker.thread with
  | receiving =>
      left
      rw [hthread] at howes
      have hrefuses : worker.accepting = false := Bool.not_eq_true' _ ▸ howes
      -- the `Shutdown` is still in the queue
      obtain ⟨jobs, hqueue⟩ := horderly.stopped hrefuses (by rw [hthread]; rfl)
      rw [hqueue]
      cases jobs <;> rfl
  | executing job stage => exact Or.inr ⟨job, stage, rfl⟩
  | ended | crashed =>
      rw [hthread] at howes
      cases howes
  | _ => exact Or.inl rfl

theorem owes_leadsTo (hfair : run.Fair) (hcalm : run.Calm) (generation : ℕ) :
    LeadsTo (run.Owes generation) fun n => (run.state n).AllNotified := by
  apply LeadsTo.of_unstalled (run.alarm generation)
  · intro n hn
    obtain hall | ⟨hnext, worker, after, hworker, hafter, hnears⟩ := hn.next hcalm
    · exact Or.inl hall
    · refine Or.inr ⟨hnext, ?_⟩
      rw [alarm, alarm, hworker, hafter]
      exact hnears.elim Nat.le_of_lt fun hstays => Nat.le_of_eq (alarm_of_stays hstays)
  · intro n hstalled
    apply run.moves_on hfair n generation
    intro m hnm
    obtain ⟨hm, -, hrank⟩ := hstalled m hnm
    obtain ⟨-, hquiet, hrank'⟩ := hstalled (m + 1) (Nat.le_succ_of_le hnm)
    obtain hall | ⟨-, worker, after, hworker, hafter, hnears⟩ := hm.next hcalm
    · exact absurd hall hquiet
    rw [alarm, hworker] at hrank
    rw [alarm, hafter] at hrank'
    obtain ⟨found, hfound, howes⟩ := hm
    obtain rfl := Option.some.inj (hworker.symm.trans hfound)
    have horderly := (run.tracked m).orderly generation worker hworker
    refine ⟨worker, after, hworker, hafter, ?_, waits_of_owes horderly howes⟩
    obtain hless | hstays := hnears
    · exact absurd (hrank'.trans hrank.symm) (Nat.ne_of_lt hless)
    · exact hstays

/-! ## What the pool serves -/

variable (run)

/-- No job is run twice. -/
def RunsOnce : Prop :=
  ∀ n i submission, (run.state n).submissions i = some submission → submission.executions ≤ 1

/-- A call has one reply. -/
def RepliesOnce : Prop :=
  ∀ n m i submission reply, n ≤ m → (run.state n).submissions i = some submission →
    submission.calling = .returned reply →
      ∃ after, (run.state m).submissions i = some after ∧ after.calling = .returned reply

/-- The jobs of one Session are sent to one worker as long as it accepts jobs, when their
processes are launched from the same. -/
def Sticks : Prop :=
  ∀ n i j generation other (first second after : Submission Fingerprint)
    (worker : PersistentWorker Fingerprint),
    (run.state n).submissions i = some first → first.sentTo = some generation →
      (run.state n).workers generation = some worker → worker.accepting = true →
        (run.state n).submissions j = some second → second.fingerprint = first.fingerprint →
          second.sessionKey = first.sessionKey → run.action n = some (.send j) →
            (run.state (n + 1)).submissions j = some after → after.calling = .awaiting other →
              other = generation

/-- An accepted job is answered, unless its caller is dropped. -/
def Answers : Prop :=
  ∀ i generation, LeadsTo
    (fun n => ∃ submission, (run.state n).submissions i = some submission ∧
      submission.calling = .awaiting generation)
    fun n => ∃ submission, (run.state n).submissions i = some submission ∧ submission.Ended

/-- Whoever sleeps while there is a worker to hope for stops sleeping. -/
def Wakes : Prop :=
  ∀ i, LeadsTo
    (fun n => ∃ submission, (run.state n).submissions i = some submission ∧
      submission.calling = .asleep ∧ ¬(run.state n).Full limits submission.fingerprint)
    fun n => ∃ submission, (run.state n).submissions i = some submission ∧
      submission.calling ≠ .asleep

variable {run}

theorem runsOnce : run.RunsOnce := by
  intro n i submission hsubmission
  rw [run.counted n i submission hsubmission]
  split <;> decide

theorem repliesOnce : run.RepliesOnce := by
  intro n m i submission reply hnm hsubmission hreturned
  exact run.keeps (fun hbecomes hbefore => hbecomes.returned hbefore) hnm hsubmission hreturned

theorem sticks : run.Sticks := by
  intro n i j generation other first second after worker hfirst hsent hworker haccepting hsecond
    hfingerprint hkey haction hafter hawaiting
  have hconsistent := run.consistent n
  obtain ⟨found, hfound, -, hbound⟩ := hconsistent.held i first generation hfirst (Or.inr hsent)
  obtain rfl := Option.some.inj (hworker.symm.trans hfound)
  obtain ⟨hnone, -⟩ | ⟨action, htaken, hmoved⟩ := run.moved n
  · cases hnone.symm.trans haction
  obtain rfl := Option.some.inj (haction.symm.trans htaken)
  generalize hreached : run.state (n + 1) = reached at hmoved
  rw [hreached] at hafter
  cases hmoved with
  | @sent j chosen same target hsame hholding htarget =>
      obtain rfl := Option.some.inj (hsecond.symm.trans hsame)
      rw [Pool.send] at hafter
      split at hafter
      · obtain rfl := Pool.eq_of_update_self hafter
        cases hawaiting
      case isFalse hopen =>
        obtain rfl := Pool.eq_of_update_self hafter
        obtain rfl := Calling.awaiting.inj hawaiting
        rw [not_or, Bool.not_eq_false] at hopen
        obtain ⟨found, hfound, -, hbound'⟩ :=
          hconsistent.held j second chosen hsecond (Or.inl hholding)
        obtain rfl := Option.some.inj (htarget.symm.trans hfound)
        have hchosen := hbound' hopen.1
        rw [hfingerprint, hkey, hbound haccepting] at hchosen
        exact (Option.some.inj hchosen).symm

theorem answers (hfair : run.Fair) : run.Answers := by
  intro i generation n hn
  obtain ⟨submission, hsubmission, hawaiting⟩ := hn
  cases hanswer : submission.result with
  | some reply =>
      apply run.settled_leadsTo hfair i n
      refine ⟨submission, hsubmission, ?_⟩
      rw [Submission.settled, hawaiting, hanswer]
      rfl
  | none =>
      apply (unanswered_leadsTo hfair i generation).trans (run.settled_leadsTo hfair i) n
      exact ⟨submission, hsubmission, hawaiting, hanswer⟩

/-- The caller has slept since. -/
def Sleeps (run : Run Fingerprint limits) (i n : ℕ) : Prop :=
  ∃ submission, (run.state n).submissions i = some submission ∧ submission.calling = .asleep

/-- The caller sleeps, but is notified. -/
def Roused (run : Run Fingerprint limits) (i n : ℕ) : Prop :=
  ∃ submission, (run.state n).submissions i = some submission ∧
    submission.calling = .asleep ∧ submission.notified = true

def Awake (run : Run Fingerprint limits) (i n : ℕ) : Prop :=
  ∃ submission, (run.state n).submissions i = some submission ∧ submission.calling ≠ .asleep

theorem Sleeps.next (h : run.Sleeps i n) : run.Sleeps i (n + 1) ∨ run.Awake i (n + 1) := by
  obtain ⟨submission, hsubmission, -⟩ := h
  obtain ⟨after, hafter, -⟩ := run.becomes hsubmission
  by_cases hasleep : after.calling = .asleep
  · exact Or.inl ⟨after, hafter, hasleep⟩
  · exact Or.inr ⟨after, hafter, hasleep⟩

theorem Roused.next (h : run.Roused i n) : run.Roused i (n + 1) ∨ run.Awake i (n + 1) := by
  obtain ⟨submission, hsubmission, hasleep, hnotified⟩ := h
  obtain ⟨after, hafter, hbecomes⟩ := run.becomes hsubmission
  by_cases hasleep' : after.calling = .asleep
  · left
    refine ⟨after, hafter, hasleep', ?_⟩
    by_contra hnot
    have hbefore := Pool.unnotified hbecomes (Bool.not_eq_true _ ▸ hnot)
      (fun hregistered => by cases hasleep'.symm.trans hregistered)
    cases hnotified.symm.trans hbefore
  · exact Or.inr ⟨after, hafter, hasleep'⟩

/-- Who sleeps and is notified wakes. -/
theorem roused_leadsTo (hfair : run.Fair) (i : ℕ) : LeadsTo (run.Roused i) (run.Awake i) := by
  intro n hn
  obtain ⟨m, hnm, hready⟩ := hfair.callers n i
  obtain ⟨submission, hsubmission, hasleep, hnotified⟩ | ⟨l, hnl, -, hawake⟩ :=
    holds_until (fun k hk => Roused.next hk) hnm hn
  · have hnot := hready submission hsubmission
    rw [Submission.ready, hasleep] at hnot
    exact absurd (hnotified.symm.trans hnot) (by decide)
  · exact ⟨l, hnl, hawake⟩

theorem wakes (hfair : run.Fair) (hcalm : run.Calm) : run.Wakes := by
  rintro i n ⟨submission, hsubmission, hasleep, hfree⟩
  cases hnotified : submission.notified with
  | true => exact roused_leadsTo hfair i n ⟨submission, hsubmission, hasleep, hnotified⟩
  | false =>
      obtain hfull | ⟨generation, worker, howes⟩ :=
        (run.wakeful hcalm n).asleep i submission hsubmission hasleep hnotified
      · exact absurd hfull hfree
      obtain ⟨m, hnm, hall⟩ := owes_leadsTo hfair hcalm generation n ⟨worker, howes⟩
      obtain ⟨after, hafter, hasleep'⟩ | ⟨l, hnl, -, hawake⟩ :=
        holds_until (fun k hk => Sleeps.next hk) hnm ⟨submission, hsubmission, hasleep⟩
      · obtain ⟨l, hml, hawake⟩ :=
          roused_leadsTo hfair i m ⟨after, hafter, hasleep', hall i after hafter⟩
        exact ⟨l, Nat.le_trans hnm hml, hawake⟩
      · exact ⟨l, hnl, hawake⟩

/-- Every job is run at most once and answered once, and it sticks to the worker of its
Session; nobody sleeps while there is a worker to hope for, as long as no thread
panics. -/
theorem jobs_served (run : Run Fingerprint limits) :
    run.RunsOnce ∧ run.RepliesOnce ∧ run.Sticks ∧ (run.Fair → run.Answers) ∧
      (run.Fair → run.Calm → run.Wakes) :=
  ⟨runsOnce, repliesOnce, sticks, answers, wakes⟩

end Run

/-! ## A run of one Turn -/

/-- A step that cannot be taken is left out. -/
def Pool.advance (limits : Limits) (pool : Pool Fingerprint) (action : Action Fingerprint) :
    Pool Fingerprint :=
  (pool.step limits action).getD pool

/-- The run of some actions, after which nothing happens. -/
def Run.ofActions (limits : Limits) (actions : List (Action Fingerprint)) :
    Run Fingerprint limits where
  state n := (actions.take n).foldl (Pool.advance limits) .initial
  action n := actions[n]?.filter fun action =>
    (((actions.take n).foldl (Pool.advance limits) .initial).step limits action).isSome
  starts := rfl
  follows := by
    intro n
    rw [List.take_add_one, List.foldl_append]
    generalize (actions.take n).foldl (Pool.advance limits) Pool.initial = pool
    cases actions[n]? with
    | none => rfl
    | some action =>
        cases hstep : pool.step limits action with
        | none => simp [Option.filter, hstep, Pool.advance]
        | some reached => simp [Option.filter, hstep, Pool.advance]

namespace OneTurn

def actions : List (Action ℕ) :=
  [.submit 0 0 "session" none, .caller 0 .register, .lock 0, .choose 0 0 false,
    .choose 0 0 true, .send 0, .worker 1 .receive, .begin 1, .turn 1 (.enter true),
    .worker 1 .launch, .turn 1 (.result .succeeded), .turn 1 (.conclude true),
    .worker 1 .count, .announce 1, .reply 1, .caller 0 .collect]

def run : Run ℕ (withLimits 1 1) := .ofActions (withLimits 1 1) actions

theorem state_eq (n : ℕ) : run.state (max n actions.length) = run.state actions.length := by
  have hstate : ∀ m, run.state m =
      (actions.take m).foldl (Pool.advance (withLimits 1 1)) .initial := fun m => rfl
  rw [hstate, hstate, List.take_of_length_le (Nat.le_max_right _ _), List.take_length]

theorem workers_none (generation : ℕ) (hgeneration : generation ≠ 1) :
    (run.state actions.length).workers generation = none := by
  match generation, hgeneration with
  | 0, _ => rfl
  | 1, hone => exact absurd rfl hone
  | generation + 2, _ => rfl

theorem submissions_none (i : ℕ) (hi : i ≠ 0) :
    (run.state actions.length).submissions i = none := by
  match i, hi with
  | 0, hzero => exact absurd rfl hzero
  | i + 1, _ => rfl

/-- After the Turn the worker is idle, and the caller has its reply. -/
theorem worker_idle : ((run.state actions.length).workers 1).all
    (fun worker => worker.thread = .receiving && !worker.waits) = true := by
  decide

theorem caller_replied : ((run.state actions.length).submissions 0).all
    (fun submission => submission.calling = .returned .executed && !submission.ready) = true := by
  decide

theorem idle (generation : ℕ) (worker : PersistentWorker ℕ)
    (hworker : (run.state actions.length).workers generation = some worker) :
    worker.thread = .receiving ∧ worker.waits = false := by
  by_cases hgeneration : generation = 1
  · subst hgeneration
    have hidle := worker_idle
    rw [hworker, Option.all_some, Bool.and_eq_true, decide_eq_true_iff, Bool.not_eq_true'] at hidle
    exact hidle
  · cases (workers_none generation hgeneration).symm.trans hworker

theorem fair : run.Fair where
  threads := by
    intro n generation
    refine ⟨max n actions.length, Nat.le_max_left _ _, Or.inr ?_⟩
    rw [state_eq]
    intro worker hworker
    exact (idle generation worker hworker).2
  turns := by
    intro n generation job
    refine ⟨max n actions.length, Nat.le_max_left _ _, ?_⟩
    rw [state_eq]
    intro worker stage hworker hexecuting
    cases (idle generation worker hworker).1.symm.trans hexecuting
  callers := by
    intro n i
    refine ⟨max n actions.length, Nat.le_max_left _ _, ?_⟩
    rw [state_eq]
    intro submission hsubmission
    by_cases hi : i = 0
    · subst hi
      have hreplied := caller_replied
      rw [hsubmission, Option.all_some, Bool.and_eq_true, Bool.not_eq_true'] at hreplied
      exact hreplied.2
    · cases (submissions_none i hi).symm.trans hsubmission

theorem calm : run.Calm := by
  intro n generation hcrash
  have hmem : Action.crash generation ∈ actions := by
    have hget := (Option.filter_eq_some_iff.mp hcrash).1
    exact List.mem_of_getElem? hget
  simp [actions] at hmem

/-- The run in which one Turn is handed to a worker and answered. -/
theorem turn_served : run.Answers ∧ run.Wakes := by
  obtain ⟨-, -, -, hanswers, hwakes⟩ := run.jobs_served
  exact ⟨hanswers fair, hwakes fair calm⟩

end OneTurn

namespace TwoWorkers

/-! ### One Session with two workers -/

/-- A job of the Session whose worker is started for it. -/
def started (i fingerprint : ℕ) : List (Action ℕ) :=
  [.submit i fingerprint "session" none, .caller i .register, .lock i] ++
    (List.range i).map (fun j => .choose i (j + 1) false) ++
      [.choose i 0 false, .choose i 0 true, .send i]

/-- Jobs of one Session are with two workers that both accept jobs, since they are launched
from something else. -/
theorem session_shared :
    ¬∀ (actions : List (Action ℕ)) (pool : Pool ℕ) (i j generation other : ℕ)
      (first second : Submission ℕ) (worker : PersistentWorker ℕ),
      Pool.initial.runs (withLimits 4 8) (fun _ _ => true) actions = some pool →
        pool.submissions i = some first → first.sentTo = some generation →
          pool.workers generation = some worker → worker.accepting = true →
            pool.submissions j = some second → second.sentTo = some other →
              second.sessionKey = first.sessionKey → other = generation := by
  intro h
  have hruns : ((Pool.initial.runs (withLimits 4 8) (fun _ _ => true)
      (started 0 0 ++ started 1 1)).any fun pool =>
        (pool.submissions 0).any (fun first => first.sentTo = some 1 && first.sessionKey = "session") &&
        (pool.submissions 1).any (fun second => second.sentTo = some 2 && second.sessionKey = "session") &&
        (pool.workers 1).any PersistentWorker.accepting) = true := by
    decide
  simp only [Option.any_eq_true, Bool.and_eq_true, decide_eq_true_iff] at hruns
  obtain ⟨pool, hpool, ⟨⟨first, hfirst, hsent, hkey⟩, second, hsecond, hsent', hkey'⟩,
    worker, hworker, haccepting⟩ := hruns
  have hsame := h _ pool 0 1 1 2 first second worker hpool hfirst hsent hworker haccepting
    hsecond hsent' (hkey'.trans hkey.symm)
  exact absurd hsame (by decide)

end TwoWorkers

end Mews.AcpRuntimePool
