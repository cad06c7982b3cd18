import Mews.Acp.Groups
import Mathlib.Data.List.Perm.Subperm
import Mathlib.Data.List.Nodup

/-!
# The limits of the pool

The pool counts the workers in its groups.  A worker leaves its group before it shuts its
process down, so that the place of a process is given away while the process still
runs.  As long as no worker is started meanwhile, the limits hold of the processes.
-/

namespace Mews.AcpRuntimePool

variable {Fingerprint : Type}

/-- The thread of the worker no longer has a process, and starts none. -/
def PersistentWorker.gone (worker : PersistentWorker Fingerprint) : Bool :=
  match worker.thread with
  | .shut | .ended | .crashed => true
  | _ => false

namespace PersistentWorker.Becomes

variable {worker after : PersistentWorker Fingerprint}

theorem gone (h : worker.Becomes after) (hgone : worker.gone = true) : after.gone = true := by
  cases h with
  | same => exact hgone
  | launched => exact hgone
  | discarded => exact hgone
  | queued => exact hgone
  | shut => rfl
  | exited => rfl
  | crashed => rfl
  | stopped =>
      rw [stopAccepting]
      split <;> exact hgone
  | _ hthread =>
      rw [PersistentWorker.gone, hthread] at hgone
      cases hgone

/-- A process belongs to a thread that is not gone. -/
theorem live (h : worker.Becomes after) (hlive : worker.live = true → worker.gone = false)
    (hafter : after.live = true) : after.gone = false := by
  cases h with
  | same => exact hlive hafter
  | launched hthread =>
      rw [PersistentWorker.gone]
      dsimp only
      rw [hthread]
  | discarded => cases hafter
  | queued => exact hlive hafter
  | shut => cases hafter
  | crashed => cases hafter
  | exited hthread =>
      have hgone := hlive hafter
      rw [PersistentWorker.gone, hthread] at hgone
      cases hgone
  | stopped =>
      rw [stopAccepting] at hafter ⊢
      split at hafter
      case isTrue haccepting =>
        rw [if_pos haccepting]
        exact hlive hafter
      case isFalse hrefuses =>
        rw [if_neg hrefuses]
        exact hlive hafter
  | _ => rfl

end PersistentWorker.Becomes

namespace Pool

section Counts

variable (pool : Pool Fingerprint) (holds : PersistentWorker Fingerprint → Bool)

/-- The workers of the pool that were ever started are counted. -/
def countWorkers : ℕ :=
  (List.range pool.nextGeneration).countP fun generation => (pool.workers generation).any holds

def liveProcesses : ℕ := pool.countWorkers PersistentWorker.live

/-- Every worker that is in no group is gone. -/
def cleared : Bool :=
  (List.range pool.nextGeneration).all fun generation =>
    (pool.workers generation).all fun worker =>
      worker.gone || pool.groups.generations.contains generation

variable [DecidableEq Fingerprint]

def liveProcessesOf (fingerprint : Fingerprint) : ℕ :=
  pool.countWorkers fun worker => worker.live && worker.fingerprint = fingerprint

/-- Whether the action starts a worker. -/
def spawns : Action Fingerprint → Bool
  | .choose i _ true =>
      (pool.submissions i).any fun submission => submission.calling = .choosing .spawning
  | _ => false

/-- A worker is started only when those outside the groups are gone. -/
def careful (action : Action Fingerprint) : Bool := !pool.spawns action || pool.cleared

/-- The limits hold of the processes that are alive. -/
def WithinLimits (limits : Limits) : Prop :=
  pool.liveProcesses ≤ limits.maxTotalProcesses ∧
    ∀ fingerprint, pool.liveProcessesOf fingerprint ≤ limits.maxProcessesPerFingerprint

end Counts

variable {pool reached : Pool Fingerprint} {holds holds' : PersistentWorker Fingerprint → Bool}

/-! ## Counting -/

theorem countWorkers_mono (hnext : reached.nextGeneration = pool.nextGeneration)
    (h : ∀ generation after, reached.workers generation = some after → holds after = true →
      ∃ worker, pool.workers generation = some worker ∧ holds' worker = true) :
    reached.countWorkers holds ≤ pool.countWorkers holds' := by
  rw [countWorkers, countWorkers, hnext]
  apply List.countP_mono_left
  intro generation _ hany
  obtain ⟨after, hafter, hholds⟩ := (Option.any_eq_true _ _).mp hany
  exact (Option.any_eq_true _ _).mpr (h generation after hafter hholds)

/-- Workers that are all in a list are no more than its members. -/
theorem countWorkers_le_length {generations : List ℕ}
    (h : ∀ generation worker, pool.workers generation = some worker → holds worker = true →
      generation ∈ generations) : pool.countWorkers holds ≤ generations.length := by
  rw [countWorkers, List.countP_eq_length_filter]
  apply (List.subperm_of_subset (List.nodup_range.filter _) _).length_le
  intro generation hmem
  obtain ⟨worker, hworker, hholds⟩ := (Option.any_eq_true _ _).mp (List.mem_filter.mp hmem).2
  exact h generation worker hworker hholds

theorem mem_generations_of_cleared (hcleared : pool.cleared = true)
    (hknown : ∀ generation worker, pool.workers generation = some worker →
      generation < pool.nextGeneration) {generation : ℕ}
    {worker : PersistentWorker Fingerprint} (hworker : pool.workers generation = some worker)
    (hgone : worker.gone = false) : generation ∈ pool.groups.generations := by
  have hall := List.all_eq_true.mp hcleared generation
    (List.mem_range.mpr (hknown generation worker hworker))
  rw [hworker, Option.all_some, hgone, Bool.false_or, List.contains_iff_mem] at hall
  exact hall

variable [DecidableEq Fingerprint] {limits : Limits}

/-- A worker that is started counts where it is of the kind. -/
theorem countWorkers_spawn (i : ℕ) (submission : Submission Fingerprint) :
    (pool.spawn i submission).countWorkers holds ≤ pool.countWorkers holds +
      if holds (.new submission.fingerprint) then 1 else 0 := by
  rw [countWorkers, countWorkers]
  change (List.range (pool.nextGeneration + 1)).countP _ ≤ _
  rw [List.range_succ, List.countP_append]
  apply Nat.add_le_add
  · apply List.countP_mono_left
    intro generation hgeneration hany
    have hne := Nat.ne_of_lt (List.mem_range.mp hgeneration)
    change (Function.update pool.workers _ _ generation).any holds = true at hany
    rwa [Function.update_of_ne hne] at hany
  · rw [List.countP_singleton]
    change (if (Function.update pool.workers _ _ pool.nextGeneration).any holds = true
      then 1 else 0) ≤ _
    rw [Function.update_self, Option.any_some]

/-! ## The limits -/

/-- The workers that are not gone keep within the limits. -/
structure Sized (limits : Limits) (pool : Pool Fingerprint) : Prop where
  consistent : pool.Consistent limits
  live : ∀ generation worker, pool.workers generation = some worker → worker.live = true →
    worker.gone = false
  total : pool.countWorkers (fun worker => !worker.gone) ≤ limits.maxTotalProcesses
  perFingerprint : ∀ fingerprint,
    pool.countWorkers (fun worker => !worker.gone && worker.fingerprint = fingerprint) ≤
      limits.maxProcessesPerFingerprint

theorem sized_initial : (initial : Pool Fingerprint).Sized limits where
  consistent := consistent_initial
  live := by intro generation worker hworker; cases hworker
  total := Nat.zero_le _
  perFingerprint := fun _ => Nat.zero_le _

/-- No step but the start of a worker brings one back. -/
theorem Sized.kept (h : pool.Sized limits) (hkept : pool.Kept reached)
    (hconsistent : reached.Consistent limits) : reached.Sized limits where
  consistent := hconsistent
  live := by
    intro generation after hafter hlive
    obtain ⟨worker, hworker, hbecomes⟩ := hkept.known generation after hafter
    exact hbecomes.live (h.live generation worker hworker) hlive
  total := by
    apply Nat.le_trans (countWorkers_mono hkept.nextGeneration _) h.total
    intro generation after hafter hrunning
    obtain ⟨worker, hworker, hbecomes⟩ := hkept.known generation after hafter
    refine ⟨worker, hworker, ?_⟩
    cases hgone : worker.gone with
    | false => rfl
    | true =>
        rw [hbecomes.gone hgone] at hrunning
        cases hrunning
  perFingerprint := by
    intro fingerprint
    apply Nat.le_trans (countWorkers_mono hkept.nextGeneration _) (h.perFingerprint fingerprint)
    intro generation after hafter hrunning
    obtain ⟨worker, hworker, hbecomes⟩ := hkept.known generation after hafter
    rw [hbecomes.fingerprint] at hrunning
    refine ⟨worker, hworker, ?_⟩
    cases hgone : worker.gone with
    | false =>
        rw [Bool.and_eq_true_iff] at hrunning ⊢
        exact ⟨rfl, hrunning.2⟩
    | true =>
        rw [hbecomes.gone hgone] at hrunning
        cases hrunning

/-- A worker is started when there is room, and then only those in the groups are left. -/
theorem Sized.spawned (h : pool.Sized limits) {i : ℕ} {submission : Submission Fingerprint}
    (hsubmission : pool.submissions i = some submission)
    (hcalling : submission.calling = .choosing .spawning) (hcleared : pool.cleared = true)
    (hconsistent : (pool.spawn i submission).Consistent limits) :
    (pool.spawn i submission).Sized limits := by
  obtain ⟨-, -, htotal, hroom⟩ := h.consistent.locked i submission .spawning hsubmission hcalling
  have hmem : ∀ generation worker, pool.workers generation = some worker →
      worker.gone = false → generation ∈ pool.groups.generations := by
    intro generation worker hworker hgone
    exact mem_generations_of_cleared hcleared h.consistent.known hworker hgone
  refine ⟨hconsistent, ?_, ?_, ?_⟩
  · intro generation worker hworker hlive
    by_cases hnew : generation = pool.nextGeneration
    · subst hnew
      obtain rfl := eq_of_update_self hworker
      cases hlive
    · exact h.live generation worker ((Function.update_of_ne hnew _ _).symm.trans hworker) hlive
  · apply Nat.le_trans (countWorkers_spawn i submission)
    have hcount : pool.countWorkers (fun worker => !worker.gone) ≤
        pool.groups.generations.length := by
      apply countWorkers_le_length
      intro generation worker hworker hrunning
      exact hmem generation worker hworker (Bool.not_eq_true' _ ▸ hrunning)
    rw [Groups.generations, List.length_map] at hcount
    split <;> omega
  · intro fingerprint
    apply Nat.le_trans (countWorkers_spawn i submission)
    by_cases hfingerprint : submission.fingerprint = fingerprint
    · subst hfingerprint
      have hcount : pool.countWorkers
          (fun worker => !worker.gone && worker.fingerprint = submission.fingerprint) ≤
            (pool.groups.workers submission.fingerprint).length := by
        apply countWorkers_le_length
        intro generation worker hworker hrunning
        rw [Bool.and_eq_true_iff, Bool.not_eq_true', decide_eq_true_eq] at hrunning
        have hlisted := hmem generation worker hworker hrunning.1
        obtain ⟨⟨other, generation⟩, hentry, rfl⟩ := List.mem_map.mp hlisted
        obtain ⟨found, hfound, rfl⟩ := h.consistent.listed other generation hentry
        obtain rfl := Option.some.inj (hworker.symm.trans hfound)
        rw [hrunning.2] at hentry
        exact Groups.mem_workers.mpr hentry
      split <;> omega
    · rw [if_neg]
      · exact h.perFingerprint fingerprint
      · simp [PersistentWorker.new, hfingerprint]

theorem Sized.step (h : pool.Sized limits) {action : Action Fingerprint}
    (hcareful : pool.careful action = true) (hmoved : Moved limits pool action reached) :
    reached.Sized limits := by
  have hconsistent := h.consistent.step hmoved
  obtain hkept | ⟨i, generation, submission, rfl, hsubmission, hcalling, rfl⟩ :=
    hmoved.tended.cases
  · exact h.kept hkept hconsistent
  · rw [careful, spawns, hsubmission, Option.any_some, decide_eq_true hcalling, Bool.not_true,
      Bool.false_or] at hcareful
    exact h.spawned hsubmission hcalling hcareful hconsistent

theorem Sized.withinLimits (h : pool.Sized limits) : pool.WithinLimits limits := by
  constructor
  · apply Nat.le_trans (countWorkers_mono rfl _) h.total
    intro generation worker hworker hlive
    exact ⟨worker, hworker, by rw [h.live generation worker hworker hlive]; rfl⟩
  · intro fingerprint
    apply Nat.le_trans (countWorkers_mono rfl _) (h.perFingerprint fingerprint)
    intro generation worker hworker hlive
    rw [Bool.and_eq_true_iff] at hlive
    refine ⟨worker, hworker, ?_⟩
    rw [h.live generation worker hworker hlive.1, hlive.2]
    rfl

/-- As long as no worker is started while one outside the groups is not gone, the
processes keep within the limits of the pool. -/
theorem process_limits (limits : Limits) (actions : List (Action Fingerprint))
    (hruns : initial.runs limits careful actions = some reached) :
    reached.WithinLimits limits := by
  have hsized : reached.Sized limits :=
    holds_runs (fun hsized hcareful hmoved => hsized.step hcareful hmoved) sized_initial hruns
  exact hsized.withinLimits

namespace OneProcess

/-! ### A pool of one process -/

/-- A Turn on the worker with that number, from its submission to the process that
answers it. -/
def turned (i generation : ℕ) : List (Action ℕ) :=
  [.submit i 0 "session" none, .caller i .register, .lock i, .choose i 0 false,
    .choose i 0 true, .send i, .worker generation .receive, .begin generation,
    .turn generation (.enter true), .worker generation .launch]

/-- The worker answers and is idle until it leaves its group. -/
def idled (generation : ℕ) : List (Action ℕ) :=
  [.turn generation (.result .succeeded), .turn generation (.conclude true),
    .worker generation .count, .announce generation, .reply generation,
    .worker generation .timeout, .worker generation .leave, .unlist generation]

/-- One Turn after the other, with the exit of the first worker between them. -/
theorem turns_within_limits :
    ∃ pool, initial.runs (withLimits 1 1) careful
        (turned 0 1 ++ idled 1 ++ [.worker 1 .shutdown] ++ turned 1 2) = some pool ∧
      pool.WithinLimits (withLimits 1 1) := by
  have hruns : (initial.runs (withLimits 1 1) careful
      (turned 0 1 ++ idled 1 ++ [.worker 1 .shutdown] ++ turned 1 2)).isSome = true := by
    decide
  obtain ⟨pool, hpool⟩ := Option.isSome_iff_exists.mp hruns
  exact ⟨pool, hpool, process_limits (withLimits 1 1) _ hpool⟩

/-- The second worker starts its process before the first has shut its own down. -/
theorem processes_exceed_limits :
    ¬∀ (limits : Limits) (actions : List (Action ℕ)) (pool : Pool ℕ),
      initial.runs limits (fun _ _ => true) actions = some pool → pool.WithinLimits limits := by
  intro h
  have hruns : ((initial.runs (withLimits 1 1) (fun _ _ => true)
      (turned 0 1 ++ idled 1 ++ turned 1 2)).any fun pool => 2 ≤ pool.liveProcesses) = true := by
    decide
  obtain ⟨pool, hpool, hlive⟩ := (Option.any_eq_true _ _).mp hruns
  have hlimit := (h (withLimits 1 1) _ pool hpool).1
  have htwo : 2 ≤ pool.liveProcesses := of_decide_eq_true hlive
  exact absurd (Nat.le_trans htwo hlimit) (by decide)

end OneProcess

end Pool

end Mews.AcpRuntimePool
