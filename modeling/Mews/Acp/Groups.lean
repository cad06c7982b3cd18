import Mews.Acp.Workers

/-!
# The groups of the pool

Whoever changes the groups holds their lock, and what a caller has found out under the
lock stays true until it releases it.  A worker that accepts jobs is in its group, and
a Session that has been given such a worker is bound to it.
-/

namespace Mews.AcpRuntimePool

variable {Fingerprint : Type}

/-- The caller has been given the worker, or has handed its job to it. -/
def Submission.Holds (submission : Submission Fingerprint) (generation : ℕ) : Prop :=
  submission.calling = .holding generation ∨ submission.sentTo = some generation

/-- The caller neither has the lock nor has been given a worker. -/
def Calling.isFree : Calling → Bool
  | .choosing _ | .holding _ => false
  | _ => true

/-- The loop of the worker is left. -/
def Thread.hasLeft : Thread → Bool
  | .closed | .unlisted | .shut | .ended => true
  | _ => false

/-! ## What a worker keeps -/

namespace PersistentWorker.Becomes

variable {worker after : PersistentWorker Fingerprint}

theorem fingerprint (h : worker.Becomes after) : after.fingerprint = worker.fingerprint := by
  cases h with
  | stopped =>
      rw [stopAccepting]
      split <;> rfl
  | _ => rfl

theorem accepting (h : worker.Becomes after) (haccepting : after.accepting = true) :
    worker.accepting = true := by
  cases h with
  | stopped =>
      rw [stopAccepting] at haccepting
      split at haccepting
      · cases haccepting
      · exact haccepting
  | idled => cases haccepting
  | left => cases haccepting
  | _ => exact haccepting

theorem closed (h : worker.Becomes after)
    (hclosed : worker.thread.hasLeft = true → worker.accepting = false)
    (hleft : after.thread.hasLeft = true) : after.accepting = false := by
  cases h with
  | stopped =>
      rw [stopAccepting]
      split
      · rfl
      case isFalse haccepting => exact Bool.not_eq_true _ ▸ haccepting
  | left => rfl
  | shut hthread => exact hclosed (by rw [hthread]; rfl)
  | unlisted hthread => exact hclosed (by rw [hthread]; rfl)
  | exited hthread => exact hclosed (by rw [hthread]; rfl)
  | same => exact hclosed hleft
  | launched => exact hclosed hleft
  | discarded => exact hclosed hleft
  | queued => exact hclosed hleft
  | _ => cases hleft

end PersistentWorker.Becomes

namespace Groups

variable {groups : Groups Fingerprint} {fingerprint : Fingerprint} {generation : ℕ}

theorem mem_retire {entry : Fingerprint × ℕ} :
    entry ∈ (groups.retire generation).entries ↔
      entry ∈ groups.entries ∧ entry.2 ≠ generation := by
  simp [retire]

theorem bindings_retire {key : String} {bound : ℕ} :
    (groups.retire generation).bindings fingerprint key = some bound ↔
      groups.bindings fingerprint key = some bound ∧ bound ≠ generation := by
  simp [retire, Option.filter_eq_some_iff]

variable [DecidableEq Fingerprint]

theorem mem_workers : generation ∈ groups.workers fingerprint ↔
    (fingerprint, generation) ∈ groups.entries := by
  simp [workers]

theorem bindings_bind (key : String) (bound : Option ℕ) (other : Fingerprint) (key' : String) :
    (groups.bind fingerprint key bound).bindings other key' =
      if other = fingerprint ∧ key' = key then bound else groups.bindings other key' := by
  rw [bind]
  by_cases hother : other = fingerprint
  · subst hother
    by_cases hkey : key' = key
    · simp [hkey]
    · simp [hkey]
  · simp [hother]

@[simp] theorem entries_bind (key : String) (bound : Option ℕ) :
    (groups.bind fingerprint key bound).entries = groups.entries := rfl

@[simp] theorem workers_bind (key : String) (bound : Option ℕ) (other : Fingerprint) :
    (groups.bind fingerprint key bound).workers other = groups.workers other := rfl

end Groups

variable [DecidableEq Fingerprint]

/-- What a caller has found out since it has the lock. -/
def Knows (limits : Limits) (groups : Groups Fingerprint) (fingerprint : Fingerprint)
    (key : String) : Choice → Prop
  | .pruning _ => True
  | .weighing unread least =>
      groups.bindings fingerprint key = none ∧
        unread ⊆ groups.workers fingerprint ∧
        (least = none → unread = groups.workers fingerprint) ∧
        ∀ best ∈ least, best.1 ∈ groups.workers fingerprint
  | .weighed best =>
      groups.bindings fingerprint key = none ∧
        best ∈ groups.workers fingerprint
  | .spawning =>
      groups.bindings fingerprint key = none ∧
        groups.entries.length < limits.maxTotalProcesses ∧
        (groups.workers fingerprint).length < limits.maxProcessesPerFingerprint
  | .searching _ | .evicting _ =>
      groups.bindings fingerprint key = none ∧
        limits.maxTotalProcesses ≤ groups.entries.length
  | .queueing unread least =>
      groups.bindings fingerprint key = none ∧
        limits.maxTotalProcesses ≤ groups.entries.length ∧
        unread ⊆ groups.workers fingerprint ∧
        (least = none → unread = groups.workers fingerprint) ∧
        ∀ best ∈ least, best.1 ∈ groups.workers fingerprint

namespace Pool

variable {limits : Limits} {pool reached : Pool Fingerprint}

/-- What holds of the groups, the lock and the workers in every run. -/
structure Consistent (limits : Limits) (pool : Pool Fingerprint) : Prop where
  known : ∀ generation worker, pool.workers generation = some worker →
    generation < pool.nextGeneration
  closed : ∀ generation worker, pool.workers generation = some worker →
    worker.thread.hasLeft = true → worker.accepting = false
  listed : ∀ fingerprint generation, (fingerprint, generation) ∈ pool.groups.entries →
    ∃ worker, pool.workers generation = some worker ∧ worker.fingerprint = fingerprint
  accepting : ∀ generation worker, pool.workers generation = some worker →
    worker.accepting = true → (worker.fingerprint, generation) ∈ pool.groups.entries
  bound : ∀ fingerprint key generation,
    pool.groups.bindings fingerprint key = some generation →
      (fingerprint, generation) ∈ pool.groups.entries
  held : ∀ i submission generation, pool.submissions i = some submission →
    submission.Holds generation → ∃ worker, pool.workers generation = some worker ∧
      worker.fingerprint = submission.fingerprint ∧
      (worker.accepting = true →
        pool.groups.bindings submission.fingerprint submission.sessionKey = some generation)
  locked : ∀ i submission choice, pool.submissions i = some submission →
    submission.calling = .choosing choice →
      pool.lockedBy = some i ∧
        Knows limits pool.groups submission.fingerprint submission.sessionKey choice

theorem consistent_initial : (initial : Pool Fingerprint).Consistent limits where
  known := by intro generation worker hworker; cases hworker
  closed := by intro generation worker hworker; cases hworker
  listed := by intro fingerprint generation hentry; cases hentry
  accepting := by intro generation worker hworker; cases hworker
  bound := by intro fingerprint key generation hbound; cases hbound
  held := by intro i submission generation hsubmission; cases hsubmission
  locked := by intro i submission choice hsubmission; cases hsubmission

/-- A submission goes on with what it has, or gives it up. -/
structure Continues (submission after : Submission Fingerprint) : Prop where
  fingerprint : after.fingerprint = submission.fingerprint
  sessionKey : after.sessionKey = submission.sessionKey
  choosing : ∀ choice, after.calling = .choosing choice → submission.calling = .choosing choice
  holds : ∀ generation, after.Holds generation → submission.Holds generation

/-- A submission has nothing yet. -/
structure Idle (submission : Submission Fingerprint) : Prop where
  choosing : ∀ choice, submission.calling ≠ .choosing choice
  holds : ∀ generation, ¬submission.Holds generation

/-- A step that leaves the groups and their lock alone. -/
theorem Consistent.framed (h : pool.Consistent limits) (hkept : pool.Kept reached)
    (hgroups : reached.groups = pool.groups) (hlockedBy : reached.lockedBy = pool.lockedBy)
    (hsubmissions : ∀ j after, reached.submissions j = some after →
      (∃ submission, pool.submissions j = some submission ∧ Continues submission after) ∨
        Idle after) :
    reached.Consistent limits where
  known := by
    intro generation after hafter
    obtain ⟨worker, hworker, -⟩ := hkept.known generation after hafter
    rw [hkept.nextGeneration]
    exact h.known generation worker hworker
  closed := by
    intro generation after hafter
    obtain ⟨worker, hworker, hbecomes⟩ := hkept.known generation after hafter
    exact hbecomes.closed (h.closed generation worker hworker)
  listed := by
    intro fingerprint generation hentry
    rw [hgroups] at hentry
    obtain ⟨worker, hworker, rfl⟩ := h.listed fingerprint generation hentry
    obtain ⟨after, hafter, hbecomes⟩ := hkept.becomes generation worker hworker
    exact ⟨after, hafter, hbecomes.fingerprint⟩
  accepting := by
    intro generation after hafter haccepting
    obtain ⟨worker, hworker, hbecomes⟩ := hkept.known generation after hafter
    rw [hgroups, hbecomes.fingerprint]
    exact h.accepting generation worker hworker (hbecomes.accepting haccepting)
  bound := by
    rw [hgroups]
    exact h.bound
  held := by
    intro i after generation hafter hholds
    obtain ⟨submission, hsubmission, hcontinues⟩ | hidle := hsubmissions i after hafter
    · obtain ⟨worker, hworker, hfingerprint, hbound⟩ :=
        h.held i submission generation hsubmission (hcontinues.holds generation hholds)
      obtain ⟨became, hbecame, hbecomes⟩ := hkept.becomes generation worker hworker
      refine ⟨became, hbecame, ?_, ?_⟩
      · rw [hbecomes.fingerprint, hfingerprint, hcontinues.fingerprint]
      · intro haccepting
        rw [hgroups, hcontinues.fingerprint, hcontinues.sessionKey]
        exact hbound (hbecomes.accepting haccepting)
    · exact absurd hholds (hidle.holds generation)
  locked := by
    intro i after choice hafter hchoosing
    obtain ⟨submission, hsubmission, hcontinues⟩ | hidle := hsubmissions i after hafter
    · obtain ⟨hlocked, hknows⟩ :=
        h.locked i submission choice hsubmission (hcontinues.choosing choice hchoosing)
      rw [hlockedBy, hgroups, hcontinues.fingerprint, hcontinues.sessionKey]
      exact ⟨hlocked, hknows⟩
    · exact absurd hchoosing (hidle.choosing choice)

variable (reached) in
/-- A step of one caller that leaves the groups alone, while no other has the lock. -/
theorem Consistent.acting (h : pool.Consistent limits) (hkept : pool.Kept reached)
    (hgroups : reached.groups = pool.groups) {i : ℕ} {submission after : Submission Fingerprint}
    (hsubmission : pool.submissions i = some submission)
    (hafter : reached.submissions i = some after)
    (hothers : ∀ j, j ≠ i → reached.submissions j = pool.submissions j)
    (hfingerprint : after.fingerprint = submission.fingerprint)
    (hkey : after.sessionKey = submission.sessionKey)
    (hfree : ∀ j, pool.lockedBy = some j → j = i)
    (hholds : ∀ generation, after.Holds generation → submission.Holds generation ∨
      pool.groups.bindings submission.fingerprint submission.sessionKey = some generation)
    (hchoosing : ∀ choice, after.calling = .choosing choice → reached.lockedBy = some i ∧
      Knows limits pool.groups submission.fingerprint submission.sessionKey choice) :
    reached.Consistent limits := by
  -- all but the caller and the lock is as in a step that leaves both alone
  let framed : Pool Fingerprint :=
    { reached with submissions := pool.submissions, lockedBy := pool.lockedBy }
  have hframes : pool.Kept framed := ⟨hkept.nextGeneration, hkept.becomes, hkept.known⟩
  have hframed : framed.Consistent limits := by
    apply h.framed hframes hgroups rfl
    intro j found hfound
    exact Or.inl ⟨found, hfound, rfl, rfl, fun _ => id, fun _ => id⟩
  refine ⟨hframed.known, hframed.closed, hframed.listed, hframed.accepting, hframed.bound, ?_, ?_⟩
  · intro j found generation hfound hholding
    by_cases hj : j = i
    · subst hj
      rw [hafter] at hfound
      obtain rfl := Option.some.inj hfound
      rw [hfingerprint, hkey]
      obtain hheld | hbinding := hholds generation hholding
      · exact hframed.held j submission generation hsubmission hheld
      · have hentry := h.bound _ _ _ hbinding
        rw [← hgroups] at hentry
        obtain ⟨worker, hworker, hlisted⟩ := hframed.listed _ _ hentry
        exact ⟨worker, hworker, hlisted, fun _ => hgroups ▸ hbinding⟩
    · rw [hothers j hj] at hfound
      exact hframed.held j found generation hfound hholding
  · intro j found choice hfound hchoice
    by_cases hj : j = i
    · subst hj
      rw [hafter] at hfound
      obtain rfl := Option.some.inj hfound
      rw [hgroups, hfingerprint, hkey]
      exact hchoosing choice hchoice
    · rw [hothers j hj] at hfound
      exact absurd (hfree j (h.locked j found choice hfound hchoice).1) hj

/-- A worker that no longer accepts jobs leaves its group. -/
theorem Consistent.retired (h : pool.Consistent limits) {generation : ℕ}
    (hrefuses : ∀ worker, pool.workers generation = some worker → worker.accepting = false)
    (hpruning : ∀ i submission choice, pool.submissions i = some submission →
      submission.calling = .choosing choice → ∃ unread, choice = .pruning unread) :
    ({ pool with groups := pool.groups.retire generation } : Pool Fingerprint).Consistent
      limits where
  known := h.known
  closed := h.closed
  listed := by
    intro fingerprint other hentry
    exact h.listed fingerprint other (Groups.mem_retire.mp hentry).1
  accepting := by
    intro other worker hworker haccepting
    refine Groups.mem_retire.mpr ⟨h.accepting other worker hworker haccepting, ?_⟩
    rintro rfl
    rw [hrefuses worker hworker] at haccepting
    cases haccepting
  bound := by
    intro fingerprint key other hbound
    obtain ⟨hbound, hother⟩ := Groups.bindings_retire.mp hbound
    exact Groups.mem_retire.mpr ⟨h.bound fingerprint key other hbound, hother⟩
  held := by
    intro i submission other hsubmission hholds
    obtain ⟨worker, hworker, hfingerprint, hbound⟩ := h.held i submission other hsubmission hholds
    refine ⟨worker, hworker, hfingerprint, fun haccepting => ?_⟩
    refine Groups.bindings_retire.mpr ⟨hbound haccepting, ?_⟩
    rintro rfl
    rw [hrefuses worker hworker] at haccepting
    cases haccepting
  locked := by
    intro i submission choice hsubmission hchoosing
    refine ⟨(h.locked i submission choice hsubmission hchoosing).1, ?_⟩
    obtain ⟨unread, rfl⟩ := hpruning i submission choice hsubmission hchoosing
    trivial

/-- A Session that is bound to no worker is bound to one of its group. -/
theorem Consistent.binds (h : pool.Consistent limits) {fingerprint : Fingerprint} {key : String}
    {generation : ℕ} (hnone : pool.groups.bindings fingerprint key = none)
    (hentry : (fingerprint, generation) ∈ pool.groups.entries) (hfree : pool.lockedBy = none) :
    ({ pool with groups := pool.groups.bind fingerprint key (some generation) } :
      Pool Fingerprint).Consistent limits where
  known := h.known
  closed := h.closed
  listed := h.listed
  accepting := h.accepting
  bound := by
    intro other key' found hfound
    rw [Groups.bindings_bind] at hfound
    split at hfound
    case isTrue heq =>
      obtain rfl := Option.some.inj hfound
      rw [heq.1]
      exact hentry
    case isFalse => exact h.bound other key' found hfound
  held := by
    intro i submission other hsubmission hholds
    obtain ⟨worker, hworker, hfingerprint, hbound⟩ := h.held i submission other hsubmission hholds
    refine ⟨worker, hworker, hfingerprint, fun haccepting => ?_⟩
    have hbinding := hbound haccepting
    rw [Groups.bindings_bind, if_neg]
    · exact hbinding
    · rintro ⟨heq, hkey⟩
      rw [heq, hkey, hnone] at hbinding
      cases hbinding
  locked := by
    intro i submission choice hsubmission hchoosing
    have hlocked := (h.locked i submission choice hsubmission hchoosing).1
    rw [hfree] at hlocked
    cases hlocked

/-- A worker is started and listed. -/
theorem Consistent.started (h : pool.Consistent limits) (fingerprint : Fingerprint)
    (hfree : pool.lockedBy = none) :
    ({ pool with
      groups := pool.groups.push fingerprint pool.nextGeneration
      nextGeneration := pool.nextGeneration + 1
      workers := Function.update pool.workers pool.nextGeneration
        (some (PersistentWorker.new fingerprint)) } : Pool Fingerprint).Consistent limits := by
  -- the number of the worker is new
  have hother : ∀ generation found, pool.workers generation = some found →
      Function.update pool.workers pool.nextGeneration (some (PersistentWorker.new fingerprint))
        generation = some found := by
    intro generation found hfound
    rw [Function.update_of_ne (Nat.ne_of_lt (h.known generation found hfound)), hfound]
  have hcases : ∀ generation found,
      Function.update pool.workers pool.nextGeneration (some (PersistentWorker.new fingerprint))
          generation = some found →
        (generation = pool.nextGeneration ∧ found = .new fingerprint) ∨
          pool.workers generation = some found := by
    intro generation found hfound
    by_cases heq : generation = pool.nextGeneration
    · subst heq
      rw [Function.update_self] at hfound
      exact Or.inl ⟨rfl, (Option.some.inj hfound).symm⟩
    · rw [Function.update_of_ne heq] at hfound
      exact Or.inr hfound
  refine ⟨?_, ?_, ?_, ?_, ?_, ?_, ?_⟩
  · intro generation found hfound
    obtain ⟨rfl, rfl⟩ | hfound := hcases generation found hfound
    · exact Nat.lt_succ_self _
    · exact Nat.lt_succ_of_lt (h.known generation found hfound)
  · intro generation found hfound hleft
    obtain ⟨rfl, rfl⟩ | hfound := hcases generation found hfound
    · cases hleft
    · exact h.closed generation found hfound hleft
  · intro other generation hentry
    obtain hentry | hentry := List.mem_append.mp hentry
    · obtain ⟨found, hfound, hfingerprint⟩ := h.listed other generation hentry
      exact ⟨found, hother generation found hfound, hfingerprint⟩
    · rw [List.mem_singleton, Prod.mk.injEq] at hentry
      obtain ⟨rfl, rfl⟩ := hentry
      exact ⟨.new other, Function.update_self .., rfl⟩
  · intro generation found hfound haccepting
    obtain ⟨rfl, rfl⟩ | hfound := hcases generation found hfound
    · exact List.mem_append_right _ (List.mem_singleton_self _)
    · exact List.mem_append_left _ (h.accepting generation found hfound haccepting)
  · intro other key generation hbound
    exact List.mem_append_left _ (h.bound other key generation hbound)
  · intro i submission generation hsubmission hholds
    obtain ⟨found, hfound, hheld⟩ := h.held i submission generation hsubmission hholds
    exact ⟨found, hother generation found hfound, hheld⟩
  · intro i submission choice hsubmission hchoosing
    have hlocked := (h.locked i submission choice hsubmission hchoosing).1
    rw [hfree] at hlocked
    cases hlocked

/-! ### The caller that has the lock -/

section Locked

theorem eq_of_update_self {A : Type} {found : ℕ → Option A} {i : ℕ} {first second : A}
    (h : Function.update found i (some first) i = some second) : first = second :=
  Option.some.inj ((Function.update_self i (some first) found).symm.trans h)

variable {i : ℕ} {submission : Submission Fingerprint}

omit [DecidableEq Fingerprint] in
theorem holds_calling {calling : Calling} {generation : ℕ}
    (hholds : ({ submission with calling } : Submission Fingerprint).Holds generation) :
    calling = .holding generation ∨ submission.sentTo = some generation := hholds

theorem Consistent.goesOn (h : pool.Consistent limits)
    (hsubmission : pool.submissions i = some submission) (hlocked : pool.lockedBy = some i)
    {choice : Choice} (hknows : Knows limits pool.groups submission.fingerprint
      submission.sessionKey choice) : (pool.goOn i submission choice).Consistent limits := by
  apply h.acting (pool.goOn i submission choice) (.of_eq rfl rfl) rfl hsubmission
    (Function.update_self ..) _ rfl rfl
  · intro j hj
    exact Option.some.inj (hj.symm.trans hlocked)
  · intro generation hholds
    obtain hcalling | hsent := holds_calling hholds
    · cases hcalling
    · exact Or.inl (Or.inr hsent)
  · intro found hfound
    obtain rfl := Calling.choosing.inj hfound
    exact ⟨hlocked, hknows⟩
  · intro j hj
    exact Function.update_of_ne hj _ _

theorem Consistent.chosen (h : pool.Consistent limits)
    (hsubmission : pool.submissions i = some submission) (hlocked : pool.lockedBy = some i)
    {calling : Calling} (hreleased : ∀ choice, calling ≠ .choosing choice)
    (hbound : ∀ generation, calling = .holding generation →
      pool.groups.bindings submission.fingerprint submission.sessionKey = some generation) :
    (pool.choose i submission calling).Consistent limits := by
  apply h.acting (pool.choose i submission calling) (.of_eq rfl rfl) rfl hsubmission
    (Function.update_self ..) _ rfl rfl
  · intro j hj
    exact Option.some.inj (hj.symm.trans hlocked)
  · intro generation hholds
    obtain hcalling | hsent := holds_calling hholds
    · exact Or.inr (hbound generation hcalling)
    · exact Or.inl (Or.inr hsent)
  · intro choice hchoice
    exact absurd hchoice (hreleased choice)
  · intro j hj
    exact Function.update_of_ne hj _ _

omit [DecidableEq Fingerprint] in
/-- The least loaded worker is one of those that were weighed. -/
theorem weigh_mem {next : ℕ} {least : Option (ℕ × ℕ)} {best : ℕ × ℕ}
    (hbest : best ∈ pool.weigh next least) : best.1 = next ∨ best ∈ least := by
  unfold weigh at hbest
  split at hbest
  case h_1 =>
    split at hbest
    · obtain rfl := Option.some.inj hbest
      exact Or.inl rfl
    · exact Or.inr hbest
  case h_2 =>
    obtain rfl := Option.some.inj hbest
    exact Or.inl rfl
  case h_3 => exact Or.inr hbest

omit [DecidableEq Fingerprint] in
theorem weigh_ne_none {next : ℕ} {least : Option (ℕ × ℕ)}
    {worker : PersistentWorker Fingerprint} (hworker : pool.workers next = some worker) :
    pool.weigh next least ≠ none := by
  unfold weigh
  rw [hworker]
  cases least with
  | none => exact Option.some_ne_none _
  | some best =>
      dsimp only
      split <;> exact Option.some_ne_none _

theorem Consistent.extends (h : pool.Consistent limits)
    (hsubmission : pool.submissions i = some submission) (hlocked : pool.lockedBy = some i)
    (hnone : pool.groups.bindings submission.fingerprint submission.sessionKey = none)
    (hroom : (pool.groups.workers submission.fingerprint).length <
      limits.maxProcessesPerFingerprint) (hextends : Extends limits pool i submission reached) :
    reached.Consistent limits := by
  cases hextends with
  | searches hfull => exact h.goesOn hsubmission hlocked ⟨hnone, hfull⟩
  | spawns hfree => exact h.goesOn hsubmission hlocked ⟨hnone, hfree, hroom⟩

theorem Consistent.weighs (h : pool.Consistent limits) {fingerprint : Fingerprint}
    {next : ℕ} {unread : List ℕ} {least : Option (ℕ × ℕ)}
    (hunread : next :: unread ⊆ pool.groups.workers fingerprint)
    (hleast : ∀ best ∈ least, best.1 ∈ pool.groups.workers fingerprint) :
    unread ⊆ pool.groups.workers fingerprint ∧
      (pool.weigh next least = none → unread = pool.groups.workers fingerprint) ∧
      ∀ best ∈ pool.weigh next least, best.1 ∈ pool.groups.workers fingerprint := by
  obtain ⟨worker, hworker, -⟩ :=
    h.listed _ _ (Groups.mem_workers.mp (hunread List.mem_cons_self))
  refine ⟨List.Subset.trans (List.subset_cons_self _ _) hunread, ?_, ?_⟩
  · intro hempty
    exact absurd hempty (weigh_ne_none hworker)
  · intro best hbest
    obtain hbest | hbest := weigh_mem hbest
    · rw [hbest]
      exact hunread List.mem_cons_self
    · exact hleast best hbest

theorem Consistent.sticks (h : pool.Consistent limits)
    (hsubmission : pool.submissions i = some submission) (hlocked : pool.lockedBy = some i)
    {generation : ℕ}
    (hnone : pool.groups.bindings submission.fingerprint submission.sessionKey = none)
    (hmem : generation ∈ pool.groups.workers submission.fingerprint) :
    (pool.stick i submission generation).Consistent limits := by
  -- the lock is released, the Session is bound, and the caller has the worker
  have hreleased : (pool.choose i submission .asleep).Consistent limits := by
    apply h.chosen hsubmission hlocked
    · intro choice hchoice
      cases hchoice
    · intro generation hholding
      cases hholding
  have hbinds := hreleased.binds hnone (Groups.mem_workers.mp hmem) rfl
  apply hbinds.acting (pool.stick i submission generation) (.of_eq rfl rfl) rfl
    (Function.update_self ..) (Function.update_self ..) _ rfl rfl
  · intro j hj
    cases hj
  · intro found hholds
    obtain hcalling | hsent := holds_calling hholds
    · obtain rfl := Calling.holding.inj hcalling
      right
      change (pool.groups.bind _ _ _).bindings _ _ = _
      rw [Groups.bindings_bind, if_pos ⟨rfl, rfl⟩]
    · exact Or.inl (Or.inr hsent)
  · intro choice hchoice
    cases hchoice
  · intro j hj
    change Function.update _ i _ j = Function.update _ i _ j
    rw [Function.update_of_ne hj, Function.update_of_ne hj]

theorem Consistent.spawns (h : pool.Consistent limits)
    (hsubmission : pool.submissions i = some submission) (hlocked : pool.lockedBy = some i)
    (hnone : pool.groups.bindings submission.fingerprint submission.sessionKey = none) :
    (pool.spawn i submission).Consistent limits := by
  -- the lock is released, the worker is listed and bound, and the caller has it
  have hreleased : (pool.choose i submission .asleep).Consistent limits := by
    apply h.chosen hsubmission hlocked
    · intro choice hchoice
      cases hchoice
    · intro generation hholding
      cases hholding
  have hstarted := hreleased.started submission.fingerprint rfl
  have hentry : (submission.fingerprint, pool.nextGeneration) ∈
      (pool.groups.push submission.fingerprint pool.nextGeneration).entries :=
    List.mem_append_right _ (List.mem_singleton_self _)
  have hbinds := hstarted.binds hnone hentry rfl
  apply hbinds.acting (pool.spawn i submission) (.of_eq rfl rfl) rfl (Function.update_self ..)
    (Function.update_self ..) _ rfl rfl
  · intro j hj
    cases hj
  · intro found hholds
    obtain hcalling | hsent := holds_calling hholds
    · obtain rfl := Calling.holding.inj hcalling
      right
      change (Groups.bind _ _ _ _).bindings _ _ = _
      rw [Groups.bindings_bind, if_pos ⟨rfl, rfl⟩]
    · exact Or.inl (Or.inr hsent)
  · intro choice hchoice
    cases hchoice
  · intro j hj
    change Function.update _ i _ j = Function.update _ i _ j
    rw [Function.update_of_ne hj, Function.update_of_ne hj]

theorem Consistent.prunes (h : pool.Consistent limits)
    (hsubmission : pool.submissions i = some submission) (hlocked : pool.lockedBy = some i)
    {generation : ℕ} {worker : PersistentWorker Fingerprint}
    (hworker : pool.workers generation = some worker) (unread : List ℕ) :
    ({ pool.goOn i submission (.pruning unread) with
      groups := if worker.accepting then pool.groups else pool.groups.retire generation } :
        Pool Fingerprint).Consistent limits := by
  have hgoes : (pool.goOn i submission (.pruning unread)).Consistent limits :=
    h.goesOn hsubmission hlocked trivial
  split
  case isTrue => exact hgoes
  case isFalse hrefuses =>
    apply hgoes.retired
    · intro found hfound
      obtain rfl := Option.some.inj (hworker.symm.trans hfound)
      exact Bool.not_eq_true _ ▸ hrefuses
    · intro j found choice hfound hchoosing
      have hj := (hgoes.locked j found choice hfound hchoosing).1
      obtain rfl := Option.some.inj (hlocked.symm.trans hj)
      obtain rfl := eq_of_update_self hfound
      exact ⟨unread, (Calling.choosing.inj hchoosing).symm⟩

omit [DecidableEq Fingerprint] in
theorem accepting_stopAccepting (worker : PersistentWorker Fingerprint) :
    worker.stopAccepting.accepting = false := by
  rw [PersistentWorker.stopAccepting]
  split
  · rfl
  case isFalse hrefuses => exact Bool.not_eq_true _ ▸ hrefuses

theorem Consistent.evicts (h : pool.Consistent limits)
    (hsubmission : pool.submissions i = some submission) (hlocked : pool.lockedBy = some i)
    {idle : ℕ} {worker : PersistentWorker Fingerprint}
    (hworker : pool.workers idle = some worker) :
    ({ (pool.setWorker idle worker.stopAccepting).choose i submission .asleep with
      groups := pool.groups.retire idle } : Pool Fingerprint).Consistent limits := by
  have hkept : pool.Kept (pool.setWorker idle worker.stopAccepting) :=
    kept_setWorker hworker .stopped rfl rfl
  have hstopped : (pool.setWorker idle worker.stopAccepting).Consistent limits := by
    apply h.framed hkept rfl rfl
    intro j found hfound
    exact Or.inl ⟨found, hfound, rfl, rfl, fun _ => id, fun _ => id⟩
  have hreleased : ((pool.setWorker idle worker.stopAccepting).choose i submission
      .asleep).Consistent limits := by
    apply hstopped.chosen hsubmission hlocked
    · intro choice hchoice
      cases hchoice
    · intro generation hholding
      cases hholding
  apply hreleased.retired
  · intro found hfound
    obtain rfl := eq_of_update_self hfound
    exact accepting_stopAccepting worker
  · intro j found choice hfound hchoosing
    have hj := (hreleased.locked j found choice hfound hchoosing).1
    cases hj

theorem Consistent.tried (h : pool.Consistent limits)
    (hsubmission : pool.submissions i = some submission) {choice : Choice} {spawned : Bool}
    (hcalling : submission.calling = .choosing choice)
    (htries : Tries limits pool i submission spawned choice reached) :
    reached.Consistent limits := by
  obtain ⟨hlocked, hknows⟩ := h.locked i submission choice hsubmission hcalling
  cases htries with
  | alone hempty hextends =>
      apply h.extends hsubmission hlocked _ _ hextends
      · cases hbinding : pool.groups.bindings submission.fingerprint submission.sessionKey with
        | none => rfl
        | some bound =>
            have hmem := Groups.mem_workers.mpr (h.bound _ _ _ hbinding)
            rw [hempty] at hmem
            cases hmem
      · rw [hempty]
        exact limits.perFingerprint_pos
  | bound hbinding =>
      apply h.chosen hsubmission hlocked
      · intro choice hchoice
        cases hchoice
      · intro generation hholding
        obtain rfl := Calling.holding.inj hholding
        exact hbinding
  | unbound hbinding hmem =>
      exact absurd (Groups.mem_workers.mpr (h.bound _ _ _ hbinding)) hmem
  | free hbinding =>
      exact h.goesOn hsubmission hlocked
        ⟨hbinding, List.Subset.refl _, fun _ => rfl, fun best hbest => by cases hbest⟩
  | pruned hunread hworker => exact h.prunes hsubmission hlocked hworker _
  | unweighed hextends =>
      apply h.extends hsubmission hlocked hknows.1 _ hextends
      rw [← hknows.2.2.1 rfl]
      exact limits.perFingerprint_pos
  | leastWeighed best load =>
      exact h.goesOn hsubmission hlocked ⟨hknows.1, hknows.2.2.2 (best, load) rfl⟩
  | weighs =>
      exact h.goesOn hsubmission hlocked ⟨hknows.1, h.weighs hknows.2.1 hknows.2.2.2⟩
  | shares => exact h.sticks hsubmission hlocked hknows.1 hknows.2
  | loaded hroom hextends => exact h.extends hsubmission hlocked hknows.1 hroom hextends
  | started => exact h.spawns hsubmission hlocked hknows.1
  | unstarted =>
      apply h.acting (pool.choose i submission.cancelOnDrop (.returned .failed))
        (.of_eq rfl rfl) rfl hsubmission (Function.update_self ..) _ rfl rfl
      · intro j hj
        exact Option.some.inj (hj.symm.trans hlocked)
      · intro found hholds
        obtain hfailed | hsent := hholds
        · cases hfailed
        · exact Or.inl (Or.inr hsent)
      · intro choice hchoice
        cases hchoice
      · intro j hj
        exact Function.update_of_ne hj _ _
  | searched =>
      exact h.goesOn hsubmission hlocked ⟨hknows.1, hknows.2, List.Subset.refl _,
        fun _ => rfl, fun best hbest => by cases hbest⟩
  | idle => exact h.goesOn hsubmission hlocked hknows
  | busy => exact h.goesOn hsubmission hlocked hknows
  | evicted hworker => exact h.evicts hsubmission hlocked hworker
  | sleeps =>
      apply h.chosen hsubmission hlocked
      · intro choice hchoice
        cases hchoice
      · intro generation hholding
        cases hholding
  | queued best load =>
      exact h.sticks hsubmission hlocked hknows.1 (hknows.2.2.2.2 (best, load) rfl)
  | queues =>
      exact h.goesOn hsubmission hlocked
        ⟨hknows.1, hknows.2.1, h.weighs hknows.2.2.1 hknows.2.2.2.2⟩

end Locked

/-! ### A step -/

section Continues

omit [DecidableEq Fingerprint]

theorem Continues.refl (submission : Submission Fingerprint) : Continues submission submission :=
  ⟨rfl, rfl, fun _ => id, fun _ => id⟩

theorem Continues.trans {submission middle after : Submission Fingerprint}
    (h : Continues submission middle) (h' : Continues middle after) :
    Continues submission after where
  fingerprint := h'.fingerprint.trans h.fingerprint
  sessionKey := h'.sessionKey.trans h.sessionKey
  choosing := fun choice hchoice => h.choosing choice (h'.choosing choice hchoice)
  holds := fun generation hholds => h.holds generation (h'.holds generation hholds)

/-- What is not read by the others may change, and the caller may go anywhere but under the
lock or to a worker. -/
theorem Continues.of_calling {submission after : Submission Fingerprint}
    (hfingerprint : after.fingerprint = submission.fingerprint)
    (hkey : after.sessionKey = submission.sessionKey) (hsent : after.sentTo = submission.sentTo)
    (hcalling : after.calling = submission.calling ∨ after.calling.isFree = true) :
    Continues submission after where
  fingerprint := hfingerprint
  sessionKey := hkey
  choosing := by
    intro choice hchoice
    obtain heq | hfree := hcalling
    · rw [← heq, hchoice]
    · rw [hchoice] at hfree
      cases hfree
  holds := by
    intro generation hholds
    obtain hholding | hgiven := hholds
    · obtain heq | hfree := hcalling
      · exact Or.inl (heq ▸ hholding)
      · rw [hholding] at hfree
        cases hfree
    · exact Or.inr (hsent ▸ hgiven)

theorem continues_of_acts {submission acted : Submission Fingerprint} {action : CallerAction}
    (hacts : submission.Acts action acted) : Continues submission acted := by
  cases hacts with
  | cancelled => exact .of_calling rfl rfl rfl (Or.inl rfl)
  | observed => exact .of_calling rfl rfl rfl (Or.inl rfl)
  | finalized =>
      rw [Submission.finalized]
      split <;> exact .of_calling rfl rfl rfl (Or.inr rfl)
  | _ => exact .of_calling rfl rfl rfl (Or.inr rfl)

theorem continues_notifyWaiters {j : ℕ} {after : Submission Fingerprint}
    (hafter : pool.notifyWaiters.submissions j = some after) :
    ∃ submission, pool.submissions j = some submission ∧ Continues submission after := by
  obtain ⟨submission, hsubmission, rfl⟩ := Option.map_eq_some_iff.mp hafter
  exact ⟨submission, hsubmission, .of_calling rfl rfl rfl (Or.inl rfl)⟩

theorem continues_answer {job j : ℕ} {reply : Reply} {after : Submission Fingerprint}
    (hafter : (pool.answer job reply).submissions j = some after) :
    ∃ submission, pool.submissions j = some submission ∧ Continues submission after := by
  rw [answer] at hafter
  dsimp only at hafter
  split at hafter
  case isTrue =>
    obtain ⟨submission, hsubmission, rfl⟩ := Option.map_eq_some_iff.mp hafter
    refine ⟨submission, hsubmission, ?_⟩
    split
    · exact .of_calling rfl rfl rfl (Or.inl rfl)
    · exact .refl submission
  case isFalse => exact ⟨after, hafter, .refl after⟩

theorem continues_answers {jobs : List ℕ} {j : ℕ} {reply : Reply}
    {after : Submission Fingerprint}
    (hafter : (jobs.foldl (fun left job => left.answer job reply) pool).submissions j =
      some after) :
    ∃ submission, pool.submissions j = some submission ∧ Continues submission after := by
  induction jobs generalizing pool with
  | nil => exact ⟨after, hafter, .refl after⟩
  | cons job jobs ih =>
      obtain ⟨middle, hmiddle, hlater⟩ := ih hafter
      obtain ⟨submission, hsubmission, hfirst⟩ := continues_answer hmiddle
      exact ⟨submission, hsubmission, hfirst.trans hlater⟩

theorem continues_setSubmission {i j : ℕ} {submission changed after : Submission Fingerprint}
    (hsubmission : pool.submissions i = some submission) (hchanged : Continues submission changed)
    (hafter : (pool.setSubmission i changed).submissions j = some after) :
    ∃ before, pool.submissions j = some before ∧ Continues before after := by
  by_cases hj : j = i
  · subst hj
    obtain rfl := eq_of_update_self hafter
    exact ⟨submission, hsubmission, hchanged⟩
  · exact ⟨after, (Function.update_of_ne hj _ _).symm.trans hafter, .refl after⟩

end Continues

theorem Consistent.step (h : pool.Consistent limits) {action : Action Fingerprint}
    (hmoved : Moved limits pool action reached) : reached.Consistent limits := by
  cases hmoved with
  | @submitted i fingerprint sessionKey hookMetadata hfree =>
      have hkept : pool.Kept
          (pool.setSubmission i (submit fingerprint sessionKey hookMetadata)) := .of_eq rfl rfl
      apply h.framed hkept rfl rfl
      intro j after hafter
      by_cases hj : j = i
      · subst hj
        obtain rfl := eq_of_update_self hafter
        right
        have hcalling : (submit fingerprint sessionKey hookMetadata).calling = .returned .failed ∨
            (submit fingerprint sessionKey hookMetadata).calling = .selecting := by
          rw [submit]
          exact (ite_eq_or_eq _ _ _)
        refine ⟨fun choice hchoice => ?_, fun generation hholds => ?_⟩
        · obtain heq | heq := hcalling <;> cases heq.symm.trans hchoice
        · obtain hholding | hsent := hholds
          · obtain heq | heq := hcalling <;> cases heq.symm.trans hholding
          · cases hsent
      · exact Or.inl ⟨after, (Function.update_of_ne hj _ _).symm.trans hafter, .refl after⟩
  | @acted i action submission acted hsubmission hacts =>
      have hkept : pool.Kept (pool.setSubmission i acted) := .of_eq rfl rfl
      apply h.framed hkept rfl rfl
      intro j after hafter
      exact Or.inl (continues_setSubmission hsubmission (continues_of_acts hacts) hafter)
  | @locked i submission hsubmission hcalling hfree =>
      apply h.acting { pool.goOn i submission (.pruning pool.groups.generations) with
        lockedBy := some i } (.of_eq rfl rfl) rfl hsubmission (Function.update_self ..) _ rfl rfl
      · intro j hj
        rw [hfree] at hj
        cases hj
      · intro generation hholds
        obtain hholding | hsent := hholds
        · cases hholding
        · exact Or.inl (Or.inr hsent)
      · intro choice hchoice
        obtain rfl := Calling.choosing.inj hchoice
        exact ⟨rfl, trivial⟩
      · intro j hj
        exact Function.update_of_ne hj _ _
  | tried hsubmission hcalling htried =>
      exact h.tried hsubmission hcalling (tries_of_tryWorker htried)
  | @sent i generation submission worker hsubmission hcalling hworker =>
      rw [send]
      split
      case isTrue =>
        have hkept : pool.Kept (pool.setSubmission i { submission with calling := .selecting }) :=
          .of_eq rfl rfl
        apply h.framed hkept rfl rfl
        intro j after hafter
        apply Or.inl (continues_setSubmission hsubmission _ hafter)
        exact .of_calling rfl rfl rfl (Or.inr rfl)
      case isFalse hopen =>
        rw [not_or, Bool.not_eq_false] at hopen
        have hkept : pool.Kept ((pool.setSubmission i { submission with
            calling := .awaiting generation
            sentTo := some generation }).setWorker generation
              { worker with
                pending := worker.pending + 1
                queue := worker.queue ++ [.execute i] }) :=
          kept_setWorker hworker (.queued hopen.1 hopen.2) rfl rfl
        have hcontinues : Continues submission { submission with
            calling := .awaiting generation
            sentTo := some generation } := by
          refine ⟨rfl, rfl, ?_, ?_⟩
          · intro choice hchoice
            cases hchoice
          · intro found hholds
            obtain hholding | hsent := hholds
            · cases hholding
            · obtain rfl := Option.some.inj hsent
              exact Or.inl hcalling
        apply h.framed hkept rfl rfl
        intro j after hafter
        exact Or.inl (continues_setSubmission hsubmission hcontinues hafter)
  | @worked generation action worker acted hworker hworks =>
      have hkept : pool.Kept (pool.setWorker generation acted) :=
        kept_setWorker hworker hworks.becomes rfl rfl
      apply h.framed hkept rfl rfl
      intro j after hafter
      exact Or.inl ⟨after, hafter, .refl after⟩
  | @began generation job worker submission hworker hthread hsubmission =>
      rw [begin]
      split
      case isTrue =>
        have hkept : pool.Kept ((pool.setSubmission job { submission with
            jobState := .running
            executions := submission.executions + 1 }).setWorker generation
              { worker with
                thread := .executing job
                  (.entered (submission.hookMetadata.any AcpHookMetadata.invokeTurnStart)) }) :=
          kept_setWorker hworker (.began hthread) rfl rfl
        apply h.framed hkept rfl rfl
        intro j after hafter
        apply Or.inl (continues_setSubmission hsubmission _ hafter)
        exact .of_calling rfl rfl rfl (Or.inl rfl)
      case isFalse =>
        have hkept : pool.Kept (pool.setWorker generation
            { worker with thread := .finished job .cancelled }) :=
          kept_setWorker hworker (.refused hthread) rfl rfl
        apply h.framed hkept rfl rfl
        intro j after hafter
        exact Or.inl ⟨after, hafter, .refl after⟩
  | @turned generation job event worker stage reached hworker hthread hturn =>
      obtain ⟨submission, hsubmission, hturn⟩ := Option.bind_eq_some_iff.mp hturn
      obtain ⟨next, hnext, rfl⟩ := Option.map_eq_some_iff.mp hturn
      have hkept : pool.Kept ((pool.setSubmission job { submission with
          hooks := submission.hooks ++ next.2 }).setWorker generation
            (worker.advance job next.1)) :=
        kept_setWorker hworker (PersistentWorker.becomes_advance hthread next.1) rfl rfl
      apply h.framed hkept rfl rfl
      intro j after hafter
      apply Or.inl (continues_setSubmission hsubmission _ hafter)
      exact .of_calling rfl rfl rfl (Or.inl rfl)
  | @announced generation job reply worker hworker hthread =>
      have hkept : pool.Kept (pool.setWorker generation
          { worker with thread := .announced job reply }).notifyWaiters :=
        kept_setWorker hworker (.announced hthread) rfl rfl
      apply h.framed hkept rfl rfl
      intro j after hafter
      exact Or.inl (continues_notifyWaiters hafter)
  | @replied generation job reply worker hworker hthread =>
      have hkept : pool.Kept ((pool.setWorker generation
          { worker with thread := .receiving }).answer job reply) :=
        kept_setWorker hworker (.replied hthread) rfl rfl
      apply h.framed hkept rfl rfl
      intro j after hafter
      exact Or.inl (continues_answer hafter)
  | @unlisted generation worker hworker hthread hfree =>
      have hkept : pool.Kept (pool.setWorker generation { worker with thread := .unlisted }) :=
        kept_setWorker hworker (.unlisted hthread) rfl rfl
      have hleft : (pool.setWorker generation
          { worker with thread := .unlisted }).Consistent limits := by
        apply h.framed hkept rfl rfl
        intro j after hafter
        exact Or.inl ⟨after, hafter, .refl after⟩
      apply hleft.retired
      · intro found hfound
        obtain rfl := eq_of_update_self hfound
        exact h.closed generation worker hworker (by rw [hthread]; rfl)
      · intro j found choice hfound hchoosing
        have hlocked := (hleft.locked j found choice hfound hchoosing).1
        cases hfree.symm.trans hlocked
  | @exited generation worker hworker hthread =>
      have hkept : pool.Kept (pool.setWorker generation
          { worker with thread := .ended }).notifyWaiters :=
        kept_setWorker hworker (.exited hthread) rfl rfl
      apply h.framed hkept rfl rfl
      intro j after hafter
      exact Or.inl (continues_notifyWaiters hafter)
  | @crashed generation job stage worker hworker hthread =>
      obtain ⟨hworkers, hnext, hgroups, hlockedBy⟩ := answers_frame
        (pool.setWorker generation
          { worker with queue := [], thread := .crashed, live := false }) .failed worker.jobs
      apply h.framed (kept_setWorker hworker (.crashed hthread) hworkers hnext) hgroups hlockedBy
      intro j after hafter
      have hfound := continues_answers hafter
      exact Or.inl hfound

end Pool

end Mews.AcpRuntimePool
