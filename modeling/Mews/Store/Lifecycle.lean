import Mews.Store.Runs

/-!
# The lifecycle of Turns and effects

An effect is scheduled, started and ended once, and the end of its Turn closes
it from wherever it stands.  `Lifecycle` is what holds of the Turns and effects
in every reachable state and `Advances` what no later command can undo.
-/

namespace Mews

open Protocol Table Relation

/-- One step of an effect.  Only the end of its Turn skips the start. -/
inductive EffectStatus.Transition (turnEnded : Prop) : EffectStatus → EffectStatus → Prop
  | start : Transition turnEnded .scheduled .started
  | finish (status : EffectStatus) (hclosed : status.isOpen = false) :
      Transition turnEnded .started status
  | close (hended : turnEnded) : Transition turnEnded .scheduled .failed

abbrev EffectStatus.Path (turnEnded : Prop) : EffectStatus → EffectStatus → Prop :=
  ReflTransGen (EffectStatus.Transition turnEnded)

theorem EffectStatus.Path.mono {turnEnded turnEnded' : Prop} (himp : turnEnded → turnEnded')
    {first second : EffectStatus} (hpath : EffectStatus.Path turnEnded first second) :
    EffectStatus.Path turnEnded' first second := by
  refine ReflTransGen.mono (fun _ _ hstep => ?_) _ _ hpath
  cases hstep with
  | start => exact .start
  | finish _ hclosed => exact .finish _ hclosed
  | close hended => exact .close (himp hended)

/-- The same effect later on: its keys are the same, its status has moved along
the lifecycle, and nothing changes once it has ended. -/
structure EffectRow.Continues (turnEnded : Prop) (row row' : EffectRow) : Prop where
  operation : row'.operationId = row.operationId
  session : row'.sessionId = row.sessionId
  turn : row'.turnId = row.turnId
  call : row'.callId = row.callId
  request : row'.request = row.request
  path : EffectStatus.Path turnEnded row.status row'.status
  settled : row.status.isOpen = false → row' = row

/-- The same Turn later on; nothing changes once it has ended. -/
structure TurnRow.Continues (row row' : TurnRow) : Prop where
  id : row'.turn.id = row.turn.id
  session : row'.turn.sessionId = row.turn.sessionId
  revision : row'.turn.agentRevision = row.turn.agentRevision
  created : row'.turn.createdAt = row.turn.createdAt
  settled : row.turn.completedAt ≠ none → row' = row

theorem EffectRow.Continues.refl (turnEnded : Prop) (row : EffectRow) :
    row.Continues turnEnded row :=
  ⟨rfl, rfl, rfl, rfl, rfl, .refl, fun _ => rfl⟩

theorem EffectRow.Continues.trans {turnEnded : Prop} {first second third : EffectRow}
    (hfirst : first.Continues turnEnded second) (hsecond : second.Continues turnEnded third) :
    first.Continues turnEnded third where
  operation := hsecond.operation.trans hfirst.operation
  session := hsecond.session.trans hfirst.session
  turn := hsecond.turn.trans hfirst.turn
  call := hsecond.call.trans hfirst.call
  request := hsecond.request.trans hfirst.request
  path := hfirst.path.trans hsecond.path
  settled := by
    intro hclosed
    obtain rfl := hfirst.settled hclosed
    exact hsecond.settled hclosed

theorem TurnRow.Continues.refl (row : TurnRow) : row.Continues row :=
  ⟨rfl, rfl, rfl, rfl, fun _ => rfl⟩

theorem TurnRow.Continues.trans {first second third : TurnRow} (hfirst : first.Continues second)
    (hsecond : second.Continues third) : first.Continues third where
  id := hsecond.id.trans hfirst.id
  session := hsecond.session.trans hfirst.session
  revision := hsecond.revision.trans hfirst.revision
  created := hsecond.created.trans hfirst.created
  settled := by
    intro hcompleted
    obtain rfl := hfirst.settled hcompleted
    exact hsecond.settled hcompleted

namespace Projection

variable {world : World} {closing : TurnId → Prop} {tables tables' : Projection}

/-- A Session has at most one active Turn. -/
def OneActiveTurn (tables : Projection) : Prop :=
  ∀ left ∈ tables.turns, ∀ right ∈ tables.turns, left.turn.sessionId = right.turn.sessionId →
    left.turn.completedAt = none → right.turn.completedAt = none → left = right

/-- A Turn that has ended has no open effect. -/
def TerminalTurnsClosed (tables : Projection) : Prop :=
  ∀ row ∈ tables.turns, row.turn.completedAt ≠ none → tables.NoOpenEffects row.turn.id

/-- The status of a Turn says whether it has completed. -/
def StatusTellsCompletion (tables : Projection) : Prop :=
  ∀ row ∈ tables.turns, row.turn.status = .running ↔ row.turn.completedAt = none

/-- Every effect names a Turn of its own Session. -/
def EffectsOwned (tables : Projection) : Prop :=
  ∀ effect ∈ tables.effects, ∃ row ∈ tables.turns,
    row.turn.id = effect.turnId ∧ row.turn.sessionId = effect.sessionId

/-- What holds of the Turns and effects in every reachable state. -/
structure Lifecycle (tables : Projection) : Prop where
  keyed : tables.Keyed
  oneActive : tables.OneActiveTurn
  closed : tables.TerminalTurnsClosed
  status : tables.StatusTellsCompletion

/-- What is kept from one state to a later one, where `ended` tells the Turns
whose end may have closed an effect that had not started. -/
structure Advances (ended : TurnId → Prop) (tables tables' : Projection) : Prop where
  turns : ∀ row ∈ tables.turns, ∃ row' ∈ tables'.turns, row.Continues row'
  effects : ∀ row ∈ tables.effects, ∃ row' ∈ tables'.effects,
    row.Continues (ended row.turnId) row'
  origins : ∀ row' ∈ tables'.effects,
    (∃ row ∈ tables.effects, row.Continues (ended row.turnId) row') ∨
    EffectStatus.Path (ended row'.turnId) .scheduled row'.status ∧
      ∀ row ∈ tables.turns, row.turn.id = row'.turnId → row.turn.completedAt = none

theorem Advances.of_same {ended : TurnId → Prop} (hturns : tables'.turns = tables.turns)
    (heffects : tables'.effects = tables.effects) : Advances ended tables tables' where
  turns := fun row hrow => ⟨row, by rwa [hturns], .refl row⟩
  effects := fun row hrow => ⟨row, by rwa [heffects], .refl _ row⟩
  origins := fun row hrow => .inl ⟨row, by rwa [← heffects], .refl _ row⟩

theorem Advances.mono {ended ended' : TurnId → Prop}
    (himp : ∀ row ∈ tables'.turns, ended row.turn.id → ended' row.turn.id)
    (howned : ∀ effect ∈ tables'.effects, ∃ row ∈ tables'.turns, row.turn.id = effect.turnId)
    (hadvances : Advances ended tables tables') : Advances ended' tables tables' := by
  have himp' : ∀ effect ∈ tables'.effects, ended effect.turnId → ended' effect.turnId := by
    intro effect heffect hended
    obtain ⟨row, hrow, hid⟩ := howned effect heffect
    rw [← hid] at hended ⊢
    exact himp row hrow hended
  have hcontinues' : ∀ row : EffectRow, ∀ row' ∈ tables'.effects, row.Continues (ended row.turnId) row' →
      row.Continues (ended' row.turnId) row' := by
    intro row row' hrow' hcontinues
    refine { hcontinues with path := hcontinues.path.mono fun hended => ?_ }
    rw [← hcontinues.turn] at hended ⊢
    exact himp' row' hrow' hended
  refine ⟨hadvances.turns, ?_, ?_⟩
  · intro row hrow
    obtain ⟨row', hrow', hcontinues⟩ := hadvances.effects row hrow
    exact ⟨row', hrow', hcontinues' row row' hrow' hcontinues⟩
  · intro row' hrow'
    rcases hadvances.origins row' hrow' with ⟨row, hrow, hcontinues⟩ | ⟨hpath, hactive⟩
    · exact .inl ⟨row, hrow, hcontinues' row row' hrow' hcontinues⟩
    · exact .inr ⟨hpath.mono (himp' row' hrow'), hactive⟩

theorem Advances.trans {ended : TurnId → Prop} {first second third : Projection}
    (hfirst : Advances ended first second) (hsecond : Advances ended second third) :
    Advances ended first third where
  turns := by
    intro row hrow
    obtain ⟨row', hrow', hcontinues⟩ := hfirst.turns row hrow
    obtain ⟨row'', hrow'', hcontinues'⟩ := hsecond.turns row' hrow'
    exact ⟨row'', hrow'', hcontinues.trans hcontinues'⟩
  effects := by
    intro row hrow
    obtain ⟨row', hrow', hcontinues⟩ := hfirst.effects row hrow
    obtain ⟨row'', hrow'', hcontinues'⟩ := hsecond.effects row' hrow'
    rw [hcontinues.turn] at hcontinues'
    exact ⟨row'', hrow'', hcontinues.trans hcontinues'⟩
  origins := by
    intro row'' hrow''
    rcases hsecond.origins row'' hrow'' with ⟨row', hrow', hcontinues'⟩ | ⟨hpath, hactive⟩
    · rcases hfirst.origins row' hrow' with ⟨row, hrow, hcontinues⟩ | ⟨hpath, hactive⟩
      · rw [hcontinues.turn] at hcontinues'
        exact .inl ⟨row, hrow, hcontinues.trans hcontinues'⟩
      · rw [← hcontinues'.turn] at hpath hactive
        have hlater := hcontinues'.path
        rw [← hcontinues'.turn] at hlater
        exact .inr ⟨hpath.trans hlater, hactive⟩
    · refine .inr ⟨hpath, fun row hrow hid => ?_⟩
      obtain ⟨row', hrow', hcontinues⟩ := hfirst.turns row hrow
      by_contra hcompleted
      obtain rfl := hcontinues.settled hcompleted
      exact hcompleted (hactive row' hrow' hid)

/-! ## What one entry does -/

/-- Updating effects that are open, each along the lifecycle. -/
theorem Advances.of_updateEffects {ended : TurnId → Prop} {matched : EffectRow → Bool}
    {change : EffectRow → EffectRow} (hturns : tables'.turns = tables.turns)
    (heffects : tables'.effects = updateWhere matched change tables.effects)
    (hchange : ∀ row ∈ tables.effects, matched row = true →
      row.Continues (ended row.turnId) (change row)) : Advances ended tables tables' where
  turns := fun row hrow => ⟨row, by rwa [hturns], .refl row⟩
  effects := by
    intro row hrow
    rw [heffects]
    refine ⟨_, mem_updateWhere.mpr ⟨row, hrow, rfl⟩, ?_⟩
    by_cases hmatched : matched row
    · simpa [hmatched] using hchange row hrow hmatched
    · simpa [hmatched] using .refl _ row
  origins := by
    intro row' hrow'
    rw [heffects] at hrow'
    obtain ⟨row, hrow, rfl⟩ := mem_updateWhere.mp hrow'
    refine .inl ⟨row, hrow, ?_⟩
    by_cases hmatched : matched row
    · simpa [hmatched] using hchange row hrow hmatched
    · simpa [hmatched] using .refl _ row

/-- Updating Turns that are active. -/
theorem Advances.of_updateTurns {ended : TurnId → Prop} {matched : TurnRow → Bool}
    {change : TurnRow → TurnRow} (heffects : tables'.effects = tables.effects)
    (hturns : tables'.turns = updateWhere matched change tables.turns)
    (hkeys : ∀ row, (change row).turn.id = row.turn.id ∧
      (change row).turn.sessionId = row.turn.sessionId ∧
      (change row).turn.agentRevision = row.turn.agentRevision ∧
      (change row).turn.createdAt = row.turn.createdAt)
    (hactive : ∀ row ∈ tables.turns, matched row = true → row.turn.completedAt = none) :
    Advances ended tables tables' where
  turns := by
    intro row hrow
    rw [hturns]
    refine ⟨_, mem_updateWhere.mpr ⟨row, hrow, rfl⟩, ?_⟩
    by_cases hmatched : matched row
    · rw [if_pos hmatched]
      obtain ⟨hid, hsession, hrevision, hcreated⟩ := hkeys row
      exact ⟨hid, hsession, hrevision, hcreated, fun h => absurd (hactive row hrow hmatched) h⟩
    · rw [if_neg hmatched]
      exact .refl row
  effects := fun row hrow => ⟨row, by rwa [heffects], .refl _ row⟩
  origins := fun row hrow => .inl ⟨row, by rwa [← heffects], .refl _ row⟩

/-- The rows of an active Turn are active. -/
theorem Keyed.active_of_isActiveTurn (hkeyed : tables.Keyed) {sessionId : SessionId}
    {turnId : TurnId} (hactive : tables.isActiveTurn sessionId turnId = true) {row : TurnRow}
    (hrow : row ∈ tables.turns) (hid : row.turn.id = turnId) : row.turn.completedAt = none := by
  obtain ⟨active, hmem, hid', -, hcompleted⟩ := exists_of_isActiveTurn hactive
  obtain rfl := hkeyed.turns.eq_of_mem hrow hmem (by rw [hid, hid'])
  exact hcompleted

theorem effectEnd_status {payload : JournalEvent} {operationId : OperationId} {turnId : TurnId}
    {status : EffectStatus} {rawResult : Option ToolResult}
    (hend : payload.effectEnd = some (operationId, turnId, status, rawResult)) :
    status.isOpen = false := by
  cases payload <;> simp only [JournalEvent.effectEnd, Option.some.injEq, Prod.mk.injEq,
    reduceCtorEq] at hend <;> obtain ⟨-, -, rfl, -⟩ := hend
  case toolExecutionCompleted result =>
    rw [completionStatus]
    split
    · rfl
    · split <;> rfl
  all_goals rfl

/-- The status an effect can be ended in from where it stands: unless the
command is closing the Turn, a lawful end finds the effect started. -/
theorem Keyed.path_of_effectEnd (hkeyed : tables.Keyed) {sessionId : SessionId}
    {payload : JournalEvent} {operationId : OperationId} {turnId : TurnId}
    {status : EffectStatus} {rawResult : Option ToolResult}
    (hlawful : Lawful closing tables sessionId payload)
    (hend : payload.effectEnd = some (operationId, turnId, status, rawResult)) {row : EffectRow}
    (hrow : row ∈ tables.effects)
    (hmatched : EffectRow.isOpenOf sessionId turnId operationId row = true) :
    EffectStatus.Path (closing row.turnId) row.status status := by
  simp only [EffectRow.isOpenOf, decide_eq_true_eq] at hmatched
  obtain ⟨hoperation, -, hturn, -⟩ := hmatched
  have hclosed := effectEnd_status hend
  have hstarted : row.status = .started → EffectStatus.Path (closing row.turnId) row.status status :=
    fun hstarted => by rw [hstarted]; exact .single (.finish status hclosed)
  have howned : ∀ owned, Store.ownsEffect sessionId turnId operationId owned tables = true →
      row.status = owned := by
    intro owned howns
    simp only [Store.ownsEffect, List.any_eq_true, decide_eq_true_eq] at howns
    obtain ⟨other, hother, hid, -, -, hstatus⟩ := howns
    rw [hkeyed.effect_eq hrow hother (by rw [hoperation, hid]), hstatus]
  cases payload <;> simp only [JournalEvent.effectEnd, Option.some.injEq, Prod.mk.injEq,
    reduceCtorEq] at hend <;> obtain ⟨rfl, rfl, rfl, rfl⟩ := hend
  case toolExecutionCompleted result =>
    obtain ⟨-, other, hother, hid, -, -, -, hstatus⟩ := hlawful
    exact hstarted (by rw [hkeyed.effect_eq hrow hother (by rw [hoperation, hid]), hstatus])
  case effectFailed error =>
    obtain ⟨-, howns | ⟨hclosing, howns⟩⟩ := hlawful
    · exact hstarted (howned _ howns)
    · rw [howned _ howns]
      exact .single (.close (by rwa [hturn]))
  all_goals exact hstarted (howned _ hlawful.2)

theorem Keyed.advances (hkeyed : tables.Keyed)
    (hchange : Store.LawfulChange world closing tables tables') :
    Advances closing tables tables' := by
  obtain ⟨sessionId, event, delivery, -, hlawful, hchange⟩ := hchange
  cases hchange with
  | entryAppended _ _ _ _ _ _ _ _ hplaced => exact .of_same hplaced.turns_eq hplaced.effects_eq
  | turnAccepted _ _ _ _ _ _ _ _ _ hplaced =>
      refine .trans (.of_same hplaced.turns_eq hplaced.effects_eq) ?_
      exact
        { turns := fun row hrow => ⟨row, List.mem_append_left _ hrow, .refl row⟩
          effects := fun row hrow => ⟨row, hrow, .refl _ row⟩
          origins := fun row hrow => .inl ⟨row, hrow, .refl _ row⟩ }
  | turnStarted turnId _ _ _ _ hactive hplaced =>
      refine .of_updateTurns hplaced.effects_eq hplaced.turns_eq (fun row => ⟨rfl, rfl, rfl, rfl⟩) ?_
      intro row hrow hid
      exact hkeyed.active_of_isActiveTurn hactive hrow (by simpa using hid)
  | turnEnded turnId _ _ _ _ _ _ _ _ hplaced =>
      refine .of_updateTurns hplaced.effects_eq hplaced.turns_eq (fun row => ⟨rfl, rfl, rfl, rfl⟩) ?_
      intro row _ hmatched
      simp only [TurnRow.isActive, decide_eq_true_eq] at hmatched
      exact hmatched.2
  | effectScheduled operationId turnId effect hpayload hadmissible =>
      rw [hpayload] at hlawful
      refine
        { turns := fun row hrow => ⟨row, hrow, .refl row⟩
          effects := fun row hrow => ⟨row, List.mem_append_left _ hrow, .refl _ row⟩
          origins := ?_ }
      intro row' hrow'
      rcases List.mem_append.mp hrow' with hrow' | hrow'
      · exact .inl ⟨row', hrow', .refl _ row'⟩
      · obtain rfl := List.mem_singleton.mp hrow'
        exact .inr ⟨.refl, fun row hrow hid => hkeyed.active_of_isActiveTurn hlawful hrow hid⟩
  | effectStarted operationId turnId =>
      refine .of_updateEffects rfl rfl fun row _ hmatched => ?_
      simp only [EffectRow.isScheduled, decide_eq_true_eq] at hmatched
      refine ⟨rfl, rfl, rfl, rfl, rfl, ?_, fun hclosed => ?_⟩
      · rw [hmatched.2]
        exact .single .start
      · simp [hmatched.2, EffectStatus.isOpen] at hclosed
  | effectEnded operationId turnId status rawResult hend =>
      refine .of_updateEffects rfl rfl fun row hrow hmatched => ?_
      have hpath := hkeyed.path_of_effectEnd hlawful hend hrow hmatched
      refine ⟨rfl, rfl, rfl, rfl, rfl, hpath, fun hclosed => ?_⟩
      simp [EffectRow.isOpenOf, hclosed] at hmatched
  | _ => exact .of_same rfl rfl

/-! ## The invariant -/

theorem lifecycle_empty : Projection.empty.Lifecycle where
  keyed := keyed_empty
  oneActive := by simp [OneActiveTurn, Projection.empty]
  closed := by simp [TerminalTurnsClosed, Projection.empty]
  status := by simp [StatusTellsCompletion, Projection.empty]

/-- The Turns are updated without making one active again. -/
theorem OneActiveTurn.updateTurns {matched : TurnRow → Bool} {change : TurnRow → TurnRow}
    (hone : tables.OneActiveTurn) (hturns : tables'.turns = updateWhere matched change tables.turns)
    (hsession : ∀ row, (change row).turn.sessionId = row.turn.sessionId)
    (hcompleted : ∀ row, matched row = true → (change row).turn.completedAt = none →
      row.turn.completedAt = none) : tables'.OneActiveTurn := by
  have hkept : ∀ row : TurnRow,
      (if matched row then change row else row).turn.sessionId = row.turn.sessionId ∧
      ((if matched row then change row else row).turn.completedAt = none →
        row.turn.completedAt = none) := by
    intro row
    by_cases hmatched : matched row = true
    · simp only [hmatched, if_true]
      exact ⟨hsession row, hcompleted row hmatched⟩
    · simp only [hmatched]
      exact ⟨rfl, fun h => h⟩
  intro left hleft right hright hsame hactive hactive'
  rw [hturns] at hleft hright
  obtain ⟨oldLeft, hmemLeft, rfl⟩ := mem_updateWhere.mp hleft
  obtain ⟨oldRight, hmemRight, rfl⟩ := mem_updateWhere.mp hright
  have heq : oldLeft = oldRight := by
    refine hone oldLeft hmemLeft oldRight hmemRight ?_ ((hkept oldLeft).2 hactive)
      ((hkept oldRight).2 hactive')
    rw [← (hkept oldLeft).1, ← (hkept oldRight).1, hsame]
  rw [heq]

theorem OneActiveTurn.accept {row : TurnRow} (hone : tables.OneActiveTurn)
    (hadmissible : tables.turnAdmissible row) (hturns : tables'.turns = tables.turns ++ [row]) :
    tables'.OneActiveTurn := by
  intro left hleft right hright hsame hactive hactive'
  rw [hturns, List.mem_append, List.mem_singleton] at hleft hright
  rcases hleft with hleft | rfl <;> rcases hright with hright | rfl
  · exact hone left hleft right hright hsame hactive hactive'
  · exact absurd hactive (hadmissible.2.2 left hleft hactive' hsame)
  · exact absurd hactive' (hadmissible.2.2 right hright hactive hsame.symm)
  · rfl

/-- Open effects only come from open effects of the same Turn or from a Turn
that has not completed. -/
theorem TerminalTurnsClosed.of_open (hclosed : tables.TerminalTurnsClosed)
    (hturns : tables'.turns = tables.turns)
    (hopen : ∀ effect' ∈ tables'.effects, effect'.status.isOpen = true →
      (∃ effect ∈ tables.effects, effect.turnId = effect'.turnId ∧ effect.status.isOpen = true) ∨
      ∀ row ∈ tables.turns, row.turn.id = effect'.turnId → row.turn.completedAt = none) :
    tables'.TerminalTurnsClosed := by
  intro row hrow hcompleted effect' heffect' hturn
  rw [hturns] at hrow
  by_contra hstatus
  rcases hopen effect' heffect' (by simpa using hstatus) with ⟨effect, heffect, hid, hopen'⟩ | hactive
  · rw [hclosed row hrow hcompleted effect heffect (by rw [hid, hturn])] at hopen'
    exact absurd hopen' (by simp)
  · exact hcompleted (hactive row hrow hturn.symm)

/-- A Turn only completes when its effects are closed. -/
theorem TerminalTurnsClosed.updateTurns {matched : TurnRow → Bool} {change : TurnRow → TurnRow}
    (hclosed : tables.TerminalTurnsClosed) (heffects : tables'.effects = tables.effects)
    (hturns : tables'.turns = updateWhere matched change tables.turns)
    (hid : ∀ row, (change row).turn.id = row.turn.id)
    (hcompleted : ∀ row, matched row = true → (change row).turn.completedAt ≠ none →
      row.turn.completedAt ≠ none ∨ tables.NoOpenEffects row.turn.id) :
    tables'.TerminalTurnsClosed := by
  intro row hrow hended
  rw [NoOpenEffects, heffects]
  rw [hturns] at hrow
  obtain ⟨old, hold, rfl⟩ := mem_updateWhere.mp hrow
  by_cases hmatched : matched old = true
  · rw [if_pos hmatched] at hended ⊢
    rw [hid]
    rcases hcompleted old hmatched hended with hold' | hnone
    · exact hclosed old hold hold'
    · exact hnone
  · rw [if_neg hmatched] at hended ⊢
    exact hclosed old hold hended

theorem StatusTellsCompletion.updateTurns {matched : TurnRow → Bool} {change : TurnRow → TurnRow}
    (hstatus : tables.StatusTellsCompletion)
    (hturns : tables'.turns = updateWhere matched change tables.turns)
    (hchange : ∀ row, (row.turn.status = .running ↔ row.turn.completedAt = none) →
      ((change row).turn.status = .running ↔ (change row).turn.completedAt = none)) :
    tables'.StatusTellsCompletion := by
  intro row hrow
  rw [hturns] at hrow
  obtain ⟨old, hold, rfl⟩ := mem_updateWhere.mp hrow
  by_cases hmatched : matched old = true
  · rw [if_pos hmatched]
    exact hchange old (hstatus old hold)
  · rw [if_neg hmatched]
    exact hstatus old hold

theorem turnEnd_status {payload : JournalEvent} {turnId : TurnId} {status : TurnStatus}
    {error : Option String} {entry : SessionEntryPayload}
    (hend : payload.turnEnd = some (turnId, status, error, entry)) : status ≠ .running := by
  cases payload <;> simp only [JournalEvent.turnEnd, Option.some.injEq, Prod.mk.injEq,
    reduceCtorEq] at hend <;> obtain ⟨-, rfl, -⟩ := hend <;> simp

theorem turnEnd_lawful {sessionId : SessionId} {payload : JournalEvent} {turnId : TurnId}
    {status : TurnStatus} {error : Option String} {entry : SessionEntryPayload}
    (hlawful : Lawful closing tables sessionId payload)
    (hend : payload.turnEnd = some (turnId, status, error, entry)) :
    tables.isActiveTurn sessionId turnId = true ∧ tables.NoOpenEffects turnId := by
  cases payload <;> simp only [JournalEvent.turnEnd, Option.some.injEq, Prod.mk.injEq,
    reduceCtorEq] at hend <;> obtain ⟨rfl, -⟩ := hend <;> exact hlawful

theorem Lifecycle.congr (hlifecycle : tables.Lifecycle)
    (hentries : tables'.sessionEntries = tables.sessionEntries)
    (hturns : tables'.turns = tables.turns) (heffects : tables'.effects = tables.effects) :
    tables'.Lifecycle where
  keyed := hlifecycle.keyed.congr hentries hturns heffects
  oneActive := by rw [OneActiveTurn, hturns]; exact hlifecycle.oneActive
  closed := hlifecycle.closed.of_open hturns fun effect heffect hopen =>
    .inl ⟨effect, by rwa [← heffects], rfl, hopen⟩
  status := by rw [StatusTellsCompletion, hturns]; exact hlifecycle.status

theorem Lifecycle.change (hlifecycle : tables.Lifecycle)
    (hchange : Store.LawfulChange world closing tables tables') : tables'.Lifecycle := by
  have hkeyed := hlifecycle.keyed.change hchange
  obtain ⟨sessionId, event, delivery, -, hlawful, hchange⟩ := hchange
  obtain ⟨hkeys, hone, hclosed, hstatus⟩ := hlifecycle
  cases hchange with
  | entryAppended _ _ _ _ _ _ _ _ hplaced =>
      refine ⟨hkeyed, ?_, ?_, ?_⟩
      · rw [OneActiveTurn, hplaced.turns_eq]; exact hone
      · exact hclosed.of_open hplaced.turns_eq fun effect heffect hopen =>
          .inl ⟨effect, by rwa [← hplaced.effects_eq], rfl, hopen⟩
      · rw [StatusTellsCompletion, hplaced.turns_eq]; exact hstatus
  | turnAccepted turnId _ _ _ _ _ _ placed _ hplaced hadmissible =>
      refine ⟨hkeyed, ?_, ?_, ?_⟩
      · have hone' : placed.OneActiveTurn := by rw [OneActiveTurn, hplaced.turns_eq]; exact hone
        exact hone'.accept hadmissible rfl
      · intro row hrow hcompleted
        rcases List.mem_append.mp hrow with hrow | hrow
        · rw [hplaced.turns_eq] at hrow
          rw [NoOpenEffects, hplaced.effects_eq]
          exact hclosed row hrow hcompleted
        · obtain rfl := List.mem_singleton.mp hrow
          exact absurd rfl hcompleted
      · intro row hrow
        rcases List.mem_append.mp hrow with hrow | hrow
        · rw [hplaced.turns_eq] at hrow
          exact hstatus row hrow
        · obtain rfl := List.mem_singleton.mp hrow
          exact iff_of_true rfl rfl
  | turnStarted turnId harness _ _ _ _ hplaced =>
      refine ⟨hkeyed, hone.updateTurns hplaced.turns_eq (fun _ => rfl) fun _ _ h => h,
        hclosed.updateTurns hplaced.effects_eq hplaced.turns_eq (fun _ => rfl)
          fun _ _ h => .inl h, hstatus.updateTurns hplaced.turns_eq fun _ h => h⟩
  | turnEnded turnId status error _ _ _ _ hend _ hplaced =>
      obtain ⟨-, hnone⟩ := turnEnd_lawful hlawful hend
      refine ⟨hkeyed, hone.updateTurns hplaced.turns_eq (fun _ => rfl) fun _ _ h => by
          simp [TurnRow.ended] at h, hclosed.updateTurns hplaced.effects_eq hplaced.turns_eq
          (fun _ => rfl) ?_, hstatus.updateTurns hplaced.turns_eq fun _ _ => ?_⟩
      · intro row hmatched _
        simp only [TurnRow.isActive, decide_eq_true_eq] at hmatched
        exact .inr (by rwa [hmatched.1])
      · exact iff_of_false (turnEnd_status hend) (by simp [TurnRow.ended])
  | effectScheduled operationId turnId effect hpayload _ =>
      rw [hpayload] at hlawful
      refine ⟨hkeyed, hone, hclosed.of_open rfl ?_, hstatus⟩
      intro row hrow hopen
      rcases List.mem_append.mp hrow with hrow | hrow
      · exact .inl ⟨row, hrow, rfl, hopen⟩
      · obtain rfl := List.mem_singleton.mp hrow
        exact .inr fun row hrow hid => hkeys.active_of_isActiveTurn hlawful hrow hid
  | effectStarted operationId turnId =>
      refine ⟨hkeyed, hone, hclosed.of_open rfl ?_, hstatus⟩
      intro row hrow hopen
      obtain ⟨old, hold, rfl⟩ := mem_updateWhere.mp hrow
      by_cases hmatched : EffectRow.isScheduled operationId old = true
      · simp only [hmatched, if_true]
        simp only [EffectRow.isScheduled, decide_eq_true_eq] at hmatched
        exact .inl ⟨old, hold, rfl, by rw [hmatched.2]; rfl⟩
      · rw [if_neg hmatched] at hopen ⊢
        exact .inl ⟨old, hold, rfl, hopen⟩
  | effectEnded operationId turnId status _ hend =>
      refine ⟨hkeyed, hone, hclosed.of_open rfl ?_, hstatus⟩
      intro row hrow hopen
      obtain ⟨old, hold, rfl⟩ := mem_updateWhere.mp hrow
      by_cases hmatched : EffectRow.isOpenOf sessionId turnId operationId old = true
      · rw [if_pos hmatched] at hopen
        rw [EffectRow.ended, effectEnd_status hend] at hopen
        exact absurd hopen (by simp)
      · rw [if_neg hmatched] at hopen ⊢
        exact .inl ⟨old, hold, rfl, hopen⟩
  | _ => exact ⟨hkeyed, hone, hclosed, hstatus⟩

/-! ## Terminal Turns -/

/-- Once a Turn has ended, neither its row nor the effects it has change. -/
theorem Lifecycle.terminal_fixed (hlifecycle : tables.Lifecycle) {ended : TurnId → Prop}
    (hadvances : Advances ended tables tables') {row : TurnRow} (hrow : row ∈ tables.turns)
    (hcompleted : row.turn.completedAt ≠ none) :
    row ∈ tables'.turns ∧
    ∀ effect : EffectRow, effect.turnId = row.turn.id →
      (effect ∈ tables'.effects ↔ effect ∈ tables.effects) := by
  have hnone := hlifecycle.closed row hrow hcompleted
  constructor
  · obtain ⟨row', hrow', hcontinues⟩ := hadvances.turns row hrow
    rwa [hcontinues.settled hcompleted] at hrow'
  · intro effect hturn
    constructor
    · intro heffect
      rcases hadvances.origins effect heffect with ⟨old, hold, hcontinues⟩ | ⟨-, hactive⟩
      · have hclosed := hnone old hold (by rw [← hcontinues.turn, hturn])
        rwa [hcontinues.settled hclosed]
      · exact absurd (hactive row hrow hturn.symm) hcompleted
    · intro heffect
      obtain ⟨effect', heffect', hcontinues⟩ := hadvances.effects effect heffect
      rwa [hcontinues.settled (hnone effect heffect hturn)] at heffect'

theorem TurnEnded.advances {ended : TurnId → Prop} {turnId : TurnId}
    (hended : tables.TurnEnded turnId) (hadvances : Advances ended tables tables') :
    tables'.TurnEnded turnId := by
  obtain ⟨row, hrow, hid, hcompleted⟩ := hended
  obtain ⟨row', hrow', hcontinues⟩ := hadvances.turns row hrow
  obtain rfl := hcontinues.settled hcompleted
  exact ⟨row', hrow', hid, hcompleted⟩

end Projection

namespace Store

variable {world : World}

open Projection

theorem Moves.lifecycle {footprint : Footprint} {store store' : Store}
    (hmoves : Moves world footprint store store') (hlifecycle : store.projection.Lifecycle) :
    store'.projection.Lifecycle :=
  hmoves.session_invariant Lifecycle
    (fun _ _ hsame hlifecycle =>
      hlifecycle.congr hsame.entries_eq hsame.turns_eq hsame.effects_eq)
    (fun _ _ hchange hlifecycle => hlifecycle.change hchange) hlifecycle

theorem Moves.advances {footprint : Footprint} {store store' : Store}
    (hmoves : Moves world footprint store store') (hkeyed : store.projection.Keyed) :
    Advances footprint.closing store.projection store'.projection :=
  (hmoves.session_related (fun tables tables' => tables.Keyed →
      tables'.Keyed ∧ Advances footprint.closing tables tables')
    (fun _ _ hsame hkeyed => ⟨hkeyed.congr hsame.entries_eq hsame.turns_eq hsame.effects_eq,
      .of_same hsame.turns_eq hsame.effects_eq⟩)
    (fun _ _ _ hfirst hsecond hkeyed =>
      ⟨(hsecond (hfirst hkeyed).1).1, (hfirst hkeyed).2.trans (hsecond (hfirst hkeyed).1).2⟩)
    (fun _ _ hchange hkeyed => ⟨hkeyed.change hchange, hkeyed.advances hchange⟩) hkeyed).2

theorem run_lifecycle (world : World) (ops : List StoreOp) : (run world ops).projection.Lifecycle :=
  run_invariant world (fun store => store.projection.Lifecycle) lifecycle_empty
    (fun _ op hlifecycle => (step_moves world hlifecycle.keyed op).lifecycle hlifecycle) ops

/-- A command advances the tables, and only Turns that are over afterwards have
closed an effect before it started. -/
theorem step_advances (world : World) {store : Store} (hlifecycle : store.projection.Lifecycle) (op : StoreOp) :
    Advances (step world store op).projection.TurnEnded store.projection
      (step world store op).projection := by
  have hmoves := step_moves world hlifecycle.keyed op
  rcases step_settled world hlifecycle.keyed op with hsame | hsettled
  · rw [hsame]
    exact .of_same rfl rfl
  · refine (hmoves.advances hlifecycle.keyed).mono ?_ ?_
    · exact fun row hrow hclosing => ⟨row, hrow, rfl, hsettled row hrow hclosing⟩
    · intro effect heffect
      obtain ⟨row, hrow, hid, -⟩ := (hmoves.keyed hlifecycle.keyed).owned effect heffect
      exact ⟨row, hrow, hid⟩

theorem runFrom_advances (world : World) {store : Store} (hlifecycle : store.projection.Lifecycle)
    (ops : List StoreOp) :
    Advances (runFrom world store ops).projection.TurnEnded store.projection
      (runFrom world store ops).projection := by
  induction ops generalizing store with
  | nil => exact .of_same rfl rfl
  | cons op ops ih =>
      have hmoves := step_moves world hlifecycle.keyed op
      have hlater := ih (hmoves.lifecycle hlifecycle)
      refine .trans ((step_advances world hlifecycle op).mono ?_ ?_) hlater
      · exact fun row _ hended => hended.advances hlater
      · intro effect heffect
        obtain ⟨row, hrow, hid, -⟩ := (hmoves.keyed hlifecycle.keyed).owned effect heffect
        exact ⟨row, hrow, hid⟩

end Store

end Mews
