import Mews.Store.Timeline

/-!
# Compactions of a Session

A compaction names the first entry that it keeps.  The entry is looked up on the active
branch each time the branch is read, after any further compactions and moves of the leaf;
it is found since it stands above the compaction.
-/

namespace Mews

open Protocol Table Ancestry

/-! ## Reading a branch -/

/-- The place of the last entry that is a compaction. -/
theorem findSome?_zipIdx_reverse {A B : Type} (select : A × Nat → Option B) (front : List A)
    {after : List A} {latest : A} {value : B} (hlatest : select (latest, front.length) = some value)
    (hafter : ∀ item ∈ after, ∀ index, select (item, index) = none) :
    (front ++ latest :: after).zipIdx.reverse.findSome? select = some value := by
  rw [List.zipIdx_append, List.reverse_append, List.zipIdx_cons, List.reverse_cons,
    List.append_assoc, List.findSome?_append]
  have hnone : (after.zipIdx (0 + front.length + 1)).reverse.findSome? select = none := by
    rw [List.findSome?_eq_none_iff]
    intro entry hentry
    obtain ⟨item, index⟩ := entry
    have hmem := List.mem_reverse.mp hentry
    exact hafter item (List.fst_mem_of_mem_zipIdx hmem) index
  rw [hnone, Option.none_or, List.findSome?_append]
  simp [hlatest]

/-- A compaction with its place and the first entry that it keeps. -/
def compactionAt : SessionEntry × Nat → Option (SessionEntry × Nat × MessageId)
  | (entry, index) =>
      match entry.payload with
      | .contextCompaction _ firstKeptEntryId _ => some (entry, index, firstKeptEntryId)
      | _ => none

theorem compactionAt_eq_none {entry : SessionEntry} (hother : entry.payload.isCompaction = false)
    (index : Nat) : compactionAt (entry, index) = none := by
  cases hpayload : entry.payload <;>
    simp [hpayload, compactionAt, SessionEntryPayload.isCompaction] at hother ⊢

theorem applyLatestCompaction_def (branch : List SessionEntry) :
    applyLatestCompaction branch =
      match branch.zipIdx.reverse.findSome? compactionAt with
      | none => branch
      | some (compaction, compactionIndex, firstKeptId) =>
          match branch.findIdx? (fun entry => entry.id = firstKeptId) with
          | none => branch
          | some firstKeptIndex =>
              compaction :: ((branch.take compactionIndex).drop firstKeptIndex ++
                branch.drop (compactionIndex + 1)) := rfl

/-- A branch without compactions is read as it is. -/
theorem applyLatestCompaction_of_none {branch : List SessionEntry}
    (hnone : ∀ entry ∈ branch, entry.payload.isCompaction = false) :
    applyLatestCompaction branch = branch := by
  have hlatest : branch.zipIdx.reverse.findSome? compactionAt = none := by
    rw [List.findSome?_eq_none_iff]
    intro entry hentry
    obtain ⟨entry, index⟩ := entry
    exact compactionAt_eq_none
      (hnone entry (List.fst_mem_of_mem_zipIdx (List.mem_reverse.mp hentry))) index
  rw [applyLatestCompaction_def, hlatest]

/-- The latest compaction, what it keeps and what follows it. -/
theorem applyLatestCompaction_eq {dropped middle after : List SessionEntry}
    {kept compaction : SessionEntry} {summary : String} {tokensBefore : Nat}
    (hpayload : compaction.payload = .contextCompaction summary kept.id tokensBefore)
    (hdropped : ∀ entry ∈ dropped, entry.id ≠ kept.id)
    (hafter : ∀ entry ∈ after, entry.payload.isCompaction = false) :
    applyLatestCompaction (dropped ++ kept :: middle ++ compaction :: after) =
      compaction :: kept :: middle ++ after := by
  have hlatest : (dropped ++ kept :: middle ++ compaction :: after).zipIdx.reverse.findSome?
      compactionAt = some (compaction, (dropped ++ kept :: middle).length, kept.id) := by
    apply findSome?_zipIdx_reverse
    · simp only [compactionAt, hpayload]
    · intro entry hentry index
      exact compactionAt_eq_none (hafter entry hentry) index
  have hfirst : (dropped ++ kept :: middle ++ compaction :: after).findIdx?
      (fun entry => entry.id = kept.id) = some dropped.length := by
    have hnone : dropped.findIdx? (fun entry => entry.id = kept.id) = none := by
      rw [List.findIdx?_eq_none_iff]
      intro entry hentry
      simpa using hdropped entry hentry
    rw [List.append_assoc, List.cons_append, List.findIdx?_append, hnone, Option.none_or,
      List.findIdx?_cons]
    simp
  rw [applyLatestCompaction_def, hlatest]
  dsimp only
  rw [hfirst]
  dsimp only
  rw [List.take_left, List.drop_left, List.drop_append, List.drop_of_length_le (Nat.le_succ _)]
  simp

theorem applyLatestCompaction_subset (branch : List SessionEntry) :
    applyLatestCompaction branch ⊆ branch := by
  intro entry hentry
  rw [applyLatestCompaction_def] at hentry
  cases hlatest : branch.zipIdx.reverse.findSome? compactionAt with
  | none => rwa [hlatest] at hentry
  | some latest =>
      obtain ⟨compaction, compactionIndex, firstKeptId⟩ := latest
      rw [hlatest] at hentry
      dsimp only at hentry
      have hmem : compaction ∈ branch := by
        obtain ⟨⟨item, index⟩, hitem, hselect⟩ := List.exists_of_findSome?_eq_some hlatest
        cases hpayload : item.payload <;> simp [compactionAt, hpayload] at hselect
        obtain ⟨rfl, -, -⟩ := hselect
        exact List.fst_mem_of_mem_zipIdx (List.mem_reverse.mp hitem)
      cases hfirst : branch.findIdx? (fun entry => entry.id = firstKeptId) with
      | none => rwa [hfirst] at hentry
      | some firstKeptIndex =>
          rw [hfirst] at hentry
          dsimp only at hentry
          rw [List.mem_cons, List.mem_append] at hentry
          rcases hentry with rfl | hkept | hafter
          · exact hmem
          · exact List.mem_of_mem_take (List.mem_of_mem_drop hkept)
          · exact List.mem_of_mem_drop hafter

namespace Projection

variable {world : World} {closing : TurnId → Prop} {tables tables' : Projection}
  {sessionId : SessionId}

/-! ## What a compaction keeps stands above it -/

/-- The second entry is an ancestor of the first. -/
def HangsBelow (tables : Projection) : SessionEntry → SessionEntry → Prop :=
  Relation.TransGen fun node above => tables.parentOf node = some above

/-- The entry a compaction keeps first is an ancestor of it. -/
def Compacted (tables : Projection) : Prop :=
  ∀ sessionId, ∀ row ∈ tables.timeline sessionId, ∀ summary firstKeptEntryId tokensBefore,
    row.entry.payload = .contextCompaction summary firstKeptEntryId tokensBefore →
      ∃ kept, kept.id = firstKeptEntryId ∧ tables.HangsBelow row.entry kept

theorem compacted_empty : Projection.empty.Compacted := by
  intro sessionId row hrow
  cases hrow

/-- A timeline that grows keeps the parents that it has. -/
theorem parentOf_mono (hgrows : ∀ sessionId, tables.timeline sessionId <+: tables'.timeline sessionId)
    {node above : SessionEntry} (hparent : tables.parentOf node = some above) :
    tables'.parentOf node = some above := by
  obtain ⟨row, hrow, rfl⟩ := Option.map_eq_some_iff.mp hparent
  obtain ⟨id, hid, hfind⟩ := Option.bind_eq_some_iff.mp hrow
  obtain ⟨rest, hrest⟩ := hgrows node.sessionId
  rw [parentOf, hid, Option.bind_some, ← hrest, List.find?_append, hfind, Option.some_or,
    Option.map_some]

theorem HangsBelow.mono {node above : SessionEntry} (hbelow : tables.HangsBelow node above)
    (hgrows : ∀ sessionId, tables.timeline sessionId <+: tables'.timeline sessionId) :
    tables'.HangsBelow node above :=
  Relation.TransGen.mono (fun _ _ => parentOf_mono hgrows) _ _ hbelow

theorem Compacted.congr (hcompacted : tables.Compacted)
    (hentries : tables'.sessionEntries = tables.sessionEntries) : tables'.Compacted := by
  have htimeline : ∀ sessionId, tables'.timeline sessionId = tables.timeline sessionId := by
    intro sessionId
    rw [timeline, timeline, hentries]
  intro sessionId row hrow summary firstKeptEntryId tokensBefore hpayload
  rw [htimeline] at hrow
  obtain ⟨kept, hid, hbelow⟩ := hcompacted sessionId row hrow _ _ _ hpayload
  exact ⟨kept, hid, hbelow.mono fun sessionId => htimeline sessionId ▸ List.prefix_rfl⟩

theorem Placed.timeline_prefix {entryId : MessageId} {payload : SessionEntryPayload}
    {contextual : Bool} {key : Option String} {createdAt : DateTime} {entry : SessionEntry}
    (hplaced : Placed tables sessionId entryId payload contextual key createdAt tables' entry)
    (other : SessionId) : tables.timeline other <+: tables'.timeline other := by
  rw [hplaced.timeline_eq]
  exact List.prefix_append _ _

/-- An entry of the active branch stands above what is placed next. -/
theorem Placed.hangsBelow {entryId : MessageId} {payload : SessionEntryPayload} {contextual : Bool}
    {key : Option String} {createdAt : DateTime} {entry kept : SessionEntry}
    (hplaced : Placed tables sessionId entryId payload contextual key createdAt tables' entry)
    (htimelined : tables.Timelined) (hkeyed : tables.Keyed)
    (hkept : kept ∈ tables.activeBranch sessionId) : tables'.HangsBelow entry kept := by
  cases hleaf : tables.leafOf sessionId with
  | none =>
      rw [activeBranch_eq_nil hleaf] at hkept
      cases hkept
  | some leaf =>
      obtain ⟨row, hrow, hid, -, chain, hchain, hbranch⟩ :=
        htimelined.activeBranch_eq hkeyed hleaf
      rw [hbranch, List.mem_reverse, hchain.mem_iff] at hkept
      have hparentId : entry.parentId = some leaf := by
        have hcurrent := hplaced.leaf
        obtain ⟨session, hsession, hsessionLeaf⟩ := Option.bind_eq_some_iff.mp hleaf
        rw [currentSessionLeaf, hsession] at hcurrent
        exact (Except.ok.inj hcurrent).symm.trans hsessionLeaf
      have hparent : tables'.parentOf entry = some row.entry := by
        have hunique : Unique (fun row => row.entry.id) (tables.timeline sessionId) :=
          hkeyed.entries.filter _
        have hfind := hunique.find?_eq_some hrow
        rw [hid] at hfind
        rw [parentOf, hparentId, Option.bind_some, hplaced.session_eq, hplaced.timeline_eq,
          List.find?_append, hfind, Option.some_or, Option.map_some]
      exact Relation.TransGen.head' hparent
        (Relation.ReflTransGen.mono (fun _ _ => parentOf_mono hplaced.timeline_prefix) _ _ hkept)

theorem Placed.compacted {entryId : MessageId} {payload : SessionEntryPayload} {contextual : Bool}
    {key : Option String} {createdAt : DateTime} {entry : SessionEntry}
    (hplaced : Placed tables sessionId entryId payload contextual key createdAt tables' entry)
    (hkept : ∀ summary firstKeptEntryId tokensBefore,
      payload = .contextCompaction summary firstKeptEntryId tokensBefore →
        ∃ kept, kept.id = firstKeptEntryId ∧ tables'.HangsBelow entry kept)
    (hcompacted : tables.Compacted) : tables'.Compacted := by
  intro other row hrow summary firstKeptEntryId tokensBefore hpayload
  rw [hplaced.timeline_eq, List.mem_append] at hrow
  cases hrow with
  | inl hold =>
      obtain ⟨kept, hid, hbelow⟩ := hcompacted other row hold _ _ _ hpayload
      exact ⟨kept, hid, hbelow.mono hplaced.timeline_prefix⟩
  | inr hnew =>
      split at hnew
      · obtain rfl := List.mem_singleton.mp hnew
        rw [hplaced.payload_eq] at hpayload
        exact hkept _ _ _ hpayload
      · cases hnew

theorem compacts_of_timelineEntry {payload : JournalEvent} {entryId : MessageId}
    {contextual : Bool} {summary : String} {firstKeptEntryId : MessageId} {tokensBefore : Nat}
    (hentry : payload.timelineEntry = some
      (entryId, .contextCompaction summary firstKeptEntryId tokensBefore, contextual)) :
    payload = .contextCompacted entryId summary firstKeptEntryId tokensBefore := by
  cases payload <;> simp only [JournalEvent.timelineEntry, Option.some.injEq, Prod.mk.injEq,
    reduceCtorEq, false_and, and_false] at hentry
  obtain ⟨rfl, hpayload, -⟩ := hentry
  cases hpayload
  rfl

theorem Compacted.change (hcompacted : tables.Compacted) (htimelined : tables.Timelined)
    (hkeyed : tables.Keyed) (hchange : Store.LawfulChange world closing tables tables') :
    tables'.Compacted := by
  obtain ⟨sessionId, event, delivery, -, hlawful, hchange⟩ := hchange
  cases hchange with
  | entryAppended entryId payload _ _ _ _ hentry _ hplaced =>
      apply hplaced.compacted _ hcompacted
      intro summary firstKeptEntryId tokensBefore hpayload
      subst hpayload
      rw [compacts_of_timelineEntry hentry] at hlawful
      obtain ⟨kept, hkept, hid⟩ := hlawful
      exact ⟨kept, hid,
        hplaced.hangsBelow htimelined hkeyed (applyLatestCompaction_subset _ hkept)⟩
  | turnAccepted _ _ _ _ _ _ _ _ _ hplaced =>
      exact (hplaced.compacted (fun _ _ _ h => by cases h) hcompacted).congr rfl
  | turnStarted _ _ _ _ _ _ hplaced =>
      exact hplaced.compacted (fun _ _ _ h => by cases h) (hcompacted.congr rfl)
  | turnEnded _ _ _ _ _ _ _ hend _ hplaced =>
      apply hplaced.compacted _ (hcompacted.congr rfl)
      intro summary firstKeptEntryId tokensBefore hpayload
      have hother := bearsContext_of_turnEnd hend
      rw [hpayload] at hother
      cases hother
  | _ => exact hcompacted.congr rfl

/-- Keys, timeline and compactions, which are kept together. -/
structure Branching (tables : Projection) : Prop where
  keyed : tables.Keyed
  timelined : tables.Timelined
  compacted : tables.Compacted

theorem branching_empty : Projection.empty.Branching :=
  ⟨keyed_empty, timelined_empty, compacted_empty⟩

/-- An entry of a lineage has its own identifier. -/
theorem Branching.id_ne (hbranching : tables.Branching) {row : EntryRow}
    (hrow : row ∈ tables.timeline sessionId) {chain : List SessionEntry}
    (hchain : Lineage tables.parentOf row.entry chain) :
    chain.Pairwise fun left right => right.id ≠ left.id := by
  have hranked := hbranching.timelined.ranked hbranching.keyed sessionId
  have hmem : row.entry ∈ (tables.timeline sessionId).map (·.entry) := List.mem_map_of_mem hrow
  have hunique : Unique (fun row => row.entry.id) (tables.timeline sessionId) :=
    hbranching.keyed.entries.filter _
  have hsubset := hranked.lineage_subset hmem hchain
  apply (hranked.pairwise hmem hchain).imp_of_mem
  intro left right hleft hright hlt hid
  obtain ⟨leftRow, hleftRow, rfl⟩ := List.mem_map.mp (hsubset hleft)
  obtain ⟨rightRow, hrightRow, rfl⟩ := List.mem_map.mp (hsubset hright)
  have hsame := hunique.eq_of_mem hrightRow hleftRow hid
  rw [hsame] at hlt
  exact Nat.lt_irrefl _ hlt

/-- What is read of the active branch of a Session. -/
theorem Branching.activeEntries (hbranching : tables.Branching) (sessionId : SessionId) :
    (∀ entry ∈ tables.activeBranch sessionId, entry.payload.isCompaction = false) ∧
        tables.activeEntries sessionId = tables.activeBranch sessionId ∨
      ∃ dropped kept middle compaction after summary tokensBefore,
        tables.activeBranch sessionId = dropped ++ kept :: middle ++ compaction :: after ∧
        compaction.payload = .contextCompaction summary kept.id tokensBefore ∧
        (∀ entry ∈ after, entry.payload.isCompaction = false) ∧
        tables.activeEntries sessionId = compaction :: kept :: middle ++ after := by
  cases hleaf : tables.leafOf sessionId with
  | none =>
      have hbranch := activeBranch_eq_nil hleaf
      refine .inl ⟨fun entry hentry => ?_, ?_⟩
      · rw [hbranch] at hentry
        cases hentry
      · rw [Projection.activeEntries, hbranch]
        rfl
  | some leaf =>
      obtain ⟨row, hrow, -, -, chain, hchain, hbranch⟩ :=
        hbranching.timelined.activeBranch_eq hbranching.keyed hleaf
      cases hfind : chain.find? fun entry => entry.payload.isCompaction with
      | none =>
          have hnone : ∀ entry ∈ tables.activeBranch sessionId,
              entry.payload.isCompaction = false := by
            intro entry hentry
            rw [hbranch, List.mem_reverse] at hentry
            simpa using List.find?_eq_none.mp hfind entry hentry
          exact .inl ⟨hnone, applyLatestCompaction_of_none hnone⟩
      | some compaction =>
          obtain ⟨hcompaction, after, below, rfl, hafter⟩ :=
            List.find?_eq_some_iff_append.mp hfind
          have hids := hbranching.id_ne hrow hchain
          have hranked := hbranching.timelined.ranked hbranching.keyed sessionId
          have hsubset := hranked.lineage_subset (List.mem_map_of_mem hrow) hchain
          obtain ⟨compactionRow, hcompactionRow, hentry⟩ := List.mem_map.mp
            (hsubset (List.mem_append_right after List.mem_cons_self))
          cases hpayload : compaction.payload with
          | contextCompaction summary firstKeptEntryId tokensBefore =>
              obtain ⟨kept, hid, habove⟩ := hbranching.compacted sessionId compactionRow
                hcompactionRow _ _ _ (by rw [hentry, hpayload])
              rw [hentry] at habove
              have hkept := (hchain.of_append rfl).mem_of_above habove
              obtain ⟨middle, dropped, rfl⟩ := List.append_of_mem hkept
              have hbranch' : tables.activeBranch sessionId =
                  dropped.reverse ++ kept :: middle.reverse ++ compaction :: after.reverse := by
                rw [hbranch]
                simp
              have hafter' : ∀ entry ∈ after.reverse, entry.payload.isCompaction = false := by
                intro entry hentry
                simpa using hafter entry (List.mem_reverse.mp hentry)
              have hdropped : ∀ entry ∈ dropped.reverse, entry.id ≠ kept.id := by
                intro entry hentry
                have hbelow := (List.pairwise_append.mp hids).2.1
                have hkept := (List.pairwise_append.mp (List.pairwise_cons.mp hbelow).2).2.1
                exact (List.pairwise_cons.mp hkept).1 entry (List.mem_reverse.mp hentry)
              subst hid
              refine .inr ⟨dropped.reverse, kept, middle.reverse, compaction, after.reverse,
                summary, tokensBefore, hbranch', hpayload, hafter', ?_⟩
              rw [Projection.activeEntries, hbranch']
              exact applyLatestCompaction_eq hpayload hdropped hafter'
          | _ => simp [hpayload, SessionEntryPayload.isCompaction] at hcompaction

/-- The active branch holds context-bearing entries in the order they were appended. -/
theorem Branching.branch (hbranching : tables.Branching) (sessionId : SessionId) :
    (tables.activeBranch sessionId).Pairwise (fun earlier later => earlier.sequence < later.sequence) ∧
      ∀ entry ∈ tables.activeBranch sessionId, entry.payload.bearsContext = true := by
  cases hleaf : tables.leafOf sessionId with
  | none =>
      rw [activeBranch_eq_nil hleaf]
      exact ⟨.nil, fun entry hentry => by cases hentry⟩
  | some leaf =>
      obtain ⟨row, hrow, -, hcontextual, chain, hchain, hbranch⟩ :=
        hbranching.timelined.activeBranch_eq hbranching.keyed hleaf
      have hranked := hbranching.timelined.ranked hbranching.keyed sessionId
      have hmem : row.entry ∈ (tables.timeline sessionId).map (·.entry) := List.mem_map_of_mem hrow
      rw [hbranch]
      refine ⟨List.pairwise_reverse.mpr (hranked.pairwise hmem hchain), ?_⟩
      intro entry hentry
      have hreach := hchain.mem_iff.mp (List.mem_reverse.mp hentry)
      have hkind := hbranching.timelined.kinds row (List.mem_of_mem_filter hrow)
      -- An ancestor is a context-bearing row, as the leaf is.
      induction hreach with
      | refl => exact hkind ▸ hcontextual
      | tail hreach hparent _ =>
          have habove := hranked.lineage_subset hmem hchain (hchain.mem_iff.mpr hreach)
          obtain ⟨below, hbelow, rfl⟩ := List.mem_map.mp habove
          obtain ⟨found, hfound, rfl, -, hfoundContextual, -⟩ :=
            hbranching.timelined.parentOf_eq_some hbranching.keyed hbelow hparent
          have hfoundKind := hbranching.timelined.kinds found (List.mem_of_mem_filter hfound)
          exact hfoundKind ▸ hfoundContextual

end Projection

namespace Store

open Projection

variable {world : World} {footprint : Footprint} {store store' : Store}

theorem Moves.branching (hmoves : Moves world footprint store store')
    (hbranching : store.projection.Branching) : store'.projection.Branching :=
  hmoves.session_invariant Branching
    (fun _ _ hsame hbranching =>
      ⟨hbranching.keyed.congr hsame.entries_eq hsame.turns_eq hsame.effects_eq,
        hbranching.timelined.congr hsame.entries_eq hsame.sessions_eq,
        hbranching.compacted.congr hsame.entries_eq⟩)
    (fun _ _ hchange hbranching =>
      ⟨hbranching.keyed.change hchange, hbranching.timelined.change hchange,
        hbranching.compacted.change hbranching.timelined hbranching.keyed hchange⟩) hbranching

theorem run_branching (world : World) (ops : List StoreOp) :
    (run world ops).projection.Branching :=
  (runFrom_moves world keyed_empty ops).branching branching_empty

/-- In every reachable state a Session without compactions on its active branch is read as
the branch, and otherwise as its latest compaction, the entries from the one kept first up to
that compaction, and the entries after it. -/
theorem active_entries_compacted (world : World) (ops : List StoreOp) (sessionId : SessionId) :
    let tables := (run world ops).projection
    let branch := tables.activeBranch sessionId
    branch.Pairwise (fun earlier later => earlier.sequence < later.sequence) ∧
    (∀ entry ∈ branch, entry.payload.bearsContext = true) ∧
    ((∀ entry ∈ branch, entry.payload.isCompaction = false) ∧
        tables.activeEntries sessionId = branch ∨
      ∃ dropped kept middle compaction after summary tokensBefore,
        branch = dropped ++ kept :: middle ++ compaction :: after ∧
        compaction.payload = .contextCompaction summary kept.id tokensBefore ∧
        (∀ entry ∈ after, entry.payload.isCompaction = false) ∧
        tables.activeEntries sessionId = compaction :: kept :: middle ++ after) := by
  intro tables branch
  have hbranching : tables.Branching := run_branching world ops
  have hbranch := hbranching.branch sessionId
  exact ⟨hbranch.1, hbranch.2, hbranching.activeEntries sessionId⟩

end Store

end Mews
