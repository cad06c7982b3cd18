import Mews.Store.Compactions

/-!
# The messages of the active branch

Clients and Harnesses read the active branch as messages.  An entry becomes any number of
items of the portable history, and a message is numbered by its item; it takes its identifier
and time from the entry with the same number.
-/

namespace Mews

open Protocol Table

/-- `entries_to_messages`: what has no entry with its number gets a new identifier and the
time of the reading, drawn after `drawn` others. -/
def entriesToMessages (world : World) (drawn : Nat) (entries : List SessionEntry) : List Message :=
  match entries.head? with
  | none => []
  | some first => (portableHistory entries).zipIdx.map fun (item, index) =>
      { id := match entries[index]? with
          | some entry => entry.id
          | none => ⟨world.uuid (drawn + 2 * (index - entries.length))⟩
        sessionId := first.sessionId
        sequence := index + 1
        role := item.role
        content := item.content
        metadata := .null
        source := { kind := .client, id := "cli", channelOrigin := none }
        createdAt := match entries[index]? with
          | some entry => entry.createdAt
          | none => world.now (drawn + 2 * (index - entries.length) + 1) }

namespace Store

def activeMessages (world : World) (sessionId : SessionId) : Action (List Message) := fun store =>
  let entries := store.projection.activeEntries sessionId
  (.ok (entriesToMessages world store.drawn entries),
    { store with
      drawn := store.drawn + 2 * ((portableHistory entries).length - entries.length) })

end Store

/-! ## Where the items of a history come from -/

/-- The items of the portable history with their entries. -/
def itemSources (entries : List SessionEntry) : List (SessionEntry × PortableHistoryItem) :=
  entries.flatMap fun entry => (portableItems entry).map fun item => (entry, item)

/-- The message shows the item as part of its entry. -/
structure Protocol.Message.Shows (message : Message)
    (source : SessionEntry × PortableHistoryItem) : Prop where
  id : message.id = source.1.id
  createdAt : message.createdAt = source.1.createdAt
  role : message.role = source.2.role
  content : message.content = source.2.content

/-- No entry becomes several items, and none that becomes nothing is followed by one that
becomes something. -/
structure ItemPerEntry (entries : List SessionEntry) : Prop where
  single : ∀ entry ∈ entries, (portableItems entry).length ≤ 1
  ordered : entries.Pairwise fun earlier later =>
    portableItems earlier = [] → portableItems later = []

instance (entries : List SessionEntry) : Decidable (ItemPerEntry entries) :=
  decidable_of_iff ((∀ entry ∈ entries, (portableItems entry).length ≤ 1) ∧
      entries.Pairwise fun earlier later => portableItems earlier = [] → portableItems later = [])
    ⟨fun h => ⟨h.1, h.2⟩, fun h => ⟨h.1, h.2⟩⟩

@[simp] theorem itemSources_cons (entry : SessionEntry) (entries : List SessionEntry) :
    itemSources (entry :: entries) =
      (portableItems entry).map (fun item => (entry, item)) ++ itemSources entries := rfl

theorem map_snd_itemSources (entries : List SessionEntry) :
    (itemSources entries).map Prod.snd = portableHistory entries := by
  rw [itemSources, portableHistory, List.map_flatMap]
  congr 1
  funext entry
  rw [List.map_map]
  exact List.map_id _

theorem mem_of_mem_itemSources {entries : List SessionEntry}
    {source : SessionEntry × PortableHistoryItem} (hsource : source ∈ itemSources entries) :
    source.1 ∈ entries ∧ source.2 ∈ portableItems source.1 := by
  obtain ⟨entry, hentry, hmapped⟩ := List.mem_flatMap.mp hsource
  obtain ⟨item, hitem, rfl⟩ := List.mem_map.mp hmapped
  exact ⟨hentry, hitem⟩

/-- Without a source only entries are left that become nothing. -/
theorem itemSources_eq_nil {entries : List SessionEntry} :
    itemSources entries = [] ↔ ∀ entry ∈ entries, portableItems entry = [] := by
  simp [itemSources]

/-- The items come from the entries with their numbers. -/
theorem prefix_itemSources_iff {entries : List SessionEntry} (hnodup : entries.Nodup) :
    (itemSources entries).map Prod.fst <+: entries ↔ ItemPerEntry entries := by
  induction entries with
  | nil => exact ⟨fun _ => ⟨by simp, .nil⟩, fun _ => List.prefix_rfl⟩
  | cons entry entries ih =>
      rw [List.nodup_cons] at hnodup
      rw [itemSources_cons, List.map_append, List.map_map]
      have hrest : ItemPerEntry (entry :: entries) ↔ (portableItems entry).length ≤ 1 ∧
          (portableItems entry = [] → ∀ later ∈ entries, portableItems later = []) ∧
          ItemPerEntry entries := by
        constructor
        · intro h
          obtain ⟨hsingle, hsingles⟩ := List.forall_mem_cons.mp h.single
          obtain ⟨hordered, hordereds⟩ := List.pairwise_cons.mp h.ordered
          exact ⟨hsingle, fun hnone later hlater => hordered later hlater hnone,
            hsingles, hordereds⟩
        · rintro ⟨hsingle, hordered, hitems⟩
          exact ⟨List.forall_mem_cons.mpr ⟨hsingle, hitems.single⟩,
            List.pairwise_cons.mpr ⟨fun later hlater hnone => hordered hnone later hlater,
              hitems.ordered⟩⟩
      rw [hrest]
      match hitems : portableItems entry with
      | [] =>
          simp only [List.map_nil, List.nil_append, List.length_nil, Nat.zero_le, true_and,
            forall_const, ← itemSources_eq_nil]
          constructor
          · intro hbefore
            match hsources : itemSources entries with
            | [] =>
                refine ⟨rfl, (ih hnodup.2).mp ?_⟩
                rw [hsources]
                exact List.nil_prefix
            | source :: sources =>
                have hmem := (mem_of_mem_itemSources
                  (hsources ▸ List.mem_cons_self : source ∈ itemSources entries)).1
                rw [hsources, List.map_cons, List.cons_prefix_cons] at hbefore
                exact absurd (hbefore.1 ▸ hmem) hnodup.1
          · rintro ⟨hsources, -⟩
            rw [hsources]
            exact List.nil_prefix
      | [item] =>
          simp [List.cons_prefix_cons, ih hnodup.2]
      | item :: second :: items =>
          simp only [List.map_cons, List.cons_append, List.cons_prefix_cons, List.length_cons,
            Function.comp_apply, true_and]
          constructor
          · intro hbefore
            cases entries with
            | nil => cases List.prefix_nil.mp hbefore
            | cons next entries =>
                rw [List.cons_prefix_cons] at hbefore
                exact absurd (hbefore.1 ▸ List.mem_cons_self) hnodup.1
          · intro h
            omega

section Numbering

variable {world : World} {drawn : Nat} {entries : List SessionEntry}

theorem length_entriesToMessages :
    (entriesToMessages world drawn entries).length = (itemSources entries).length := by
  rw [← List.length_map Prod.snd, map_snd_itemSources]
  cases entries with
  | nil => rfl
  | cons first rest => simp [entriesToMessages]

/-- A message shows the item with its number. -/
theorem getElem_entriesToMessages {index : Nat}
    (hmessage : index < (entriesToMessages world drawn entries).length)
    (hsource : index < (itemSources entries).length) :
    let message := (entriesToMessages world drawn entries)[index]
    message.role = (itemSources entries)[index].2.role ∧
      message.content = (itemSources entries)[index].2.content ∧
      (message.id = match entries[index]? with
        | some entry => entry.id
        | none => ⟨world.uuid (drawn + 2 * (index - entries.length))⟩) ∧
      message.createdAt = match entries[index]? with
        | some entry => entry.createdAt
        | none => world.now (drawn + 2 * (index - entries.length) + 1) := by
  cases entries with
  | nil => cases hsource
  | cons first rest =>
      have hitem : (itemSources (first :: rest))[index].2 =
          (portableHistory (first :: rest)).get ⟨index, by
            rwa [← map_snd_itemSources, List.length_map]⟩ := by
        simp only [← map_snd_itemSources, List.get_eq_getElem, List.getElem_map]
      rw [hitem]
      simp [entriesToMessages]

/-- The messages show the items of the entries if and only if these have the numbers of
their entries. -/
theorem forall₂_shows_iff
    (hunique : ∀ left ∈ entries, ∀ right ∈ entries, left.id = right.id → left = right)
    (hfresh : ∀ entry ∈ entries, ∀ draw ≥ drawn, entry.id.uuid ≠ world.uuid draw) :
    List.Forall₂ Message.Shows (entriesToMessages world drawn entries) (itemSources entries) ↔
      (itemSources entries).map Prod.fst <+: entries := by
  rw [List.forall₂_iff_get, List.prefix_iff_getElem?]
  constructor
  · intro hshows index hindex
    rw [List.length_map] at hindex
    have hmessage : index < (entriesToMessages world drawn entries).length := by
      rwa [length_entriesToMessages]
    have hid := (hshows.2 index hmessage hindex).id
    have hread := (getElem_entriesToMessages hmessage hindex).2.2.1
    have hmem := (mem_of_mem_itemSources (List.getElem_mem hindex)).1
    rw [List.get_eq_getElem, List.get_eq_getElem, hread] at hid
    rw [List.getElem_map]
    cases hentry : entries[index]? with
    | none =>
        rw [hentry] at hid
        exact absurd (congrArg TaggedId.uuid hid).symm (hfresh _ hmem _ (Nat.le_add_right _ _))
    | some entry =>
        rw [hentry] at hid
        rw [hunique entry (List.mem_of_getElem? hentry) _ hmem hid]
  · intro hbefore
    refine ⟨length_entriesToMessages, fun index hmessage hsource => ?_⟩
    obtain ⟨hrole, hcontent, hid, hcreatedAt⟩ := getElem_entriesToMessages hmessage hsource
    have hentry := hbefore index (by rwa [List.length_map])
    rw [List.getElem_map] at hentry
    rw [hentry] at hid hcreatedAt
    exact ⟨hid, hcreatedAt, hrole, hcontent⟩

end Numbering

namespace Projection

variable {tables : Projection}

theorem Branching.activeEntries_subset (hbranching : tables.Branching) {sessionId : SessionId}
    {entry : SessionEntry} (hentry : entry ∈ tables.activeEntries sessionId) :
    ∃ row ∈ tables.sessionEntries, row.entry = entry := by
  have hmem := applyLatestCompaction_subset _ hentry
  cases hleaf : tables.leafOf sessionId with
  | none =>
      rw [activeBranch_eq_nil hleaf] at hmem
      cases hmem
  | some leaf =>
      obtain ⟨row, hrow, -, -, chain, hchain, hbranch⟩ :=
        hbranching.timelined.activeBranch_eq hbranching.keyed hleaf
      have hranked := hbranching.timelined.ranked hbranching.keyed sessionId
      rw [hbranch, List.mem_reverse] at hmem
      obtain ⟨found, hfound, rfl⟩ := List.mem_map.mp
        (hranked.lineage_subset (List.mem_map_of_mem hrow) hchain hmem)
      exact ⟨found, List.mem_of_mem_filter hfound, rfl⟩

theorem Branching.nodup_activeEntries (hbranching : tables.Branching) (sessionId : SessionId) :
    (tables.activeEntries sessionId).Nodup := by
  have hbranch : (tables.activeBranch sessionId).Nodup := by
    apply (hbranching.branch sessionId).1.imp
    intro earlier later hlt hsame
    rw [hsame] at hlt
    exact Nat.lt_irrefl _ hlt
  cases hbranching.activeEntries sessionId with
  | inl hplain => rwa [hplain.2]
  | inr hcompacted =>
      obtain ⟨dropped, kept, middle, compaction, after, _, _, hsplit, -, -, hactive⟩ := hcompacted
      rw [hsplit, List.append_assoc] at hbranch
      rw [hactive]
      exact (List.perm_middle.nodup_iff).mp (List.nodup_append.mp hbranch).2.1

end Projection

namespace Store

open Projection

/-- The messages of a Session show the items of the active entries, one after the other, if
and only if every item has the number of its entry. -/
theorem active_messages_shown (world : World) (ops : List StoreOp) (sessionId : SessionId)
    (hfresh : ∀ row ∈ (run world ops).projection.sessionEntries,
      ∀ draw ≥ (run world ops).drawn, row.entry.id.uuid ≠ world.uuid draw) :
    let store := run world ops
    let entries := store.projection.activeEntries sessionId
    ∃ messages, (activeMessages world sessionId store).1 = .ok messages ∧
      (List.Forall₂ Message.Shows messages (itemSources entries) ↔ ItemPerEntry entries) := by
  intro store entries
  have hbranching : store.projection.Branching := run_branching world ops
  refine ⟨_, rfl, ?_⟩
  rw [forall₂_shows_iff, prefix_itemSources_iff (hbranching.nodup_activeEntries sessionId)]
  · intro left hleft right hright hid
    obtain ⟨leftRow, hleftRow, rfl⟩ := hbranching.activeEntries_subset hleft
    obtain ⟨rightRow, hrightRow, rfl⟩ := hbranching.activeEntries_subset hright
    exact congrArg EntryRow.entry (hbranching.keyed.entries.eq_of_mem hleftRow hrightRow hid)
  · intro entry hentry
    obtain ⟨row, hrow, rfl⟩ := hbranching.activeEntries_subset hentry
    exact hfresh row hrow

/-! ## A call that is answered -/

theorem numbered_uuid_injective : Function.Injective World.numbered.uuid := by
  intro left right hsame
  have hrepr : left.repr = right.repr := hsame
  have hdigits := congrArg String.toList hrepr
  rw [Nat.toList_repr, Nat.toList_repr] at hdigits
  have hvalues := congrArg (fun digits => Nat.ofDigitChars 10 digits 0) hdigits
  simpa using hvalues

namespace AnsweredCall

/-- A Turn that is accepted. -/
def accepted : List StoreOp :=
  let context : CommandContext := { commandId := "1", actor := .system, correlationId := none }
  let source : MessageSource := { kind := .client, id := "cli", channelOrigin := none }
  [.initializeHub context "hub" "a" "b" "c", .createAgent context "mews" "soul" "native" ⟨"1"⟩,
    .createSession ⟨"7"⟩ ⟨"1"⟩ "/",
    .acceptTurnIdempotent ⟨"10"⟩ "key" (.text "hi") (.text "hi") .null source]

def response : AssistantResponse where
  provider := "openai"
  model := "gpt"
  api := "responses"
  responseId := none
  blocks := [.text "reading", .toolCall "call" "read" .null none]
  usage := none
  stopReason := none

/-- Its Harness answers with a text and a call, and the call is answered. -/
def answered : List StoreOp :=
  accepted ++
    [.appendAssistantResponseWithToolCalls ⟨"10"⟩ ⟨"14"⟩ response
      [{ callId := "call", tool := "read", arguments := .null, thoughtSignature := none }],
    .appendToolResult ⟨"10"⟩ ⟨"14"⟩
      { callId := "call", tool := "read", result := .null, isError := false, uncertain := false }]

/-- Identifiers that were drawn are not drawn again. -/
theorem fresh_of_drawn (ops : List StoreOp)
    (hdrawn : ∀ row ∈ (run World.numbered ops).projection.sessionEntries,
      ∃ draw < (run World.numbered ops).drawn, row.entry.id.uuid = World.numbered.uuid draw) :
    ∀ row ∈ (run World.numbered ops).projection.sessionEntries,
      ∀ draw ≥ (run World.numbered ops).drawn, row.entry.id.uuid ≠ World.numbered.uuid draw := by
  intro row hrow draw hdraw hsame
  obtain ⟨earlier, hearlier, hid⟩ := hdrawn row hrow
  have hequal := numbered_uuid_injective (hid.symm.trans hsame)
  omega

theorem accepted_shown :
    let store := run World.numbered accepted
    (∀ row ∈ store.projection.sessionEntries,
      ∀ draw ≥ store.drawn, row.entry.id.uuid ≠ World.numbered.uuid draw) ∧
    ∃ messages, (activeMessages World.numbered ⟨"10"⟩ store).1 = .ok messages ∧
      (List.Forall₂ Message.Shows messages
        (itemSources (store.projection.activeEntries ⟨"10"⟩)) ↔
      ItemPerEntry (store.projection.activeEntries ⟨"10"⟩)) := by
  have hfresh := fresh_of_drawn accepted (by decide +kernel)
  exact ⟨hfresh, active_messages_shown World.numbered accepted ⟨"10"⟩ hfresh⟩

/-- The call is shown under the identifier of its result. -/
theorem not_shown : ¬∀ (world : World) (ops : List StoreOp) (sessionId : SessionId),
    (∀ row ∈ (run world ops).projection.sessionEntries,
      ∀ draw ≥ (run world ops).drawn, row.entry.id.uuid ≠ world.uuid draw) →
    ∀ messages, (activeMessages world sessionId (run world ops)).1 = .ok messages →
      List.Forall₂ Message.Shows messages
        (itemSources ((run world ops).projection.activeEntries sessionId)) := by
  intro hshown
  have hfresh := fresh_of_drawn answered (by decide +kernel)
  have hanswered := hshown World.numbered answered ⟨"10"⟩ hfresh _ rfl
  have hids : (entriesToMessages World.numbered (run World.numbered answered).drawn
        ((run World.numbered answered).projection.activeEntries ⟨"10"⟩)).map (·.id) =
      (itemSources ((run World.numbered answered).projection.activeEntries ⟨"10"⟩)).map
        (·.1.id) := by
    rw [← List.forall₂_eq_eq_eq, List.forall₂_map_left_iff, List.forall₂_map_right_iff]
    exact hanswered.imp fun _ _ hshows => hshows.id
  revert hids
  decide +kernel

end AnsweredCall

end Store

end Mews
