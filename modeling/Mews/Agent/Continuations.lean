import Mews.Agent.Provenance

/-!
# Where the provider continues

A cursor names the last response at which the provider can continue.  The search for it goes
back to the first compaction that it meets, but the entries that the latest compaction keeps
stand behind that compaction and not before it.
-/

namespace Mews

open Protocol HostProtocol Store

/-- The response at which the provider of the model can continue. -/
def resumesAt (model : String) (entry : SessionEntry) : Option String :=
  match splitModel model, entry.payload with
  | some ("openai", providerModel), .assistantResponse _ response =>
      if response.provider = "openai" ∧ response.model = providerModel ∧
          response.api = "responses" then response.responseId
      else none
  | _, _ => none

def resumes (model : String) (entry : SessionEntry) : Bool := (resumesAt model entry).isSome

def continuation (entries : List SessionEntry) (model : String) : Option ResponseContinuation :=
  match splitModel model with
  | none => none
  | some (provider, providerModel) =>
      if provider ≠ "openai" then none
      else
        (entries.reverse.takeWhile fun entry => !entry.payload.isCompaction).findSome?
          fun entry =>
            match entry.payload with
            | .assistantResponse _ response =>
                if response.provider = provider ∧ response.model = providerModel ∧
                    response.api = "responses" then
                  response.responseId.map fun responseId =>
                    { responseId, provider, model := providerModel, api := "responses"
                      fallbackMessages := nativeReplay entries model }
                else none
            | _ => none

/-- The entry was recorded after every compaction of the branch. -/
def RecordedAfter (branch : List SessionEntry) (entry : SessionEntry) : Prop :=
  ∀ compaction ∈ branch, compaction.payload.isCompaction = true →
    compaction.sequence < entry.sequence

instance (branch : List SessionEntry) (entry : SessionEntry) :
    Decidable (RecordedAfter branch entry) :=
  inferInstanceAs (Decidable (∀ compaction ∈ branch, compaction.payload.isCompaction = true →
    compaction.sequence < entry.sequence))

/-- The entries that the search goes through. -/
def searched (entries : List SessionEntry) : List SessionEntry :=
  entries.reverse.takeWhile fun entry => !entry.payload.isCompaction

section Search

variable {entries : List SessionEntry} {model : String}

def anchor (entries : List SessionEntry) (model : String) : Option (SessionEntry × Nat) :=
  (entries.zipIdx.reverse.takeWhile fun (entry, _) => !entry.payload.isCompaction).find?
    fun (entry, _) => resumes model entry

theorem findSome?_eq_map_find? {A B : Type} (test : A → Bool) (value : A → B) (items : List A) :
    (items.findSome? fun item => if test item then some (value item) else none) =
      (items.find? test).map value := by
  induction items with
  | nil => rfl
  | cons item items ih =>
      rw [List.findSome?_cons, List.find?_cons]
      cases test item with
      | true => rfl
      | false => exact ih

/-- Only OpenAI continues. -/
theorem resumesAt_eq_none
    (hmodel : ∀ providerModel, splitModel model ≠ some ("openai", providerModel))
    (entry : SessionEntry) : resumesAt model entry = none := by
  rw [resumesAt]
  split
  · rename_i providerModel _ _ _ hsplit _
    exact absurd hsplit (hmodel _)
  · rfl

theorem anchor_eq_none
    (hmodel : ∀ providerModel, splitModel model ≠ some ("openai", providerModel)) :
    anchor entries model = none := by
  rw [anchor, List.find?_eq_none]
  intro item _
  simp only [resumes, resumesAt_eq_none hmodel, Option.isSome_none]
  exact Bool.false_ne_true

theorem continuationAnchor_eq (entries : List SessionEntry) (model : String) :
    continuationAnchor entries model = (anchor entries model).map Prod.snd := by
  rw [continuationAnchor]
  cases hmodel : splitModel model with
  | none =>
      rw [anchor_eq_none]
      · rfl
      · rw [hmodel]
        exact fun _ => (Option.some_ne_none _).symm
  | some parts =>
      obtain ⟨provider, providerModel⟩ := parts
      simp only
      split_ifs with hprovider
      · rw [anchor_eq_none, Option.map_none]
        intro other hsame
        rw [hmodel] at hsame
        cases hsame
        exact hprovider rfl
      · obtain rfl := not_not.mp hprovider
        rw [anchor, ← findSome?_eq_map_find?]
        congr 1
        funext item
        obtain ⟨entry, index⟩ := item
        simp only [resumes, resumesAt, hmodel]
        cases entry.payload with
        | assistantResponse turnId response =>
            simp only
            split_ifs <;> simp_all
        | _ => rfl

theorem findSome?_eq_bind_find? {A B : Type} (select : A → Option B) (items : List A) :
    items.findSome? select = (items.find? fun item => (select item).isSome).bind select := by
  induction items with
  | nil => rfl
  | cons item items ih =>
      rw [List.findSome?_cons, List.find?_cons]
      cases hselect : select item with
      | none => exact ih
      | some value => exact hselect.symm

theorem map_fst_anchor (entries : List SessionEntry) (model : String) :
    (anchor entries model).map Prod.fst =
      (searched entries).find? (resumes model) := by
  rw [searched, ← List.zipIdx_map_fst 0 entries, ← List.map_reverse, List.takeWhile_map,
    List.find?_map, List.zipIdx_map_fst]
  rfl

/-- The cursor is that of the anchor. -/
theorem continuation_eq (entries : List SessionEntry) (model : String) :
    (continuation entries model).map (·.responseId) =
      (anchor entries model).bind fun found => resumesAt model found.1 := by
  have hanchor : ((anchor entries model).bind fun found => resumesAt model found.1) =
      (searched entries).findSome? (resumesAt model) := by
    rw [findSome?_eq_bind_find?]
    change _ = ((searched entries).find? (resumes model)).bind _
    rw [← map_fst_anchor, Option.bind_map]
    rfl
  rw [hanchor, continuation]
  cases hmodel : splitModel model with
  | none =>
      rw [Option.map_none, eq_comm, List.findSome?_eq_none_iff]
      intro entry _
      exact resumesAt_eq_none (by rw [hmodel]; exact fun _ => (Option.some_ne_none _).symm) entry
  | some parts =>
      obtain ⟨provider, providerModel⟩ := parts
      simp only
      split_ifs with hprovider
      · rw [Option.map_none, eq_comm, List.findSome?_eq_none_iff]
        intro entry _
        apply resumesAt_eq_none
        intro other hsame
        rw [hmodel] at hsame
        cases hsame
        exact hprovider rfl
      · obtain rfl := not_not.mp hprovider
        rw [searched, List.map_findSome?]
        congr 1
        funext entry
        simp only [Function.comp_apply, resumesAt, hmodel]
        cases entry.payload with
        | assistantResponse turnId response =>
            simp only
            split_ifs
            · rw [Option.map_map]
              exact Option.map_id_apply
            · rfl
        | _ => rfl

/-! ## Anchors behind a compaction -/

theorem searched_append {kept after : List SessionEntry}
    (hafter : ∀ entry ∈ after, entry.payload.isCompaction = false) :
    searched (kept ++ after) = after.reverse ++ searched kept := by
  rw [searched, List.reverse_append, List.takeWhile_append_of_pos]
  · rfl
  · intro entry hentry
    rw [hafter entry (List.mem_reverse.mp hentry)]
    rfl

theorem searched_subset (entries : List SessionEntry) : searched entries ⊆ entries := by
  intro entry hentry
  exact List.mem_reverse.mp (List.takeWhile_sublist _ |>.subset hentry)

/-- What is found was recorded after the compactions unless only a kept entry is found. -/
theorem recorded_iff_of_split {branch : List SessionEntry} (kept : List SessionEntry)
    {after : List SessionEntry}
    (hafter : ∀ entry ∈ after, entry.payload.isCompaction = false ∧ RecordedAfter branch entry)
    (hkept : ∀ entry ∈ kept, ¬RecordedAfter branch entry) :
    (∀ entry, (searched (kept ++ after)).find? (resumes model) =
        some entry → RecordedAfter branch entry) ↔
      ∀ entry ∈ searched (kept ++ after), resumes model entry = true →
        RecordedAfter branch entry ∨
          ∃ other ∈ kept ++ after, resumes model other = true ∧
            RecordedAfter branch other := by
  constructor
  · intro hrecorded entry hentry hresumes
    right
    obtain ⟨found, hfound⟩ := Option.isSome_iff_exists.mp
      (List.find?_isSome.mpr ⟨entry, hentry, hresumes⟩)
    have hmem := searched_subset _ (List.mem_of_find?_eq_some hfound)
    exact ⟨found, hmem, List.find?_some hfound, hrecorded found hfound⟩
  · intro hkeeps found hfound
    rw [searched_append fun entry hentry => (hafter entry hentry).1, List.find?_append] at hfound
    have hlater : ∀ other ∈ after, resumes model other = true →
        RecordedAfter branch found := by
      intro other hother hresumes
      obtain ⟨last, hlast⟩ := Option.isSome_iff_exists.mp
        (List.find?_isSome.mpr ⟨other, List.mem_reverse.mpr hother, hresumes⟩)
      rw [hlast, Option.some_or, Option.some_inj] at hfound
      subst hfound
      exact (hafter last (List.mem_reverse.mp (List.mem_of_find?_eq_some hlast))).2
    cases hnew : after.reverse.find? (resumes model) with
    | some last =>
        exact hlater last (List.mem_reverse.mp (List.mem_of_find?_eq_some hnew))
          (List.find?_some hnew)
    | none =>
        rw [hnew, Option.none_or] at hfound
        have hsearched : found ∈ searched (kept ++ after) := by
          rw [searched_append fun entry hentry => (hafter entry hentry).1]
          exact List.mem_append_right _ (List.mem_of_find?_eq_some hfound)
        rcases hkeeps found hsearched (List.find?_some hfound) with
          hold | ⟨other, hmem, hresumes, hother⟩
        · exact hold
        · cases List.mem_append.mp hmem with
          | inl hold => exact absurd hother (hkept other hold)
          | inr hnewer => exact hlater other hnewer hresumes

end Search

/-- A cursor continues after the latest compaction, and the suffix is sent with its cursor. -/
structure ChainCut (world : World) (json : Value → String) (store : Store) (sessionId : SessionId)
    (model : String) : Prop where
  recorded : ∀ index entry,
    continuationAnchor (store.projection.activeEntries sessionId) model = some index →
    (store.projection.activeEntries sessionId)[index]? = some entry →
      RecordedAfter (store.projection.activeBranch sessionId) entry
  whole : continuationAnchor (store.projection.activeEntries sessionId) model = none →
    continuation (store.projection.activeEntries sessionId) model = none ∧
      sessionHistory world json store sessionId model =
        nativeReplay (store.projection.activeEntries sessionId) model
  suffix : ∀ index,
    continuationAnchor (store.projection.activeEntries sessionId) model = some index →
      ∃ entry responseId, (store.projection.activeEntries sessionId)[index]? = some entry ∧
        resumesAt model entry = some responseId ∧
        (continuation (store.projection.activeEntries sessionId) model).map (·.responseId) =
          some responseId ∧
        sessionHistory world json store sessionId model =
          suffixMessages world json store.drawn (store.projection.activeEntries sessionId) index

/-- Where the provider can continue, the response was recorded after the latest compaction, or
another one was. -/
def Resumable (branch entries : List SessionEntry) (model : String) : Prop :=
  ∀ entry ∈ searched entries, resumes model entry = true →
    RecordedAfter branch entry ∨
      ∃ other ∈ entries, resumes model other = true ∧ RecordedAfter branch other

section Sessions

variable {store : Store} {sessionId : SessionId}

theorem anchor_spec {entries : List SessionEntry} {model : String} {entry : SessionEntry}
    {index : Nat} (hanchor : anchor entries model = some (entry, index)) :
    entries[index]? = some entry ∧ resumes model entry = true := by
  have hmem := List.mem_reverse.mp
    ((List.takeWhile_sublist _).subset (List.mem_of_find?_eq_some hanchor))
  rw [anchor] at hanchor
  have hresumes := List.find?_some hanchor
  exact ⟨List.mk_mem_zipIdx_iff_getElem?.mp hmem, hresumes⟩

theorem recorded_iff (hbranching : store.projection.Branching) (model : String) :
    (∀ entry, (searched (store.projection.activeEntries sessionId)).find?
        (resumes model) = some entry →
        RecordedAfter (store.projection.activeBranch sessionId) entry) ↔
      Resumable (store.projection.activeBranch sessionId)
        (store.projection.activeEntries sessionId) model := by
  have hordered := (hbranching.branch sessionId).1
  cases hbranching.activeEntries sessionId with
  | inl hnone =>
      obtain ⟨hplain, hactive⟩ := hnone
      rw [hactive]
      apply recorded_iff_of_split []
      · intro entry hentry
        refine ⟨hplain entry hentry, fun compaction hcompaction hpayload => ?_⟩
        rw [hplain compaction hcompaction] at hpayload
        exact absurd hpayload Bool.false_ne_true
      · exact fun entry hentry => absurd hentry List.not_mem_nil
  | inr hsome =>
      obtain ⟨dropped, kept, middle, compaction, after, summary, tokensBefore, hbranch, hpayload,
        hplain, hactive⟩ := hsome
      rw [hactive, hbranch]
      rw [hbranch, List.pairwise_append] at hordered
      obtain ⟨-, hlast, hacross⟩ := hordered
      rw [List.pairwise_cons] at hlast
      have hcompaction : compaction.payload.isCompaction = true := by
        rw [hpayload]
        rfl
      apply recorded_iff_of_split (compaction :: kept :: middle)
      · intro entry hentry
        refine ⟨hplain entry hentry, fun earlier hearlier hearlierPayload => ?_⟩
        rcases List.mem_append.mp hearlier with hbefore | hrest
        · exact hacross earlier hbefore entry (List.mem_cons_of_mem _ hentry)
        · rcases List.mem_cons.mp hrest with rfl | hlater
          · exact hlast.1 entry hentry
          · rw [hplain earlier hlater] at hearlierPayload
            exact absurd hearlierPayload Bool.false_ne_true
      · intro entry hentry hrecorded
        have hless := hrecorded compaction
          (List.mem_append_right _ List.mem_cons_self) hcompaction
        rcases List.mem_cons.mp hentry with rfl | hkept
        · exact Nat.lt_irrefl _ hless
        · have hearlier := hacross entry (List.mem_append_right _ hkept) compaction
            List.mem_cons_self
          exact Nat.lt_asymm hless hearlier

/-- In every reachable state the chain of a cursor is cut by compaction, and history and cursor
agree, if and only if the provider can continue after the latest compaction or at nothing that
the compaction keeps. -/
theorem compaction_cuts_chain (world : World) (json : Value → String) (ops : List StoreOp)
    (sessionId : SessionId) (model : String) :
    let store := run world ops
    ChainCut world json store sessionId model ↔
      Resumable (store.projection.activeBranch sessionId)
        (store.projection.activeEntries sessionId) model := by
  intro store
  rw [← recorded_iff (run_branching world ops), ← map_fst_anchor]
  constructor
  · intro hcut entry hentry
    obtain ⟨⟨_, index⟩, hanchor, rfl⟩ := Option.map_eq_some_iff.mp hentry
    apply hcut.recorded index _ _ (anchor_spec hanchor).1
    rw [continuationAnchor_eq, hanchor, Option.map_some]
  · intro hrecorded
    constructor
    · intro index entry hindex hentry
      rw [continuationAnchor_eq] at hindex
      obtain ⟨⟨found, _⟩, hanchor, rfl⟩ := Option.map_eq_some_iff.mp hindex
      rw [(anchor_spec hanchor).1, Option.some_inj] at hentry
      apply hrecorded
      rw [hanchor, Option.map_some, hentry]
    · intro hnone
      constructor
      · rw [continuationAnchor_eq, Option.map_eq_none_iff] at hnone
        have hcursor := continuation_eq (store.projection.activeEntries sessionId) model
        rw [hnone, Option.bind_none, Option.map_eq_none_iff] at hcursor
        exact hcursor
      · rw [sessionHistory]
        simp only [hnone]
    · intro index hindex
      have hsame := hindex
      rw [continuationAnchor_eq] at hsame
      obtain ⟨⟨found, _⟩, hanchor, rfl⟩ := Option.map_eq_some_iff.mp hsame
      obtain ⟨hentry, hresumes⟩ := anchor_spec hanchor
      obtain ⟨responseId, hresponse⟩ := Option.isSome_iff_exists.mp hresumes
      refine ⟨found, responseId, hentry, hresponse, ?_, ?_⟩
      · rw [continuation_eq, hanchor, Option.bind_some, hresponse]
      · rw [sessionHistory]
        simp only [hindex]

end Sessions

/-! ## A response that a compaction keeps -/

namespace KeptResponse

def response : AssistantResponse where
  provider := "openai"
  model := "gpt"
  api := "responses"
  responseId := some "resp_1"
  blocks := [.text "hello"]
  usage := none
  stopReason := none

/-- A Turn is answered, and the compaction after it keeps the answer. -/
def compacted : List StoreOp :=
  AnsweredCall.accepted ++
    [.appendAssistantResponseWithToolCalls ⟨"10"⟩ ⟨"14"⟩ response [],
    .finishTurnWithStopReason ⟨"14"⟩ .completed none none,
    .appendContextCompaction ⟨"10"⟩ "They said hi." ⟨"18"⟩ 100]

/-- The cursor is that of the answer, whose chain has what the compaction removed. -/
theorem chain_uncut : ¬∀ (world : World) (json : Value → String) (ops : List StoreOp)
    (sessionId : SessionId) (model : String),
    ChainCut world json (run world ops) sessionId model := by
  intro hcut
  have hrecorded := (hcut World.numbered (fun _ => "") compacted ⟨"10"⟩ "openai/gpt").recorded
  have hanswer : ∀ entry ∈
      ((run World.numbered compacted).projection.activeEntries ⟨"10"⟩)[1]?.toList,
      RecordedAfter ((run World.numbered compacted).projection.activeBranch ⟨"10"⟩) entry := by
    intro entry hentry
    exact hrecorded 1 entry (by decide +kernel) (Option.mem_toList.mp hentry)
  revert hanswer
  decide +kernel

end KeptResponse

end Mews
