import Mews.Agent.NativeReplay
import Mews.Host.TurnMessages
import Mews.Store.ActiveMessages

/-!
# The provenance of messages

A model is told which messages were not typed at the command line: they stand under a label
with their source and metadata.  The label is made from a `Message`, and on the way from the
timeline to a `Message` source and metadata are replaced.
-/

namespace Mews

open Protocol HostProtocol Store

/-! ## Labels -/

/-- `{:?}` of a kind. -/
def Protocol.SourceKind.debug : SourceKind → String
  | .client => "Client"
  | .channel => "Channel"
  | .harness => "Harness"
  | .host => "Host"

def typedLocally (metadata : Value) (source : MessageSource) : Bool :=
  metadata.isNull && source.kind = .client && source.id = "cli"

section Projections

-- `json` is `serde_json::to_string`.
variable (library : Libraries) (world : World) (json : Value → String)

def untrustedContext (metadata : Value) (source : MessageSource) : String :=
  "[Untrusted message context: source=" ++ source.kind.debug ++ "/" ++ source.id ++
    ", metadata=" ++ json metadata ++ "]\n"

def modelMessage (message : Message) : Message :=
  match message.role, message.content with
  | .user, .text text =>
      if typedLocally message.metadata message.source then message
      else
        { message with
          content := .text (untrustedContext json message.metadata message.source ++ text) }
  | _, _ => message

def modelMessages (messages : List Message) : List Message := messages.map (modelMessage json)

def providerMessages (messages : List Message) : List ModelMessage :=
  messages.map fun message => { role := message.role, content := message.content }

/-! ## Projections of a history -/

/-- Each message gets a new identifier and the time of the reading. -/
def projectedMessages (drawn : Nat) (entries : List SessionEntry) : List Message :=
  match entries.head? with
  | none => []
  | some first => (portableHistory entries).zipIdx.map fun (item, index) =>
      { id := ⟨world.uuid (drawn + 2 * index)⟩
        sessionId := first.sessionId
        sequence := index + 1
        role := item.role
        content := item.content
        metadata := .null
        source := { kind := .client, id := "cli", channelOrigin := none }
        createdAt := world.now (drawn + 2 * index + 1) }

/-- The last response at which the provider can continue, if no compaction came after. -/
def continuationAnchor (entries : List SessionEntry) (model : String) : Option Nat :=
  match splitModel model with
  | none => none
  | some (provider, providerModel) =>
      if provider ≠ "openai" then none
      else
        (entries.zipIdx.reverse.takeWhile fun (entry, _) => !entry.payload.isCompaction).findSome?
          fun (entry, index) =>
            match entry.payload with
            | .assistantResponse _ response =>
                if response.provider = provider ∧ response.model = providerModel ∧
                    response.api = "responses" ∧ response.responseId.isSome then some index
                else none
            | _ => none

def suffixMessages (drawn : Nat) (entries : List SessionEntry) (index : Nat) :
    List ModelMessage :=
  providerMessages (modelMessages json (projectedMessages world drawn (entries.drop (index + 1))))

/-- `SessionStore::history`. -/
def sessionHistory (store : Store) (sessionId : SessionId) (model : String) :
    List ModelMessage :=
  let entries := store.projection.activeEntries sessionId
  match continuationAnchor entries model with
  | some index => suffixMessages world json store.drawn entries index
  | none => nativeReplay entries model

inductive PromptError where
  | store (error : StoreError)
  | budget (error : String)

def acpRequest (messages : List Message) (soul : String) : ModelRequest where
  model := "acp/default"
  reasoning := none
  system := soul
  messages := providerMessages (modelMessages json messages)
  tools := []
  continuation := none

def canonicalAcpPrompt (store : Store) (sessionId : SessionId) (soul : String) :
    Except PromptError String := do
  let messages ← (activeMessages world sessionId store).1.mapError .store
  let request ← (acpRequest json messages soul).applyContextBudget.mapError .budget
  return canonicalPrompt library request.messages soul

/-! ## What is presented -/

def portableMessages (entry : SessionEntry) : List ModelMessage :=
  (portableItems entry).map fun item => { role := item.role, content := item.content }

/-- What a projection makes of each entry. -/
def projected (project : SessionEntry → List ModelMessage) (entries : List SessionEntry) :
    List (SessionEntry × ModelMessage) :=
  entries.flatMap fun entry => (project entry).map fun message => (entry, message)

/-- A message that was not typed locally stands under its label, and nothing else does. -/
def Presented (source : SessionEntry × ModelMessage) (shown : ModelMessage) : Prop :=
  match source.1.payload with
  | .userMessage _ metadata messageSource =>
      if typedLocally metadata messageSource then shown = source.2
      else ∃ text, source.2.content = .text text ∧
        shown = { source.2 with
          content := .text (untrustedContext json metadata messageSource ++ text) }
  | _ => shown = source.2

/-- Whatever a model is shown of the Session is presented so. -/
structure ProvenanceShown (store : Store) (sessionId : SessionId) (model soul : String) :
    Prop where
  suffix : ∀ index,
    continuationAnchor (store.projection.activeEntries sessionId) model = some index →
      List.Forall₂ (Presented json)
        (projected portableMessages
          ((store.projection.activeEntries sessionId).drop (index + 1)))
        (suffixMessages world json store.drawn (store.projection.activeEntries sessionId) index)
  replay : List.Forall₂ (Presented json)
    (projected (replayedMessages (replayTarget model).1 (replayTarget model).2)
      (store.projection.activeEntries sessionId))
    (nativeReplay (store.projection.activeEntries sessionId) model)
  portable : ∀ messages, (activeMessages world sessionId store).1 = .ok messages →
    List.Forall₂ (Presented json)
      (projected portableMessages (store.projection.activeEntries sessionId))
      (providerMessages (modelMessages json messages))
  /-- The prompt shows the end of the portable projection. -/
  acp : ∀ prompt, canonicalAcpPrompt library world json store sessionId soul = .ok prompt →
    ∃ start kept, prompt = canonicalPrompt library kept soul ∧
      List.Forall₂ (Presented json)
        ((projected portableMessages (store.projection.activeEntries sessionId)).drop start) kept

def Protocol.SessionEntry.typedLocally (entry : SessionEntry) : Bool :=
  match entry.payload with
  | .userMessage _ metadata source => Mews.typedLocally metadata source
  | _ => true

/-! ## Every projection shows an entry as it is -/

theorem untrustedContext_ne (metadata : Value) (source : MessageSource) :
    untrustedContext json metadata source ≠ "" := by
  unfold untrustedContext
  simp

theorem append_ne_of_ne {label : String} (hlabel : label ≠ "") (text : String) :
    label ++ text ≠ text := by
  intro hsame
  have hchars := congrArg String.toList hsame
  rw [String.toList_append, List.append_left_eq_self] at hchars
  exact hlabel (String.toList_inj.mp hchars)

theorem presented_self_iff (source : SessionEntry × ModelMessage) :
    Presented json source source.2 ↔ source.1.typedLocally = true := by
  rw [Presented, SessionEntry.typedLocally]
  cases source.1.payload with
  | userMessage content metadata messageSource =>
      simp only
      by_cases hlocal : typedLocally metadata messageSource = true
      · rw [if_pos hlocal]
        exact iff_of_true trivial hlocal
      · rw [if_neg hlocal]
        apply iff_of_false _ hlocal
        rintro ⟨text, htext, hshown⟩
        have hcontent := congrArg ModelMessage.content hshown
        rw [htext] at hcontent
        exact append_ne_of_ne (untrustedContext_ne json metadata messageSource) text
          (MessageContent.text.inj hcontent).symm
  | _ => simp

theorem forall₂_presented_iff (sources : List (SessionEntry × ModelMessage)) :
    List.Forall₂ (Presented json) sources (sources.map Prod.snd) ↔
      ∀ source ∈ sources, source.1.typedLocally = true := by
  rw [List.forall₂_map_right_iff, List.forall₂_same]
  exact forall₂_congr fun source _ => presented_self_iff json source

theorem map_snd_projected (project : SessionEntry → List ModelMessage)
    (entries : List SessionEntry) :
    (projected project entries).map Prod.snd = entries.flatMap project := by
  rw [projected, List.map_flatMap]
  congr 1
  funext entry
  rw [List.map_map]
  exact List.map_id _

theorem mem_of_mem_projected {project : SessionEntry → List ModelMessage}
    {entries : List SessionEntry} {source : SessionEntry × ModelMessage}
    (hsource : source ∈ projected project entries) : source.1 ∈ entries := by
  obtain ⟨entry, hentry, hmapped⟩ := List.mem_flatMap.mp hsource
  obtain ⟨message, hmessage, rfl⟩ := List.mem_map.mp hmapped
  exact hentry

/-- Source and metadata are gone before a label could be made from them. -/
theorem providerMessages_modelMessages {messages : List Message}
    (hlocal : ∀ message ∈ messages, typedLocally message.metadata message.source = true) :
    providerMessages (modelMessages json messages) = providerMessages messages := by
  rw [modelMessages, List.map_congr_left, List.map_id]
  intro message hmessage
  rw [modelMessage]
  split
  · rw [if_pos (hlocal message hmessage), id]
  · rfl

theorem map_portableHistory (entries : List SessionEntry) :
    (portableHistory entries).map
        (fun item => ({ role := item.role, content := item.content } : ModelMessage)) =
      (projected portableMessages entries).map Prod.snd := by
  rw [map_snd_projected, portableHistory, List.map_flatMap]
  rfl

theorem suffixMessages_eq (drawn : Nat) (entries : List SessionEntry) (index : Nat) :
    suffixMessages world json drawn entries index =
      (projected portableMessages (entries.drop (index + 1))).map Prod.snd := by
  rw [suffixMessages, ← map_portableHistory]
  generalize entries.drop (index + 1) = kept
  cases kept with
  | nil => rfl
  | cons first kept =>
      rw [providerMessages_modelMessages]
      · simp only [projectedMessages, List.head?_cons, providerMessages, List.map_map]
        conv_rhs => rw [← List.zipIdx_map_fst 0 (portableHistory (first :: kept)), List.map_map]
        rfl
      · intro message hmessage
        obtain ⟨item, _, rfl⟩ := List.mem_map.mp hmessage
        rfl

theorem portable_eq (drawn : Nat) (entries : List SessionEntry) :
    providerMessages (modelMessages json (entriesToMessages world drawn entries)) =
      (projected portableMessages entries).map Prod.snd := by
  rw [← map_portableHistory]
  cases entries with
  | nil => rfl
  | cons first kept =>
      rw [providerMessages_modelMessages]
      · simp only [entriesToMessages, List.head?_cons, providerMessages, List.map_map]
        conv_rhs => rw [← List.zipIdx_map_fst 0 (portableHistory (first :: kept)), List.map_map]
        rfl
      · intro message hmessage
        obtain ⟨item, _, rfl⟩ := List.mem_map.mp hmessage
        rfl

theorem nativeReplay_eq (entries : List SessionEntry) (model : String) :
    nativeReplay entries model =
      (projected (replayedMessages (replayTarget model).1 (replayTarget model).2) entries).map
        Prod.snd :=
  (map_snd_projected _ entries).symm

/-- A user message is replayed whatever it is. -/
theorem typedLocally_of_replay {targetProvider targetModel : String}
    {entries : List SessionEntry}
    (hreplay : ∀ source ∈ projected (replayedMessages targetProvider targetModel) entries,
      source.1.typedLocally = true) :
    ∀ entry ∈ entries, entry.typedLocally = true := by
  intro entry hentry
  cases hpayload : entry.payload with
  | userMessage content metadata messageSource =>
      apply hreplay (entry, { role := .user, content })
      apply List.mem_flatMap.mpr
      refine ⟨entry, hentry, ?_⟩
      rw [replayedMessages, hpayload]
      exact List.mem_singleton_self _
  | _ => rw [SessionEntry.typedLocally, hpayload]

/-- Every projection presents the messages with their provenance if and only if all messages
of the active branch were typed locally. -/
theorem provenance_shown (store : Store) (sessionId : SessionId) (model soul : String) :
    ProvenanceShown library world json store sessionId model soul ↔
      ∀ entry ∈ store.projection.activeEntries sessionId, entry.typedLocally = true := by
  constructor
  · intro hshown
    have hreplay := hshown.replay
    rw [nativeReplay_eq, forall₂_presented_iff] at hreplay
    exact typedLocally_of_replay hreplay
  · intro hlocal
    have hsources : ∀ (project : SessionEntry → List ModelMessage) (entries : List SessionEntry),
        entries ⊆ store.projection.activeEntries sessionId →
        List.Forall₂ (Presented json) (projected project entries)
          ((projected project entries).map Prod.snd) := by
      intro project entries hsubset
      rw [forall₂_presented_iff]
      intro source hsource
      exact hlocal _ (hsubset (mem_of_mem_projected hsource))
    have hwhole := hsources portableMessages _ (List.Subset.refl _)
    constructor
    · intro index _
      rw [suffixMessages_eq]
      exact hsources portableMessages _ (List.drop_subset _ _)
    · rw [nativeReplay_eq]
      exact hsources _ _ (List.Subset.refl _)
    · intro messages hmessages
      obtain rfl := Except.ok.inj hmessages
      rw [portable_eq]
      exact hwhole
    · intro prompt hprompt
      rw [canonicalAcpPrompt] at hprompt
      cases hrequest : (acpRequest json (entriesToMessages world store.drawn
          (store.projection.activeEntries sessionId)) soul).applyContextBudget with
      | error error =>
          rw [activeMessages] at hprompt
          simp only [Except.mapError, bind, Except.bind, hrequest] at hprompt
          exact absurd hprompt (by simp)
      | ok request =>
          rw [activeMessages] at hprompt
          simp only [Except.mapError, bind, Except.bind, hrequest] at hprompt
          obtain rfl := Except.ok.inj hprompt
          have hsuffix := (ModelRequest.applyContextBudget_ok hrequest).2.1
          rw [acpRequest, portable_eq] at hsuffix
          have hkept := List.suffix_iff_eq_drop.mp hsuffix
          rw [← List.map_drop] at hkept
          refine ⟨_, _, rfl, hkept ▸ (forall₂_presented_iff json _).mpr ?_⟩
          intro source hsource
          exact hlocal _ (mem_of_mem_projected (List.mem_of_mem_drop hsource))

end Projections

/-! ## A message of a Channel -/

namespace HeardMessage

/-- A Turn that a Channel starts for somebody in one of its rooms. -/
def heard : List StoreOp :=
  let context : CommandContext := { commandId := "1", actor := .system, correlationId := none }
  let source : MessageSource := { kind := .channel, id := "matrix", channelOrigin := none }
  [.initializeHub context "hub" "a" "b" "c", .createAgent context "mews" "soul" "native" ⟨"1"⟩,
    .createSession ⟨"7"⟩ ⟨"1"⟩ "/",
    .acceptTurnIdempotent ⟨"10"⟩ "key" (.text "hi") (.text "hi")
      (.object [("sender", .string "@stranger")]) source]

/-- Its text is replayed without a label. -/
theorem stranger_unlabelled : ¬∀ (library : Libraries) (json : Value → String) (world : World)
    (ops : List StoreOp) (sessionId : SessionId) (model soul : String),
    ProvenanceShown library world json (run world ops) sessionId model soul := by
  intro hshown
  have hreplay := (hshown LongSession.base (fun _ => "") World.numbered heard ⟨"10"⟩
    "anthropic/claude" "").replay
  rw [nativeReplay_eq, forall₂_presented_iff] at hreplay
  revert hreplay
  decide +kernel

end HeardMessage

end Mews
