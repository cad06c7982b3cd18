import Mathlib.Data.String.Basic
import Mews.Agent.RequestValues
import Mews.Core.Chunks
import Mews.Core.StandardBase64
import Mews.Store.Sessions

/-!
# Prepared requests in the timeline

Before a request goes to the provider it is observed: in one observation when that fits
into a Session item, else in a manifest and in chunks of the encoded request.
-/

namespace Mews

open Protocol

def preparedRequestChunkBytes : ℕ := 384 * 1024

/-- What is made of a request outside: `serde_json::to_vec`, and `Sha256::digest` of that in
hexadecimal digits. -/
structure RequestEncoder where
  toVec : ModelRequest → List UInt8
  sha256 : List UInt8 → String

/-- The payload of the observation in the timeline. -/
def HarnessObservationInput.payload (turnId : TurnId) (observation : HarnessObservationInput) :
    SessionEntryPayload :=
  .harnessObservation turnId observation.harnessSessionId observation.kind observation.data

def preparedKey (requestId : OperationId) : String := "model_request_prepared:" ++ requestId.asStr

def preparedChunkKey (requestId : OperationId) (index : ℕ) : String :=
  preparedKey requestId ++ ":" ++ toString index

def directObservation (request : ModelRequest) (requestId : OperationId) :
    HarnessObservationInput :=
  { harnessSessionId := none
    kind := "model_request_prepared"
    data := request.toValue
    idempotencyKey := some (preparedKey requestId) }

def preparedManifest (encoder : RequestEncoder) (request : ModelRequest)
    (requestId : OperationId) : HarnessObservationInput :=
  let encoded := encoder.toVec request
  let chunks := Chunks.divCeil encoded.length preparedRequestChunkBytes
  { harnessSessionId := none
    kind := "model_request_prepared"
    data := .object [("bytes", .number (toString encoded.length)),
      ("chunks", .number (toString chunks)), ("format", .string "chunked_json_v1"),
      ("model", .string request.model), ("request_id", .string requestId.asStr),
      ("sha256", .string (encoder.sha256 encoded))]
    idempotencyKey := some (preparedKey requestId) }

def preparedChunk (requestId : OperationId) (encoded : List UInt8) (index : ℕ) :
    HarnessObservationInput :=
  let chunk := Chunks.chunk preparedRequestChunkBytes index encoded
  { harnessSessionId := none
    kind := "model_request_prepared_chunk"
    data := .object [("data", .string (Base64.encodeStandard chunk)),
      ("index", .number (toString index)), ("request_id", .string requestId.asStr)]
    idempotencyKey := some (preparedChunkKey requestId index) }

def preparedRequestObservations (encoder : RequestEncoder) (request : ModelRequest)
    (turnId : TurnId) (requestId : OperationId) : List HarnessObservationInput :=
  let direct := directObservation request requestId
  if (direct.payload turnId).bytes ≤ maxSessionItemBytes then [direct]
  else
    let encoded := encoder.toVec request
    let chunks := Chunks.divCeil encoded.length preparedRequestChunkBytes
    preparedManifest encoder request requestId ::
      (List.range chunks).map (preparedChunk requestId encoded)

/-! ## What is read back -/

/-- The bytes that a payload has for a chunk of a request. -/
def Protocol.SessionEntryPayload.chunkAt (requestId : String) (index : ℕ) :
    SessionEntryPayload → Option (List UInt8)
  | .harnessObservation _ _ kind data =>
      if kind = "model_request_prepared_chunk" ∧
          data.get "request_id" = some (.string requestId) ∧
          data.get "index" = some (.number (toString index)) then
        data.text "data" >>= Base64.decodeStandard
      else none
  | _ => none

/-- The chunks of a request put together in the order of their indices. -/
def reassembled (requestId : String) (chunks : ℕ) (payloads : List SessionEntryPayload) :
    Option (List UInt8) :=
  ((List.range chunks).mapM fun index => payloads.findSome? (·.chunkAt requestId index)).map
    List.flatten

/-- The manifest says how long the encoded request is, how many chunks it has and what its
checksum is. -/
structure Announces (encoder : RequestEncoder) (encoded : List UInt8) (data : Value)
    (requestId : String) (chunks : ℕ) : Prop where
  bytes : data.get "bytes" = some (.number (toString encoded.length))
  chunks : data.get "chunks" = some (.number (toString chunks))
  requestId : data.get "request_id" = some (.string requestId)
  sha256 : data.get "sha256" = some (.string (encoder.sha256 encoded))

/-- What is recorded of a request holds the request. -/
inductive Holds (encoder : RequestEncoder) (request : ModelRequest) (turnId : TurnId) :
    List SessionEntryPayload → Prop where
  | direct {data : Value} (hread : ModelRequest.ofValue data = some request.serialized) :
      Holds encoder request turnId
        [.harnessObservation turnId none "model_request_prepared" data]
  | chunked {data : Value} {requestId : String} {payloads : List SessionEntryPayload}
      (hannounces : Announces encoder (encoder.toVec request) data requestId payloads.length)
      (hread : reassembled requestId payloads.length payloads = some (encoder.toVec request)) :
      Holds encoder request turnId
        (.harnessObservation turnId none "model_request_prepared" data :: payloads)

section Reading

variable {encoder : RequestEncoder} {request : ModelRequest} {turnId : TurnId}
  {requestId : OperationId} {encoded : List UInt8}

theorem chunkAt_preparedChunk (index other : ℕ) :
    ((preparedChunk requestId encoded other).payload turnId).chunkAt requestId.asStr index =
      if other = index then some (Chunks.chunk preparedRequestChunkBytes index encoded)
      else none := by
  have hindex : (preparedChunk requestId encoded other).data.get "index" =
      some (.number (toString other)) := rfl
  have hdata : (preparedChunk requestId encoded other).data.text "data" = some
      (Base64.encodeStandard (Chunks.chunk preparedRequestChunkBytes other encoded)) := rfl
  rw [HarnessObservationInput.payload, SessionEntryPayload.chunkAt, hindex, hdata]
  by_cases hother : other = index
  · rw [if_pos ⟨rfl, rfl, by rw [hother]⟩, if_pos hother, hother, Option.bind_eq_bind,
      Option.bind_some, Base64.decodeStandard_encodeStandard]
  · rw [if_neg hother, if_neg]
    rintro ⟨-, -, hsame⟩
    exact hother (toString_injective (Value.number.inj (Option.some.inj hsame)))

/-- Every chunk is found under its index, whatever comes before and after it. -/
theorem findSome?_chunkAt {indices : List ℕ} {index : ℕ} (hindex : index ∈ indices) :
    (indices.map fun index => (preparedChunk requestId encoded index).payload turnId).findSome?
        (·.chunkAt requestId.asStr index) =
      some (Chunks.chunk preparedRequestChunkBytes index encoded) := by
  induction indices with
  | nil => exact absurd hindex List.not_mem_nil
  | cons other indices ih =>
      rw [List.map_cons, List.findSome?_cons, chunkAt_preparedChunk]
      by_cases hother : other = index
      · rw [if_pos hother]
      · rw [if_neg hother]
        exact ih ((List.mem_cons.mp hindex).resolve_left fun hsame => hother hsame.symm)

theorem mapM_eq_some {A B : Type} {f : A → Option B} {g : A → B} {items : List A}
    (hsame : ∀ item ∈ items, f item = some (g item)) : items.mapM f = some (items.map g) := by
  induction items with
  | nil => rfl
  | cons item items ih =>
      obtain ⟨hitem, hitems⟩ := List.forall_mem_cons.mp hsame
      rw [List.mapM_cons, hitem, ih hitems]
      rfl

theorem reassembled_chunks :
    reassembled requestId.asStr (Chunks.divCeil encoded.length preparedRequestChunkBytes)
        ((List.range (Chunks.divCeil encoded.length preparedRequestChunkBytes)).map fun index =>
          (preparedChunk requestId encoded index).payload turnId) =
      some encoded := by
  rw [reassembled, mapM_eq_some fun index hindex => findSome?_chunkAt hindex, Option.map_some,
    Chunks.flatten_chunks_divCeil (by decide)]

theorem announces_preparedManifest (encoder : RequestEncoder) (request : ModelRequest)
    (requestId : OperationId) {chunks : ℕ}
    (hchunks : chunks =
      Chunks.divCeil (encoder.toVec request).length preparedRequestChunkBytes) :
    Announces encoder (encoder.toVec request) (preparedManifest encoder request requestId).data
      requestId.asStr chunks :=
  { bytes := rfl
    chunks := by
      rw [hchunks]
      rfl
    requestId := rfl
    sha256 := rfl }

/-- The observations of a request hold the request. -/
theorem holds_preparedRequestObservations (encoder : RequestEncoder) (request : ModelRequest)
    (turnId : TurnId) (requestId : OperationId) :
    Holds encoder request turnId
      ((preparedRequestObservations encoder request turnId requestId).map (·.payload turnId)) := by
  rw [preparedRequestObservations]
  dsimp only
  split_ifs
  · exact .direct (ModelRequest.ofValue_toValue request)
  · rw [List.map_cons, List.map_map]
    apply Holds.chunked (announces_preparedManifest encoder request requestId _)
    · rw [List.length_map, List.length_range]
      exact reassembled_chunks
    · rw [List.length_map, List.length_range]

end Reading

/-! ## What fits into a Session item -/

section Fitting

variable {encoder : RequestEncoder} {request : ModelRequest} {turnId : TurnId}
  {requestId : OperationId} {encoded : List UInt8}

theorem textBytes_asStr (hid : escapedBytes requestId.uuid = 36) :
    textBytes requestId.asStr = 41 := by
  have hmarker : escapedBytes "op_" = 3 := by decide
  rw [textBytes, TaggedId.asStr, escapedBytes_append, hid, hmarker]

/-- The payload of an observation of this Harness, without its data. -/
theorem bytes_payload {observation : HarnessObservationInput}
    (hsession : observation.harnessSessionId = none) :
    (observation.payload turnId).bytes =
      100 + textBytes observation.kind + observation.data.bytes := by
  have hnames : nameBytes "type" = 6 ∧ nameBytes "harness_observation" = 21 ∧
      nameBytes "turn_id" = 9 ∧ nameBytes "kind" = 6 ∧ nameBytes "data" = 6 := by decide
  have hturn : turnId.bytes = 43 := rfl
  have hnone : Protocol.optional "harness_session_id" (Option.map textBytes none) = [] := rfl
  rw [HarnessObservationInput.payload, hsession, SessionEntryPayload.bytes, hnone]
  simp only [objectBytes, fieldsBytes, hturn, List.append_nil, List.cons_append, List.nil_append,
    List.map_cons, List.map_nil, List.sum_cons, List.sum_nil]
  omega

theorem bytes_preparedManifest
    (hsha : escapedBytes (encoder.sha256 (encoder.toVec request)) = 64)
    (hid : escapedBytes requestId.uuid = 36) :
    ((preparedManifest encoder request requestId).payload turnId).bytes =
      313 + escapedBytes request.model +
        (toString (encoder.toVec request).length).utf8ByteSize +
        (toString (Chunks.divCeil (encoder.toVec request).length
          preparedRequestChunkBytes)).utf8ByteSize := by
  have hid' := textBytes_asStr hid
  have hsha' : textBytes (encoder.sha256 (encoder.toVec request)) = 66 := congrArg (· + 2) hsha
  have hmodel : textBytes request.model = escapedBytes request.model + 2 := rfl
  have htexts : textBytes "model_request_prepared" = 24 ∧ textBytes "chunked_json_v1" = 17 := by
    decide
  have hnames : nameBytes "bytes" = 7 ∧ nameBytes "chunks" = 8 ∧ nameBytes "format" = 8 ∧
      nameBytes "model" = 7 ∧ nameBytes "request_id" = 12 ∧ nameBytes "sha256" = 8 := by decide
  rw [bytes_payload rfl, preparedManifest,
    bytes_object (by simp only [List.forall_mem_cons]; decide)]
  simp only [objectBytes, fieldsBytes, Value.bytes, hid', hsha', hmodel, List.map_cons,
    List.map_nil, List.sum_cons, List.sum_nil]
  omega

theorem charBytes_otherSymbol {symbol : Char} (hmem : symbol ∈ Base64.alphabet) :
    charBytes (Base64.otherSymbol symbol) = 1 := by
  have hall : Base64.alphabet.all (fun symbol =>
      charBytes (Base64.otherSymbol symbol) = 1) = true := by
    decide
  exact of_decide_eq_true (List.all_eq_true.mp hall symbol hmem)

theorem escapedBytes_encodeStandard (content : List UInt8) :
    escapedBytes (Base64.encodeStandard content) = (Base64.symbols content).length := by
  have hones : (Base64.symbols content).map (charBytes ∘ Base64.otherSymbol) =
      List.replicate (Base64.symbols content).length 1 := by
    rw [List.eq_replicate_iff, List.length_map]
    refine ⟨rfl, ?_⟩
    intro size hsize
    obtain ⟨symbol, hmem, rfl⟩ := List.mem_map.mp hsize
    exact charBytes_otherSymbol (Base64.mem_alphabet_of_mem_symbols hmem)
  rw [escapedBytes, Base64.encodeStandard, String.toList_ofList, List.map_map, hones,
    List.sum_replicate_nat, Nat.mul_one]

/-- Numbers of the machine have twenty digits at most. -/
theorem utf8ByteSize_toString_le {value : ℕ} (hvalue : value < 2 ^ 64) :
    (toString value).utf8ByteSize ≤ 80 := by
  have hdigits : (Nat.toDigits 10 value).length ≤ 20 := by
    rw [Nat.length_toDigits_le_iff (by decide) (by decide)]
    exact hvalue.trans (by decide)
  have hlength : ∀ chars : List Char, String.utf8Len chars ≤ 4 * chars.length := by
    intro chars
    induction chars with
    | nil => exact Nat.le_refl 0
    | cons char chars ih =>
        have hchar := char.utf8Size_le_four
        rw [String.utf8Len_cons, List.length_cons]
        omega
  have hchars := hlength (Nat.toDigits 10 value)
  rw [Nat.toString_eq_ofList_toDigits, String.utf8ByteSize_ofList]
  omega

/-- The symbols of a chunk. -/
theorem length_symbols_chunk_le (index : ℕ) (encoded : List UInt8) :
    (Base64.symbols (Chunks.chunk preparedRequestChunkBytes index encoded)).length ≤ 524288 := by
  have hchunk := Chunks.length_chunk_le preparedRequestChunkBytes index encoded
  have hsymbols := Base64.length_symbols_le
    (Chunks.chunk preparedRequestChunkBytes index encoded)
  generalize Chunks.chunk preparedRequestChunkBytes index encoded = chunk at hchunk hsymbols
  rw [preparedRequestChunkBytes] at hchunk
  omega

theorem bytes_preparedChunk_le (hid : escapedBytes requestId.uuid = 36) {index : ℕ}
    (hindex : index < 2 ^ 64) :
    ((preparedChunk requestId encoded index).payload turnId).bytes ≤ maxSessionItemBytes := by
  have hid' := textBytes_asStr hid
  have hdigits := utf8ByteSize_toString_le hindex
  have hsymbols := length_symbols_chunk_le index encoded
  have htext : textBytes (Base64.encodeStandard
      (Chunks.chunk preparedRequestChunkBytes index encoded)) =
      (Base64.symbols (Chunks.chunk preparedRequestChunkBytes index encoded)).length + 2 :=
    congrArg (· + 2) (escapedBytes_encodeStandard _)
  have hkind : textBytes "model_request_prepared_chunk" = 30 := by decide
  have hnames : nameBytes "data" = 6 ∧ nameBytes "index" = 7 ∧ nameBytes "request_id" = 12 := by
    decide
  rw [bytes_payload rfl, preparedChunk,
    bytes_object (by simp only [List.forall_mem_cons]; decide)]
  simp only [objectBytes, fieldsBytes, Value.bytes, hid', htext, List.map_cons, List.map_nil,
    List.sum_cons, List.sum_nil]
  generalize (Base64.symbols _).length = symbols at hsymbols ⊢
  generalize (toString index).utf8ByteSize = digits at hdigits ⊢
  clear hindex
  rw [maxSessionItemBytes]
  omega

/-- The name of the model leaves room for the rest of the manifest. -/
def ModelFits (encoder : RequestEncoder) (request : ModelRequest) : Prop :=
  313 + escapedBytes request.model + (toString (encoder.toVec request).length).utf8ByteSize +
    (toString (Chunks.divCeil (encoder.toVec request).length
      preparedRequestChunkBytes)).utf8ByteSize ≤ maxSessionItemBytes

/-- All observations fit if the direct one does, or else if the manifest does. -/
theorem preparedRequestObservations_fit_iff
    (hsha : escapedBytes (encoder.sha256 (encoder.toVec request)) = 64)
    (hlength : (encoder.toVec request).length < 2 ^ 64)
    (hid : escapedBytes requestId.uuid = 36) :
    (∀ observation ∈ preparedRequestObservations encoder request turnId requestId,
        (observation.payload turnId).bytes ≤ maxSessionItemBytes) ↔
      ((directObservation request requestId).payload turnId).bytes ≤ maxSessionItemBytes ∨
        ModelFits encoder request := by
  rw [preparedRequestObservations]
  dsimp only
  split_ifs with hdirect
  · rw [List.forall_mem_singleton]
    exact iff_of_true hdirect (Or.inl hdirect)
  · rw [or_iff_right hdirect, List.forall_mem_cons, bytes_preparedManifest hsha hid]
    apply and_iff_left_of_imp
    intro _ observation hmem
    obtain ⟨index, hindex, rfl⟩ := List.mem_map.mp hmem
    have hcount : Chunks.divCeil (encoder.toVec request).length preparedRequestChunkBytes ≤
        (encoder.toVec request).length := by
      rw [Chunks.divCeil_le_iff (by decide)]
      exact Nat.le_mul_of_pos_right _ (by decide)
    apply bytes_preparedChunk_le hid
    exact ((List.mem_range.mp hindex).trans_le hcount).trans hlength

end Fitting

end Mews
