import Mews.Core.Chunks
import Mews.Protocol.Ids

/-!
# The encrypted stream between two peers

A message is sent as chunks of a fixed size, each in a record of its own that is
encrypted and carried by a relay frame.  The relay is not trusted: the receiver
checks the addresses and the number of every frame, decrypts the record and puts
the chunks together again.
-/

namespace Mews

open Protocol

namespace Transport

inductive TransportError where
  | bail (message : String)
  /-- Of the Noise transport. -/
  | noise
  /-- `RelayError::InvalidStreamId`. -/
  | invalidStreamId
  /-- `RelayError::FrameTooLarge`. -/
  | frameTooLarge (actual maximum : Nat)
  | json
  deriving DecidableEq, Repr

def chunkHeader : Nat := 20
def maxMessageBytes : Nat := 256 * 1024
def maxEncryptedRecordPlaintext : Nat := 48 * 1024
def maxCiphertextBytes : Nat := 64 * 1024

def chunkSize : Nat := maxEncryptedRecordPlaintext - chunkHeader

structure RelayPeerId where
  value : String
  deriving DecidableEq, Repr

structure RelayFrame where
  installationId : InstallationId
  sourceId : RelayPeerId
  destinationId : RelayPeerId
  subjectId : String
  sequence : Nat
  ciphertext : List UInt8
  deriving DecidableEq, Repr

def isSubjectId (subjectId : String) : Bool :=
  subjectId ≠ "" ∧ subjectId.utf8ByteSize ≤ 128

/-- `RelayFrame::new`. -/
def RelayFrame.new (installationId : InstallationId) (sourceId destinationId : RelayPeerId)
    (subjectId : String) (sequence : Nat) (ciphertext : List UInt8) :
    Except TransportError RelayFrame := do
  if isSubjectId subjectId = false then throw .invalidStreamId
  if ciphertext.length > maxCiphertextBytes then
    throw (.frameTooLarge ciphertext.length maxCiphertextBytes)
  return { installationId, sourceId, destinationId, subjectId, sequence, ciphertext }

/-- One direction of a Noise transport: the record that is sealed under a nonce,
and what opens under it. -/
structure NoiseCipher where
  sealRecord : Nat → List UInt8 → List UInt8
  openRecord : Nat → List UInt8 → Option (List UInt8)
  length_sealRecord : ∀ nonce plaintext, (sealRecord nonce plaintext).length = plaintext.length + 16
  openRecord_sealRecord : ∀ nonce plaintext,
    openRecord nonce (sealRecord nonce plaintext) = some plaintext

structure NoiseTransport where
  outgoing : NoiseCipher
  incoming : NoiseCipher
  sendNonce : Nat
  receiveNonce : Nat

namespace NoiseTransport

def encrypt (transport : NoiseTransport) (plaintext : List UInt8) :
    Except TransportError (List UInt8 × NoiseTransport) :=
  if plaintext.length > maxEncryptedRecordPlaintext then
    .error (.bail "encrypted record is too large")
  else
    .ok (transport.outgoing.sealRecord transport.sendNonce plaintext,
      { transport with sendNonce := transport.sendNonce + 1 })

/-- A record that does not open leaves the nonce as it is. -/
def decrypt (transport : NoiseTransport) (ciphertext : List UInt8) :
    Except TransportError (List UInt8) × NoiseTransport :=
  if ciphertext.length < 16 ∨ ciphertext.length > maxEncryptedRecordPlaintext + 16 then
    (.error (.bail "encrypted record has invalid size"), transport)
  else
    match transport.incoming.openRecord transport.receiveNonce ciphertext with
    | none => (.error .noise, transport)
    | some plaintext =>
        (.ok plaintext, { transport with receiveNonce := transport.receiveNonce + 1 })

end NoiseTransport

/-- The end of an encrypted link.  Its subject has been in frames before. -/
structure EncryptedRelayPeer where
  transport : NoiseTransport
  installationId : InstallationId
  localPeer : RelayPeerId
  remotePeer : RelayPeerId
  subjectId : String
  sendSequence : Nat
  receiveSequence : Nat
  subject_valid : isSubjectId subjectId = true

/-! ## Records -/

/-- The sixteen bytes of a UUID. -/
structure MessageId where
  bytes : List UInt8
  length_bytes : bytes.length = 16
  deriving DecidableEq, Repr

def be16 (number : Nat) : List UInt8 := [UInt8.ofNat (number / 256), UInt8.ofNat number]

def ofBe16 : List UInt8 → Nat
  | [high, low] => high.toNat * 256 + low.toNat
  | _ => 0

@[simp]
theorem length_be16 (number : Nat) : (be16 number).length = 2 := rfl

theorem ofBe16_be16 {number : Nat} (hlt : number < 65536) : ofBe16 (be16 number) = number := by
  simp only [be16, ofBe16, UInt8.toNat_ofNat']
  omega

structure Message where
  id : MessageId
  bytes : List UInt8
  deriving DecidableEq, Repr

namespace Message

variable (message : Message)

def total : Nat := Chunks.count chunkSize message.bytes.length

def chunk (index : Nat) : List UInt8 := Chunks.chunk chunkSize index message.bytes

/-- The plaintext of a record. -/
def record (index : Nat) : List UInt8 :=
  message.id.bytes ++ be16 index ++ be16 message.total ++ message.chunk index

def records : List (List UInt8) := (List.range message.total).map message.record

end Message

namespace EncryptedRelayPeer

/-- Sends the chunks with the given numbers. -/
def sendChunks (message : Message) :
    List Nat → EncryptedRelayPeer → Except TransportError (List RelayFrame × EncryptedRelayPeer)
  | [], peer => .ok ([], peer)
  | index :: rest, peer => do
      let (ciphertext, transport) ← peer.transport.encrypt (message.record index)
      let frame ← RelayFrame.new peer.installationId peer.localPeer peer.remotePeer peer.subjectId
        peer.sendSequence ciphertext
      let (frames, peer) ← sendChunks message rest
        { peer with transport, sendSequence := peer.sendSequence + 1 }
      return (frame :: frames, peer)

/-- `send_bytes`, with the frames the relay is given. -/
def sendBytes (peer : EncryptedRelayPeer) (message : Message) :
    Except TransportError (List RelayFrame × EncryptedRelayPeer) :=
  if message.bytes.length > maxMessageBytes then
    .error (.bail "encrypted message exceeds 256 KiB")
  else
    peer.sendChunks message (List.range message.total)

/-- The messages one after the other. -/
def sendAll : List Message → EncryptedRelayPeer →
    Except TransportError (List RelayFrame × EncryptedRelayPeer)
  | [], peer => .ok ([], peer)
  | message :: rest, peer => do
      let (frames, peer) ← peer.sendBytes message
      let (later, peer) ← sendAll rest peer
      return (frames ++ later, peer)

end EncryptedRelayPeer

/-! ## Assembly -/

/-- What a call of `receive_bytes` has put together so far. -/
structure Assembly where
  assembled : List UInt8
  expectedId : Option (List UInt8)
  expectedTotal : Option Nat
  deriving DecidableEq, Repr

def Assembly.empty : Assembly := { assembled := [], expectedId := none, expectedTotal := none }

inductive Progress where
  | incomplete (assembly : Assembly)
  | complete (message : List UInt8)
  deriving DecidableEq, Repr

/-- Adds the plaintext of a record. -/
def Assembly.append (assembly : Assembly) (plaintext : List UInt8) :
    Except TransportError Progress := do
  if plaintext.length < chunkHeader then throw (.bail "encrypted chunk is truncated")
  let id := plaintext.take 16
  let index := ofBe16 ((plaintext.drop 16).take 2)
  let total := ofBe16 ((plaintext.drop 18).take 2)
  if total = 0 ∨ index ≥ total ∨ index > 5 then throw (.bail "invalid encrypted chunk sequence")
  if assembly.expectedId.getD id ≠ id ∨ assembly.expectedTotal.getD total ≠ total ∨
      index ≠ Chunks.divCeil assembly.assembled.length chunkSize then
    throw (.bail "interleaved or out-of-order encrypted chunks")
  let assembled := assembly.assembled ++ plaintext.drop chunkHeader
  if assembled.length > maxMessageBytes then throw (.bail "reassembled message is too large")
  if index + 1 = total then return .complete assembled
  return .incomplete
    { assembled
      expectedId := some (assembly.expectedId.getD id)
      expectedTotal := some (assembly.expectedTotal.getD total) }

namespace EncryptedRelayPeer

/-- What a call of `receive_bytes` does with the next frame. -/
def acceptFrame (peer : EncryptedRelayPeer) (assembly : Assembly) (frame : RelayFrame) :
    Except TransportError Progress × EncryptedRelayPeer :=
  if frame.installationId ≠ peer.installationId ∨ frame.sourceId ≠ peer.remotePeer ∨
      frame.destinationId ≠ peer.localPeer ∨ frame.subjectId ≠ peer.subjectId ∨
      frame.sequence ≠ peer.receiveSequence then
    (.error (.bail "relay frame violates authenticated stream ordering"), peer)
  else
    let (plaintext, transport) := peer.transport.decrypt frame.ciphertext
    (plaintext.bind assembly.append,
      { peer with transport, receiveSequence := peer.receiveSequence + 1 })

/-- `receive_bytes` on the frames that the relay delivers; without an outcome it
waits for more. -/
def receiveBytes (peer : EncryptedRelayPeer) (assembly : Assembly) :
    List RelayFrame →
      Option (Except TransportError (List UInt8) × EncryptedRelayPeer × List RelayFrame)
  | [] => none
  | frame :: rest =>
      match peer.acceptFrame assembly frame with
      | (.error error, peer) => some (.error error, peer, rest)
      | (.ok (.complete message), peer) => some (.ok message, peer, rest)
      | (.ok (.incomplete assembly), peer) => peer.receiveBytes assembly rest

/-- The outcomes of one call of `receive_bytes` after the other. -/
def receiveCalls (peer : EncryptedRelayPeer) (assembly : Assembly) :
    List RelayFrame → List (Except TransportError (List UInt8))
  | [] => []
  | frame :: rest =>
      match peer.acceptFrame assembly frame with
      | (.error error, peer) => .error error :: peer.receiveCalls .empty rest
      | (.ok (.complete message), peer) => .ok message :: peer.receiveCalls .empty rest
      | (.ok (.incomplete assembly), peer) => peer.receiveCalls assembly rest

end EncryptedRelayPeer

/-! ## Records and their chunks -/

theorem chunkSize_pos : 0 < chunkSize := by decide

namespace Message

variable {message : Message} {index : Nat}

/-- A message that `send_bytes` takes. -/
def Fits (message : Message) : Prop := message.bytes.length ≤ maxMessageBytes

instance (message : Message) : Decidable message.Fits := inferInstanceAs (Decidable (_ ≤ _))

@[simp]
theorem length_records : message.records.length = message.total := by
  simp [records]

theorem total_pos : 0 < message.total := Chunks.count_pos _ _

/-- Six chunks are enough for the longest message. -/
theorem Fits.total_le (hfits : message.Fits) : message.total ≤ 6 := by
  apply (Chunks.count_le_iff chunkSize_pos).mpr
  have hlength : message.bytes.length ≤ 262144 := hfits
  have hsize : chunkSize = 49132 := rfl
  omega

theorem length_record :
    (message.record index).length = chunkHeader + (message.chunk index).length := by
  simp only [record, List.length_append, message.id.length_bytes, length_be16, chunkHeader]

theorem length_record_le : (message.record index).length ≤ maxEncryptedRecordPlaintext := by
  have hchunk : (message.chunk index).length ≤ chunkSize := Chunks.length_chunk_le _ _ _
  have hsize : chunkHeader + chunkSize = maxEncryptedRecordPlaintext := rfl
  rw [length_record]
  omega

theorem take_record : (message.record index).take 16 = message.id.bytes := by
  rw [record, List.append_assoc, List.append_assoc]
  exact List.take_left' message.id.length_bytes

theorem drop_record :
    (message.record index).drop 16 = be16 index ++ (be16 message.total ++ message.chunk index) := by
  rw [record, List.append_assoc, List.append_assoc]
  exact List.drop_left' message.id.length_bytes

theorem index_record (hfits : message.Fits) (hindex : index < message.total) :
    ofBe16 (((message.record index).drop 16).take 2) = index := by
  have htotal := hfits.total_le
  rw [drop_record, List.take_left' (length_be16 index)]
  exact ofBe16_be16 (by omega)

theorem total_record (hfits : message.Fits) :
    ofBe16 (((message.record index).drop 18).take 2) = message.total := by
  have htotal := hfits.total_le
  rw [← List.drop_drop (i := 2) (j := 16), drop_record, List.drop_left' (length_be16 index),
    List.take_left' (length_be16 message.total)]
  exact ofBe16_be16 (by omega)

theorem data_record : (message.record index).drop chunkHeader = message.chunk index := by
  have hheader : chunkHeader = 16 + (2 + 2) := rfl
  rw [hheader, ← List.drop_drop, drop_record, ← List.drop_drop, List.drop_left' (length_be16 index),
    List.drop_left' (length_be16 message.total)]

/-- What has been put together before the chunk with the number `index`. -/
def assembly (message : Message) : Nat → Assembly
  | 0 => .empty
  | index + 1 =>
      { assembled := message.bytes.take ((index + 1) * chunkSize)
        expectedId := some message.id.bytes
        expectedTotal := some message.total }

theorem assembled_assembly :
    (message.assembly index).assembled = message.bytes.take (index * chunkSize) := by
  cases index <;> simp [assembly, Assembly.empty]

theorem expectedId_assembly :
    (message.assembly index).expectedId.getD message.id.bytes = message.id.bytes := by
  cases index <;> simp [assembly, Assembly.empty]

theorem expectedTotal_assembly :
    (message.assembly index).expectedTotal.getD message.total = message.total := by
  cases index <;> simp [assembly, Assembly.empty]

theorem append_assembly (hfits : message.Fits) (hindex : index < message.total) :
    (message.assembly index).append (message.record index) =
      if index + 1 = message.total then .ok (.complete message.bytes)
      else .ok (.incomplete (message.assembly (index + 1))) := by
  have htotal := hfits.total_le
  have hheader : ¬(message.record index).length < chunkHeader := by
    rw [length_record]
    omega
  have hdivided : index = Chunks.divCeil (message.assembly index).assembled.length chunkSize := by
    rw [assembled_assembly, Chunks.length_take_of_lt_count chunkSize_pos hindex,
      Chunks.divCeil_mul chunkSize_pos]
  have hassembled : (message.assembly index).assembled ++ (message.record index).drop chunkHeader =
      message.bytes.take ((index + 1) * chunkSize) := by
    rw [assembled_assembly, data_record]
    exact Chunks.take_append_chunk _ _ _
  have hlimit : ¬(message.bytes.take ((index + 1) * chunkSize)).length > maxMessageBytes := by
    have hle := List.length_take_le' ((index + 1) * chunkSize) message.bytes
    have hlength : message.bytes.length ≤ maxMessageBytes := hfits
    omega
  have hsequence : ¬(message.total = 0 ∨ index ≥ message.total ∨ index > 5) := by omega
  simp only [Assembly.append, hheader, if_false, take_record, index_record hfits hindex,
    total_record hfits, hsequence, expectedId_assembly, expectedTotal_assembly, ← hdivided, ne_eq,
    not_true_eq_false, or_self, hassembled, hlimit]
  by_cases hlast : index + 1 = message.total
  · simp only [hlast, if_true]
    rw [← hlast, Chunks.take_count chunkSize_pos hlast]
    rfl
  · simp only [hlast, if_false]
    rfl

/-- A chunk that is not the first cannot start a message. -/
theorem append_empty (hfits : message.Fits) (hpos : 0 < index) (hindex : index < message.total) :
    Assembly.empty.append (message.record index) =
      .error (.bail "interleaved or out-of-order encrypted chunks") := by
  have htotal := hfits.total_le
  have hheader : ¬(message.record index).length < chunkHeader := by
    rw [length_record]
    omega
  have hsequence : ¬(message.total = 0 ∨ index ≥ message.total ∨ index > 5) := by omega
  have hdivided : index ≠ Chunks.divCeil Assembly.empty.assembled.length chunkSize := by
    have hzero : Chunks.divCeil Assembly.empty.assembled.length chunkSize = 0 := rfl
    omega
  simp only [Assembly.append, hheader, if_false, take_record, index_record hfits hindex,
    total_record hfits, hsequence, hdivided, ne_eq, not_false_eq_true, or_true, if_true]
  rfl

end Message

/-! ## The frames of a sender -/

namespace EncryptedRelayPeer

variable {sender receiver : EncryptedRelayPeer} {message : Message}

/-- The frame that carries the next record. -/
def frame (peer : EncryptedRelayPeer) (record : List UInt8) : RelayFrame where
  installationId := peer.installationId
  sourceId := peer.localPeer
  destinationId := peer.remotePeer
  subjectId := peer.subjectId
  sequence := peer.sendSequence
  ciphertext := peer.transport.outgoing.sealRecord peer.transport.sendNonce record

/-- A peer that has sent some more records. -/
def sent (peer : EncryptedRelayPeer) (count : Nat) : EncryptedRelayPeer :=
  { peer with
    transport := { peer.transport with sendNonce := peer.transport.sendNonce + count }
    sendSequence := peer.sendSequence + count }

theorem sent_sent (peer : EncryptedRelayPeer) (count more : Nat) :
    (peer.sent count).sent more = peer.sent (count + more) := by
  simp only [sent, Nat.add_assoc]

def framesOf (peer : EncryptedRelayPeer) : List (List UInt8) → List RelayFrame
  | [] => []
  | record :: rest => peer.frame record :: (peer.sent 1).framesOf rest

theorem framesOf_append (peer : EncryptedRelayPeer) (first second : List (List UInt8)) :
    peer.framesOf (first ++ second) =
      peer.framesOf first ++ (peer.sent first.length).framesOf second := by
  induction first generalizing peer with
  | nil => rfl
  | cons record rest ih =>
      simp only [List.cons_append, framesOf, ih, sent_sent, List.length_cons]
      rw [Nat.add_comm]

theorem sendChunks_eq (message : Message) (indices : List Nat) (peer : EncryptedRelayPeer) :
    peer.sendChunks message indices =
      .ok (peer.framesOf (indices.map message.record), peer.sent indices.length) := by
  induction indices generalizing peer with
  | nil => rfl
  | cons index rest ih =>
      have hrecord : ¬(message.record index).length > maxEncryptedRecordPlaintext :=
        Nat.not_lt_of_le Message.length_record_le
      have hciphertext : ¬(peer.transport.outgoing.sealRecord peer.transport.sendNonce
          (message.record index)).length > maxCiphertextBytes := by
        have hlimit : maxEncryptedRecordPlaintext + 16 ≤ maxCiphertextBytes := by decide
        have hlength := @Message.length_record_le message index
        rw [NoiseCipher.length_sealRecord]
        omega
      rw [sendChunks, NoiseTransport.encrypt, if_neg hrecord]
      simp only [bind, Except.bind, RelayFrame.new, peer.subject_valid, Bool.true_eq_false, if_false,
        hciphertext]
      have hnext := ih (peer.sent 1)
      rw [sent_sent] at hnext
      rw [List.map_cons, framesOf, List.length_cons, Nat.add_comm rest.length 1]
      change ((peer.sent 1).sendChunks message rest).bind
        (fun result => .ok (peer.frame (message.record index) :: result.1, result.2)) = _
      rw [hnext]
      rfl

theorem sendBytes_eq (peer : EncryptedRelayPeer) (hfits : message.Fits) :
    peer.sendBytes message = .ok (peer.framesOf message.records, peer.sent message.total) := by
  have hlimit : ¬message.bytes.length > maxMessageBytes := Nat.not_lt_of_le hfits
  rw [sendBytes, if_neg hlimit, sendChunks_eq, List.length_range]
  rfl

theorem sendAll_eq {messages : List Message} (peer : EncryptedRelayPeer)
    (hfits : ∀ message ∈ messages, message.Fits) :
    peer.sendAll messages =
      .ok (peer.framesOf (messages.flatMap Message.records),
        peer.sent (messages.flatMap Message.records).length) := by
  induction messages generalizing peer with
  | nil => rfl
  | cons message rest ih =>
      have hrest := ih (peer.sent message.total) fun other hother =>
        hfits other (List.mem_cons_of_mem _ hother)
      rw [sent_sent] at hrest
      rw [sendAll, sendBytes_eq peer (hfits message List.mem_cons_self)]
      simp only [bind, Except.bind, hrest, List.flatMap_cons, framesOf_append, List.length_append,
        Message.length_records]
      rfl

/-! ## The link -/

/-- The receiver takes the stream up where the sender is. -/
structure Linked (sender receiver : EncryptedRelayPeer) : Prop where
  cipher : receiver.transport.incoming = sender.transport.outgoing
  nonce : receiver.transport.receiveNonce = sender.transport.sendNonce
  installationId : receiver.installationId = sender.installationId
  source : receiver.remotePeer = sender.localPeer
  destination : receiver.localPeer = sender.remotePeer
  subject : receiver.subjectId = sender.subjectId
  sequence : receiver.receiveSequence = sender.sendSequence

/-- A peer that has decrypted one more record. -/
def received (peer : EncryptedRelayPeer) : EncryptedRelayPeer :=
  { peer with
    transport := { peer.transport with receiveNonce := peer.transport.receiveNonce + 1 }
    receiveSequence := peer.receiveSequence + 1 }

theorem Linked.next (hlinked : Linked sender receiver) : Linked (sender.sent 1) receiver.received where
  cipher := hlinked.cipher
  nonce := congrArg (· + 1) hlinked.nonce
  installationId := hlinked.installationId
  source := hlinked.source
  destination := hlinked.destination
  subject := hlinked.subject
  sequence := congrArg (· + 1) hlinked.sequence

theorem Linked.acceptFrame (hlinked : Linked sender receiver) (assembly : Assembly)
    {record : List UInt8} (hlength : record.length ≤ maxEncryptedRecordPlaintext) :
    receiver.acceptFrame assembly (sender.frame record) =
      (assembly.append record, receiver.received) := by
  have hsealed := sender.transport.outgoing.length_sealRecord sender.transport.sendNonce record
  have hsize : ¬((sender.frame record).ciphertext.length < 16 ∨
      (sender.frame record).ciphertext.length > maxEncryptedRecordPlaintext + 16) := by
    rw [frame, hsealed]
    omega
  have hopens : receiver.transport.incoming.openRecord receiver.transport.receiveNonce
      (sender.frame record).ciphertext = some record := by
    rw [hlinked.cipher, hlinked.nonce]
    exact NoiseCipher.openRecord_sealRecord _ _ _
  have haddressed : ¬((sender.frame record).installationId ≠ receiver.installationId ∨
      (sender.frame record).sourceId ≠ receiver.remotePeer ∨
      (sender.frame record).destinationId ≠ receiver.localPeer ∨
      (sender.frame record).subjectId ≠ receiver.subjectId ∨
      (sender.frame record).sequence ≠ receiver.receiveSequence) := by
    simp [frame, hlinked.installationId, hlinked.source, hlinked.destination, hlinked.subject,
      hlinked.sequence]
  simp only [EncryptedRelayPeer.acceptFrame, if_neg haddressed, NoiseTransport.decrypt, if_neg hsize,
    hopens]
  rfl

end EncryptedRelayPeer

/-! ## Any relay -/

/-- A receiver that has still to get these messages: it is inside the first of
them, it has lost the beginning of one, or it has got them all. -/
inductive Position : List Message → Assembly → List (List UInt8) → Prop
  | within (message : Message) (rest : List Message) (index : Nat) (hfits : message.Fits)
      (hindex : index < message.total) :
      Position (message :: rest) (message.assembly index)
        (message.records.drop index ++ rest.flatMap Message.records)
  | lost (message : Message) (rest : List Message) (index : Nat) (hfits : message.Fits)
      (hpos : 0 < index) (hindex : index < message.total) :
      Position rest .empty (message.records.drop index ++ rest.flatMap Message.records)
  | done : Position [] .empty []

namespace Position

variable {messages : List Message} {assembly : Assembly} {pending rest : List (List UInt8)}
variable {record : List UInt8}

theorem between (hfits : ∀ message ∈ messages, message.Fits) :
    Position messages .empty (messages.flatMap Message.records) := by
  cases messages with
  | nil => exact .done
  | cons message rest =>
      exact .within message rest 0 (hfits message List.mem_cons_self) Message.total_pos

theorem drop_records {message : Message} {index : Nat} (hindex : index < message.total) :
    message.records.drop index = message.record index :: message.records.drop (index + 1) := by
  have hlength : index < message.records.length := by rwa [Message.length_records]
  rw [List.drop_eq_getElem_cons hlength]
  simp [Message.records]

theorem drop_records_last {message : Message} {index : Nat} (hlast : index + 1 = message.total) :
    message.records.drop (index + 1) = [] := by
  apply List.drop_of_length_le
  rw [Message.length_records, hlast]

/-- A call that fails without a record leaves the rest to the calls after it. -/
theorem dropped (hposition : Position messages assembly pending) :
    ∃ later, later <:+ messages ∧ Position later .empty pending := by
  cases hposition with
  | within message rest index hfits hindex =>
      cases index with
      | zero => exact ⟨_, List.suffix_rfl, .within message rest 0 hfits hindex⟩
      | succ index =>
          exact ⟨rest, List.suffix_cons _ _, .lost message rest _ hfits index.succ_pos hindex⟩
  | lost message rest index hfits hpos hindex =>
      exact ⟨messages, List.suffix_rfl, .lost message messages index hfits hpos hindex⟩
  | done => exact ⟨[], List.suffix_rfl, .done⟩

/-- What the next record does. -/
inductive Takes (messages : List Message) (rest : List (List UInt8)) :
    Except TransportError Progress → Prop
  | completes (message : Message) (later : List Message) (heq : messages = message :: later)
      (hposition : Position later .empty rest) : Takes messages rest (.ok (.complete message.bytes))
  | continues (assembly : Assembly) (hposition : Position messages assembly rest) :
      Takes messages rest (.ok (.incomplete assembly))
  | fails (error : TransportError) (hposition : Position messages .empty rest) :
      Takes messages rest (.error error)

theorem takes (hfits : ∀ message ∈ messages, message.Fits)
    (hposition : Position messages assembly (record :: rest)) :
    Takes messages rest (assembly.append record) := by
  generalize hpending : record :: rest = pending at hposition
  cases hposition with
  | within message later index hmessage hindex =>
      rw [drop_records hindex] at hpending
      obtain ⟨rfl, rfl⟩ := List.cons.inj hpending
      rw [Message.append_assembly hmessage hindex]
      have hlater : ∀ other ∈ later, other.Fits := fun other hother =>
        hfits other (List.mem_cons_of_mem _ hother)
      by_cases hlast : index + 1 = message.total
      · rw [if_pos hlast, drop_records_last hlast]
        exact .completes message later rfl (between hlater)
      · rw [if_neg hlast]
        exact .continues _ (.within message later _ hmessage (by omega))
  | lost message later index hmessage hpos hindex =>
      rw [drop_records hindex] at hpending
      obtain ⟨rfl, rfl⟩ := List.cons.inj hpending
      rw [Message.append_empty hmessage hpos hindex]
      by_cases hlast : index + 1 = message.total
      · rw [drop_records_last hlast]
        exact .fails _ (between hfits)
      · exact .fails _ (.lost message messages _ hmessage index.succ_pos (by omega))
  | done => cases hpending

end Position

namespace EncryptedRelayPeer

variable {sender receiver : EncryptedRelayPeer} {message : Message}

/-- A ciphertext opens only where it has been sealed among the pending records. -/
def Opens (receiver : EncryptedRelayPeer) (pending : List (List UInt8)) (frame : RelayFrame) : Prop :=
  ∀ offset plaintext, receiver.transport.incoming.openRecord
      (receiver.transport.receiveNonce + offset) frame.ciphertext = some plaintext →
    pending[offset]? = some plaintext

/-- The frame does nothing but fail, or it brings the next pending record. -/
theorem acceptFrame_cases {pending : List (List UInt8)} {frame : RelayFrame} (assembly : Assembly)
    (hopens : Opens receiver pending frame) :
    (∃ error, (receiver.acceptFrame assembly frame).1 = .error error ∧
      (receiver.acceptFrame assembly frame).2.transport = receiver.transport) ∨
    ∃ record rest, pending = record :: rest ∧
      (receiver.acceptFrame assembly frame).1 = assembly.append record ∧
      (receiver.acceptFrame assembly frame).2.transport = receiver.received.transport := by
  rw [acceptFrame]
  split_ifs with haddressed
  · exact .inl ⟨_, rfl, rfl⟩
  · rw [NoiseTransport.decrypt]
    split_ifs with hsize
    · exact .inl ⟨_, rfl, rfl⟩
    · cases hrecord : receiver.transport.incoming.openRecord receiver.transport.receiveNonce
          frame.ciphertext with
      | none => exact .inl ⟨_, rfl, rfl⟩
      | some record =>
          have hfirst := hopens 0 record hrecord
          cases pending with
          | nil => simp at hfirst
          | cons head rest =>
              obtain rfl : head = record := by simpa using hfirst
              exact .inr ⟨head, rest, rfl, rfl, rfl⟩

theorem Opens.of_transport {pending : List (List UInt8)} {frame : RelayFrame}
    {other : EncryptedRelayPeer} (hopens : Opens receiver pending frame)
    (htransport : other.transport = receiver.transport) : Opens other pending frame := by
  intro offset plaintext hrecord
  rw [htransport] at hrecord
  exact hopens offset plaintext hrecord

theorem Opens.next {record : List UInt8} {rest : List (List UInt8)} {frame : RelayFrame}
    {other : EncryptedRelayPeer} (hopens : Opens receiver (record :: rest) frame)
    (htransport : other.transport = receiver.received.transport) : Opens other rest frame := by
  intro offset plaintext hrecord
  rw [htransport] at hrecord
  have hnext := hopens (offset + 1) plaintext
  rw [List.getElem?_cons_succ] at hnext
  apply hnext
  rw [← hrecord, received, Nat.add_right_comm, Nat.add_assoc]

/-- The messages that calls have returned. -/
def returned (outcomes : List (Except TransportError (List UInt8))) : List (List UInt8) :=
  outcomes.filterMap Except.toOption

/-- The outcomes before the first error. -/
def beforeError (outcomes : List (Except TransportError (List UInt8))) :
    List (Except TransportError (List UInt8)) :=
  outcomes.takeWhile Except.isOk

/-- Whatever the relay delivers, the calls return what is still to come, up to an
error without a gap and after it nothing else. -/
theorem receiveCalls_position {messages : List Message} {assembly : Assembly}
    {pending : List (List UInt8)} (hfits : ∀ message ∈ messages, message.Fits)
    (hposition : Position messages assembly pending) (delivered : List RelayFrame)
    (hopens : ∀ frame ∈ delivered, Opens receiver pending frame) :
    returned (beforeError (receiver.receiveCalls assembly delivered)) <+:
        messages.map Message.bytes ∧
      (returned (receiver.receiveCalls assembly delivered)).Sublist (messages.map Message.bytes) := by
  induction delivered generalizing receiver messages assembly pending with
  | nil => exact ⟨List.nil_prefix, List.nil_sublist _⟩
  | cons frame delivered ih =>
      have hframe := hopens frame List.mem_cons_self
      have hlater : ∀ other ∈ delivered, Opens receiver pending other := fun other hother =>
        hopens other (List.mem_cons_of_mem _ hother)
      rw [receiveCalls]
      rcases hstep : receiver.acceptFrame assembly frame with ⟨outcome, receiver'⟩
      have hcases := acceptFrame_cases assembly hframe
      rw [hstep] at hcases
      rcases hcases with ⟨error, herror, htransport⟩ | ⟨record, rest, rfl, happend, htransport⟩
      · obtain rfl : outcome = .error error := herror
        obtain ⟨later, hsuffix, hposition'⟩ := hposition.dropped
        have hrest := ih (fun other hother => hfits other (hsuffix.subset hother)) hposition'
          fun other hother => (hlater other hother).of_transport htransport
        exact ⟨List.nil_prefix, hrest.2.trans (hsuffix.sublist.map _)⟩
      · have htakes := hposition.takes hfits
        have hnext : ∀ other ∈ delivered, Opens receiver' rest other := fun other hother =>
          (hlater other hother).next htransport
        dsimp only at happend
        rw [← happend] at htakes
        cases htakes with
        | completes message later heq hposition' =>
            subst heq
            have hrest := ih (fun other hother => hfits other (List.mem_cons_of_mem _ hother))
              hposition' hnext
            exact ⟨(List.prefix_cons_inj _).mpr hrest.1, hrest.2.cons_cons _⟩
        | continues assembly' hposition' => exact ih hfits hposition' hnext
        | fails error hposition' =>
            exact ⟨List.nil_prefix, (ih hfits hposition' hnext).2⟩

/-- Without interference every message arrives. -/
theorem receiveCalls_within {rest : List Message} {index : Nat}
    (hfits : ∀ other ∈ message :: rest, other.Fits) (hindex : index < message.total)
    (hlinked : Linked sender receiver)
    (hrest : ∀ sender receiver, Linked sender receiver →
      receiver.receiveCalls .empty (sender.framesOf (rest.flatMap Message.records)) =
        rest.map fun other => .ok other.bytes) :
    receiver.receiveCalls (message.assembly index)
        (sender.framesOf (message.records.drop index ++ rest.flatMap Message.records)) =
      (message :: rest).map fun other => .ok other.bytes := by
  induction hleft : message.total - index generalizing sender receiver index with
  | zero => omega
  | succ left ih =>
      rw [Position.drop_records hindex, List.cons_append, framesOf, receiveCalls,
        hlinked.acceptFrame _ Message.length_record_le,
        Message.append_assembly (hfits message List.mem_cons_self) hindex]
      by_cases hlast : index + 1 = message.total
      · simp only [if_pos hlast, Position.drop_records_last hlast, List.nil_append, List.map_cons]
        rw [hrest _ _ hlinked.next]
      · simp only [if_neg hlast]
        exact ih (by omega) hlinked.next (by omega)

theorem receiveCalls_frames {messages : List Message} (hfits : ∀ message ∈ messages, message.Fits)
    (hlinked : Linked sender receiver) :
    receiver.receiveCalls .empty (sender.framesOf (messages.flatMap Message.records)) =
      messages.map fun message => .ok message.bytes := by
  induction messages generalizing sender receiver with
  | nil => rfl
  | cons message rest ih =>
      exact receiveCalls_within hfits Message.total_pos hlinked fun sender receiver hlinked =>
        ih (fun other hother => hfits other (List.mem_cons_of_mem _ hother)) hlinked

/-- The ideal channel: what opens at a place in the stream is the ciphertext that was
sent there. -/
def Authentic (receiver : EncryptedRelayPeer) (sent : List RelayFrame) (frame : RelayFrame) : Prop :=
  ∀ offset plaintext, receiver.transport.incoming.openRecord
      (receiver.transport.receiveNonce + offset) frame.ciphertext = some plaintext →
    ∃ original, sent[offset]? = some original ∧ original.ciphertext = frame.ciphertext

theorem getElem?_framesOf (sender : EncryptedRelayPeer) (records : List (List UInt8)) (offset : Nat) :
    (sender.framesOf records)[offset]? =
      records[offset]?.map fun record => (sender.sent offset).frame record := by
  induction records generalizing sender offset with
  | nil => rfl
  | cons record rest ih =>
      cases offset with
      | zero => rfl
      | succ offset =>
          rw [framesOf, List.getElem?_cons_succ, List.getElem?_cons_succ, ih, sent_sent,
            Nat.add_comm 1 offset]

theorem Linked.opens {records : List (List UInt8)} {frame : RelayFrame}
    (hlinked : Linked sender receiver)
    (hauthentic : Authentic receiver (sender.framesOf records) frame) :
    Opens receiver records frame := by
  intro offset plaintext hrecord
  obtain ⟨original, hsent, hciphertext⟩ := hauthentic offset plaintext hrecord
  rw [getElem?_framesOf] at hsent
  obtain ⟨record, hfound, rfl⟩ := Option.map_eq_some_iff.mp hsent
  have hopens : receiver.transport.incoming.openRecord (receiver.transport.receiveNonce + offset)
      frame.ciphertext = some record := by
    rw [← hciphertext, hlinked.cipher, hlinked.nonce]
    exact NoiseCipher.openRecord_sealRecord _ _ _
  rw [hfound, ← hrecord, hopens]

/-- The messages that a sender takes are sent completely.  Whatever frames a relay
delivers in their place, the calls up to the first error return a prefix of them and
all calls together nothing but some of them, in their order; on the frames themselves
every call returns its message. -/
theorem stream_integrity {messages : List Message} (hlinked : Linked sender receiver)
    (hfits : ∀ message ∈ messages, message.bytes.length ≤ maxMessageBytes) :
    ∃ frames sender', sender.sendAll messages = .ok (frames, sender') ∧
      (∀ delivered : List RelayFrame,
        (∀ frame ∈ delivered, Authentic receiver frames frame) →
        returned (beforeError (receiver.receiveCalls .empty delivered)) <+:
            messages.map Message.bytes ∧
          (returned (receiver.receiveCalls .empty delivered)).Sublist
            (messages.map Message.bytes)) ∧
      receiver.receiveCalls .empty frames = messages.map fun message => .ok message.bytes := by
  refine ⟨_, _, sendAll_eq sender hfits, ?_, receiveCalls_frames hfits hlinked⟩
  intro delivered hauthentic
  exact receiveCalls_position hfits (Position.between hfits) delivered fun frame hframe =>
    hlinked.opens (hauthentic frame hframe)

/-- A cipher that puts the nonce in front of the plaintext. -/
def numberedCipher : NoiseCipher where
  sealRecord := fun nonce plaintext => List.replicate 14 0 ++ be16 nonce ++ plaintext
  openRecord := fun nonce ciphertext =>
    if ciphertext.take 16 = List.replicate 14 0 ++ be16 nonce then some (ciphertext.drop 16) else none
  length_sealRecord := by
    intro nonce plaintext
    simp only [List.length_append, List.length_replicate, length_be16]
    omega
  openRecord_sealRecord := by
    intro nonce plaintext
    have hlength : (List.replicate 14 (0 : UInt8) ++ be16 nonce).length = 16 := rfl
    rw [if_pos (List.take_left' hlength), List.drop_left' hlength]

/-- The ends of a link, after the handshake. -/
def numbered (localPeer remotePeer : String) (sendSequence receiveSequence : Nat) :
    EncryptedRelayPeer where
  transport :=
    { outgoing := numberedCipher, incoming := numberedCipher, sendNonce := 1, receiveNonce := 1 }
  installationId := ⟨"1"⟩
  localPeer := ⟨localPeer⟩
  remotePeer := ⟨remotePeer⟩
  subjectId := "peer"
  sendSequence
  receiveSequence
  subject_valid := by decide

theorem linked_numbered :
    Linked (numbered "host" "hub" 3 2) (numbered "hub" "host" 2 3) :=
  ⟨rfl, rfl, rfl, rfl, rfl, rfl, rfl⟩

def numberedMessage (bytes : List UInt8) : Message :=
  { id := ⟨List.replicate 16 0, rfl⟩, bytes }

theorem stream_integrity_empty :
    ∃ frames sender', (numbered "host" "hub" 3 2).sendAll [numberedMessage [], numberedMessage [7]] =
        .ok (frames, sender') ∧
      (∀ delivered : List RelayFrame,
        (∀ frame ∈ delivered, Authentic (numbered "hub" "host" 2 3) frames frame) →
        returned (beforeError ((numbered "hub" "host" 2 3).receiveCalls .empty delivered)) <+:
            [[], [7]] ∧
          (returned ((numbered "hub" "host" 2 3).receiveCalls .empty delivered)).Sublist
            [[], [7]]) ∧
      (numbered "hub" "host" 2 3).receiveCalls .empty frames = [.ok [], .ok [7]] :=
  stream_integrity linked_numbered (by decide)

end EncryptedRelayPeer

end Transport

end Mews
