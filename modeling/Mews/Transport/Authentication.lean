import Mews.Core.Texts
import Mews.Core.Transaction
import Mews.Transport.Stream

/-!
# Authentication of the two ends of a link

A Noise handshake is not authenticated by itself: its static keys are not trusted.
Trust comes from the identity bindings that the ends exchange over the new channel,
each signed by the key that the other end trusts.  A binding names the handshake by
its hash, and the prologue of the handshake names the link and who started it.
-/

namespace Mews

open Protocol

namespace Transport

/-! ## Keys, handshakes and bindings -/

inductive HandshakeRole where
  | initiator
  | responder
  deriving DecidableEq, Repr

def HandshakeRole.opposite : HandshakeRole → HandshakeRole
  | .initiator => .responder
  | .responder => .initiator

structure HostIdentity where
  seed : List UInt8
  deriving DecidableEq, Repr

structure NoiseIdentity where
  privateKey : List UInt8
  publicBytes : List UInt8
  deriving DecidableEq, Repr

structure IdentityBinding where
  installationId : InstallationId
  peerId : String
  senderNoiseKey : String
  receiverNoiseKey : String
  handshakeHash : String
  signature : String
  deriving DecidableEq, Repr

/-- `snow::HandshakeState` for the pattern XX, with states of type `H`.  A new
handshake draws its ephemeral key. -/
structure NoiseXX (H : Type) where
  initiator : NoiseIdentity → List UInt8 → List UInt8 → Except TransportError H
  responder : NoiseIdentity → List UInt8 → List UInt8 → Except TransportError H
  writeMessage : H → Except TransportError (List UInt8 × H)
  readMessage : H → List UInt8 → Except TransportError H
  getHandshakeHash : H → List UInt8
  getRemoteStatic : H → Option (List UInt8)
  isHandshakeFinished : H → Bool
  intoTransportMode : H → Except TransportError NoiseTransport

/-- The handshakes, the signatures and the JSON texts of the bindings. -/
structure Crypto (H : Type) where
  noise : NoiseXX H
  publicKey : HostIdentity → String
  sign : HostIdentity → List UInt8 → String
  verify : String → List UInt8 → String → Bool
  toVec : IdentityBinding → List UInt8
  fromSlice : List UInt8 → Option IdentityBinding

variable {H : Type} (crypto : Crypto H)

namespace IdentityBinding

def label : String := "mews-noise-binding-v1"

def signingBytes (binding : IdentityBinding) : List UInt8 :=
  Separated.join 0
    [bytesOf label, bytesOf binding.installationId.asStr, bytesOf binding.peerId,
      bytesOf binding.senderNoiseKey, bytesOf binding.receiverNoiseKey,
      bytesOf binding.handshakeHash]

def create (signer : HostIdentity) (installationId : InstallationId) (peerId : String)
    (senderNoiseKey receiverNoiseKey handshakeHash : List UInt8) : IdentityBinding :=
  let binding : IdentityBinding :=
    { installationId
      peerId
      senderNoiseKey := Base64.encode senderNoiseKey
      receiverNoiseKey := Base64.encode receiverNoiseKey
      handshakeHash := Base64.encode handshakeHash
      signature := "" }
  { binding with signature := crypto.sign signer binding.signingBytes }

def verify (binding : IdentityBinding) (trustedSigningKey : String)
    (installationId : InstallationId) (expectedPeerId : String)
    (expectedSenderNoise expectedReceiverNoise expectedHandshakeHash : List UInt8) :
    Except TransportError Unit :=
  if binding.installationId ≠ installationId ∨ binding.peerId ≠ expectedPeerId ∨
      binding.senderNoiseKey ≠ Base64.encode expectedSenderNoise ∨
      binding.receiverNoiseKey ≠ Base64.encode expectedReceiverNoise ∨
      binding.handshakeHash ≠ Base64.encode expectedHandshakeHash then
    .error (.bail "identity binding does not match the encrypted channel")
  else if crypto.verify trustedSigningKey binding.signingBytes binding.signature then .ok ()
  else .error (.bail "invalid Host identity signature")

end IdentityBinding

/-- `RelayPeerId::new`. -/
def RelayPeerId.new (value : String) : Except TransportError RelayPeerId :=
  if value = "" ∨ value.utf8ByteSize > 128 ∨
      (bytesOf value).all (fun byte =>
        (48 ≤ byte ∧ byte ≤ 57) ∨ (65 ≤ byte ∧ byte ≤ 90) ∨ (97 ≤ byte ∧ byte ≤ 122) ∨
          byte ∈ bytesOf "-_.:") = false then
    .error (.bail "invalid relay peer ID")
  else .ok ⟨value⟩

structure PeerAuthentication where
  installationId : InstallationId
  localPeer : RelayPeerId
  remotePeer : RelayPeerId
  localSigner : HostIdentity
  trustedRemoteSigningKey : String
  localNoise : NoiseIdentity
  expectedRemoteNoiseKey : Option String
  subjectId : String
  deriving DecidableEq, Repr

/-- What the end of a link has come to: the frames it has accepted, the handshakes it
has finished, and the bindings it has signed and that were presented to it. -/
structure LinkRecord (H : Type) where
  accepted : List RelayFrame
  handshakes : List H
  signed : List IdentityBinding
  presented : List IdentityBinding

/-- The relay of a link: the frames that it delivers, the frames that it has taken, and
its errors by the number of the frame. -/
structure Endpoint (H : Type) where
  arriving : List RelayFrame
  refuses : Nat → Option TransportError
  carried : List RelayFrame
  record : LinkRecord H

def Endpoint.start (arriving : List RelayFrame) (refuses : Nat → Option TransportError) :
    Endpoint H :=
  { arriving
    refuses
    carried := []
    record := { accepted := [], handshakes := [], signed := [], presented := [] } }

/-! ## The handshake -/

def channelPrologue (installationId : InstallationId) (initiator responder : RelayPeerId)
    (subjectId : String) : List UInt8 :=
  Separated.join 0
    [bytesOf "mews-host-rpc-v1", bytesOf installationId.asStr, bytesOf initiator.value,
      bytesOf responder.value, bytesOf subjectId]

/-- `RelayLink::send_frame`. -/
def sendFrame (frame : RelayFrame) : Tx (Endpoint H) TransportError Unit := fun endpoint =>
  match endpoint.refuses endpoint.carried.length with
  | some error => (.error error, endpoint)
  | none => (.ok (), { endpoint with carried := endpoint.carried ++ [frame] })

def sendRelay (authentication : PeerAuthentication) (sequence : Nat) (ciphertext : List UInt8) :
    Tx (Endpoint H) TransportError Unit := do
  let frame ← Tx.lift (RelayFrame.new authentication.installationId authentication.localPeer
    authentication.remotePeer authentication.subjectId sequence ciphertext)
  sendFrame frame

/-- The frame belongs to the link and has the number that comes next. -/
def PeerAuthentication.Expects (authentication : PeerAuthentication) (sequence : Nat)
    (frame : RelayFrame) : Prop :=
  frame.installationId = authentication.installationId ∧
    frame.sourceId = authentication.remotePeer ∧ frame.destinationId = authentication.localPeer ∧
    frame.subjectId = authentication.subjectId ∧ frame.sequence = sequence

instance (authentication : PeerAuthentication) (sequence : Nat) (frame : RelayFrame) :
    Decidable (authentication.Expects sequence frame) := inferInstanceAs (Decidable (_ ∧ _))

def receiveRelay (authentication : PeerAuthentication) (sequence : Nat) :
    Tx (Endpoint H) TransportError (List UInt8) := fun endpoint =>
  match endpoint.arriving with
  | [] => (.error (.bail "relay connection closed"), endpoint)
  | frame :: arriving =>
      if authentication.Expects sequence frame then
        (.ok frame.ciphertext, { endpoint with
          arriving
          record := { endpoint.record with accepted := endpoint.record.accepted ++ [frame] } })
      else (.error (.bail "invalid relay handshake frame"), { endpoint with arriving })

/-- `NoiseHandshake::read`. -/
def NoiseXX.read (noise : NoiseXX H) (handshake : H) (message : List UInt8) :
    Except TransportError H :=
  if message.length > 65535 then .error (.bail "Noise handshake frame is too large")
  else noise.readMessage handshake message

def NoiseXX.intoTransport (noise : NoiseXX H) (handshake : H) :
    Except TransportError NoiseTransport :=
  if noise.isHandshakeFinished handshake = false then .error (.bail "Noise handshake is incomplete")
  else noise.intoTransportMode handshake

/-- The static key of the enrolled peer, where it is known. -/
def checkRemoteNoise (expected : Option String) (remoteNoise : List UInt8) :
    Except TransportError Unit :=
  match expected with
  | none => .ok ()
  | some expected =>
      match Base64.decode expected with
      | none => .error (.bail "invalid expected remote Noise key")
      | some expectedRemote =>
          if remoteNoise ≠ expectedRemote then
            .error (.bail "remote Noise key is not the enrolled key")
          else .ok ()

/-- `IdentityBinding::create` for this end of the link. -/
def bind (authentication : PeerAuthentication) (remoteNoise handshakeHash : List UInt8) :
    IdentityBinding :=
  .create crypto authentication.localSigner authentication.installationId
    authentication.localPeer.value authentication.localNoise.publicBytes remoteNoise handshakeHash

/-- Signs the binding for a handshake. -/
def signBinding (authentication : PeerAuthentication) (handshake : H) (remoteNoise : List UInt8) :
    Tx (Endpoint H) TransportError IdentityBinding := fun endpoint =>
  let binding := bind crypto authentication remoteNoise (crypto.noise.getHandshakeHash handshake)
  (.ok binding, { endpoint with
    record := { endpoint.record with
      handshakes := endpoint.record.handshakes ++ [handshake]
      signed := endpoint.record.signed ++ [binding] } })

/-- `serde_json::from_slice` on what the other end sends. -/
def parseBinding (encoded : List UInt8) : Tx (Endpoint H) TransportError IdentityBinding :=
  fun endpoint =>
    match crypto.fromSlice encoded with
    | none => (.error .json, endpoint)
    | some binding => (.ok binding, { endpoint with
        record := { endpoint.record with presented := endpoint.record.presented ++ [binding] } })

/-- The peer at the end; frames of its subject have been sent. -/
def authenticatedPeer (authentication : PeerAuthentication) (transport : NoiseTransport)
    (sendSequence receiveSequence : Nat) : Except TransportError EncryptedRelayPeer :=
  if hsubject : isSubjectId authentication.subjectId = true then
    .ok
      { transport
        installationId := authentication.installationId
        localPeer := authentication.localPeer
        remotePeer := authentication.remotePeer
        subjectId := authentication.subjectId
        sendSequence
        receiveSequence
        subject_valid := hsubject }
  else .error .invalidStreamId

/-- Sends a binding over the new channel and receives the other end's. -/
def exchangeBindings (authentication : PeerAuthentication) (transport : NoiseTransport)
    (binding : IdentityBinding) (sendSequence receiveSequence : Nat) :
    Tx (Endpoint H) TransportError (IdentityBinding × NoiseTransport) := do
  let (encrypted, transport) ← Tx.lift (transport.encrypt (crypto.toVec binding))
  sendRelay authentication sendSequence encrypted
  let encrypted ← receiveRelay authentication receiveSequence
  let encoded ← Tx.lift (transport.decrypt encrypted).1
  let remoteBinding ← parseBinding crypto encoded
  return (remoteBinding, (transport.decrypt encrypted).2)

def finishAuthentication (authentication : PeerAuthentication) (handshake : H)
    (sendSequence receiveSequence : Nat) : Tx (Endpoint H) TransportError EncryptedRelayPeer := do
  let remoteNoise ← Tx.expect (crypto.noise.getRemoteStatic handshake)
    (.bail "remote Noise static key is not available")
  Tx.lift (checkRemoteNoise authentication.expectedRemoteNoiseKey remoteNoise)
  let binding ← signBinding crypto authentication handshake remoteNoise
  let transport ← Tx.lift (crypto.noise.intoTransport handshake)
  let (remoteBinding, transport) ←
    exchangeBindings crypto authentication transport binding sendSequence receiveSequence
  Tx.lift (remoteBinding.verify crypto authentication.trustedRemoteSigningKey
    authentication.installationId authentication.remotePeer.value remoteNoise
    authentication.localNoise.publicBytes (crypto.noise.getHandshakeHash handshake))
  Tx.lift (authenticatedPeer authentication transport (sendSequence + 1) (receiveSequence + 1))

def connectInitiator (authentication : PeerAuthentication) (ephemeral : List UInt8) :
    Tx (Endpoint H) TransportError EncryptedRelayPeer := do
  let prologue := channelPrologue authentication.installationId authentication.localPeer
    authentication.remotePeer authentication.subjectId
  let handshake ← Tx.lift (crypto.noise.initiator authentication.localNoise prologue ephemeral)
  let (message, handshake) ← Tx.lift (crypto.noise.writeMessage handshake)
  sendRelay authentication 0 message
  let message ← receiveRelay authentication 0
  let handshake ← Tx.lift (crypto.noise.read handshake message)
  let (message, handshake) ← Tx.lift (crypto.noise.writeMessage handshake)
  sendRelay authentication 1 message
  finishAuthentication crypto authentication handshake 2 1

def connectResponder (authentication : PeerAuthentication) (ephemeral : List UInt8) :
    Tx (Endpoint H) TransportError EncryptedRelayPeer := do
  let prologue := channelPrologue authentication.installationId authentication.remotePeer
    authentication.localPeer authentication.subjectId
  let handshake ← Tx.lift (crypto.noise.responder authentication.localNoise prologue ephemeral)
  let message ← receiveRelay authentication 0
  let handshake ← Tx.lift (crypto.noise.read handshake message)
  let (message, handshake) ← Tx.lift (crypto.noise.writeMessage handshake)
  sendRelay authentication 0 message
  let message ← receiveRelay authentication 1
  let handshake ← Tx.lift (crypto.noise.read handshake message)
  finishAuthentication crypto authentication handshake 1 2

/-! ## Many handshakes at once -/

/-- What the callers promise: the installation and the peers come from identifiers
without a separator, and the ends of a link have different peers. -/
structure PeerAuthentication.WellFormed (authentication : PeerAuthentication) : Prop where
  installationId : 0 ∉ bytesOf authentication.installationId.asStr
  localPeer : RelayPeerId.new authentication.localPeer.value = .ok authentication.localPeer
  remotePeer : RelayPeerId.new authentication.remotePeer.value = .ok authentication.remotePeer
  ne : authentication.localPeer ≠ authentication.remotePeer

def PeerAuthentication.prologue (authentication : PeerAuthentication) :
    HandshakeRole → List UInt8
  | .initiator => channelPrologue authentication.installationId authentication.localPeer
      authentication.remotePeer authentication.subjectId
  | .responder => channelPrologue authentication.installationId authentication.remotePeer
      authentication.localPeer authentication.subjectId

/-- One call of `connect_initiator` or `connect_responder`, with everything that the
relay does to it. -/
structure LinkAttempt where
  role : HandshakeRole
  authentication : PeerAuthentication
  ephemeral : List UInt8
  arriving : List RelayFrame
  refuses : Nat → Option TransportError
  wellFormed : authentication.WellFormed

namespace LinkAttempt

variable (attempt other : LinkAttempt)

def connect : Except TransportError EncryptedRelayPeer × Endpoint H :=
  match attempt.role with
  | .initiator => connectInitiator crypto attempt.authentication attempt.ephemeral
      (.start attempt.arriving attempt.refuses)
  | .responder => connectResponder crypto attempt.authentication attempt.ephemeral
      (.start attempt.arriving attempt.refuses)

/-- What the attempt has come to. -/
def record : LinkRecord H := (attempt.connect crypto).2.record

/-- The attempt has run a handshake with this hash and these Noise keys, and signed it. -/
def Ran (remoteNoise handshakeHash : List UInt8) : Prop :=
  bind crypto attempt.authentication remoteNoise handshakeHash ∈ (attempt.record crypto).signed

def Accepts (peer : EncryptedRelayPeer) : Prop := (attempt.connect crypto).1 = .ok peer

/-- The other attempt is what this one takes it for. -/
structure Agrees : Prop where
  role : other.role = attempt.role.opposite
  signer : crypto.publicKey other.authentication.localSigner =
    attempt.authentication.trustedRemoteSigningKey
  installationId : other.authentication.installationId = attempt.authentication.installationId
  localPeer : other.authentication.localPeer = attempt.authentication.remotePeer
  remotePeer : other.authentication.remotePeer = attempt.authentication.localPeer
  subjectId : other.authentication.subjectId = attempt.authentication.subjectId
  handshake : ∃ handshakeHash,
    attempt.Ran crypto other.authentication.localNoise.publicBytes handshakeHash ∧
      other.Ran crypto attempt.authentication.localNoise.publicBytes handshakeHash

end LinkAttempt

/-! ## Ideal primitives -/

/-- Two ends with one handshake hash have the same prologue, an ephemeral key for each
role, and the same transport keys. -/
structure IdealNoise (attempts : Set LinkAttempt) : Prop where
  prologue : ∀ attempt ∈ attempts, ∀ other ∈ attempts,
    ∀ handshake ∈ (attempt.record crypto).handshakes, ∀ handshake' ∈ (other.record crypto).handshakes,
    crypto.noise.getHandshakeHash handshake = crypto.noise.getHandshakeHash handshake' →
    attempt.authentication.prologue attempt.role = other.authentication.prologue other.role
  ephemeral : ∀ attempt ∈ attempts, ∀ other ∈ attempts,
    ∀ handshake ∈ (attempt.record crypto).handshakes, ∀ handshake' ∈ (other.record crypto).handshakes,
    crypto.noise.getHandshakeHash handshake = crypto.noise.getHandshakeHash handshake' →
    attempt.role = other.role → attempt.ephemeral = other.ephemeral
  transport : ∀ attempt ∈ attempts, ∀ other ∈ attempts,
    ∀ handshake ∈ (attempt.record crypto).handshakes, ∀ handshake' ∈ (other.record crypto).handshakes,
    crypto.noise.getHandshakeHash handshake = crypto.noise.getHandshakeHash handshake' →
    attempt.role ≠ other.role → ∀ transport transport',
    crypto.noise.intoTransportMode handshake = .ok transport →
    crypto.noise.intoTransportMode handshake' = .ok transport' →
    transport'.incoming = transport.outgoing ∧ transport'.receiveNonce = transport.sendNonce

/-- The other texts that an identity signs: for the relay, for an invitation and to
join. -/
inductive OtherText : List UInt8 → Prop
  | labelled (label : String) (part : List UInt8) (rest : List (List UInt8))
      (hlabel : label ∈ ["mews-relay-admission-v1", "mews-relay-registration-v1",
        "mews-join-request-v2"]) :
      OtherText (Separated.join 0 (bytesOf label :: part :: rest))
  | offer (members : List UInt8) : OtherText (bytesOf "\x7b" ++ members)

/-- A binding that is presented and verifies under the key has been signed by its
holder: in one of the attempts, or as a text for another purpose. -/
def Unforgeable (attempts : Set LinkAttempt) (key : String) : Prop :=
  ∀ attempt ∈ attempts, ∀ binding ∈ (attempt.record crypto).presented,
    crypto.verify key binding.signingBytes binding.signature = true →
    (∃ other ∈ attempts, crypto.publicKey other.authentication.localSigner = key ∧
      ∃ binding' ∈ (other.record crypto).signed, binding'.signingBytes = binding.signingBytes) ∨
    OtherText binding.signingBytes

/-! ## What one attempt comes to -/

section Attempt

variable {crypto} {authentication : PeerAuthentication} {endpoint : Endpoint H}
variable {failed : TransportError → Endpoint H → Prop}

theorem settles_sendRelay {sequence : Nat} {ciphertext : List UInt8}
    {post : Unit → Endpoint H → Prop}
    (hpost : ∀ reached, reached.record = endpoint.record → post () reached)
    (hfailed : ∀ error reached, reached.record = endpoint.record → failed error reached) :
    Tx.settles (sendRelay authentication sequence ciphertext) endpoint post failed := by
  rw [sendRelay, Tx.settles_bind, Tx.settles_lift]
  cases RelayFrame.new authentication.installationId authentication.localPeer
      authentication.remotePeer authentication.subjectId sequence ciphertext with
  | error error => exact hfailed error endpoint rfl
  | ok frame =>
      change Tx.settles (sendFrame frame) endpoint post failed
      rw [Tx.settles, sendFrame]
      cases endpoint.refuses endpoint.carried.length with
      | some error => exact hfailed error endpoint rfl
      | none => exact hpost _ rfl

theorem settles_receiveRelay {sequence : Nat} {post : List UInt8 → Endpoint H → Prop}
    (hpost : ∀ frame reached, authentication.Expects sequence frame →
      reached.record = { endpoint.record with accepted := endpoint.record.accepted ++ [frame] } →
      post frame.ciphertext reached)
    (hfailed : ∀ error reached, reached.record = endpoint.record → failed error reached) :
    Tx.settles (receiveRelay authentication sequence) endpoint post failed := by
  rw [Tx.settles, receiveRelay]
  cases endpoint.arriving with
  | nil => exact hfailed _ endpoint rfl
  | cons frame arriving =>
      by_cases hexpects : authentication.Expects sequence frame
      · simp only [if_pos hexpects]
        exact hpost frame _ hexpects rfl
      · simp only [if_neg hexpects]
        exact hfailed _ _ rfl

theorem settles_parseBinding {encoded : List UInt8} {post : IdentityBinding → Endpoint H → Prop}
    (hpost : ∀ binding reached,
      reached.record = { endpoint.record with
        presented := endpoint.record.presented ++ [binding] } → post binding reached)
    (hfailed : ∀ error reached, reached.record = endpoint.record → failed error reached) :
    Tx.settles (parseBinding crypto encoded) endpoint post failed := by
  rw [Tx.settles, parseBinding]
  cases crypto.fromSlice encoded with
  | none => exact hfailed _ endpoint rfl
  | some binding => exact hpost binding _ rfl

/-- A computation without the relay. -/
theorem settles_lift_bind {A B : Type} {outcome : Except TransportError A}
    {next : A → Tx (Endpoint H) TransportError B} {post : B → Endpoint H → Prop}
    (hnext : ∀ value, outcome = .ok value → Tx.settles (next value) endpoint post failed)
    (hfailed : ∀ error, failed error endpoint) :
    Tx.settles (Tx.lift outcome >>= next) endpoint post failed := by
  rw [Tx.settles_bind, Tx.settles_lift]
  cases outcome with
  | ok value => exact hnext value rfl
  | error error => exact hfailed error

theorem settles_expect_bind {A B : Type} {found : Option A} {error : TransportError}
    {next : A → Tx (Endpoint H) TransportError B} {post : B → Endpoint H → Prop}
    (hnext : ∀ value, found = some value → Tx.settles (next value) endpoint post failed)
    (hfailed : failed error endpoint) :
    Tx.settles (Tx.expect found error >>= next) endpoint post failed := by
  cases found with
  | some value => exact hnext value rfl
  | none => exact hfailed

namespace LinkRecord

/-- The frames have the numbers that they should, from 0 on. -/
def Addressed (authentication : PeerAuthentication) (record : LinkRecord H) : Prop :=
  ∀ number frame, record.accepted[number]? = some frame → authentication.Expects number frame

/-- Nothing has been signed or presented. -/
structure Fresh (record : LinkRecord H) : Prop where
  handshakes : record.handshakes = []
  signed : record.signed = []
  presented : record.presented = []

variable (crypto) in
/-- At most one handshake has been finished, and its binding signed. -/
structure Sound (authentication : PeerAuthentication) (record : LinkRecord H) : Prop where
  addressed : record.Addressed authentication
  signed : record.Fresh ∨ ∃ handshake remoteNoise, record.handshakes = [handshake] ∧
    record.signed = [bind crypto authentication remoteNoise
      (crypto.noise.getHandshakeHash handshake)]

/-- The handshake is under way, and so many frames have come. -/
structure Opening (authentication : PeerAuthentication) (count : Nat) (record : LinkRecord H) :
    Prop where
  fresh : record.Fresh
  addressed : record.Addressed authentication
  length_accepted : record.accepted.length = count

/-- What a successful attempt has checked. -/
structure Finished (crypto : Crypto H) (authentication : PeerAuthentication)
    (sendSequence receiveSequence : Nat) (peer : EncryptedRelayPeer) (record : LinkRecord H) :
    Prop where
  addressed : record.Addressed authentication
  length_accepted : record.accepted.length = receiveSequence
  verified : ∃ handshake remoteNoise binding transport,
    record.handshakes = [handshake] ∧
    record.signed = [bind crypto authentication remoteNoise
      (crypto.noise.getHandshakeHash handshake)] ∧
    record.presented = [binding] ∧
    binding.verify crypto authentication.trustedRemoteSigningKey authentication.installationId
      authentication.remotePeer.value remoteNoise authentication.localNoise.publicBytes
      (crypto.noise.getHandshakeHash handshake) = .ok () ∧
    crypto.noise.intoTransportMode handshake = .ok transport ∧
    peer.transport = { transport with
      sendNonce := transport.sendNonce + 1, receiveNonce := transport.receiveNonce + 1 }
  installationId : peer.installationId = authentication.installationId
  localPeer : peer.localPeer = authentication.localPeer
  remotePeer : peer.remotePeer = authentication.remotePeer
  subjectId : peer.subjectId = authentication.subjectId
  sendSequence : peer.sendSequence = sendSequence
  receiveSequence : peer.receiveSequence = receiveSequence

theorem Addressed.append {record : LinkRecord H} {frame : RelayFrame}
    (haddressed : record.Addressed authentication)
    (hexpects : authentication.Expects record.accepted.length frame) :
    Addressed authentication { record with accepted := record.accepted ++ [frame] } := by
  intro number other hfound
  rw [List.getElem?_append] at hfound
  split_ifs at hfound with hlt
  · exact haddressed number other hfound
  · rw [List.getElem?_singleton] at hfound
    split_ifs at hfound with hzero
    obtain rfl := Option.some.inj hfound
    have hnumber : number = record.accepted.length := by omega
    rw [hnumber]
    exact hexpects

theorem opening_start (authentication : PeerAuthentication) (arriving : List RelayFrame)
    (refuses : Nat → Option TransportError) :
    (@Endpoint.start H arriving refuses).record.Opening authentication 0 where
  fresh := ⟨rfl, rfl, rfl⟩
  addressed := fun _ _ hfound => by simp [Endpoint.start] at hfound
  length_accepted := rfl

namespace Opening

variable {record : LinkRecord H} {count : Nat} (hopening : record.Opening authentication count)

include hopening

theorem sound : record.Sound crypto authentication := ⟨hopening.addressed, .inl hopening.fresh⟩

theorem append {frame : RelayFrame} (hexpects : authentication.Expects count frame) :
    Opening authentication (count + 1)
      { record with accepted := record.accepted ++ [frame] } := by
  obtain ⟨⟨hhandshakes, hsigned, hpresented⟩, haddressed, rfl⟩ := hopening
  exact ⟨⟨hhandshakes, hsigned, hpresented⟩, haddressed.append hexpects, List.length_append⟩

end Opening

end LinkRecord

theorem encrypt_eq {transport transport' : NoiseTransport} {plaintext ciphertext : List UInt8}
    (hencrypt : transport.encrypt plaintext = .ok (ciphertext, transport')) :
    transport' = { transport with sendNonce := transport.sendNonce + 1 } := by
  rw [NoiseTransport.encrypt] at hencrypt
  split_ifs at hencrypt
  injection hencrypt with hpair
  exact (Prod.mk.inj hpair).2.symm

theorem decrypt_eq {transport : NoiseTransport} {plaintext ciphertext : List UInt8}
    (hdecrypt : (transport.decrypt ciphertext).1 = .ok plaintext) :
    (transport.decrypt ciphertext).2 =
      { transport with receiveNonce := transport.receiveNonce + 1 } := by
  rw [NoiseTransport.decrypt] at hdecrypt ⊢
  split_ifs at hdecrypt ⊢
  cases hopen : transport.incoming.openRecord transport.receiveNonce ciphertext with
  | none => simp [hopen] at hdecrypt
  | some record => rfl

theorem intoTransportMode_eq {noise : NoiseXX H} {handshake : H} {transport : NoiseTransport}
    (hinto : noise.intoTransport handshake = .ok transport) :
    noise.intoTransportMode handshake = .ok transport := by
  rw [NoiseXX.intoTransport] at hinto
  split_ifs at hinto
  exact hinto

theorem settles_exchangeBindings {transport : NoiseTransport} {binding : IdentityBinding}
    {sendSequence : Nat} (haddressed : endpoint.record.Addressed authentication) :
    Tx.settles (exchangeBindings crypto authentication transport binding sendSequence
        endpoint.record.accepted.length) endpoint
      (fun result reached => reached.record.Addressed authentication ∧
        reached.record.accepted.length = endpoint.record.accepted.length + 1 ∧
        reached.record.handshakes = endpoint.record.handshakes ∧
        reached.record.signed = endpoint.record.signed ∧
        reached.record.presented = endpoint.record.presented ++ [result.1] ∧
        result.2 = { transport with
          sendNonce := transport.sendNonce + 1, receiveNonce := transport.receiveNonce + 1 })
      (fun _ reached => reached.record.Addressed authentication ∧
        reached.record.handshakes = endpoint.record.handshakes ∧
        reached.record.signed = endpoint.record.signed) := by
  apply settles_lift_bind
  · rintro ⟨encrypted, sending⟩ hencrypted
    rw [Tx.settles_bind]
    apply settles_sendRelay
    · intro reached hrecord
      rw [Tx.settles_bind]
      apply settles_receiveRelay
      · intro frame accepting hexpects haccepted
        rw [hrecord] at haccepted
        have haddressed' : accepting.record.Addressed authentication := by
          rw [haccepted]
          exact haddressed.append hexpects
        apply settles_lift_bind
        · intro encoded hencoded
          rw [Tx.settles_bind]
          apply settles_parseBinding
          · intro remoteBinding parsed hparsed
            rw [Tx.settles_pure, hparsed]
            refine ⟨haddressed', ?_, by rw [haccepted], by rw [haccepted], ?_, ?_⟩
            · rw [haccepted]
              exact List.length_append
            · rw [haccepted]
            · rw [decrypt_eq hencoded, encrypt_eq hencrypted]
          · intro error parsed hparsed
            rw [hparsed]
            exact ⟨haddressed', by rw [haccepted], by rw [haccepted]⟩
        · intro error
          exact ⟨haddressed', by rw [haccepted], by rw [haccepted]⟩
      · intro error accepting haccepted
        rw [haccepted, hrecord]
        exact ⟨haddressed, rfl, rfl⟩
    · intro error reached hrecord
      rw [hrecord]
      exact ⟨haddressed, rfl, rfl⟩
  · exact fun _ => ⟨haddressed, rfl, rfl⟩

theorem settles_authenticatedPeer {transport : NoiseTransport} {sendSequence receiveSequence : Nat}
    {post : EncryptedRelayPeer → Endpoint H → Prop}
    (hpost : ∀ hsubject : isSubjectId authentication.subjectId = true,
      post
        { transport
          installationId := authentication.installationId
          localPeer := authentication.localPeer
          remotePeer := authentication.remotePeer
          subjectId := authentication.subjectId
          sendSequence
          receiveSequence
          subject_valid := hsubject } endpoint)
    (hfailed : ∀ error, failed error endpoint) :
    Tx.settles (Tx.lift (authenticatedPeer authentication transport sendSequence receiveSequence))
      endpoint post failed := by
  rw [Tx.settles_lift, authenticatedPeer]
  by_cases hsubject : isSubjectId authentication.subjectId = true
  · simp only [dif_pos hsubject]
    exact hpost hsubject
  · simp only [dif_neg hsubject]
    exact hfailed _

theorem settles_finishAuthentication {handshake : H} {sendSequence receiveSequence : Nat}
    (hopening : endpoint.record.Opening authentication receiveSequence) :
    Tx.settles (finishAuthentication crypto authentication handshake sendSequence receiveSequence)
      endpoint
      (fun peer reached => LinkRecord.Finished crypto authentication (sendSequence + 1)
        (receiveSequence + 1) peer reached.record)
      (fun _ reached => reached.record.Sound crypto authentication) := by
  obtain ⟨hfresh, haddressed, rfl⟩ := hopening
  have hsound : endpoint.record.Sound crypto authentication := ⟨haddressed, .inl hfresh⟩
  apply settles_expect_bind
  · intro remoteNoise hremote
    apply settles_lift_bind
    · intro _ hexpected
      rw [Tx.settles_bind]
      -- From here on the handshake is finished and its binding signed.
      generalize hsigning : (signBinding crypto authentication handshake remoteNoise endpoint).2 =
        signing
      have haddressed' : signing.record.Addressed authentication := by
        rw [← hsigning]
        exact haddressed
      have hhandshakes : signing.record.handshakes = [handshake] := by
        rw [← hsigning]
        exact congrArg (· ++ [handshake]) hfresh.handshakes
      have hsigned : signing.record.signed = [bind crypto authentication remoteNoise
          (crypto.noise.getHandshakeHash handshake)] := by
        rw [← hsigning]
        exact congrArg (· ++ [_]) hfresh.signed
      have hpresented : signing.record.presented = [] := by
        rw [← hsigning]
        exact hfresh.presented
      have hsound' : signing.record.Sound crypto authentication :=
        ⟨haddressed', .inr ⟨handshake, remoteNoise, hhandshakes, hsigned⟩⟩
      have hlength : endpoint.record.accepted.length = signing.record.accepted.length := by
        rw [← hsigning]
        rfl
      rw [hlength]
      change Tx.settles _ (signBinding crypto authentication handshake remoteNoise endpoint).2 _ _
      rw [hsigning]
      apply settles_lift_bind
      · intro transport htransport
        rw [Tx.settles_bind]
        apply Tx.settles_mono _ _ (settles_exchangeBindings haddressed')
        · rintro ⟨remoteBinding, exchanged⟩ reached ⟨haccepted, hcount, hkept, hkept', hadded, hnonces⟩
          rw [hpresented] at hadded
          have hreached : reached.record.Sound crypto authentication :=
            ⟨haccepted, .inr ⟨handshake, remoteNoise, hkept.trans hhandshakes, hkept'.trans hsigned⟩⟩
          apply settles_lift_bind
          · intro _ hverified
            apply settles_authenticatedPeer
            · intro hsubject
              exact
                { addressed := haccepted
                  length_accepted := hcount
                  verified := ⟨handshake, remoteNoise, remoteBinding, transport,
                    hkept.trans hhandshakes, hkept'.trans hsigned, hadded, hverified,
                    intoTransportMode_eq htransport, hnonces⟩
                  installationId := rfl
                  localPeer := rfl
                  remotePeer := rfl
                  subjectId := rfl
                  sendSequence := rfl
                  receiveSequence := congrArg (· + 1) rfl }
            · exact fun _ => hreached
          · exact fun _ => hreached
        · rintro error reached ⟨haccepted, hkept, hkept'⟩
          exact ⟨haccepted, .inr ⟨handshake, remoteNoise, hkept.trans hhandshakes,
            hkept'.trans hsigned⟩⟩
      · exact fun _ => hsound'
    · exact fun _ => hsound
  · exact hsound

theorem settles_connectInitiator (ephemeral : List UInt8) (arriving : List RelayFrame)
    (refuses : Nat → Option TransportError) :
    Tx.settles (connectInitiator crypto authentication ephemeral) (.start arriving refuses)
      (fun peer reached => LinkRecord.Finished crypto authentication 3 2 peer reached.record)
      (fun _ reached => reached.record.Sound crypto authentication) := by
  have hstart := @LinkRecord.opening_start H authentication arriving refuses
  apply settles_lift_bind
  · intro opened hopened
    apply settles_lift_bind
    · rintro ⟨first, written⟩ hfirst
      rw [Tx.settles_bind]
      apply settles_sendRelay
      · intro sent hsent
        rw [Tx.settles_bind]
        apply settles_receiveRelay
        · intro frame received hexpects hreceived
          rw [hsent] at hreceived
          have hopening := hreceived ▸ hstart.append hexpects
          apply settles_lift_bind
          · intro read hread
            apply settles_lift_bind
            · rintro ⟨third, finished⟩ hthird
              rw [Tx.settles_bind]
              apply settles_sendRelay
              · intro sent' hsent'
                apply settles_finishAuthentication
                rw [hsent']
                exact hopening
              · intro error sent' hsent'
                rw [hsent']
                exact hopening.sound
            · exact fun _ => hopening.sound
          · exact fun _ => hopening.sound
        · intro error received hreceived
          rw [hreceived, hsent]
          exact hstart.sound
      · intro error sent hsent
        rw [hsent]
        exact hstart.sound
    · exact fun _ => hstart.sound
  · exact fun _ => hstart.sound

theorem settles_connectResponder (ephemeral : List UInt8) (arriving : List RelayFrame)
    (refuses : Nat → Option TransportError) :
    Tx.settles (connectResponder crypto authentication ephemeral) (.start arriving refuses)
      (fun peer reached => LinkRecord.Finished crypto authentication 2 3 peer reached.record)
      (fun _ reached => reached.record.Sound crypto authentication) := by
  have hstart := @LinkRecord.opening_start H authentication arriving refuses
  apply settles_lift_bind
  · intro opened hopened
    rw [Tx.settles_bind]
    apply settles_receiveRelay
    · intro frame received hexpects hreceived
      have hopening := hreceived ▸ hstart.append hexpects
      apply settles_lift_bind
      · intro read hread
        apply settles_lift_bind
        · rintro ⟨second, written⟩ hsecond
          rw [Tx.settles_bind]
          apply settles_sendRelay
          · intro sent hsent
            rw [Tx.settles_bind]
            apply settles_receiveRelay
            · intro frame' received' hexpects' hreceived'
              rw [hsent] at hreceived'
              have hopening' := hreceived' ▸ hopening.append hexpects'
              apply settles_lift_bind
              · intro finished hfinished
                exact settles_finishAuthentication hopening'
              · exact fun _ => hopening'.sound
            · intro error received' hreceived'
              rw [hreceived', hsent]
              exact hopening.sound
          · intro error sent hsent
            rw [hsent]
            exact hopening.sound
        · exact fun _ => hopening.sound
      · exact fun _ => hopening.sound
    · intro error received hreceived
      rw [hreceived]
      exact hstart.sound
  · exact fun _ => hstart.sound

end Attempt

/-! ## What the texts determine -/

theorem RelayPeerId.zero_notMem {value : String} {peer : RelayPeerId}
    (hnew : RelayPeerId.new value = .ok peer) : 0 ∉ bytesOf value := by
  intro hzero
  rw [RelayPeerId.new] at hnew
  split_ifs at hnew with hinvalid
  apply hinvalid
  refine .inr (.inr ?_)
  rw [List.all_eq_false]
  exact ⟨0, hzero, by decide⟩

theorem asStr_inj {id id' : InstallationId} (heq : bytesOf id.asStr = bytesOf id'.asStr) :
    id = id' := by
  rw [TaggedId.asStr, TaggedId.asStr, bytesOf_append, bytesOf_append] at heq
  have huuid : id.uuid = id'.uuid := bytesOf_injective (List.append_cancel_left heq)
  cases id
  cases id'
  exact congrArg TaggedId.mk huuid

theorem channelPrologue_inj {id id' : InstallationId} {peer peer' other other' : RelayPeerId}
    {subjectId subjectId' : String} (hid : 0 ∉ bytesOf id.asStr) (hid' : 0 ∉ bytesOf id'.asStr)
    (hpeer : 0 ∉ bytesOf peer.value) (hpeer' : 0 ∉ bytesOf peer'.value)
    (hother : 0 ∉ bytesOf other.value) (hother' : 0 ∉ bytesOf other'.value)
    (heq : channelPrologue id peer other subjectId = channelPrologue id' peer' other' subjectId') :
    id = id' ∧ peer = peer' ∧ other = other' ∧ subjectId = subjectId' := by
  have hlabel : 0 ∉ bytesOf "mews-host-rpc-v1" := by decide
  have hparts := Separated.eq_of_join_eq heq rfl ⟨hlabel, hid, hpeer, hother, trivial⟩
    ⟨hlabel, hid', hpeer', hother', trivial⟩
  simp only [List.cons.injEq, true_and, and_true] at hparts
  obtain ⟨hinstallation, hfirst, hsecond, hsubject⟩ := hparts
  cases peer
  cases peer'
  cases other
  cases other'
  exact ⟨asStr_inj hinstallation, congrArg _ (bytesOf_injective hfirst),
    congrArg _ (bytesOf_injective hsecond), bytesOf_injective hsubject⟩

namespace PeerAuthentication

variable {authentication authentication' : PeerAuthentication}

theorem WellFormed.zero_notMem (hvalid : authentication.WellFormed) :
    0 ∉ bytesOf authentication.localPeer.value ∧ 0 ∉ bytesOf authentication.remotePeer.value :=
  ⟨RelayPeerId.zero_notMem hvalid.localPeer, RelayPeerId.zero_notMem hvalid.remotePeer⟩

/-- A prologue names the link and its initiator. -/
theorem prologue_inj {role role' : HandshakeRole} (hvalid : authentication.WellFormed)
    (hvalid' : authentication'.WellFormed)
    (heq : authentication.prologue role = authentication'.prologue role') :
    authentication.subjectId = authentication'.subjectId ∧
      (role = role' ∧ authentication.localPeer = authentication'.localPeer ∨
        role' = role.opposite ∧ authentication.localPeer = authentication'.remotePeer ∧
          authentication.remotePeer = authentication'.localPeer) := by
  obtain ⟨hlocal, hremote⟩ := hvalid.zero_notMem
  obtain ⟨hlocal', hremote'⟩ := hvalid'.zero_notMem
  have hinj {peer other peer' other' : RelayPeerId} := @channelPrologue_inj
    authentication.installationId authentication'.installationId peer peer' other other'
    authentication.subjectId authentication'.subjectId hvalid.installationId hvalid'.installationId
  cases role with
  | initiator =>
      cases role' with
      | initiator =>
          have h := hinj hlocal hlocal' hremote hremote' heq
          exact ⟨h.2.2.2, .inl ⟨rfl, h.2.1⟩⟩
      | responder =>
          have h := hinj hlocal hremote' hremote hlocal' heq
          exact ⟨h.2.2.2, .inr ⟨rfl, h.2.1, h.2.2.1⟩⟩
  | responder =>
      cases role' with
      | initiator =>
          have h := hinj hremote hlocal' hlocal hremote' heq
          exact ⟨h.2.2.2, .inr ⟨rfl, h.2.2.1, h.2.1⟩⟩
      | responder =>
          have h := hinj hremote hremote' hlocal hlocal' heq
          exact ⟨h.2.2.2, .inl ⟨rfl, h.2.2.1⟩⟩

end PeerAuthentication

namespace IdentityBinding

theorem zero_notMem_label : 0 ∉ bytesOf label := by decide

/-- A signed text names the installation, the peer, the keys and the handshake. -/
theorem signingBytes_inj {authentication authentication' : PeerAuthentication}
    {remoteNoise remoteNoise' handshakeHash handshakeHash' : List UInt8}
    (hvalid : authentication.WellFormed) (hvalid' : authentication'.WellFormed)
    {binding : IdentityBinding}
    (hid : binding.installationId = authentication.installationId)
    (hpeer : binding.peerId = authentication.remotePeer.value)
    (hsender : binding.senderNoiseKey = Base64.encode remoteNoise)
    (hreceiver : binding.receiverNoiseKey = Base64.encode authentication.localNoise.publicBytes)
    (hhash : binding.handshakeHash = Base64.encode handshakeHash)
    (heq : (bind crypto authentication' remoteNoise' handshakeHash').signingBytes =
      binding.signingBytes) :
    authentication'.installationId = authentication.installationId ∧
      authentication'.localPeer = authentication.remotePeer ∧
      authentication'.localNoise.publicBytes = remoteNoise ∧
      remoteNoise' = authentication.localNoise.publicBytes ∧ handshakeHash' = handshakeHash := by
  rw [signingBytes, signingBytes, hid, hpeer, hsender, hreceiver, hhash] at heq
  have hencode := Base64.zero_notMem_encode
  have hparts := Separated.eq_of_join_eq heq rfl
    ⟨zero_notMem_label, hvalid'.installationId, hvalid'.zero_notMem.1, hencode _, hencode _, trivial⟩
    ⟨zero_notMem_label, hvalid.installationId, hvalid.zero_notMem.2, hencode _, hencode _, trivial⟩
  simp only [List.cons.injEq, true_and, and_true] at hparts
  obtain ⟨hinstallation, hlocal, hkey, hkey', hhandshake⟩ := hparts
  have hdecode {content content' : List UInt8}
      (heq : bytesOf (Base64.encode content) = bytesOf (Base64.encode content')) :
      content = content' := Base64.encode_injective (bytesOf_injective heq)
  refine ⟨asStr_inj hinstallation, ?_, hdecode hkey, hdecode hkey', hdecode hhandshake⟩
  have hvalue : authentication'.localPeer.value = authentication.remotePeer.value :=
    bytesOf_injective hlocal
  cases hpeer' : authentication'.localPeer
  cases hpeer'' : authentication.remotePeer
  rw [hpeer', hpeer''] at hvalue
  exact congrArg RelayPeerId.mk hvalue

/-- The text of a binding is signed for nothing else. -/
theorem not_otherText (binding : IdentityBinding) : ¬OtherText binding.signingBytes := by
  generalize htext : binding.signingBytes = text
  intro hother
  cases hother with
  | labelled label' part rest hmem =>
      have hlabels : ∀ label' ∈ ["mews-relay-admission-v1", "mews-relay-registration-v1",
          "mews-join-request-v2"], 0 ∉ bytesOf label' ∧ label ≠ label' := by decide
      have hlabel := (Separated.join_cons_inj zero_notMem_label (hlabels label' hmem).1).mp htext
      exact (hlabels label' hmem).2 (bytesOf_injective hlabel.1)
  | offer members =>
      have hfirst : some (109 : UInt8) = some 123 := congrArg List.head? htext
      exact absurd hfirst (by decide)

theorem verify_eq {binding : IdentityBinding} {key peerId : String} {id : InstallationId}
    {senderNoise receiverNoise handshakeHash : List UInt8}
    (hverify : binding.verify crypto key id peerId senderNoise receiverNoise handshakeHash =
      .ok ()) :
    (binding.installationId = id ∧ binding.peerId = peerId ∧
      binding.senderNoiseKey = Base64.encode senderNoise ∧
      binding.receiverNoiseKey = Base64.encode receiverNoise ∧
      binding.handshakeHash = Base64.encode handshakeHash) ∧
    crypto.verify key binding.signingBytes binding.signature = true := by
  rw [verify] at hverify
  split_ifs at hverify with hmatch hsignature
  refine ⟨?_, hsignature⟩
  simpa only [not_or, not_not] using hmatch

end IdentityBinding

/-! ## The ends of a link agree -/

namespace HandshakeRole

/-- The number of the first frame after the handshake. -/
def sent : HandshakeRole → Nat
  | .initiator => 3
  | .responder => 2

theorem opposite_opposite (role : HandshakeRole) : role.opposite.opposite = role := by
  cases role <;> rfl

theorem opposite_ne (role : HandshakeRole) : role ≠ role.opposite := by
  cases role <;> decide

end HandshakeRole

namespace LinkAttempt

variable {crypto} {attempt other : LinkAttempt} {peer : EncryptedRelayPeer}

variable (crypto) in
theorem connect_cases (attempt : LinkAttempt) :
    (∃ peer, attempt.Accepts crypto peer ∧ LinkRecord.Finished crypto attempt.authentication
      attempt.role.sent attempt.role.opposite.sent peer (attempt.record crypto)) ∨
    ∃ error, (attempt.connect crypto).1 = .error error ∧
      (attempt.record crypto).Sound crypto attempt.authentication := by
  obtain ⟨role, authentication, ephemeral, arriving, refuses, hvalid⟩ := attempt
  cases role with
  | initiator => exact (settles_connectInitiator ephemeral arriving refuses).cases
  | responder => exact (settles_connectResponder ephemeral arriving refuses).cases

theorem Accepts.finished (haccepts : attempt.Accepts crypto peer) :
    LinkRecord.Finished crypto attempt.authentication attempt.role.sent attempt.role.opposite.sent
      peer (attempt.record crypto) := by
  rcases connect_cases crypto attempt with ⟨peer', haccepts', hfinished⟩ | ⟨error, herror, _⟩
  · obtain rfl : peer = peer' := Except.ok.inj (haccepts.symm.trans haccepts')
    exact hfinished
  · cases herror.symm.trans haccepts

variable (crypto) in
theorem sound (attempt : LinkAttempt) :
    (attempt.record crypto).Sound crypto attempt.authentication := by
  rcases connect_cases crypto attempt with ⟨peer, _, hfinished⟩ | ⟨error, _, hsound⟩
  · obtain ⟨handshake, remoteNoise, _, _, hhandshakes, hsigned, _⟩ := hfinished.verified
    exact ⟨hfinished.addressed, .inr ⟨handshake, remoteNoise, hhandshakes, hsigned⟩⟩
  · exact hsound

/-- A signed binding is the only one, and it is that of the only finished handshake. -/
theorem signed_cases {binding : IdentityBinding} (hsigned : binding ∈ (attempt.record crypto).signed) :
    ∃ handshake remoteNoise, (attempt.record crypto).handshakes = [handshake] ∧
      (attempt.record crypto).signed = [binding] ∧ binding =
        bind crypto attempt.authentication remoteNoise (crypto.noise.getHandshakeHash handshake) := by
  rcases (sound crypto attempt).signed with hfresh | ⟨handshake, remoteNoise, hfound, heq⟩
  · rw [hfresh.signed] at hsigned
    cases hsigned
  · rw [heq, List.mem_singleton] at hsigned
    exact ⟨handshake, remoteNoise, hfound, by rw [heq, hsigned], hsigned⟩

theorem Ran.handshake {remoteNoise handshakeHash : List UInt8}
    (hran : attempt.Ran crypto remoteNoise handshakeHash) :
    ∃ handshake ∈ (attempt.record crypto).handshakes,
      crypto.noise.getHandshakeHash handshake = handshakeHash := by
  obtain ⟨handshake, remoteNoise', hfound, _, heq⟩ := signed_cases hran
  refine ⟨handshake, by rw [hfound]; exact List.mem_cons_self, ?_⟩
  exact (Base64.encode_injective (congrArg IdentityBinding.handshakeHash heq)).symm

theorem Ran.unique {remoteNoise remoteNoise' handshakeHash handshakeHash' : List UInt8}
    (hran : attempt.Ran crypto remoteNoise handshakeHash)
    (hran' : attempt.Ran crypto remoteNoise' handshakeHash') : handshakeHash = handshakeHash' := by
  obtain ⟨_, _, _, hsigned, _⟩ := signed_cases hran
  rw [Ran, hsigned, List.mem_singleton] at hran'
  exact (Base64.encode_injective (congrArg IdentityBinding.handshakeHash hran')).symm

variable {attempts : Set LinkAttempt}

/-- The holder of the trusted key has run the handshake from the other side. -/
theorem Accepts.agrees (hideal : IdealNoise crypto attempts) (hattempt : attempt ∈ attempts)
    (haccepts : attempt.Accepts crypto peer)
    (hunforgeable : Unforgeable crypto attempts attempt.authentication.trustedRemoteSigningKey) :
    ∃ other ∈ attempts, attempt.Agrees crypto other ∧
      ∀ binding ∈ (attempt.record crypto).presented, ∃ signed ∈ (other.record crypto).signed,
        signed.signingBytes = binding.signingBytes := by
  obtain ⟨handshake, remoteNoise, binding, transport, hhandshakes, hsigned, hpresented, hverified, _⟩ :=
    haccepts.finished.verified
  obtain ⟨⟨hid, hpeer, hsender, hreceiver, hhash⟩, hsignature⟩ := IdentityBinding.verify_eq crypto hverified
  have hbinding : binding ∈ (attempt.record crypto).presented := by
    rw [hpresented]
    exact List.mem_cons_self
  rcases hunforgeable attempt hattempt binding hbinding hsignature with
    ⟨other, hother, hkey, binding', hsigned', htext⟩ | htext
  · obtain ⟨handshake', remoteNoise', hhandshakes', hsigned'', rfl⟩ := signed_cases hsigned'
    obtain ⟨hinstallation, hlocal, hnoise, hnoise', hhash'⟩ := IdentityBinding.signingBytes_inj crypto
      attempt.wellFormed other.wellFormed hid hpeer hsender hreceiver hhash htext
    have hmem : handshake ∈ (attempt.record crypto).handshakes := by
      rw [hhandshakes]
      exact List.mem_cons_self
    have hmem' : handshake' ∈ (other.record crypto).handshakes := by
      rw [hhandshakes']
      exact List.mem_cons_self
    obtain ⟨hsubject, hrole⟩ := PeerAuthentication.prologue_inj attempt.wellFormed other.wellFormed
      (hideal.prologue attempt hattempt other hother handshake hmem handshake' hmem' hhash'.symm)
    refine ⟨other, hother, ?_, ?_⟩
    · rcases hrole with ⟨_, hsame⟩ | ⟨hopposite, hremote, _⟩
      · -- The other end would have the peer of this one.
        exact absurd (hsame.trans hlocal) attempt.wellFormed.ne
      · exact
          { role := hopposite
            signer := hkey
            installationId := hinstallation
            localPeer := hlocal
            remotePeer := hremote.symm
            subjectId := hsubject.symm
            handshake := by
              refine ⟨crypto.noise.getHandshakeHash handshake, ?_, ?_⟩
              · rw [Ran, hsigned, hnoise]
                exact List.mem_cons_self
              · rw [Ran, hsigned'', ← hhash', ← hnoise']
                exact List.mem_cons_self }
    · intro presented hmem''
      rw [hpresented, List.mem_singleton] at hmem''
      rw [hmem'']
      exact ⟨_, hsigned', htext⟩
  · exact absurd htext binding.not_otherText

/-- No other handshake of this side belongs to the other one's. -/
theorem Agrees.unique {attempt' : LinkAttempt} (hideal : IdealNoise crypto attempts)
    (hfresh : Set.InjOn ephemeral attempts) (hattempt : attempt ∈ attempts)
    (hattempt' : attempt' ∈ attempts) (hagrees : attempt.Agrees crypto other)
    (hagrees' : attempt'.Agrees crypto other) : attempt' = attempt := by
  obtain ⟨handshakeHash, hran, hother⟩ := hagrees.handshake
  obtain ⟨handshakeHash', hran', hother'⟩ := hagrees'.handshake
  obtain rfl := hother.unique hother'
  obtain ⟨handshake, hmem, hhash⟩ := hran.handshake
  obtain ⟨handshake', hmem', hhash'⟩ := hran'.handshake
  have hrole : attempt'.role = attempt.role := by
    rw [← HandshakeRole.opposite_opposite attempt'.role, ← hagrees'.role, hagrees.role,
      HandshakeRole.opposite_opposite]
  apply hfresh hattempt' hattempt
  exact hideal.ephemeral attempt' hattempt' attempt hattempt handshake' hmem' handshake hmem
    (hhash'.trans hhash.symm) hrole

/-- The two ends of one link, seen from either of them. -/
structure Paired (crypto : Crypto H) (attempt other : LinkAttempt) : Prop where
  role : other.role = attempt.role.opposite
  installationId : other.authentication.installationId = attempt.authentication.installationId
  localPeer : other.authentication.localPeer = attempt.authentication.remotePeer
  remotePeer : other.authentication.remotePeer = attempt.authentication.localPeer
  subjectId : other.authentication.subjectId = attempt.authentication.subjectId
  handshake : ∃ handshake ∈ (attempt.record crypto).handshakes,
    ∃ handshake' ∈ (other.record crypto).handshakes,
      crypto.noise.getHandshakeHash handshake = crypto.noise.getHandshakeHash handshake'

theorem Agrees.paired (hagrees : attempt.Agrees crypto other) : attempt.Paired crypto other where
  role := hagrees.role
  installationId := hagrees.installationId
  localPeer := hagrees.localPeer
  remotePeer := hagrees.remotePeer
  subjectId := hagrees.subjectId
  handshake := by
    obtain ⟨handshakeHash, hran, hother⟩ := hagrees.handshake
    obtain ⟨handshake, hmem, hhash⟩ := hran.handshake
    obtain ⟨handshake', hmem', hhash'⟩ := hother.handshake
    exact ⟨handshake, hmem, handshake', hmem', hhash.trans hhash'.symm⟩

namespace Paired

theorem symm (hpaired : attempt.Paired crypto other) : other.Paired crypto attempt where
  role := by rw [hpaired.role, HandshakeRole.opposite_opposite]
  installationId := hpaired.installationId.symm
  localPeer := hpaired.remotePeer.symm
  remotePeer := hpaired.localPeer.symm
  subjectId := hpaired.subjectId.symm
  handshake := by
    obtain ⟨handshake, hmem, handshake', hmem', hhash⟩ := hpaired.handshake
    exact ⟨handshake', hmem', handshake, hmem, hhash.symm⟩

theorem linked {peer' : EncryptedRelayPeer} (hpaired : attempt.Paired crypto other)
    (hideal : IdealNoise crypto attempts) (hattempt : attempt ∈ attempts) (hother : other ∈ attempts)
    (haccepts : attempt.Accepts crypto peer) (haccepts' : other.Accepts crypto peer') :
    EncryptedRelayPeer.Linked peer peer' := by
  have hfinished := haccepts.finished
  have hfinished' := haccepts'.finished
  obtain ⟨handshake, hmem, handshake', hmem', hhash⟩ := hpaired.handshake
  obtain ⟨found, _, _, transport, hfound, _, _, _, hinto, hpeer⟩ := hfinished.verified
  obtain ⟨found', _, _, transport', hfound', _, _, _, hinto', hpeer'⟩ := hfinished'.verified
  obtain rfl : handshake = found := by simpa [hfound] using hmem
  obtain rfl : handshake' = found' := by simpa [hfound'] using hmem'
  have hne : attempt.role ≠ other.role := by
    rw [hpaired.role]
    exact HandshakeRole.opposite_ne _
  obtain ⟨hcipher, hnonce⟩ := hideal.transport attempt hattempt other hother handshake hmem
    handshake' hmem' hhash hne transport transport' hinto hinto'
  exact
    { cipher := by rw [hpeer', hpeer, hcipher]
      nonce := by rw [hpeer', hpeer, hnonce]
      installationId := by
        rw [hfinished'.installationId, hfinished.installationId, hpaired.installationId]
      source := by rw [hfinished'.remotePeer, hfinished.localPeer, hpaired.remotePeer]
      destination := by rw [hfinished'.localPeer, hfinished.remotePeer, hpaired.localPeer]
      subject := by rw [hfinished'.subjectId, hfinished.subjectId, hpaired.subjectId]
      sequence := by
        rw [hfinished'.receiveSequence, hfinished.sendSequence, hpaired.role,
          HandshakeRole.opposite_opposite] }

end Paired

/-- Whatever the relay delivers to however many attempts: one that accepts a peer has
taken only frames of its own link, in their order, and there is an attempt of the holder
of the trusted key that agrees with it about the link, the roles and the handshake and has
signed what it was presented.  It is the only attempt that belongs to that one; and where
the other end accepts too, what each of them sends is what the other expects. -/
theorem accepts_agrees (hideal : IdealNoise crypto attempts)
    (hfresh : Set.InjOn ephemeral attempts) (hattempt : attempt ∈ attempts)
    (haccepts : attempt.Accepts crypto peer)
    (hunforgeable : Unforgeable crypto attempts attempt.authentication.trustedRemoteSigningKey) :
    (attempt.record crypto).Addressed attempt.authentication ∧
      ∃ other ∈ attempts, attempt.Agrees crypto other ∧
        (∀ binding ∈ (attempt.record crypto).presented, ∃ signed ∈ (other.record crypto).signed,
          signed.signingBytes = binding.signingBytes) ∧
        (∀ attempt' ∈ attempts, attempt'.Agrees crypto other → attempt' = attempt) ∧
        ∀ peer', other.Accepts crypto peer' →
          EncryptedRelayPeer.Linked peer peer' ∧ EncryptedRelayPeer.Linked peer' peer := by
  refine ⟨haccepts.finished.addressed, ?_⟩
  obtain ⟨other, hother, hagrees, hpresented⟩ := haccepts.agrees hideal hattempt hunforgeable
  refine ⟨other, hother, hagrees, hpresented, ?_, ?_⟩
  · intro attempt' hattempt' hagrees'
    exact hagrees.unique hideal hfresh hattempt hattempt' hagrees'
  · intro peer' haccepts'
    exact ⟨hagrees.paired.linked hideal hattempt hother haccepts haccepts',
      hagrees.paired.symm.linked hideal hother hattempt haccepts' haccepts⟩

end LinkAttempt

/-! ## A link of one Host -/

namespace PlainLink

/-- A handshake that exchanges its keys in the open. -/
structure PlainHandshake where
  role : HandshakeRole
  identity : NoiseIdentity
  prologue : List UInt8
  ephemeral : List UInt8
  messages : List (List UInt8)

namespace PlainHandshake

variable (handshake : PlainHandshake)

/-- The next message of the pattern: the key `e`, or `e` and `s`, or `s`. -/
def next : List UInt8 :=
  match handshake.messages with
  | [] => handshake.ephemeral
  | [_] => handshake.ephemeral ++ handshake.identity.publicBytes
  | _ => handshake.identity.publicBytes

def add (message : List UInt8) : PlainHandshake :=
  { handshake with messages := handshake.messages ++ [message] }

def remoteStatic : Option (List UInt8) :=
  match handshake.role, handshake.messages with
  | .initiator, _ :: second :: _ => some (second.drop handshake.ephemeral.length)
  | .responder, [_, _, third] => some third
  | _, _ => none

end PlainHandshake

def plainNoise : NoiseXX PlainHandshake where
  initiator := fun identity prologue ephemeral =>
    .ok { role := .initiator, identity, prologue, ephemeral, messages := [] }
  responder := fun identity prologue ephemeral =>
    .ok { role := .responder, identity, prologue, ephemeral, messages := [] }
  writeMessage := fun handshake => .ok (handshake.next, handshake.add handshake.next)
  readMessage := fun handshake message => .ok (handshake.add message)
  getHandshakeHash := fun handshake => handshake.prologue ++ handshake.messages.flatten
  getRemoteStatic := PlainHandshake.remoteStatic
  isHandshakeFinished := fun handshake => handshake.messages.length = 3
  intoTransportMode := fun _ => .ok
    { outgoing := EncryptedRelayPeer.numberedCipher
      incoming := EncryptedRelayPeer.numberedCipher
      sendNonce := 0
      receiveNonce := 0 }

/-- Signatures that repeat the key and the text; the JSON texts are those of `known`. -/
def plainCrypto (known : List IdentityBinding) : Crypto PlainHandshake :=
  let toVec (binding : IdentityBinding) : List UInt8 :=
    bytesOf binding.peerId ++ 0 :: bytesOf binding.signature
  { noise := plainNoise
    publicKey := fun identity => Base64.encode identity.seed
    sign := fun identity text => Base64.encode (identity.seed ++ text)
    verify := fun key text signature =>
      (Base64.decode key).any fun seed => signature = Base64.encode (seed ++ text)
    toVec
    fromSlice := fun encoded => known.find? fun binding => toVec binding = encoded }

def hubAuthentication : PeerAuthentication where
  installationId := ⟨"1"⟩
  localPeer := ⟨"hub-host:7"⟩
  remotePeer := ⟨"host:7"⟩
  localSigner := ⟨[1]⟩
  trustedRemoteSigningKey := Base64.encode [2]
  localNoise := { privateKey := [11], publicBytes := [11] }
  expectedRemoteNoiseKey := some (Base64.encode [12])
  subjectId := "hst_7"

def hostAuthentication : PeerAuthentication where
  installationId := ⟨"1"⟩
  localPeer := ⟨"host:7"⟩
  remotePeer := ⟨"hub-host:7"⟩
  localSigner := ⟨[2]⟩
  trustedRemoteSigningKey := Base64.encode [1]
  localNoise := { privateKey := [12], publicBytes := [12] }
  expectedRemoteNoiseKey := some (Base64.encode [11])
  subjectId := "hst_7"

/-- The hash of the handshake between the two. -/
def plainHash : List UInt8 :=
  channelPrologue ⟨"1"⟩ ⟨"host:7"⟩ ⟨"hub-host:7"⟩ "hst_7" ++ [22, 21, 11, 12]

def hubBinding : IdentityBinding := bind (plainCrypto []) hubAuthentication [12] plainHash

def hostBinding : IdentityBinding := bind (plainCrypto []) hostAuthentication [11] plainHash

def linkCrypto : Crypto PlainHandshake := plainCrypto [hubBinding, hostBinding]

def frame (authentication : PeerAuthentication) (sequence : Nat) (ciphertext : List UInt8) :
    RelayFrame where
  installationId := authentication.installationId
  sourceId := authentication.localPeer
  destinationId := authentication.remotePeer
  subjectId := authentication.subjectId
  sequence
  ciphertext

def sealed (binding : IdentityBinding) : List UInt8 :=
  EncryptedRelayPeer.numberedCipher.sealRecord 0 (linkCrypto.toVec binding)

def hub : LinkAttempt where
  role := .responder
  authentication := hubAuthentication
  ephemeral := [21]
  arriving := [frame hostAuthentication 0 [22], frame hostAuthentication 1 [12],
    frame hostAuthentication 2 (sealed hostBinding)]
  refuses := fun _ => none
  wellFormed := ⟨by decide, by decide, by decide, by decide⟩

def host : LinkAttempt where
  role := .initiator
  authentication := hostAuthentication
  ephemeral := [22]
  arriving := [frame hubAuthentication 0 [21, 11], frame hubAuthentication 1 (sealed hubBinding)]
  refuses := fun _ => none
  wellFormed := ⟨by decide, by decide, by decide, by decide⟩

def attempts : Set LinkAttempt := {hub, host}

theorem fresh : Set.InjOn LinkAttempt.ephemeral attempts := by
  rintro attempt (rfl | rfl) attempt' (rfl | rfl) heq
  · rfl
  · exact absurd heq (by decide)
  · exact absurd heq (by decide)
  · rfl

theorem ideal : IdealNoise linkCrypto attempts where
  prologue := by
    rintro attempt (rfl | rfl) other (rfl | rfl) _ _ _ _ _ <;> rfl
  ephemeral := by
    rintro attempt (rfl | rfl) other (rfl | rfl) _ _ _ _ _ hrole
    · rfl
    · cases hrole
    · cases hrole
    · rfl
  transport := by
    intro attempt _ other _ handshake _ handshake' _ _ _ transport transport' hinto hinto'
    cases hinto
    cases hinto'
    exact ⟨rfl, rfl⟩

theorem presented : (host.record linkCrypto).presented = [hubBinding] ∧
    (hub.record linkCrypto).presented = [hostBinding] ∧
    hubBinding ∈ (hub.record linkCrypto).signed ∧ (host.connect linkCrypto).1.isOk = true := by
  refine ⟨?_, ?_, ?_, ?_⟩ <;> decide +kernel

theorem unforgeable : Unforgeable linkCrypto attempts (Base64.encode [1]) := by
  rintro attempt (rfl | rfl) binding hmem hverify
  · rw [presented.2.1, List.mem_singleton] at hmem
    subst hmem
    exact absurd hverify (by decide +kernel)
  · rw [presented.1, List.mem_singleton] at hmem
    subst hmem
    exact .inl ⟨hub, .inl rfl, rfl, hubBinding, presented.2.2.1, rfl⟩

/-- The Host takes the Hub for what it is. -/
theorem accepts_agrees_host : ∃ peer, host.Accepts linkCrypto peer ∧
    (host.record linkCrypto).Addressed host.authentication ∧
      ∃ other ∈ attempts, host.Agrees linkCrypto other ∧
        (∀ binding ∈ (host.record linkCrypto).presented,
          ∃ signed ∈ (other.record linkCrypto).signed, signed.signingBytes = binding.signingBytes) ∧
        (∀ attempt' ∈ attempts, attempt'.Agrees linkCrypto other → attempt' = host) ∧
        ∀ peer', other.Accepts linkCrypto peer' →
          EncryptedRelayPeer.Linked peer peer' ∧ EncryptedRelayPeer.Linked peer' peer := by
  obtain ⟨-, -, -, haccepts⟩ := presented
  rcases LinkAttempt.connect_cases linkCrypto host with ⟨peer, hpeer, _⟩ | ⟨error, herror, _⟩
  · exact ⟨peer, hpeer, LinkAttempt.accepts_agrees ideal fresh (.inr rfl) hpeer unforgeable⟩
  · rw [herror] at haccepts
    cases haccepts

end PlainLink

end Transport

end Mews
