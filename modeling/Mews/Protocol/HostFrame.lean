import Mews.Protocol.Ids

/-!
# Host frames

Every message between a Hub and a Host is the body of a frame that names the
version of the protocol and is limited in bytes.
-/

namespace Mews.Protocol

def hostProtocolVersion : Nat := 4
def maxHostFrameBytes : Nat := 256 * 1024

structure HostFrame (M : Type) where
  version : Nat
  body : M
  deriving DecidableEq, Repr

def HostFrame.new {M : Type} (body : M) : HostFrame M := { version := hostProtocolVersion, body }

inductive FrameError where
  | tooLarge
  | json
  | unsupportedVersion (version : Nat)
  deriving DecidableEq, Repr

/-- `serde_json` for the frames of one kind of message. -/
structure Wire (M : Type) where
  toVec : HostFrame M → List UInt8
  fromSlice : List UInt8 → Option (HostFrame M)

namespace Wire

variable {M : Type} (wire : Wire M)

def encode (body : M) : Except FrameError (List UInt8) :=
  let encoded := wire.toVec (.new body)
  if encoded.length > maxHostFrameBytes then .error .tooLarge else .ok encoded

def decode (encoded : List UInt8) : Except FrameError M :=
  if encoded.length > maxHostFrameBytes then .error .tooLarge
  else
    match wire.fromSlice encoded with
    | none => .error .json
    | some frame =>
        if frame.version ≠ hostProtocolVersion then .error (.unsupportedVersion frame.version)
        else .ok frame.body

def Fits (body : M) : Prop := (wire.toVec (.new body)).length ≤ maxHostFrameBytes

instance (body : M) : Decidable (wire.Fits body) := inferInstanceAs (Decidable (_ ≤ _))

/-- The message fits a frame, and what is written is read back. -/
structure Carries (body : M) : Prop where
  fits : wire.Fits body
  reads : wire.fromSlice (wire.toVec (.new body)) = some (.new body)

variable {wire} {body : M}

theorem encode_of_fits (hfits : wire.Fits body) : wire.encode body = .ok (wire.toVec (.new body)) :=
  if_neg (Nat.not_lt_of_le hfits)

theorem encode_of_not_fits (hfits : ¬wire.Fits body) : wire.encode body = .error .tooLarge :=
  if_pos (Nat.lt_of_not_le hfits)

theorem Carries.decode (hcarries : wire.Carries body) :
    wire.decode (wire.toVec (.new body)) = .ok body := by
  rw [Wire.decode, if_neg (Nat.not_lt_of_le hcarries.fits), hcarries.reads]
  rfl

end Wire

/-- What crosses a link between peers. -/
inductive PeerEnvelope (HubToHost HostToHub HubRequest HubResponse : Type) where
  | heartbeat (nonce : Nat)
  | toolRequest (body : HubToHost)
  | toolResponse (body : HostToHub)
  | clientRequest (requestId : RequestId) (body : HubRequest)
  | clientResponse (requestId : RequestId) (body : HubResponse)
  deriving DecidableEq, Repr

def PeerEnvelope.isHeartbeat {HubToHost HostToHub HubRequest HubResponse : Type} :
    PeerEnvelope HubToHost HostToHub HubRequest HubResponse → Bool
  | .heartbeat _ => true
  | _ => false

end Mews.Protocol
