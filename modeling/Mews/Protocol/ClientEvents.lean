import Mews.Protocol.Encoding

/-!
# The length of a client event

A client event is encoded with its kind in an object of its own.  The sequence is written
when the event is delivered, so its digits are counted apart.
-/

namespace Mews.Protocol

def ToolActivity.bytes (activity : ToolActivity) : Nat :=
  objectBytes [("call_id", textBytes activity.callId), ("title", textBytes activity.title),
    ("kind", nullable (activity.kind.map textBytes)),
    ("status", nullable (activity.status.map textBytes)), ("input", activity.input.bytes)]

/-- A piece of a text, of the answer or of the reasoning. -/
def deltaBytes (type : String) (turnId : TurnId) (delta : String) (messageId : Option String) :
    Nat :=
  objectBytes [("type", nameBytes type), ("turn_id", turnId.bytes), ("delta", textBytes delta),
    ("message_id", nullable (messageId.map textBytes))]

/-- A message of the timeline. -/
def messageEventBytes (type : String) (turnId : TurnId) (message : Message) : Nat :=
  objectBytes [("type", nameBytes type), ("turn_id", turnId.bytes), ("message", message.bytes)]

def ClientEventKind.bytes : ClientEventKind → Nat
  | .turnStarted turnId => objectBytes [("type", nameBytes "turn_started"), ("turn_id", turnId.bytes)]
  | .assistantDelta turnId delta messageId => deltaBytes "assistant_delta" turnId delta messageId
  | .reasoningDelta turnId delta messageId => deltaBytes "reasoning_delta" turnId delta messageId
  | .toolActivity turnId activity =>
      objectBytes [("type", nameBytes "tool_activity"), ("turn_id", turnId.bytes),
        ("activity", activity.bytes)]
  | .assistantMessage turnId message => messageEventBytes "assistant_message" turnId message
  | .toolStarted turnId message => messageEventBytes "tool_started" turnId message
  | .toolCompleted turnId message => messageEventBytes "tool_completed" turnId message
  | .turnCompleted turnId =>
      objectBytes [("type", nameBytes "turn_completed"), ("turn_id", turnId.bytes)]
  | .turnFailed turnId error =>
      objectBytes [("type", nameBytes "turn_failed"), ("turn_id", turnId.bytes),
        ("error", textBytes error)]
  | .turnCancelled turnId =>
      objectBytes [("type", nameBytes "turn_cancelled"), ("turn_id", turnId.bytes)]

def ClientEventBody.bytes (body : ClientEventBody) : Nat :=
  objectBytes ([("id", body.id.bytes), ("sequence", 0), ("session_id", body.sessionId.bytes)] ++
    optional "channel_origin" (body.channelOrigin.map (·.bytes)) ++
    [("kind", body.kind.bytes), ("created_at", timeBytes body.createdAt)])

end Mews.Protocol
