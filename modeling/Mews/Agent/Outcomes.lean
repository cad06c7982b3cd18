import Mews.Store.Sessions

/-!
# Outcomes of effects

An error keeps its typed cause under the contexts that were added to it, so a
caller can still ask whether an effect may have happened.  Once it is turned into
text, only the text is left.
-/

namespace Mews

open Protocol

/-- The causes that callers distinguish by type. -/
inductive Cause where
  | effectUncertain (reason : String)
  | turnCancelled
  | acpCancelled
  | acpRpc (method : String) (code : Int) (text : String)
  | message (text : String)
  deriving DecidableEq, Repr

def Cause.display : Cause → String
  | .effectUncertain reason => s!"effect outcome is uncertain: {reason}"
  | .turnCancelled => "agent Turn cancelled"
  | .acpCancelled => "ACP harness Turn cancelled"
  | .acpRpc method code text => s!"ACP {method} failed ({code}): {text}"
  | .message text => text

/-- An error with its contexts, the outermost first. -/
structure Failure where
  contexts : List String
  cause : Cause
  deriving DecidableEq, Repr

namespace Failure

def of (cause : Cause) : Failure := { contexts := [], cause }

/-- `anyhow!` and `bail!`. -/
def msg (text : String) : Failure := of (.message text)

def uncertain (reason : String) : Failure := of (.effectUncertain reason)

def context (failure : Failure) (text : String) : Failure :=
  { failure with contexts := text :: failure.contexts }

/-- `to_string`: the outermost context alone. -/
def toString (failure : Failure) : String :=
  failure.contexts.headD failure.cause.display

/-- The alternate format: the whole chain. -/
def chain (failure : Failure) : String :=
  ": ".intercalate (failure.contexts ++ [failure.cause.display])

def effectUncertainty (failure : Failure) : Option String :=
  match failure.cause with
  | .effectUncertain reason => some reason
  | _ => none

def isTurnCancelled (failure : Failure) : Bool := failure.cause = .turnCancelled

/-- `mews_acp::is_cancelled`. -/
def isCancelled (failure : Failure) : Bool := failure.cause = .acpCancelled

/-- Whether `classify_error` knows the error as a reply of the Harness. -/
def classified (failure : Failure) : Bool :=
  match failure.cause with
  | .acpRpc .. => true
  | _ => false

@[simp] theorem cause_context (failure : Failure) (text : String) :
    (failure.context text).cause = failure.cause := rfl

@[simp] theorem effectUncertainty_context (failure : Failure) (text : String) :
    (failure.context text).effectUncertainty = failure.effectUncertainty := rfl

@[simp] theorem isCancelled_context (failure : Failure) (text : String) :
    (failure.context text).isCancelled = failure.isCancelled := rfl

@[simp] theorem effectUncertainty_uncertain (reason : String) :
    (uncertain reason).effectUncertainty = some reason := rfl

@[simp] theorem effectUncertainty_msg (text : String) : (msg text).effectUncertainty = none := rfl

@[simp] theorem isCancelled_msg (text : String) : (msg text).isCancelled = false := rfl

@[simp] theorem isTurnCancelled_msg (text : String) : (msg text).isTurnCancelled = false := rfl

end Failure

/-- `mews_agent::ToolResult`. -/
structure ToolOutcome where
  value : Value
  isError : Bool
  /-- The effect may have happened, but no definitive result was observed. -/
  uncertain : Bool
  terminate : Bool
  deriving DecidableEq

namespace ToolOutcome

def success (value : Value) : ToolOutcome :=
  { value, isError := false, uncertain := false, terminate := false }

def error (text : String) : ToolOutcome :=
  { value := .string text, isError := true, uncertain := false, terminate := false }

def uncertainBecause (reason : String) : ToolOutcome :=
  { value := .string reason, isError := true, uncertain := true, terminate := false }

/-- What a tool call that failed reports to the model. -/
def ofFailure (failure : Failure) : ToolOutcome :=
  match failure.effectUncertainty with
  | some reason => uncertainBecause reason
  | none => error failure.toString

end ToolOutcome

inductive AcpStopReason where
  | endTurn
  | maxTokens
  | maxTurnRequests
  | refusal
  | cancelled
  | other
  deriving DecidableEq, Repr

structure AcpTimings where
  queueMs : Nat
  spawnMs : Nat
  initializeMs : Nat
  continuationMs : Nat
  promptToFirstUpdateMs : Option Nat
  promptToFirstTokenMs : Option Nat
  promptMs : Nat
  totalMs : Nat
  deriving DecidableEq, Repr

structure AcpSessionOutcome where
  answer : String
  sessionId : String
  sessionReplaced : Bool
  stopReason : AcpStopReason
  timings : AcpTimings
  deriving DecidableEq, Repr

def AcpStopReason.debug : AcpStopReason → String
  | .endTurn => "EndTurn"
  | .maxTokens => "MaxTokens"
  | .maxTurnRequests => "MaxTurnRequests"
  | .refusal => "Refusal"
  | .cancelled => "Cancelled"
  | .other => "Other"

/-- How the effect of an ACP prompt is recorded. -/
def acpEffectOutcome (outcome : Except Failure AcpSessionOutcome) (cancelled promptDispatched : Bool) :
    EffectOutcome :=
  match outcome with
  | .ok outcome =>
      .succeeded (some (.object
        [("session_id", .string outcome.sessionId),
          ("stop_reason", .string outcome.stopReason.debug)]))
  | .error failure =>
      if failure.effectUncertainty.isSome then
        .uncertain failure.chain
      else if promptDispatched && (cancelled || failure.isCancelled) then
        .uncertain "ACP prompt was cancelled after dispatch; remote effects may have occurred"
      else if cancelled || failure.isCancelled then
        .failed "ACP prompt was cancelled"
      else
        .failed failure.chain

end Mews
