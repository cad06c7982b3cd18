import Mathlib.Logic.Basic

/-!
# Identifiers, times and JSON values

Every persisted identifier is a fixed text marker followed by a UUID.  The
marker is part of the type, so an identifier of one kind cannot be passed where
another is expected and parsing one back from the database cannot fail.
-/

namespace Mews.Protocol

/-- An identifier whose text is `marker` followed by `uuid`. -/
structure TaggedId (marker : String) where
  uuid : String
  deriving DecidableEq, Repr

def TaggedId.asStr {marker : String} (id : TaggedId marker) : String :=
  marker ++ id.uuid

abbrev InstallationId := TaggedId "ins_"
abbrev HostId := TaggedId "hst_"
abbrev AgentId := TaggedId "agt_"
abbrev SessionId := TaggedId "ses_"
abbrev MessageId := TaggedId "msg_"
abbrev TurnId := TaggedId "turn_"
abbrev InvitationId := TaggedId "inv_"
abbrev RequestId := TaggedId "req_"
abbrev ConsumerId := TaggedId "con_"
abbrev EventId := TaggedId "evt_"
abbrev OperationId := TaggedId "op_"

/-- Nanoseconds since the epoch.  Timestamps are stored as RFC 3339 text, whose
text order is the order of the instants. -/
abbrev DateTime := Nat

/-- A JSON value.  Object members are kept in the key order of the serializer,
and numbers as their literal. -/
inductive Value where
  | null
  | bool (value : Bool)
  | number (literal : String)
  | string (text : String)
  | array (items : List Value)
  | object (members : List (String × Value))
  deriving Repr

namespace Value

mutual

def same : Value → Value → Bool
  | .null, .null => true
  | .bool left, .bool right => left == right
  | .number left, .number right => left == right
  | .string left, .string right => left == right
  | .array left, .array right => sameItems left right
  | .object left, .object right => sameMembers left right
  | _, _ => false

def sameItems : List Value → List Value → Bool
  | [], [] => true
  | left :: lefts, right :: rights => same left right && sameItems lefts rights
  | _, _ => false

def sameMembers : List (String × Value) → List (String × Value) → Bool
  | [], [] => true
  | (leftKey, left) :: lefts, (rightKey, right) :: rights =>
      leftKey == rightKey && same left right && sameMembers lefts rights
  | _, _ => false

end

mutual

theorem same_iff : ∀ left right : Value, same left right = true ↔ left = right
  | .null, right => by cases right <;> simp [same]
  | .bool _, right => by cases right <;> simp [same]
  | .number _, right => by cases right <;> simp [same]
  | .string _, right => by cases right <;> simp [same]
  | .array items, right => by
      cases right with
      | array items' => simp [same, sameItems_iff items items']
      | _ => simp [same]
  | .object members, right => by
      cases right with
      | object members' => simp [same, sameMembers_iff members members']
      | _ => simp [same]

theorem sameItems_iff :
    ∀ lefts rights : List Value, sameItems lefts rights = true ↔ lefts = rights
  | [], rights => by cases rights <;> simp [sameItems]
  | left :: lefts, rights => by
      cases rights with
      | nil => simp [sameItems]
      | cons right rights =>
          simp [sameItems, same_iff left right, sameItems_iff lefts rights]

theorem sameMembers_iff :
    ∀ lefts rights : List (String × Value),
      sameMembers lefts rights = true ↔ lefts = rights
  | [], rights => by cases rights <;> simp [sameMembers]
  | (_, left) :: lefts, rights => by
      cases rights with
      | nil => simp [sameMembers]
      | cons right rights =>
          obtain ⟨_, right⟩ := right
          simp [sameMembers, same_iff left right, sameMembers_iff lefts rights,
            and_assoc]

end

instance : DecidableEq Value :=
  fun left right => decidable_of_iff _ (same_iff left right)

def isNull : Value → Bool
  | .null => true
  | _ => false

/-- The member of an object under `key`, as `serde_json::Value::get`. -/
def get (value : Value) (key : String) : Option Value :=
  match value with
  | .object members => (members.find? fun entry => entry.1 == key).map Prod.snd
  | _ => none

def asStr : Value → Option String
  | .string text => some text
  | _ => none

def asBool : Value → Option Bool
  | .bool value => some value
  | _ => none

end Value

end Mews.Protocol
