import Mathlib.Logic.Relation
import Mews.Client.Recovery

/-!
# What callers are told

Every response that a caller is told is the daemon's answer to the request of this caller.
A request that is safe to retry and that the daemon answers is told its response, whatever
requests were dropped before, if and only if there is no way into a jam.
-/

namespace Mews.Client

open Protocol Lines

variable {Id Request Response : Type}

namespace LocalHub

section Ways

variable [DecidableEq Id] {hub : LocalHub Id Request Response}
  {connection after : LocalConnection Id Request Response} {id : Id} {request : Request}

/-- Nothing disturbs a call on a way on. -/
def Ways (hub : LocalHub Id Request Response) :
    LocalConnection Id Request Response → LocalConnection Id Request Response → Prop :=
  Relation.ReflTransGen hub.Goes

/-- Whenever the daemon comes to the request on a way on, it answers it with a response that
the caller takes. -/
def Succeeds (hub : LocalHub Id Request Response)
    (connection : LocalConnection Id Request Response) (id : Id) (request : Request) : Prop :=
  ∀ after, hub.Ways connection after → hub.Accepted id (hub.dispatch after.answered id request)

/-- What a run from a new connection leaves. -/
theorem sound_lively (hlawful : hub.Lawful) {actions : List (Action Id Request)}
    (hsound : hub.Sound connection) (hlively : Lively connection)
    (hrun : hub.run connection actions = some after) : hub.Sound after ∧ Lively after := by
  induction actions generalizing connection with
  | nil =>
      rw [← Option.some.inj hrun]
      exact ⟨hsound, hlively⟩
  | cons action actions ih =>
      rw [run] at hrun
      split at hrun
      · rename_i middle hstep
        exact ih (hsound.step hlawful hstep) (hlively.step hsound hlawful hstep) hrun
      · cases hrun

/-- A call at the end of a way on was there all the way. -/
theorem ways_call (hways : hub.Ways connection after) {later : Call Id Request}
    (hlater : after.call = some later) :
    ∃ call, connection.call = some call ∧ call.id = later.id ∧ call.request = later.request := by
  induction hways using Relation.ReflTransGen.head_induction_on with
  | refl => exact ⟨later, hlater, rfl, rfl⟩
  | head hgoes _ ih =>
      obtain ⟨middle, hmiddle, hid, hrequest⟩ := ih
      obtain ⟨call, hcall, hsame, hsent⟩ := hgoes.call hmiddle
      exact ⟨call, hcall, hsame.trans hid, hsent.trans hrequest⟩

omit [DecidableEq Id] in
/-- Who waits was not told. -/
theorem Lively.not_told (h : Lively connection) {call : Call Id Request}
    (hcall : connection.call = some call) : ¬Told call.id request connection := by
  rintro ⟨response, hmem⟩
  exact h.untold call hcall request response hmem

/-- The call cannot get out of a jam. -/
structure Stuck (hub : LocalHub Id Request Response) (id : Id)
    (connection : LocalConnection Id Request Response) : Prop where
  sound : hub.Sound connection
  lively : Lively connection
  jammed : hub.Jammed connection
  waits : ∀ call, connection.call = some call → call.id = id

omit [DecidableEq Id] in
theorem Stuck.not_told (h : hub.Stuck id connection) : ¬Told id request connection := by
  obtain ⟨call, rest, left, hcall, -⟩ := h.jammed
  rw [← h.waits call hcall]
  exact h.lively.not_told hcall

theorem Stuck.kept (h : hub.Stuck id connection) (hlawful : hub.Lawful)
    (hgoes : hub.Goes connection after) : hub.Stuck id after where
  sound := by
    obtain ⟨action, -, hstep⟩ := hgoes
    exact h.sound.step hlawful hstep
  lively := by
    obtain ⟨action, -, hstep⟩ := hgoes
    exact h.lively.step h.sound hlawful hstep
  jammed := h.jammed.kept hgoes
  waits := by
    intro later hlater
    obtain ⟨call, hcall, hid, -⟩ := hgoes.call hlater
    rw [← hid]
    exact h.waits call hcall

/-- What is inevitable is so all the way to where the call still waits. -/
theorem inevitable_ways (hlawful : hub.Lawful) (hsound : hub.Sound connection)
    (hlively : Lively connection) (hways : hub.Ways connection after)
    {later : Call Id Request} (hlater : after.call = some later) (hid : later.id = id)
    (hinevitable : Inevitable hub.Goes (Told id request) connection) :
    (hub.Sound after ∧ Lively after) ∧ Inevitable hub.Goes (Told id request) after := by
  induction hways using Relation.ReflTransGen.head_induction_on with
  | refl => exact ⟨⟨hsound, hlively⟩, hinevitable⟩
  | head hgoes hrest ih =>
      obtain ⟨call, hcall, hsame, -⟩ := ways_call (Relation.ReflTransGen.head hgoes hrest) hlater
      have huntold : ¬Told id request _ := (hsame.trans hid) ▸ hlively.not_told hcall
      have hafter := hinevitable.of_step huntold hgoes
      obtain ⟨action, -, hstep⟩ := hgoes
      exact ih (hsound.step hlawful hstep) (hlively.step hsound hlawful hstep) hafter

/-- A call gets its reply if there is no way into a jam. -/
theorem OnCourse.inevitable (h : hub.OnCourse id request connection) (hlawful : hub.Lawful)
    (houtbound : 0 < hub.outboundRoom) (hinbound : 0 < hub.inboundRoom)
    (hanswerable : hub.Answerable id request) (hsucceeds : hub.Succeeds connection id request)
    (hfree : ∀ after, hub.Ways connection after → ¬hub.Jammed after) :
    Inevitable hub.Goes (Told id request) connection := by
  apply Inevitable.of_rank
    (fun state => hub.OnCourse id request state ∧ hub.Ways connection state) rank
  · rintro state ⟨hcourse, hways⟩ -
    obtain ⟨call, hcall, -⟩ := hcourse.course
    exact hcourse.sound.goes hcourse.lively (hfree state hways) houtbound hinbound hcall
  · rintro state later ⟨hcourse, hways⟩ - hgoes
    apply (hcourse.next hlawful hanswerable (hsucceeds state hways) hgoes).imp_right
    rintro ⟨hlater, hless⟩
    exact ⟨⟨hlater, hways.tail hgoes⟩, hless⟩
  · exact ⟨h, .refl⟩

/-- A call in its first attempt gets its reply if and only if there is no way into a jam. -/
theorem inevitable_iff (hlawful : hub.Lawful) (houtbound : 0 < hub.outboundRoom)
    (hinbound : 0 < hub.inboundRoom) (hsound : hub.Sound connection)
    (hlively : Lively connection) {call : Call Id Request} (hcall : connection.call = some call)
    (hattempt : call.attempt = 0) (hanswerable : hub.Answerable call.id call.request)
    (hsucceeds : hub.Succeeds connection call.id call.request) :
    Inevitable hub.Goes (Told call.id call.request) connection ↔
      ∀ after, hub.Ways connection after → ¬hub.Jammed after := by
  constructor
  · intro hinevitable after hways hjammed
    obtain ⟨later, hlater⟩ : ∃ later, after.call = some later := by
      obtain ⟨later, -, -, hlater, -⟩ := hjammed
      exact ⟨later, hlater⟩
    obtain ⟨first, hfirst, hid, -⟩ := ways_call hways hlater
    obtain rfl := Option.some.inj (hcall.symm.trans hfirst)
    obtain ⟨⟨hsound', hlively'⟩, hstill⟩ :=
      inevitable_ways hlawful hsound hlively hways hlater hid.symm hinevitable
    have hstuck : hub.Stuck call.id after :=
      { sound := hsound'
        lively := hlively'
        jammed := hjammed
        waits := by
          intro current hcurrent
          rw [← Option.some.inj (hlater.symm.trans hcurrent)]
          exact hid.symm }
    exact Inevitable.not_of_trap (fun _ hstuck => hstuck.not_told)
      (fun _ _ hstuck hgoes => hstuck.kept hlawful hgoes) hstuck hstill
  · intro hfree
    have hcourse : hub.OnCourse call.id call.request connection :=
      { sound := hsound
        lively := hlively
        course := ⟨call, hcall, rfl, rfl, .first hattempt⟩ }
    exact hcourse.inevitable hlawful houtbound hinbound hanswerable hsucceeds hfree

/-- Callers are told the daemon's answers to their own requests, and a request that is safe
to retry is told one for certain if and only if no way on comes into a jam. -/
theorem calls_paired_and_told_iff (hlawful : hub.Lawful) (houtbound : 0 < hub.outboundRoom)
    (hinbound : 0 < hub.inboundRoom) {actions : List (Action Id Request)}
    (hrun : hub.run .new actions = some connection) :
    (∀ entry ∈ connection.returned, entry ∈ connection.answered) ∧
      ∀ call, connection.call = some call → call.attempt = 0 →
        hub.Answerable call.id call.request → hub.Succeeds connection call.id call.request →
          (Inevitable hub.Goes (Told call.id call.request) connection ↔
            ∀ after, hub.Ways connection after → ¬hub.Jammed after) := by
  obtain ⟨hsound, hlively⟩ := sound_lively hlawful sound_new lively_new hrun
  refine ⟨hsound.returned, ?_⟩
  intro call hcall hattempt hanswerable hsucceeds
  exact inevitable_iff hlawful houtbound hinbound hsound hlively hcall hattempt hanswerable
    hsucceeds

/-- Callers are told the daemon's answers to their own requests, and every request that is
safe to retry gets through. -/
def PairsAndGetsThrough (hub : LocalHub Id Request Response) : Prop :=
  ∀ (actions : List (Action Id Request)) connection, hub.run .new actions = some connection →
    (∀ entry ∈ connection.returned, entry ∈ connection.answered) ∧
      ∀ call, connection.call = some call → call.attempt = 0 →
        hub.Answerable call.id call.request → hub.Succeeds connection call.id call.request →
          Inevitable hub.Goes (Told call.id call.request) connection

end Ways

end LocalHub

/-! ## Two lists -/

namespace Lists

inductive Ask where
  | listAgents | listSessions
  deriving DecidableEq

inductive Reply where
  | agents | sessions | error
  deriving DecidableEq

/-- What is written on a connection, with the id of the request. -/
inductive Message where
  | ask (second : Bool) (ask : Ask)
  | reply (second : Bool) (reply : Reply)
  deriving DecidableEq

namespace Message

def all : List Message :=
  [false, true].flatMap fun second =>
    [.ask second .listAgents, .ask second .listSessions, .reply second .agents,
      .reply second .sessions, .reply second .error]

def second : Message → Bool
  | ask second _ => second
  | reply second _ => second

def body : Message → String
  | ask _ .listAgents => "\x7b\"type\":\"list_agents\"\x7d"
  | ask _ .listSessions => "\x7b\"type\":\"list_sessions\"\x7d"
  | reply _ .agents => "\x7b\"type\":\"agents\",\"data\":[]\x7d"
  | reply _ .sessions => "\x7b\"type\":\"sessions\",\"data\":[]\x7d"
  | reply _ .error => "\x7b\"type\":\"error\",\"data\":null\x7d"

def bytes (message : Message) : List UInt8 :=
  ("\x7b\"protocol\":5,\"request_id\":\"" ++ (if message.second then "b" else "a") ++
    "\",\"body\":" ++ message.body ++ "\x7d").toUTF8.toList

def frame (message : Message) : Frame Bool :=
  { protocol := 5, requestId := message.second, body := .string message.body }

theorem mem_all (message : Message) : message ∈ all := by
  cases message with
  | ask second ask => cases second <;> cases ask <;> decide
  | reply second reply => cases second <;> cases reply <;> decide

end Message

def codec : HubCodec Bool Ask Reply where
  kind
    | .listAgents => .listAgents
    | .listSessions => .listSessions
  isError reply := decide (reply = .error)
  unsupportedVersion _ := .error
  requestBytes second ask := (Message.ask second ask).bytes
  responseBytes second reply := (Message.reply second reply).bytes
  fromSlice line := (Message.all.find? fun message => message.bytes ++ [newline] = line).map
    Message.frame
  requestOf
    | .string body => [.listAgents, .listSessions].find? fun ask =>
        (Message.ask false ask).body = body
    | _ => none
  responseOf
    | .string body => [.agents, .sessions, .error].find? fun reply =>
        (Message.reply false reply).body = body
    | _ => none

theorem run_bytes (message : Message) : JsonScan.start.run message.bytes = .done := by
  cases message with
  | ask second ask => cases second <;> cases ask <;> with_unfolding_all decide
  | reply second reply => cases second <;> cases reply <;> with_unfolding_all decide

theorem newline_notMem_bytes (message : Message) : newline ∉ message.bytes := by
  cases message with
  | ask second ask => cases second <;> cases ask <;> with_unfolding_all decide
  | reply second reply => cases second <;> cases reply <;> with_unfolding_all decide

theorem marks_nodup :
    (Message.all.map fun message => (message.bytes.length, message.bytes.getD 28 0)).Nodup := by
  have hmarks : (Message.all.map fun message => (message.bytes.length, message.bytes.getD 28 0)) =
      [(61, 97), (63, 97), (66, 97), (68, 97), (67, 97), (61, 98), (63, 98), (66, 98), (68, 98),
        (67, 98)] := by
    with_unfolding_all decide
  rw [hmarks]
  decide

/-- What is to be known of the texts, and that two of them differ in their lengths or in the
byte of the id. -/
theorem line_facts : ∀ message ∈ Message.all,
    (newline ∉ message.bytes ∧ JsonScan.start.run message.bytes = .done ∧
      message.bytes.take 3 = [123, 34, 112] ∧ message.bytes.length < 80) ∧
    ∀ other ∈ Message.all, other.bytes.length = message.bytes.length →
      other.bytes.getD 28 0 = message.bytes.getD 28 0 → other = message := by
  have hkept : ∀ message ∈ Message.all,
      message.bytes.take 3 = [123, 34, 112] ∧ message.bytes.length < 80 := by
    with_unfolding_all decide
  intro message hmem
  obtain ⟨hbegins, hlength⟩ := hkept message hmem
  refine ⟨⟨newline_notMem_bytes message, run_bytes message, hbegins, hlength⟩, ?_⟩
  intro other hother hlengths hbyte
  exact List.inj_on_of_nodup_map marks_nodup hother hmem (Prod.ext hlengths hbyte)

theorem find_line (message : Message) (hmem : message ∈ Message.all) :
    (Message.all.find? fun other => other.bytes ++ [newline] = message.bytes ++ [newline]) =
      some message := by
  cases hother : Message.all.find? fun other =>
      other.bytes ++ [newline] = message.bytes ++ [newline] with
  | none =>
      have hself := List.find?_eq_none.mp hother message hmem
      exact absurd (decide_eq_true rfl) hself
  | some other =>
      have hline := List.find?_some hother
      rw [decide_eq_true_eq] at hline
      have hsame : other.bytes = message.bytes := List.append_cancel_right hline
      rw [(line_facts message hmem).2 other (List.mem_of_find?_eq_some hother)]
      · rw [hsame]
      · rw [hsame]

theorem fromSlice_line (message : Message) :
    codec.fromSlice (message.bytes ++ [newline]) = some message.frame :=
  congrArg (Option.map Message.frame) (find_line message message.mem_all)

theorem named_bytes (message : Message) : JsonScan.Named message.bytes := by
  have hbegins := (line_facts message message.mem_all).1.2.2.1
  refine ⟨112, message.bytes.drop 3, ?_, by decide, by decide, by decide, by decide⟩
  have hsplit := List.take_append_drop 3 message.bytes
  rw [hbegins] at hsplit
  exact hsplit.symm

theorem requestOf_body (second : Bool) (ask : Ask) :
    codec.requestOf (Message.ask second ask).frame.body = some ask := by
  cases second <;> cases ask <;> rfl

theorem responseOf_body (second : Bool) (reply : Reply) :
    codec.responseOf (Message.reply second reply).frame.body = some reply := by
  cases second <;> cases reply <;> rfl

theorem codec_lawful : codec.Lawful where
  request second ask frame hframe := by
    obtain rfl := Option.some.inj ((fromSlice_line (.ask second ask)).symm.trans hframe)
    refine ⟨rfl, rfl, ?_⟩
    intro read hread
    rw [requestOf_body] at hread
    exact (Option.some.inj hread).symm
  response second reply frame hframe := by
    obtain rfl := Option.some.inj ((fromSlice_line (.reply second reply)).symm.trans hframe)
    refine ⟨rfl, rfl, ?_⟩
    intro read hread
    rw [responseOf_body] at hread
    exact (Option.some.inj hread).symm
  requestLine second ask := (line_facts _ (Message.ask second ask).mem_all).1.1
  responseLine second reply := (line_facts _ (Message.reply second reply).mem_all).1.1
  requestNamed second ask := named_bytes (.ask second ask)
  requestObject second ask := (line_facts _ (Message.ask second ask).mem_all).1.2.1
  json line frame hframe := by
    obtain ⟨message, hfound, -⟩ := Option.map_eq_some_iff.mp hframe
    have hline := List.find?_some hfound
    rw [decide_eq_true_eq] at hline
    rw [← hline, JsonScan.run_append, (line_facts message message.mem_all).1.2.1]
    rfl

def hub : LocalHub Bool Ask Reply where
  toHubCodec := codec
  outboundRoom := 16
  inboundRoom := 16
  dispatch
    | _, _, .listAgents => .agents
    | _, _, .listSessions => .sessions

theorem hub_lawful : hub.Lawful := codec_lawful

theorem length_bytes (message : Message) : message.bytes.length < 80 :=
  (line_facts message message.mem_all).1.2.2.2

theorem answerable (second : Bool) (ask : Ask) : hub.Answerable second ask where
  safe := by cases ask <;> rfl
  fits := (length_bytes (.ask second ask)).trans (by decide)
  reads := ⟨_, ask, fromSlice_line (.ask second ask), requestOf_body second ask⟩

theorem accepted (second : Bool) (ask : Ask) (before : List (Bool × Ask × Reply)) :
    hub.Accepted second (hub.dispatch before second ask) where
  noError := by cases ask <;> rfl
  fits := by
    cases ask
    · exact (length_bytes (.reply second .agents)).trans (by decide)
    · exact (length_bytes (.reply second .sessions)).trans (by decide)
  reads := ⟨_, _, fromSlice_line (.reply second (hub.dispatch before second ask)),
    responseOf_body second (hub.dispatch before second ask)⟩

/-- The first list is dropped when the daemon has begun to write it. -/
def actions : List (Action Bool Ask) :=
  [.call false .listAgents, .write 16, .take 16, .write 16, .take 16, .write 16, .take 16,
    .write 14, .take 14, .answer, .reply 16, .drop, .call true .listSessions, .write 16]

def pending : Call Bool Ask :=
  { id := true, request := .listSessions, attempt := 0
    phase := .writing (((Message.ask true .listSessions).bytes ++ [newline]).drop 16) }

def left : List UInt8 := ((Message.reply false .agents).bytes ++ [newline]).drop 16

theorem run_writes : (hub.run .new actions).any (fun connection =>
    connection.call = some pending ∧ connection.transport.daemon = .replying left ∧
      connection.transport.outbound.length = 16 ∧ connection.transport.inbound.length = 16 ∧
      0 < left.length ∧
      0 < (((Message.ask true .listSessions).bytes ++ [newline]).drop 16).length) = true := by
  with_unfolding_all decide

theorem run_actions : (hub.run .new actions).isSome := Option.isSome_of_any run_writes

/-- The second list is asked for while the first is written. -/
def jammed : LocalConnection Bool Ask Reply := (hub.run .new actions).get run_actions

theorem run_eq_jammed : hub.run .new actions = some jammed := (Option.some_get _).symm

theorem jammed_eq : jammed.call = some pending ∧ jammed.transport.daemon = .replying left ∧
    jammed.transport.outbound.length = 16 ∧ jammed.transport.inbound.length = 16 ∧
    0 < left.length ∧
    0 < (((Message.ask true .listSessions).bytes ++ [newline]).drop 16).length := by
  have hwrites := run_writes
  rw [run_eq_jammed, Option.any_some] at hwrites
  exact of_decide_eq_true hwrites

theorem jammed_jammed : hub.Jammed jammed := by
  obtain ⟨hcall, hdaemon, houtbound, hinbound, hleft, hrest⟩ := jammed_eq
  refine ⟨pending, _, left, hcall, rfl, hdaemon, ?_, ?_⟩
  · rw [houtbound]
    exact Nat.lt_add_of_pos_right hrest
  · rw [hinbound]
    exact Nat.lt_add_of_pos_right hleft

end Lists

theorem second_list_waits :
    (∀ entry ∈ Lists.jammed.returned, entry ∈ Lists.jammed.answered) ∧
      ¬Inevitable Lists.hub.Goes (LocalHub.Told true .listSessions) Lists.jammed := by
  obtain ⟨hpaired, htold⟩ := LocalHub.calls_paired_and_told_iff Lists.hub_lawful
    (by decide) (by decide) Lists.run_eq_jammed
  refine ⟨hpaired, ?_⟩
  intro hinevitable
  exact (htold Lists.pending Lists.jammed_eq.1 rfl (Lists.answerable _ _)
    (fun _ _ => Lists.accepted _ _ _)).mp hinevitable _ .refl Lists.jammed_jammed

/-- Between them the daemon and the caller wait for ever. -/
theorem list_jammed :
    ¬∀ (Id Request Response : Type) [DecidableEq Id] (hub : LocalHub Id Request Response),
      hub.Lawful → 0 < hub.outboundRoom → 0 < hub.inboundRoom → hub.PairsAndGetsThrough := by
  intro hthrough
  have htold := (hthrough _ _ _ Lists.hub Lists.hub_lawful (by decide) (by decide) _ _
    Lists.run_eq_jammed).2 _ Lists.jammed_eq.1 rfl (Lists.answerable _ _)
    (fun _ _ => Lists.accepted _ _ _)
  obtain ⟨hsound, hlively⟩ := LocalHub.sound_lively Lists.hub_lawful LocalHub.sound_new
    LocalHub.lively_new Lists.run_eq_jammed
  have hfree := (LocalHub.inevitable_iff Lists.hub_lawful (by decide) (by decide) hsound hlively
    Lists.jammed_eq.1 rfl (Lists.answerable _ _) (fun _ _ => Lists.accepted _ _ _)).mp htold
  exact hfree _ .refl Lists.jammed_jammed

end Mews.Client
