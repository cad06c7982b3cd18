import Mews.Client.Connection

/-!
# Frames and replies on a connection

A frame that is written after a part of another one makes no JSON with it, so the daemon
answers none but whole frames.  What the daemon writes on a connection are the replies to
them, the first perhaps without its beginning.
-/

namespace Mews.Client

open Protocol Lines

variable {Id Request Response : Type}

/-- What the serialization of frames is relied on for: a frame is read as it was written,
takes one line and is a JSON object that begins with the name of a field, and nothing but
JSON is read. -/
structure HubCodec.Lawful (codec : HubCodec Id Request Response) : Prop where
  request : ∀ id request frame,
    codec.fromSlice (codec.requestBytes id request ++ [newline]) = some frame →
    frame.protocol = protocolVersion ∧ frame.requestId = id ∧
      ∀ read ∈ codec.requestOf frame.body, read = request
  response : ∀ id response frame,
    codec.fromSlice (codec.responseBytes id response ++ [newline]) = some frame →
    frame.protocol = protocolVersion ∧ frame.requestId = id ∧
      ∀ read ∈ codec.responseOf frame.body, read = response
  requestLine : ∀ id request, newline ∉ codec.requestBytes id request
  responseLine : ∀ id response, newline ∉ codec.responseBytes id response
  requestNamed : ∀ id request, JsonScan.Named (codec.requestBytes id request)
  requestObject : ∀ id request, JsonScan.start.run (codec.requestBytes id request) = .done
  json : ∀ line frame, codec.fromSlice line = some frame → JsonScan.start.run line = .done

/-! ## What is on the way -/

def Daemon.encoded : Daemon → List UInt8
  | reading taken => taken
  | _ => []

/-- What the daemon has not handled of what was written to it. -/
def Transport.sent (transport : Transport) : List UInt8 :=
  transport.daemon.encoded ++ transport.outbound

/-- What the client has not read of what the daemon writes. -/
def Transport.replies (transport : Transport) : List UInt8 :=
  transport.inbound ++ transport.daemon.left

def Phase.encoded : Phase → List UInt8
  | reading taken => taken
  | _ => []

def Phase.rest : Phase → List UInt8
  | writing left => left
  | _ => []

/-- The replies, with what the call has read of the first. -/
def LocalConnection.arriving (connection : LocalConnection Id Request Response) : List UInt8 :=
  ((connection.call.map fun call => call.phase.encoded).getD []) ++ connection.transport.replies

/-- A line that has begun cannot become a frame. -/
def Begun (bytes : List UInt8) : Prop := bytes = [] ∨ JsonScan.start.run bytes ≠ .start

/-- Whole lines. -/
def Delimited (bytes : List UInt8) : Prop := bytes = [] ∨ bytes.getLast? = some newline

section Delimited

variable {bytes more : List UInt8}

theorem Delimited.of_append (h : Delimited (bytes ++ more)) : Delimited more := by
  by_cases hmore : more = []
  · exact Or.inl hmore
  · right
    rcases h with hnil | hlast
    · exact absurd (List.append_eq_nil_iff.mp hnil).2 hmore
    · rwa [List.getLast?_append_of_ne_nil bytes hmore] at hlast

theorem Delimited.unfinished (h : Delimited bytes) : unfinished newline [] bytes = [] := by
  rcases h with rfl | hlast
  · rfl
  · obtain ⟨front, rfl⟩ := List.getLast?_eq_some_iff.mp hlast
    rw [unfinished_append]
    rfl

theorem Delimited.complete_append (h : Delimited bytes) :
    complete newline (bytes ++ more) = complete newline bytes ++ complete newline more := by
  rw [complete, split_append, h.unfinished]
  rfl

theorem delimited_concat : Delimited (bytes ++ [newline]) := Or.inr List.getLast?_concat

/-- The first line, when it is at its end. -/
theorem complete_line_append (more : List UInt8) (hbytes : newline ∉ bytes) :
    complete newline ((bytes ++ [newline]) ++ more) =
      (bytes ++ [newline]) :: complete newline more := by
  obtain ⟨hsplit, hunfinished⟩ := split_delimited [] hbytes
  rw [complete, split_append, hsplit, hunfinished]
  rfl

theorem complete_line (hbytes : newline ∉ bytes) :
    complete newline (bytes ++ [newline]) = [bytes ++ [newline]] :=
  (split_delimited [] hbytes).1

end Delimited

namespace HubCodec

variable {codec : HubCodec Id Request Response} {id : Id} {request : Request}
  {begun written rest : List UInt8}

/-- A part of a frame leaves a line begun. -/
theorem Lawful.begun_append (hlawful : codec.Lawful) (hbegun : Begun begun)
    (hwritten : written ++ rest = codec.requestBytes id request ++ [newline]) :
    Begun (begun ++ written) := by
  by_cases hnil : begun = []
  · rw [hnil, List.nil_append]
    cases written with
    | nil => exact Or.inl rfl
    | cons byte written =>
        right
        obtain ⟨letter, more, hobject, -⟩ := hlawful.requestNamed id request
        rw [hobject] at hwritten
        obtain rfl : byte = 123 := (List.cons_eq_cons.mp hwritten).1
        change (JsonScan.start.step 123).run written ≠ .start
        exact JsonScan.run_ne_start (by decide)
  · right
    rw [JsonScan.run_append]
    exact JsonScan.run_ne_start (hbegun.resolve_left hnil)

/-- A frame after a part of another one is not read. -/
theorem Lawful.fromSlice_begun (hlawful : codec.Lawful) (hbegun : Begun begun) (hnil : begun ≠ []) :
    codec.fromSlice (begun ++ (codec.requestBytes id request ++ [newline])) = none := by
  rw [Option.eq_none_iff_forall_ne_some]
  intro frame hframe
  have hdone := hlawful.json _ _ hframe
  rw [JsonScan.run_append] at hdone
  refine JsonScan.run_ne_done (hbegun.resolve_left hnil) ?_ ?_ hdone
  · obtain ⟨letter, more, hobject, hletter⟩ := hlawful.requestNamed id request
    exact ⟨letter, more ++ [newline], congrArg (· ++ [newline]) hobject, hletter⟩
  · rw [JsonScan.run_append, hlawful.requestObject]
    decide

end HubCodec

namespace LocalHub

variable {hub : LocalHub Id Request Response} {connection : LocalConnection Id Request Response}

/-- A line that the daemon takes for no frame, or for that of a request. -/
def Known (hub : LocalHub Id Request Response) (called : List (Id × Request))
    (line : List UInt8) : Prop :=
  hub.fromSlice line = none ∨
    ∃ id request, (id, request) ∈ called ∧ line = hub.requestBytes id request ++ [newline]

/-- A line that is the reply to a request. -/
def Replies (hub : LocalHub Id Request Response) (answered : List (Id × Request × Response))
    (line : List UInt8) : Prop :=
  ∃ id request response, (id, request, response) ∈ answered ∧
    line = hub.responseBytes id response ++ [newline]

/-- What is left of a frame ends the line that was begun. -/
structure Writes (hub : LocalHub Id Request Response) (sent : List UInt8)
    (call : Call Id Request) (rest : List UInt8) : Prop where
  ne_nil : rest ≠ []
  frame : ∃ begun written, Begun begun ∧ unfinished newline [] sent = begun ++ written ∧
    written ++ rest = hub.requestBytes call.id call.request ++ [newline]

/-- A part of a line within the limit. -/
def Short (encoded : List UInt8) : Prop :=
  newline ∉ encoded ∧ encoded.length ≤ maxHubFrameBytes

/-- What holds on a connection, whatever was dropped. -/
structure Sound (hub : LocalHub Id Request Response)
    (connection : LocalConnection Id Request Response) : Prop where
  once : ∀ id request request', (id, request) ∈ connection.called →
    (id, request') ∈ connection.called → request = request'
  current : ∀ call, connection.call = some call → (call.id, call.request) ∈ connection.called
  answered : ∀ id request response, (id, request, response) ∈ connection.answered →
    (id, request) ∈ connection.called
  returned : ∀ entry ∈ connection.returned, entry ∈ connection.answered
  lines : ∀ line ∈ complete newline connection.transport.sent, hub.Known connection.called line
  handled : ∀ line, connection.transport.daemon = .handling line →
    hub.Known connection.called line
  begun : Begun (unfinished newline [] connection.transport.sent)
  writing : connection.transport.daemon ≠ .ended → ∀ call rest, connection.call = some call →
    call.phase = .writing rest → hub.Writes connection.transport.sent call rest
  delimited : Delimited connection.arriving
  replies : ∀ call, connection.call = some call → call.phase ≠ .connecting →
    ∀ line ∈ complete newline connection.arriving, hub.Replies connection.answered line ∨
      ∀ frame ∈ hub.fromSlice line, frame.requestId ≠ call.id
  reading : ∀ call encoded, connection.call = some call → call.phase = .reading encoded →
    Short encoded
  taking : ∀ encoded, connection.transport.daemon = .reading encoded → Short encoded

theorem sound_new : hub.Sound LocalConnection.new where
  once := nofun
  current := nofun
  answered := nofun
  returned := nofun
  lines := nofun
  handled := nofun
  begun := Or.inl rfl
  writing _ := nofun
  delimited := Or.inl rfl
  replies := nofun
  reading := nofun
  taking encoded hdaemon := by
    obtain rfl : [] = encoded := Daemon.reading.inj hdaemon
    exact ⟨List.not_mem_nil, Nat.zero_le _⟩

/-! ## Calls -/

theorem Known.mono {called more : List (Id × Request)} {line : List UInt8}
    (h : hub.Known called line) (hmore : called ⊆ more) : hub.Known more line := by
  rcases h with hnone | ⟨id, request, hmem, hline⟩
  · exact Or.inl hnone
  · exact Or.inr ⟨id, request, hmore hmem, hline⟩

theorem Replies.mono {answered more : List (Id × Request × Response)} {line : List UInt8}
    (h : hub.Replies answered line) (hmore : answered ⊆ more) : hub.Replies more line := by
  obtain ⟨id, request, response, hmem, hline⟩ := h
  exact ⟨id, request, response, hmore hmem, hline⟩

/-- A call that waits for another connection, or none. -/
def Quiet (connection : LocalConnection Id Request Response)
    (waiting : Option (Call Id Request)) : Prop :=
  ∀ call, waiting = some call →
    call.phase = .connecting ∧ (call.id, call.request) ∈ connection.called

theorem quiet_none : Quiet connection none := nofun

theorem Waits.quiet {call : Call Id Request} {waiting : Option (Call Id Request)}
    (h : Waits call waiting) (hcurrent : (call.id, call.request) ∈ connection.called) :
    Quiet connection waiting := by
  cases h with
  | ended => exact quiet_none
  | again =>
      intro call hcall
      rw [← Option.some.inj hcall]
      exact ⟨rfl, hcurrent⟩

/-- A call ends or waits for another connection, and may have read before. -/
theorem Sound.quiet (h : hub.Sound connection) {waiting : Option (Call Id Request)}
    {used rest : List UInt8} (hinbound : connection.transport.inbound = used ++ rest)
    (hquiet : Quiet connection waiting) :
    hub.Sound { connection with
      transport := { connection.transport with inbound := rest }, call := waiting } where
  once := h.once
  current call hcall := (hquiet call hcall).2
  answered := h.answered
  returned := h.returned
  lines := h.lines
  handled := h.handled
  begun := h.begun
  writing _ call rest hcall hphase :=
    absurd ((hquiet call hcall).1.symm.trans hphase) nofun
  delimited := by
    have harriving := h.delimited
    rw [LocalConnection.arriving, Transport.replies, hinbound, List.append_assoc used,
      ← List.append_assoc] at harriving
    have hrest := harriving.of_append
    rw [LocalConnection.arriving]
    cases waiting with
    | none => exact hrest
    | some call =>
        rw [Option.map_some, (hquiet call rfl).1]
        exact hrest
  replies call hcall hphase := absurd (hquiet call hcall).1 hphase
  reading call encoded hcall hphase :=
    absurd ((hquiet call hcall).1.symm.trans hphase) nofun
  taking := h.taking

theorem Sound.waits (h : hub.Sound connection) {waiting : Option (Call Id Request)}
    (hquiet : Quiet connection waiting) : hub.Sound { connection with call := waiting } :=
  h.quiet (List.nil_append _).symm hquiet

theorem Sound.fail (h : hub.Sound connection) {call : Call Id Request}
    (hcurrent : (call.id, call.request) ∈ connection.called) :
    hub.Sound (hub.fail connection call) := by
  obtain ⟨waiting, hwaits, heq⟩ := fail_cases hub connection call
  rw [heq]
  exact h.waits (hwaits.quiet hcurrent)

/-- The beginning of a call, when no line of the replies carries its id. -/
theorem Sound.begins (h : hub.Sound connection) {call : Call Id Request}
    (hcurrent : (call.id, call.request) ∈ connection.called)
    (hfresh : ∀ line ∈ complete newline connection.transport.replies,
      ∀ frame ∈ hub.fromSlice line, frame.requestId ≠ call.id) :
    hub.Sound (hub.once connection call) := by
  rw [LocalHub.once]
  split_ifs
  · exact h.fail hcurrent
  · have hquiet := h.waits quiet_none
    exact
      { once := h.once
        current := by
          intro current hcall
          rw [← Option.some.inj hcall]
          exact hcurrent
        answered := h.answered
        returned := h.returned
        lines := h.lines
        handled := h.handled
        begun := h.begun
        writing := by
          intro _ current rest hcall hphase
          obtain rfl := Option.some.inj hcall
          obtain rfl := Phase.writing.inj hphase
          exact ⟨List.concat_ne_nil _ _, _, [], h.begun, (List.append_nil _).symm, rfl⟩
        delimited := hquiet.delimited
        replies := by
          intro current hcall _ line hline
          obtain rfl := Option.some.inj hcall
          exact Or.inr (hfresh line hline)
        reading := by
          intro current encoded hcall hphase
          obtain rfl := Option.some.inj hcall
          exact nomatch hphase
        taking := h.taking }

theorem Sound.called (h : hub.Sound connection) {id : Id} {request : Request}
    (hcall : connection.call = none) (hid : id ∉ connection.called.map Prod.fst) :
    hub.Sound { connection with called := (id, request) :: connection.called } where
  once other first second hfirst hsecond := by
    have hnot : ∀ request, (id, request) ∉ connection.called := fun request hmem =>
      hid (List.mem_map_of_mem hmem)
    rcases List.mem_cons.mp hfirst with hnew | hfirst
    · cases hnew
      rcases List.mem_cons.mp hsecond with hnew | hsecond
      · cases hnew
        rfl
      · exact absurd hsecond (hnot second)
    · rcases List.mem_cons.mp hsecond with hnew | hsecond
      · cases hnew
        exact absurd hfirst (hnot first)
      · exact h.once other first second hfirst hsecond
  current call hsome := nomatch hcall.symm.trans hsome
  answered id request response hmem := List.mem_cons_of_mem _ (h.answered id request response hmem)
  returned := h.returned
  lines line hline := (h.lines line hline).mono (List.subset_cons_self _ _)
  handled line hdaemon := (h.handled line hdaemon).mono (List.subset_cons_self _ _)
  begun := h.begun
  writing := h.writing
  delimited := h.delimited
  replies := h.replies
  reading := h.reading
  taking := h.taking

theorem short_nil : Short [] := ⟨List.not_mem_nil, Nat.zero_le _⟩

theorem Sound.connected (h : hub.Sound connection) {call : Call Id Request}
    (hcall : connection.call = some call) (hphase : call.phase = .connecting) :
    hub.Sound { connection with transport := .new } where
  once := h.once
  current := h.current
  answered := h.answered
  returned := h.returned
  lines := nofun
  handled := nofun
  begun := Or.inl rfl
  writing _ other rest hother hwriting := by
    obtain rfl := Option.some.inj (hcall.symm.trans hother)
    exact nomatch hphase.symm.trans hwriting
  delimited := by
    left
    rw [LocalConnection.arriving]
    change ((connection.call.map fun call => call.phase.encoded).getD []) ++ [] = []
    rw [hcall, Option.map_some, hphase]
    rfl
  replies other hother hother' := by
    obtain rfl := Option.some.inj (hcall.symm.trans hother)
    exact absurd hphase hother'
  reading other encoded hother hreading := by
    obtain rfl := Option.some.inj (hcall.symm.trans hother)
    exact nomatch hphase.symm.trans hreading
  taking encoded hdaemon := by
    obtain rfl : [] = encoded := Daemon.reading.inj hdaemon
    exact short_nil

/-! ## Frames on the way to the daemon -/

/-- What is left of a frame ends with its newline. -/
theorem frame_left {bytes written rest : List UInt8} (hrest : rest ≠ [])
    (hframe : written ++ rest = bytes ++ [newline]) :
    ∃ tail, rest = tail ++ [newline] ∧ written ++ tail = bytes := by
  obtain ⟨tail, last, rfl⟩ := (List.eq_nil_or_concat rest).resolve_left hrest
  rw [List.concat_eq_append, ← List.append_assoc] at hframe
  obtain ⟨htail, hlast⟩ := List.append_inj' hframe rfl
  rw [List.concat_eq_append, hlast]
  exact ⟨tail, rfl, htail⟩

/-- The whole line that a frame ends is known. -/
theorem Sound.known_frame (hlawful : hub.Lawful) {call : Call Id Request} {begun : List UInt8}
    (hbegun : Begun begun) (hcurrent : (call.id, call.request) ∈ connection.called) :
    hub.Known connection.called
      (begun ++ (hub.requestBytes call.id call.request ++ [newline])) := by
  by_cases hnil : begun = []
  · right
    rw [hnil]
    exact ⟨call.id, call.request, hcurrent, rfl⟩
  · exact Or.inl (hlawful.fromSlice_begun hbegun hnil)

theorem Sound.write (h : hub.Sound connection) (hlawful : hub.Lawful) {call : Call Id Request}
    {rest : List UInt8} {count : ℕ} (hcall : connection.call = some call)
    (hphase : call.phase = .writing rest) (halive : connection.transport.daemon ≠ .ended) :
    hub.Sound (write connection call rest count) := by
  obtain ⟨hrest, begun, written, hbegun, hunfinished, hframe⟩ :=
    h.writing halive call rest hcall hphase
  have hcurrent := h.current call hcall
  have harriving : connection.arriving = connection.transport.replies := by
    rw [LocalConnection.arriving, hcall, Option.map_some, hphase]
    rfl
  have hdelimited := h.delimited
  have hreplies := h.replies call hcall (hphase ▸ nofun)
  rw [harriving] at hdelimited hreplies
  have hline : newline ∉ hub.requestBytes call.id call.request :=
    hlawful.requestLine call.id call.request
  rw [LocalHub.write]
  obtain ⟨part, hpart⟩ : ∃ part, rest.take count = part := ⟨_, rfl⟩
  have hsplit : part ++ rest.drop count = rest := by rw [← hpart, List.take_append_drop]
  have hsent : ∀ transport : Transport,
      ({ transport with outbound := transport.outbound ++ part } : Transport).sent =
        transport.sent ++ part := fun transport => (List.append_assoc _ _ _).symm
  rw [hpart]
  by_cases hdone : rest.drop count = []
  · rw [if_pos hdone]
    rw [hdone, List.append_nil] at hsplit
    subst hsplit
    obtain ⟨tail, rfl, htail⟩ := frame_left hrest hframe
    have htailLine : newline ∉ tail := by
      intro hmem
      rw [← htail] at hline
      exact hline (List.mem_append_right _ hmem)
    obtain ⟨hlines, hleft⟩ := split_delimited
      (unfinished newline [] connection.transport.sent) htailLine
    exact
      { once := h.once
        current := by
          intro current hcurrent'
          rw [← Option.some.inj hcurrent']
          exact hcurrent
        answered := h.answered
        returned := h.returned
        lines := by
          intro line hmem
          rw [hsent, complete, split_append, hlines] at hmem
          rcases List.mem_append.mp hmem with hmem | hmem
          · exact h.lines line hmem
          · rw [List.mem_singleton.mp hmem, hunfinished, List.append_assoc, ← List.append_assoc written,
              htail]
            exact known_frame hlawful hbegun hcurrent
        handled := h.handled
        begun := by
          rw [hsent, unfinished_append, hleft]
          exact Or.inl rfl
        writing := by
          intro _ current rest hcall hwriting
          obtain rfl := Option.some.inj hcall
          exact nomatch hwriting
        delimited := hdelimited
        replies := by
          intro current hcall _ line hmem
          obtain rfl := Option.some.inj hcall
          exact hreplies line hmem
        reading := by
          intro current encoded hcall hreading
          obtain rfl := Option.some.inj hcall
          obtain rfl := Phase.reading.inj hreading
          exact short_nil
        taking := h.taking }
  · rw [if_neg hdone]
    have hframe' := hframe
    rw [← hsplit, ← List.append_assoc] at hframe'
    obtain ⟨tail, -, htail⟩ := frame_left hdone hframe'
    have hpartLine : newline ∉ part := by
      intro hmem
      rw [← htail] at hline
      exact hline (List.mem_append_left _ (List.mem_append_right _ hmem))
    obtain ⟨hlines, hleft⟩ := split_of_notMem
      (unfinished newline [] connection.transport.sent) hpartLine
    have hnow : unfinished newline [] (connection.transport.sent ++ part) =
        begun ++ (written ++ part) := by
      rw [unfinished_append, hleft, hunfinished, List.append_assoc]
    exact
      { once := h.once
        current := by
          intro current hcurrent'
          rw [← Option.some.inj hcurrent']
          exact hcurrent
        answered := h.answered
        returned := h.returned
        lines := by
          intro line hmem
          rw [hsent, complete, split_append, hlines, List.append_nil] at hmem
          exact h.lines line hmem
        handled := h.handled
        begun := by
          rw [hsent, hnow]
          exact hlawful.begun_append hbegun hframe'
        writing := by
          intro _ current rest hcall hwriting
          obtain rfl := Option.some.inj hcall
          obtain rfl := Phase.writing.inj hwriting
          rw [hsent]
          exact ⟨hdone, begun, written ++ part, hbegun, hnow, hframe'⟩
        delimited := hdelimited
        replies := by
          intro current hcall _ line hmem
          obtain rfl := Option.some.inj hcall
          exact hreplies line hmem
        reading := by
          intro current encoded hcall hreading
          obtain rfl := Option.some.inj hcall
          exact nomatch hreading
        taking := h.taking }

/-! ## The daemon -/

/-- A read that goes on is within the limit. -/
theorem Short.append {encoded used : List UInt8} (h : Short encoded)
    (hlength : used.length ≤ maxHubFrameBytes + 1 - encoded.length)
    (hgoes : GoesOn newline (maxHubFrameBytes + 1) encoded used) : Short (encoded ++ used) := by
  obtain ⟨-, hnewline, hother⟩ := hgoes
  obtain ⟨hbefore, hshort⟩ := h
  refine ⟨List.not_mem_append hbefore hnewline, ?_⟩
  rw [List.length_append] at hother ⊢
  omega

/-- Where only what is sent changes, and no line comes of it. -/
theorem Sound.of_transport (h : hub.Sound connection) {transport : Transport}
    (hreplies : transport.replies = connection.transport.replies)
    (hsent : transport.daemon = .ended ∧ transport.sent = [] ∨
      connection.transport.daemon ≠ .ended ∧
        (∀ line ∈ complete newline transport.sent,
          line ∈ complete newline connection.transport.sent) ∧
        unfinished newline [] transport.sent = unfinished newline [] connection.transport.sent)
    (hhandled : ∀ line, transport.daemon = .handling line → hub.Known connection.called line)
    (htaking : ∀ encoded, transport.daemon = .reading encoded → Short encoded) :
    hub.Sound { connection with transport } where
  once := h.once
  current := h.current
  answered := h.answered
  returned := h.returned
  lines := by
    intro line hline
    rcases hsent with ⟨-, hnil⟩ | ⟨-, hlines, -⟩
    · rw [hnil] at hline
      exact absurd hline List.not_mem_nil
    · exact h.lines line (hlines line hline)
  handled := hhandled
  begun := by
    rcases hsent with ⟨-, hnil⟩ | ⟨-, -, hunfinished⟩
    · rw [hnil]
      exact Or.inl rfl
    · rw [hunfinished]
      exact h.begun
  writing := by
    intro halive call rest hcall hphase
    rcases hsent with ⟨hended, -⟩ | ⟨hbefore, -, hunfinished⟩
    · exact absurd hended halive
    · obtain ⟨hrest, hframe⟩ := h.writing hbefore call rest hcall hphase
      rw [← hunfinished] at hframe
      exact ⟨hrest, hframe⟩
  delimited := by
    rw [LocalConnection.arriving, hreplies]
    exact h.delimited
  replies := by
    rw [LocalConnection.arriving, hreplies]
    exact h.replies
  reading := h.reading
  taking := htaking

/-- What the daemon takes: more of a frame, too much of it or the last of it. -/
inductive Takes (transport : Transport) (encoded : List UInt8) : Transport → Prop where
  | more {used rest : List UInt8} (hshort : Short (encoded ++ used)) (hused : used ≠ [])
      (houtbound : transport.outbound = used ++ rest) :
      Takes transport encoded
        { transport with outbound := rest, daemon := .reading (encoded ++ used) }
  | exceeded {used rest : List UInt8} (hlong : maxHubFrameBytes < (encoded ++ used).length)
      (hused : used ≠ []) (houtbound : transport.outbound = used ++ rest) :
      Takes transport encoded { transport with outbound := [], daemon := .ended }
  | line {used rest text : List UInt8} (htext : newline ∉ text) (hused : used ≠ [])
      (hline : encoded ++ used = text ++ [newline])
      (hlength : (text ++ [newline]).length ≤ maxHubFrameBytes)
      (houtbound : transport.outbound = used ++ rest) :
      Takes transport encoded
        { transport with outbound := rest, daemon := .handling (text ++ [newline]) }

theorem takes_take {transport : Transport} {encoded : List UInt8} {count : ℕ}
    (hshort : Short encoded) (houtbound : transport.outbound.take count ≠ []) :
    Takes transport encoded (take transport encoded count) := by
  have htaken := readsUntil_takeUntil newline (maxHubFrameBytes + 1) encoded
    (transport.outbound.take count)
  rw [take]
  generalize takeUntil newline (maxHubFrameBytes + 1) encoded
    (transport.outbound.take count) = used at htaken ⊢
  have hlength := htaken.length_le
  have hused := htaken.ne_nil (Nat.lt_succ_of_le hshort.2) houtbound
  obtain ⟨rest, hrest⟩ := htaken.begins.trans (List.take_prefix count transport.outbound)
  have hdrop : transport.outbound.drop used.length = rest := by rw [← hrest, List.drop_left]
  rw [hdrop]
  split_ifs with hgoes hlong
  · exact .more (hshort.append hlength hgoes) hused hrest.symm
  · exact .exceeded hlong hused hrest.symm
  · have hline : ∃ text, newline ∉ text ∧ encoded ++ used = text ++ [newline] := by
      apply (htaken.ended hshort.1 hused hgoes).resolve_right
      rintro ⟨-, hlimit⟩
      omega
    obtain ⟨text, htext, hline⟩ := hline
    rw [hline] at hlong ⊢
    exact .line htext hused hline (Nat.le_of_not_lt hlong) hrest.symm

section Takes

variable {transport after : Transport} {encoded : List UInt8}

theorem Takes.replies (h : Takes transport encoded after)
    (hdaemon : transport.daemon = .reading encoded) : after.replies = transport.replies := by
  have hbefore : transport.replies = transport.inbound ++ [] := by
    rw [Transport.replies, hdaemon]
    rfl
  rw [hbefore]
  cases h with
  | more => rfl
  | exceeded => rfl
  | line => rfl

theorem sent_reading {used rest : List UInt8} (hdaemon : transport.daemon = .reading encoded)
    (houtbound : transport.outbound = used ++ rest) :
    transport.sent = (encoded ++ used) ++ rest := by
  rw [Transport.sent, hdaemon, houtbound, List.append_assoc]
  rfl

end Takes

theorem Sound.takes (h : hub.Sound connection) {encoded : List UInt8} {after : Transport}
    (hdaemon : connection.transport.daemon = .reading encoded)
    (htakes : Takes connection.transport encoded after) :
    hub.Sound { connection with transport := after } := by
  have halive : connection.transport.daemon ≠ .ended := hdaemon ▸ nofun
  apply h.of_transport (htakes.replies hdaemon)
  · cases htakes with
    | more hshort hused houtbound =>
        right
        rw [sent_reading hdaemon houtbound]
        exact ⟨halive, fun _ hline => hline, rfl⟩
    | exceeded => exact Or.inl ⟨rfl, rfl⟩
    | line htext hused hline hlength houtbound =>
        right
        rw [sent_reading hdaemon houtbound, hline, complete_line_append _ htext, unfinished_append,
          (split_delimited _ htext).2]
        exact ⟨halive, fun _ hmem => List.mem_cons_of_mem _ hmem, rfl⟩
  · intro line hhandling
    cases htakes with
    | more => exact nomatch hhandling
    | exceeded => exact nomatch hhandling
    | line htext hused hline hlength houtbound =>
        rw [← Daemon.handling.inj hhandling]
        apply h.lines
        rw [sent_reading hdaemon houtbound, hline, complete_line_append _ htext]
        exact List.mem_cons_self
  · intro taken htaking
    cases htakes with
    | more hshort hused houtbound =>
        rw [← Daemon.reading.inj htaking]
        exact hshort
    | exceeded => exact nomatch htaking
    | line => exact nomatch htaking

theorem Sound.hangUp (h : hub.Sound connection) (hleft : connection.transport.daemon.left = []) :
    hub.Sound (hangUp connection) := by
  apply h.of_transport
  · rw [Transport.replies, Transport.replies, hleft]
    rfl
  · exact Or.inl ⟨rfl, rfl⟩
  · exact nofun
  · exact nofun

/-- The daemon writes a part of a reply, or the last of it. -/
structure Written (transport : Transport) (rest : List UInt8) (count : ℕ) (after : Transport) :
    Prop where
  outbound : after.outbound = transport.outbound
  inbound : after.inbound = transport.inbound ++ rest.take count
  daemon : rest.drop count = [] ∧ after.daemon = .reading [] ∨
    rest.drop count ≠ [] ∧ after.daemon = .replying (rest.drop count)

theorem written_reply (transport : Transport) (rest : List UInt8) (count : ℕ) :
    Written transport rest count (reply transport rest count) := by
  rw [reply]
  by_cases hdone : rest.drop count = []
  · rw [if_pos hdone]
    exact ⟨rfl, rfl, Or.inl ⟨hdone, rfl⟩⟩
  · rw [if_neg hdone]
    exact ⟨rfl, rfl, Or.inr ⟨hdone, rfl⟩⟩

section Written

variable {transport after : Transport} {rest : List UInt8} {count : ℕ}

theorem Written.left (h : Written transport rest count after) :
    after.daemon.left = rest.drop count := by
  rcases h.daemon with ⟨hdone, hdaemon⟩ | ⟨-, hdaemon⟩
  · rw [hdaemon, hdone]
    rfl
  · rw [hdaemon]
    rfl

theorem Written.replies (h : Written transport rest count after)
    (hdaemon : transport.daemon = .replying rest) : after.replies = transport.replies := by
  rw [Transport.replies, Transport.replies, h.inbound, h.left, hdaemon, List.append_assoc,
    List.take_append_drop]
  rfl

theorem Written.sent (h : Written transport rest count after)
    (hdaemon : transport.daemon = .replying rest) : after.sent = transport.sent := by
  rw [Transport.sent, Transport.sent, h.outbound, hdaemon]
  rcases h.daemon with ⟨-, hafter⟩ | ⟨-, hafter⟩
  · rw [hafter]
    rfl
  · rw [hafter]
    rfl

end Written

theorem Sound.writes (h : hub.Sound connection) {rest : List UInt8} {count : ℕ}
    {after : Transport} (hdaemon : connection.transport.daemon = .replying rest)
    (hwritten : Written connection.transport rest count after) :
    hub.Sound { connection with transport := after } := by
  apply h.of_transport (hwritten.replies hdaemon)
  · right
    rw [hwritten.sent hdaemon]
    exact ⟨hdaemon ▸ nofun, fun _ hline => hline, rfl⟩
  · intro line hhandling
    rcases hwritten.daemon with ⟨-, hafter⟩ | ⟨-, hafter⟩
    · exact nomatch hafter.symm.trans hhandling
    · exact nomatch hafter.symm.trans hhandling
  · intro encoded hreading
    rcases hwritten.daemon with ⟨-, hafter⟩ | ⟨-, hafter⟩
    · rw [← Daemon.reading.inj (hafter.symm.trans hreading)]
      exact short_nil
    · exact nomatch hafter.symm.trans hreading

theorem Sound.answered_cons (h : hub.Sound connection) {id : Id} {request : Request}
    (response : Response) (hcalled : (id, request) ∈ connection.called) :
    hub.Sound { connection with
      answered := (id, request, response) :: connection.answered } where
  once := h.once
  current := h.current
  answered other request' response' hmem := by
    rcases List.mem_cons.mp hmem with hnew | hmem
    · cases hnew
      exact hcalled
    · exact h.answered other request' response' hmem
  returned entry hmem := List.mem_cons_of_mem _ (h.returned entry hmem)
  lines := h.lines
  handled := h.handled
  begun := h.begun
  writing := h.writing
  delimited := h.delimited
  replies call hcall hphase line hline := by
    rcases h.replies call hcall hphase line hline with hreply | hother
    · exact Or.inl (hreply.mono (List.subset_cons_self _ _))
    · exact Or.inr hother
  reading := h.reading
  taking := h.taking

/-- The daemon begins to write the reply to a request. -/
theorem Sound.respond (h : hub.Sound connection) (hlawful : hub.Lawful) {line : List UInt8}
    (hdaemon : connection.transport.daemon = .handling line) {id : Id} {request : Request}
    {response : Response} (hanswered : (id, request, response) ∈ connection.answered) :
    hub.Sound (hub.respond connection id response) := by
  have hleft : connection.transport.daemon.left = [] := by
    rw [hdaemon]
    rfl
  have hbytes := hlawful.responseLine id response
  rw [LocalHub.respond]
  split_ifs
  · exact h.hangUp hleft
  · have harriving : ({ connection with
        transport := { connection.transport with
          daemon := .replying (hub.responseBytes id response ++ [newline]) } } :
          LocalConnection Id Request Response).arriving =
        connection.arriving ++ (hub.responseBytes id response ++ [newline]) := by
      rw [LocalConnection.arriving, LocalConnection.arriving, Transport.replies,
        Transport.replies, hleft, List.append_nil, List.append_assoc]
      rfl
    have hsent : ({ connection.transport with
        daemon := .replying (hub.responseBytes id response ++ [newline]) } : Transport).sent =
        connection.transport.sent := by
      rw [Transport.sent, Transport.sent, hdaemon]
      rfl
    exact
      { once := h.once
        current := h.current
        answered := h.answered
        returned := h.returned
        lines := by
          rw [hsent]
          exact h.lines
        handled := nofun
        begun := by
          rw [hsent]
          exact h.begun
        writing := by
          rw [hsent]
          exact fun _ => h.writing (hdaemon ▸ nofun)
        delimited := by
          rw [harriving, ← List.append_assoc]
          exact delimited_concat
        replies := by
          intro call hcall hphase reply hreply
          rw [harriving, h.delimited.complete_append, complete_line hbytes] at hreply
          rcases List.mem_append.mp hreply with hreply | hreply
          · exact h.replies call hcall hphase reply hreply
          · left
            rw [List.mem_singleton.mp hreply]
            exact ⟨id, request, response, hanswered, rfl⟩
        reading := h.reading
        taking := nofun }

/-- The daemon answers a whole frame of a request, or ends the connection. -/
theorem Sound.answer_cases (h : hub.Sound connection) (hlawful : hub.Lawful) {line : List UInt8}
    (hdaemon : connection.transport.daemon = .handling line) :
    hub.answer connection line = LocalHub.hangUp connection ∧
        (hub.fromSlice line = none ∨ ∃ frame, hub.fromSlice line = some frame ∧
          hub.requestOf frame.body = none) ∨
      ∃ id request, (id, request) ∈ connection.called ∧
        line = hub.requestBytes id request ++ [newline] ∧
        hub.answer connection line = hub.respond
          { connection with
            answered := (id, request, hub.dispatch connection.answered id request) ::
              connection.answered }
          id (hub.dispatch connection.answered id request) := by
  rw [LocalHub.answer]
  split
  · rename_i hframe
    exact Or.inl ⟨rfl, Or.inl hframe⟩
  · rename_i frame hframe
    rcases h.handled line hdaemon with hnone | ⟨id, request, hcalled, hline⟩
    · exact nomatch hnone.symm.trans hframe
    · have hread := hframe
      rw [hline] at hread
      obtain ⟨hversion, hid, hread⟩ := hlawful.request id request frame hread
      rw [if_neg (not_not.mpr hversion)]
      split
      · rename_i hrequest
        exact Or.inl ⟨rfl, Or.inr ⟨frame, hframe, hrequest⟩⟩
      · rename_i read hrequest
        obtain rfl := hread read hrequest
        rw [hid]
        exact Or.inr ⟨id, read, hcalled, hline, rfl⟩

theorem Sound.answer (h : hub.Sound connection) (hlawful : hub.Lawful) {line : List UInt8}
    (hdaemon : connection.transport.daemon = .handling line) :
    hub.Sound (hub.answer connection line) := by
  rcases h.answer_cases hlawful hdaemon with ⟨hended, -⟩ | ⟨id, request, hcalled, -, hanswer⟩
  · rw [hended]
    apply h.hangUp
    rw [hdaemon]
    rfl
  · rw [hanswer]
    exact (h.answered_cons _ hcalled).respond hlawful hdaemon List.mem_cons_self

end LocalHub

end Mews.Client
