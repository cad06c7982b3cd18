import Mews.Core.Inevitable
import Mews.Client.Progress

/-!
# Retries that get through

A caller that retries gets its reply over a connection of its own, whatever is left on the
old one, if it gets to the end of its first attempt: if there is no jam.
-/

namespace Mews.Client

open Protocol Lines

variable {Id Request Response : Type}

namespace LocalHub

variable {hub : LocalHub Id Request Response}
  {connection after : LocalConnection Id Request Response} {id : Id} {request : Request}

/-- A response that the caller takes. -/
structure Accepted (hub : LocalHub Id Request Response) (id : Id) (response : Response) :
    Prop where
  noError : hub.isError response = false
  fits : (hub.responseBytes id response).length < maxHubFrameBytes
  reads : ∃ frame read, hub.fromSlice (hub.responseBytes id response ++ [newline]) = some frame ∧
    hub.responseOf frame.body = some read

/-- A request that is safe to retry and that the daemon reads. -/
structure Answerable (hub : LocalHub Id Request Response) (id : Id) (request : Request) :
    Prop where
  safe : retrySafe (hub.kind request) = true
  fits : (hub.requestBytes id request).length < maxHubFrameBytes
  reads : ∃ frame read, hub.fromSlice (hub.requestBytes id request ++ [newline]) = some frame ∧
    hub.requestOf frame.body = some read

/-- The caller of the request was told a response. -/
def Told (id : Id) (request : Request) (connection : LocalConnection Id Request Response) : Prop :=
  ∃ response, (id, request, response) ∈ connection.returned

/-! ## A connection of its own -/

/-- A call on a connection that nobody used before. -/
inductive Own (hub : LocalHub Id Request Response) (call : Call Id Request)
    (transport : Transport) : Prop where
  | asking {encoded : List UInt8} (hdaemon : transport.daemon = .reading encoded)
      (hinbound : transport.inbound = []) (hphase : call.phase ≠ .connecting)
      (hencoded : call.phase.encoded = [])
      (hframe : encoded ++ (transport.outbound ++ call.phase.rest) =
        hub.requestBytes call.id call.request ++ [newline])
  | asked (hdaemon : transport.daemon =
        .handling (hub.requestBytes call.id call.request ++ [newline]))
      (houtbound : transport.outbound = []) (hinbound : transport.inbound = [])
      (hphase : call.phase = .reading [])
  | answered {encoded : List UInt8} {response : Response}
      (haccepted : hub.Accepted call.id response) (hphase : call.phase = .reading encoded)
      (houtbound : transport.outbound = [])
      (hdaemon : transport.daemon = .reading [] ∨ ∃ left, transport.daemon = .replying left)
      (hreply : encoded ++ transport.replies = hub.responseBytes call.id response ++ [newline])

/-- How far a call is that gets through. -/
inductive Course (hub : LocalHub Id Request Response) (call : Call Id Request)
    (transport : Transport) : Prop where
  | first (hattempt : call.attempt = 0)
  | waiting (hattempt : call.attempt = 1) (hphase : call.phase = .connecting)
  | own (hattempt : call.attempt = 1) (hown : hub.Own call transport)

/-- The call of the request is on its way. -/
structure OnCourse (hub : LocalHub Id Request Response) (id : Id) (request : Request)
    (connection : LocalConnection Id Request Response) : Prop where
  sound : hub.Sound connection
  lively : Lively connection
  course : ∃ call, connection.call = some call ∧ call.id = id ∧ call.request = request ∧
    hub.Course call connection.transport

/-! ## What is left to do -/

/-- What the daemon may have to write for a frame. -/
def handlingWeight : ℕ := 2 * maxHubFrameBytes + 3

def daemonWeight : Daemon → ℕ
  | .handling _ => handlingWeight
  | .replying rest => 2 * rest.length
  | _ => 0

def transportWeight (transport : Transport) : ℕ :=
  (handlingWeight + 1) * transport.outbound.length + daemonWeight transport.daemon +
    transport.inbound.length

/-- A connection weighs less than this when it is new. -/
def newWeight : ℕ := (handlingWeight + 2) * (maxHubFrameBytes + 1)

def callWeight (call : Call Id Request) : ℕ :=
  (handlingWeight + 2) * call.phase.rest.length +
    if call.phase = .connecting then newWeight + 1
    else if call.attempt = 0 then newWeight + 2
    else 0

def rank (connection : LocalConnection Id Request Response) : ℕ :=
  transportWeight connection.transport + (connection.call.map callWeight).getD 0

theorem Takes.weight {transport after : Transport} {encoded : List UInt8}
    (h : Takes transport encoded after) (hdaemon : transport.daemon = .reading encoded) :
    transportWeight after < transportWeight transport := by
  cases h with
  | more hshort hused houtbound =>
      have hpos := List.length_pos_of_ne_nil hused
      simp only [transportWeight, hdaemon, houtbound, daemonWeight, List.length_append,
        handlingWeight, maxHubFrameBytes]
      omega
  | exceeded hlong hused houtbound =>
      have hpos := List.length_pos_of_ne_nil hused
      simp only [transportWeight, hdaemon, houtbound, daemonWeight, List.length_append,
        handlingWeight, maxHubFrameBytes, List.length_nil]
      omega
  | line htext hused hline hlength houtbound =>
      have hpos := List.length_pos_of_ne_nil hused
      simp only [transportWeight, hdaemon, houtbound, daemonWeight, List.length_append,
        handlingWeight, maxHubFrameBytes]
      omega

theorem Written.weight {transport after : Transport} {rest : List UInt8} {count : ℕ}
    (h : Written transport rest count after) (hdaemon : transport.daemon = .replying rest)
    (hpasses : Passes hub.inboundRoom transport.inbound rest count) :
    transportWeight after < transportWeight transport := by
  obtain ⟨hpos, hcount, -⟩ := hpasses
  have hdrop := List.length_drop (i := count) (l := rest)
  rw [transportWeight, transportWeight, h.outbound, h.inbound, hdaemon, daemonWeight,
    List.length_append, List.length_take_of_le hcount]
  rcases h.daemon with ⟨-, hafter⟩ | ⟨-, hafter⟩
  · rw [hafter]
    simp only [daemonWeight]
    omega
  · rw [hafter]
    simp only [daemonWeight]
    omega

theorem transportWeight_hangUp {transport : Transport} {line : List UInt8}
    (hdaemon : transport.daemon = .handling line) :
    transportWeight { transport with outbound := [], daemon := .ended } <
      transportWeight transport := by
  simp only [transportWeight, hdaemon, daemonWeight, List.length_nil, handlingWeight,
    maxHubFrameBytes]
  omega

theorem transportWeight_replying {transport : Transport} {line bytes : List UInt8}
    (hdaemon : transport.daemon = .handling line) (hfits : bytes.length ≤ maxHubFrameBytes) :
    transportWeight { transport with daemon := .replying (bytes ++ [newline]) } <
      transportWeight transport := by
  simp only [transportWeight, hdaemon, daemonWeight, List.length_append, List.length_singleton,
    handlingWeight]
  omega

theorem transportWeight_inbound {transport : Transport} {used rest : List UInt8}
    (hinbound : transport.inbound = used ++ rest) :
    transportWeight { transport with inbound := rest } + used.length =
      transportWeight transport := by
  simp only [transportWeight, hinbound, List.length_append]
  omega

theorem rank_some {call : Call Id Request} (hcall : connection.call = some call) :
    rank connection = transportWeight connection.transport + callWeight call := by
  rw [rank, hcall]
  rfl

section Courses

variable {call : Call Id Request}

/-- The first attempt fails: the request is made again on another connection. -/
theorem OnCourse.fails (h : hub.OnCourse id request connection)
    (hanswerable : hub.Answerable id request) (hcall : connection.call = some call)
    (hattempt : call.attempt = 0) {transport : Transport}
    (hweight : transportWeight transport ≤ transportWeight connection.transport)
    (hsound : hub.Sound (hub.fail { connection with transport } call))
    (hlively : Lively (hub.fail { connection with transport } call)) :
    hub.OnCourse id request (hub.fail { connection with transport } call) ∧
      rank (hub.fail { connection with transport } call) < rank connection := by
  obtain ⟨current, hcurrent, hid, hrequest, -⟩ := h.course
  obtain rfl := Option.some.inj (hcall.symm.trans hcurrent)
  have hconnecting := h.lively.started call hcall hattempt
  have hfail : hub.fail { connection with transport } call =
      { connection with
        transport
        call := some { call with attempt := 1, phase := .connecting } } := by
    rw [fail, if_pos, hattempt]
    rw [hrequest, hattempt]
    exact ⟨hanswerable.safe, by decide⟩
  constructor
  · refine ⟨hsound, hlively, ?_⟩
    rw [hfail]
    exact ⟨_, rfl, hid, hrequest, .waiting rfl rfl⟩
  · rw [rank_some hcall, hfail]
    simp only [rank, Option.map_some, Option.getD_some, callWeight, Phase.rest, List.length_nil,
      if_pos, if_neg hconnecting, hattempt]
    omega

/-! ## Steps on the way -/

/-- A frame is the only line of itself. -/
theorem line_eq_of_append {text bytes rest : List UInt8} (htext : newline ∉ text)
    (hbytes : newline ∉ bytes) (hsame : (text ++ [newline]) ++ rest = bytes ++ [newline]) :
    text = bytes ∧ rest = [] := by
  have hlines := complete_line_append rest htext
  rw [hsame, complete_line hbytes] at hlines
  obtain ⟨hline, -⟩ := List.cons_eq_cons.mp hlines
  rw [← hline] at hsame
  exact ⟨List.append_inj_left' hline.symm rfl, List.append_right_eq_self.mp hsame⟩

theorem Own.write (h : hub.Own call connection.transport) {rest : List UInt8} {count : ℕ}
    (hphase : call.phase = .writing rest) :
    hub.Own
      { call with
        phase := if rest.drop count = [] then .reading [] else .writing (rest.drop count) }
      (write connection call rest count).transport := by
  cases h with
  | asking hdaemon hinbound _ hencoded hframe =>
      rw [hphase] at hframe
      apply Own.asking
      · exact hdaemon
      · exact hinbound
      · dsimp only
        split_ifs
        · exact nofun
        · exact nofun
      · dsimp only
        split_ifs
        · rfl
        · rfl
      · rw [← hframe]
        congr 1
        have hsplit := List.take_append_drop count rest
        change connection.transport.outbound ++ rest.take count ++ _ = _
        rw [List.append_assoc]
        congr 1
        split_ifs with hdone
        · rw [hdone] at hsplit
          exact hsplit
        · exact hsplit
  | asked _ _ _ hreading => exact nomatch hphase.symm.trans hreading
  | answered _ hreading => exact nomatch hphase.symm.trans hreading

theorem Own.takes (h : hub.Own call connection.transport) (hsound : hub.Sound connection)
    (hcall : connection.call = some call)
    (hlawful : hub.Lawful) (hfits : (hub.requestBytes call.id call.request).length < maxHubFrameBytes)
    {encoded : List UInt8} {transport : Transport}
    (hreading : connection.transport.daemon = .reading encoded)
    (htakes : Takes connection.transport encoded transport) : hub.Own call transport := by
  cases h with
  | asking hdaemon hinbound hphase hencoded hframe =>
      obtain rfl := Daemon.reading.inj (hdaemon.symm.trans hreading)
      cases htakes with
      | more hshort hused houtbound =>
          rw [houtbound, List.append_assoc, ← List.append_assoc] at hframe
          exact .asking rfl hinbound hphase hencoded hframe
      | exceeded hlong hused houtbound =>
          exfalso
          rw [houtbound, List.append_assoc, ← List.append_assoc] at hframe
          have hlength := congrArg List.length hframe
          simp only [List.length_append, List.length_singleton] at hlength hlong
          omega
      | line htext hused hline hlength houtbound =>
          rw [houtbound, List.append_assoc, ← List.append_assoc, hline] at hframe
          obtain ⟨rfl, hnil⟩ := line_eq_of_append htext
            (hlawful.requestLine call.id call.request) hframe
          obtain ⟨hrest, hleft⟩ := List.append_eq_nil_iff.mp hnil
          apply Own.asked
          · rfl
          · exact hrest
          · exact hinbound
          cases hnow : call.phase with
          | connecting => exact absurd hnow hphase
          | writing left =>
              have halive : connection.transport.daemon ≠ .ended := hdaemon ▸ nofun
              have hwrites := hsound.writing halive call left hcall hnow
              rw [hnow] at hleft
              exact absurd hleft hwrites.ne_nil
          | reading taken =>
              rw [hnow] at hencoded
              exact congrArg Phase.reading hencoded
  | asked hhandling => exact nomatch hreading.symm.trans hhandling
  | answered haccepted hphase houtbound hdaemon hreply =>
      exfalso
      cases htakes with
      | more hshort hused hmore =>
          rw [houtbound] at hmore
          exact hused (List.append_eq_nil_iff.mp hmore.symm).1
      | exceeded hlong hused hmore =>
          rw [houtbound] at hmore
          exact hused (List.append_eq_nil_iff.mp hmore.symm).1
      | line htext hused hline hlength hmore =>
          rw [houtbound] at hmore
          exact hused (List.append_eq_nil_iff.mp hmore.symm).1

theorem Own.writes (h : hub.Own call connection.transport) {rest : List UInt8} {count : ℕ}
    {transport : Transport} (hreplying : connection.transport.daemon = .replying rest)
    (hwritten : Written connection.transport rest count transport) : hub.Own call transport := by
  cases h with
  | asking hdaemon => exact nomatch hreplying.symm.trans hdaemon
  | asked hdaemon => exact nomatch hreplying.symm.trans hdaemon
  | answered haccepted hphase houtbound _ hreply =>
      apply Own.answered haccepted hphase
      · rw [hwritten.outbound, houtbound]
      · rcases hwritten.daemon with ⟨-, hafter⟩ | ⟨-, hafter⟩
        · exact Or.inl hafter
        · exact Or.inr ⟨_, hafter⟩
      · rw [hwritten.replies hreplying]
        exact hreply

/-- The daemon answers the frame of the call with a response that the caller takes. -/
theorem Own.answer (h : hub.Own call connection.transport) (hsound : hub.Sound connection)
    (hlawful : hub.Lawful) (hanswerable : hub.Answerable call.id call.request)
    (haccepted : hub.Accepted call.id (hub.dispatch connection.answered call.id call.request))
    {line : List UInt8}
    (hhandling : connection.transport.daemon = .handling line) :
    hub.Own call (hub.answer connection line).transport := by
  cases h with
  | asking hdaemon => exact nomatch hhandling.symm.trans hdaemon
  | answered _ _ _ hdaemon =>
      rcases hdaemon with hreading | ⟨left, hreplying⟩
      · exact nomatch hhandling.symm.trans hreading
      · exact nomatch hhandling.symm.trans hreplying
  | asked hdaemon houtbound hinbound hphase =>
      obtain rfl := Daemon.handling.inj (hdaemon.symm.trans hhandling)
      obtain ⟨frame, read, hframe, hread⟩ := hanswerable.reads
      rcases hsound.answer_cases hlawful hdaemon with
        ⟨-, hnone | ⟨other, hother, hnone⟩⟩ | ⟨id, request, -, hline, hanswer⟩
      · exact nomatch hnone.symm.trans hframe
      · obtain rfl := Option.some.inj (hother.symm.trans hframe)
        exact nomatch hnone.symm.trans hread
      · obtain ⟨-, hid, hsame⟩ := hlawful.request _ _ frame hframe
        rw [hline] at hframe
        obtain ⟨-, hid', hsame'⟩ := hlawful.request _ _ frame hframe
        obtain rfl : id = call.id := hid'.symm.trans hid
        obtain rfl : request = call.request := (hsame' read hread).symm.trans (hsame read hread)
        rw [hanswer, respond, if_neg (Nat.not_lt.mpr haccepted.fits.le)]
        apply Own.answered haccepted hphase
        · exact houtbound
        · exact Or.inr ⟨_, rfl⟩
        · change [] ++ (connection.transport.inbound ++ _) = _
          rw [hinbound]
          rfl

/-- A step of the daemon. -/
theorem OnCourse.daemon (h : hub.OnCourse id request connection) (hsound : hub.Sound after)
    (hlively : Lively after) (hcall : after.call = connection.call)
    (hweight : transportWeight after.transport < transportWeight connection.transport)
    (hown : ∀ call, connection.call = some call → call.id = id → call.request = request →
      hub.Own call connection.transport → hub.Own call after.transport) :
    hub.OnCourse id request after ∧ rank after < rank connection := by
  obtain ⟨call, hcurrent, hid, hrequest, hcourse⟩ := h.course
  constructor
  · refine ⟨hsound, hlively, call, hcall.trans hcurrent, hid, hrequest, ?_⟩
    cases hcourse with
    | first hattempt => exact .first hattempt
    | waiting hattempt hphase => exact .waiting hattempt hphase
    | own hattempt howned => exact .own hattempt (hown call hcurrent hid hrequest howned)
  · rw [rank, rank, hcall]
    omega

/-- A step of the call with what it has on the socket. -/
theorem OnCourse.moves (h : hub.OnCourse id request connection) (hsound : hub.Sound after)
    (hlively : Lively after) (hcall : connection.call = some call)
    (hphase : call.phase ≠ .connecting) {current : Call Id Request}
    (hcurrent : after.call = some current) (hid : current.id = call.id)
    (hrequest : current.request = call.request) (hattempt : current.attempt = call.attempt)
    (hnow : current.phase ≠ .connecting)
    (hweight : transportWeight after.transport +
        (handlingWeight + 2) * current.phase.rest.length <
      transportWeight connection.transport + (handlingWeight + 2) * call.phase.rest.length)
    (hown : hub.Own call connection.transport → hub.Own current after.transport) :
    hub.OnCourse id request after ∧ rank after < rank connection := by
  obtain ⟨other, hother, hid', hrequest', hcourse⟩ := h.course
  obtain rfl := Option.some.inj (hcall.symm.trans hother)
  constructor
  · refine ⟨hsound, hlively, current, hcurrent, hid.trans hid', hrequest.trans hrequest', ?_⟩
    cases hcourse with
    | first hfirst => exact .first (hattempt.trans hfirst)
    | waiting _ hconnecting => exact absurd hconnecting hphase
    | own hsecond howned => exact .own (hattempt.trans hsecond) (hown howned)
  · rw [rank_some hcall, rank_some hcurrent, callWeight, callWeight, if_neg hphase, if_neg hnow,
      hattempt]
    omega

/-- The request is made on a new connection. -/
theorem OnCourse.connects (h : hub.OnCourse id request connection)
    (hanswerable : hub.Answerable id request) (hcall : connection.call = some call)
    (hphase : call.phase = .connecting)
    (hsound : hub.Sound (hub.once { connection with transport := .new } call))
    (hlively : Lively (hub.once { connection with transport := .new } call)) :
    hub.OnCourse id request (hub.once { connection with transport := .new } call) ∧
      rank (hub.once { connection with transport := .new } call) < rank connection := by
  obtain ⟨other, hother, rfl, rfl, hcourse⟩ := h.course
  obtain rfl := Option.some.inj (hcall.symm.trans hother)
  have hattempt : call.attempt = 1 := by
    cases hcourse with
    | first hfirst => exact absurd hphase (h.lively.started call hcall hfirst)
    | waiting hsecond => exact hsecond
    | own hsecond => exact hsecond
  have hfits := hanswerable.fits
  have honce : hub.once { connection with transport := .new } call =
      { connection with
        transport := .new
        call := some { call with
          phase := .writing (hub.requestBytes call.id call.request ++ [newline]) } } := by
    rw [once, if_neg (Nat.not_lt.mpr hfits.le)]
  constructor
  · refine ⟨hsound, hlively, ?_⟩
    rw [honce]
    exact ⟨_, rfl, rfl, rfl, .own hattempt (.asking rfl rfl Phase.noConfusion rfl rfl)⟩
  · rw [rank_some hcall, honce, callWeight, if_pos hphase, hphase]
    simp only [rank, Option.map_some, Option.getD_some, callWeight, Phase.rest, reduceCtorEq,
      if_false, hattempt, Nat.one_ne_zero, List.length_append, List.length_singleton,
      List.length_nil]
    have hnew : transportWeight .new = 0 := rfl
    rw [hnew, newWeight]
    have hle : (handlingWeight + 2) * ((hub.requestBytes call.id call.request).length + 1) ≤
        (handlingWeight + 2) * (maxHubFrameBytes + 1) :=
      Nat.mul_le_mul_left _ (Nat.succ_le_succ hfits.le)
    omega

/-- The only thing to read is the reply. -/
theorem Own.reply_of_reads (h : hub.Own call connection.transport) {encoded used rest : List UInt8}
    (hreading : call.phase = .reading encoded) (hused : used ≠ [])
    (hinbound : connection.transport.inbound = used ++ rest) :
    ∃ response, hub.Accepted call.id response ∧ connection.transport.outbound = [] ∧
      (connection.transport.daemon = .reading [] ∨
        ∃ left, connection.transport.daemon = .replying left) ∧
      (encoded ++ used) ++ (rest ++ connection.transport.daemon.left) =
        hub.responseBytes call.id response ++ [newline] := by
  have hsome : connection.transport.inbound ≠ [] := by
    rw [hinbound]
    exact List.append_ne_nil_of_left_ne_nil hused rest
  cases h with
  | asking _ hnil => exact absurd hnil hsome
  | asked _ _ hnil => exact absurd hnil hsome
  | answered haccepted hphase houtbound hdaemon hreply =>
      obtain rfl := Phase.reading.inj (hphase.symm.trans hreading)
      rw [Transport.replies, hinbound, List.append_assoc, ← List.append_assoc] at hreply
      exact ⟨_, haccepted, houtbound, hdaemon, hreply⟩

theorem Own.more (h : hub.Own call connection.transport) {encoded used rest : List UInt8}
    (hreading : call.phase = .reading encoded) (hused : used ≠ [])
    (hinbound : connection.transport.inbound = used ++ rest) :
    hub.Own { call with phase := .reading (encoded ++ used) }
      { connection.transport with inbound := rest } := by
  obtain ⟨response, haccepted, houtbound, hdaemon, hreply⟩ :=
    h.reply_of_reads hreading hused hinbound
  exact .answered haccepted rfl houtbound hdaemon hreply

theorem Sound.answer_call (h : hub.Sound connection) (hlawful : hub.Lawful) {line : List UInt8}
    (hdaemon : connection.transport.daemon = .handling line) :
    (hub.answer connection line).call = connection.call ∧
      transportWeight (hub.answer connection line).transport <
        transportWeight connection.transport := by
  rcases h.answer_cases hlawful hdaemon with ⟨hended, -⟩ | ⟨id, request, -, -, hanswer⟩
  · rw [hended]
    exact ⟨rfl, transportWeight_hangUp hdaemon⟩
  · rw [hanswer, LocalHub.respond]
    split_ifs with hlong
    · exact ⟨rfl, transportWeight_hangUp hdaemon⟩
    · exact ⟨rfl, transportWeight_replying hdaemon (Nat.le_of_not_lt hlong)⟩

/-- What is written weighs less on the socket. -/
theorem write_weight {rest : List UInt8} {count : ℕ}
    (hpasses : Passes hub.outboundRoom connection.transport.outbound rest count) :
    transportWeight (write connection call rest count).transport +
        (handlingWeight + 2) * (if rest.drop count = [] then Phase.reading []
          else .writing (rest.drop count)).rest.length <
      transportWeight connection.transport + (handlingWeight + 2) * rest.length := by
  obtain ⟨hpos, hcount, -⟩ := hpasses
  have hdrop := List.length_drop (i := count) (l := rest)
  have hrest : (if rest.drop count = [] then Phase.reading []
      else .writing (rest.drop count)).rest.length = rest.length - count := by
    rw [← hdrop]
    split_ifs with hdone
    · rw [hdone]
      rfl
    · rfl
  rw [hrest]
  simp only [write, transportWeight, List.length_append, List.length_take_of_le hcount,
    handlingWeight, maxHubFrameBytes]
  omega

variable [DecidableEq Id]

/-- The reply to the call ends it. -/
theorem conclude_accepted (hlawful : hub.Lawful) {response : Response}
    (haccepted : hub.Accepted call.id response) :
    hub.conclude connection call (hub.responseBytes call.id response ++ [newline]) =
      { connection with
        call := none
        returned := (call.id, call.request, response) :: connection.returned } := by
  obtain ⟨frame, read, hframe, hread⟩ := haccepted.reads
  obtain ⟨hversion, hid, hsame⟩ := hlawful.response _ _ frame hframe
  obtain rfl := hsame read hread
  have hline : ¬(hub.responseBytes call.id read ++ [newline] = [] ∨
      maxHubFrameBytes < (hub.responseBytes call.id read ++ [newline]).length ∨
      (hub.responseBytes call.id read ++ [newline]).getLast? ≠ some newline) := by
    have hfits := haccepted.fits
    rw [List.getLast?_concat, List.length_append, List.length_singleton]
    rintro (hnil | hlong | hother)
    · exact List.concat_ne_nil _ _ hnil
    · omega
    · exact hother rfl
  have htaken : ¬(frame.requestId ≠ call.id ∨ hub.isError read = true) := by
    rintro (hother | herror)
    · exact hother hid
    · exact nomatch haccepted.noError.symm.trans herror
  rw [conclude, if_neg hline, hframe]
  dsimp only
  rw [if_neg (not_not.mpr hversion), hread]
  exact if_neg htaken

/-- A read that ends has read the reply. -/
theorem Own.ended (h : hub.Own call connection.transport) (hlawful : hub.Lawful)
    {encoded used rest : List UInt8} (hreading : call.phase = .reading encoded)
    (hused : used ≠ []) (hinbound : connection.transport.inbound = used ++ rest)
    (hline : (∃ text, newline ∉ text ∧ encoded ++ used = text ++ [newline]) ∨
      newline ∉ encoded ++ used ∧ (encoded ++ used).length = maxHubFrameBytes + 1) :
    Told call.id call.request (hub.conclude
      { connection with transport := { connection.transport with inbound := rest } } call
      (encoded ++ used)) := by
  obtain ⟨response, haccepted, -, -, hreply⟩ := h.reply_of_reads hreading hused hinbound
  rcases hline with ⟨text, htext, hline⟩ | ⟨-, hlong⟩
  · rw [hline] at hreply ⊢
    obtain ⟨rfl, -⟩ := line_eq_of_append htext (hlawful.responseLine _ _) hreply
    rw [conclude_accepted hlawful haccepted]
    exact ⟨response, List.mem_cons_self⟩
  · have hlength := congrArg List.length hreply
    have hfits := haccepted.fits
    simp only [List.length_append, List.length_singleton] at hlength hlong
    omega

theorem OnCourse.conclude (h : hub.OnCourse id request connection)
    (hanswerable : hub.Answerable id request) (hcall : connection.call = some call)
    (hattempt : call.attempt = 0) {inbound used line : List UInt8}
    (hinbound : connection.transport.inbound = used ++ inbound)
    (hsound : hub.Sound (hub.conclude
      { connection with transport := { connection.transport with inbound } } call line)) :
    Told id request (hub.conclude
        { connection with transport := { connection.transport with inbound } } call line) ∨
      hub.OnCourse id request (hub.conclude
          { connection with transport := { connection.transport with inbound } } call line) ∧
        rank (hub.conclude
          { connection with transport := { connection.transport with inbound } } call line) <
          rank connection := by
  obtain ⟨other, hother, hid, hrequest, -⟩ := h.course
  obtain rfl := Option.some.inj (hcall.symm.trans hother)
  have hlively : Lively (hub.conclude
      { connection with transport := { connection.transport with inbound } } call line) :=
    h.lively.conclude hcall
  rcases conclude_cases hub
    { connection with transport := { connection.transport with inbound } } call line with
    hfail | ⟨frame, response, -, -, -, -, hreturned⟩
  · right
    rw [hfail] at hsound hlively ⊢
    have hweight := transportWeight_inbound hinbound
    exact h.fails hanswerable hcall hattempt (hweight ▸ Nat.le_add_right _ _) hsound hlively
  · left
    rw [hreturned, ← hid, ← hrequest]
    exact ⟨response, List.mem_cons_self⟩

/-- Every step brings the call closer to its reply. -/
theorem OnCourse.next (h : hub.OnCourse id request connection) (hlawful : hub.Lawful)
    (hanswerable : hub.Answerable id request)
    (haccepted : hub.Accepted id (hub.dispatch connection.answered id request))
    (hgoes : hub.Goes connection after) :
    Told id request after ∨ hub.OnCourse id request after ∧ rank after < rank connection := by
  obtain ⟨action, haction, hstep⟩ := hgoes
  have hsound := h.sound.step hlawful hstep
  have hlively := h.lively.step h.sound hlawful hstep
  obtain ⟨call, hcall, rfl, rfl, hcourse⟩ := h.course
  -- On a connection of its own the daemon does not end it.
  have hfirst : call.phase ≠ .connecting → connection.transport.daemon = .ended →
      call.attempt = 0 := by
    intro hphase hended
    cases hcourse with
    | first hfirst => exact hfirst
    | waiting _ hconnecting => exact absurd hconnecting hphase
    | own _ hown =>
        cases hown with
        | asking hdaemon => exact nomatch hended.symm.trans hdaemon
        | asked hdaemon => exact nomatch hended.symm.trans hdaemon
        | answered _ _ _ hdaemon =>
            rcases hdaemon with hdaemon | ⟨left, hdaemon⟩
            · exact nomatch hended.symm.trans hdaemon
            · exact nomatch hended.symm.trans hdaemon
  cases moves_of_step hstep with
  | calls => exact haction.elim
  | drops => exact haction.elim
  | refused => exact nomatch haction
  | writes hother hphase halive hpasses =>
      obtain rfl := Option.some.inj (hcall.symm.trans hother)
      right
      apply h.moves hsound hlively hcall (hphase ▸ nofun) rfl rfl rfl rfl
      · dsimp only
        split_ifs
        · exact nofun
        · exact nofun
      · rw [hphase]
        exact write_weight hpasses
      · exact fun hown => hown.write hphase
  | reads hother hphase hinbound =>
      obtain rfl := Option.some.inj (hcall.symm.trans hother)
      have hreads := reads_read hub call (h.sound.reading _ _ hcall hphase) hinbound
      generalize hub.read connection call _ _ = reached at hreads hsound hlively ⊢
      cases hreads with
      | more hshort hused hmore =>
          right
          apply h.moves hsound hlively hcall (hphase ▸ nofun) rfl rfl rfl rfl
          · exact nofun
          · have hweight := transportWeight_inbound hmore
            have hpos := List.length_pos_of_ne_nil hused
            simp only [hphase, Phase.rest, List.length_nil]
            omega
          · exact fun hown => hown.more hphase hused hmore
      | ended hused hmore hline =>
          cases hcourse with
          | first hattempt => exact h.conclude hanswerable hcall hattempt hmore hsound
          | waiting _ hconnecting => exact nomatch hphase.symm.trans hconnecting
          | own _ hown => exact Or.inl (hown.ended hlawful hphase hused hmore hline)
  | breaks hother hphase hended =>
      obtain rfl := Option.some.inj (hcall.symm.trans hother)
      right
      exact h.fails hanswerable hcall (hfirst (hphase ▸ nofun) hended) (Nat.le_refl _) hsound
        hlively
  | ends hother hphase hended hinbound =>
      obtain rfl := Option.some.inj (hcall.symm.trans hother)
      have hinbound : connection.transport.inbound = [] ++ connection.transport.inbound := rfl
      exact h.conclude hanswerable hcall (hfirst (hphase ▸ nofun) hended) hinbound hsound
  | connects hother hphase =>
      obtain rfl := Option.some.inj (hcall.symm.trans hother)
      exact Or.inr (h.connects hanswerable hcall hphase hsound hlively)
  | takes hdaemon houtbound =>
      have htakes := takes_take (h.sound.taking _ hdaemon) houtbound
      right
      apply h.daemon hsound hlively rfl (htakes.weight hdaemon)
      intro current hcurrent hid hrequest hown
      apply hown.takes h.sound hcurrent hlawful _ hdaemon htakes
      rw [hid, hrequest]
      exact hanswerable.fits
  | answers hdaemon =>
      obtain ⟨hsame, hweight⟩ := h.sound.answer_call hlawful hdaemon
      right
      apply h.daemon hsound hlively hsame hweight
      intro current hcurrent hid hrequest hown
      rw [← hid, ← hrequest] at hanswerable haccepted
      exact hown.answer h.sound hlawful hanswerable haccepted hdaemon
  | replies hdaemon hpasses =>
      rename_i rest count
      have hwritten := written_reply connection.transport rest count
      right
      apply h.daemon hsound hlively rfl (hwritten.weight hdaemon hpasses)
      intro current _ _ _ hown
      exact hown.writes hdaemon hwritten

end Courses

/-! ## Jams -/

theorem answer_call (hub : LocalHub Id Request Response)
    (connection : LocalConnection Id Request Response) (line : List UInt8) :
    (hub.answer connection line).call = connection.call := by
  have hrespond : ∀ (begun : LocalConnection Id Request Response) (id : Id) (response : Response),
      (hub.respond begun id response).call = begun.call := by
    intro begun id response
    rw [respond]
    dsimp only
    split_ifs
    · rfl
    · rfl
  rw [answer]
  split
  · rfl
  · split_ifs
    · exact hrespond _ _ _
    · split
      · rfl
      · exact hrespond _ _ _

variable [DecidableEq Id]

/-- An undisturbed step ends the call or goes on with it. -/
theorem Goes.call (h : hub.Goes connection after) {later : Call Id Request}
    (hlater : after.call = some later) :
    ∃ call, connection.call = some call ∧ call.id = later.id ∧ call.request = later.request := by
  obtain ⟨action, haction, hstep⟩ := h
  have hfail : ∀ (begun : LocalConnection Id Request Response) (call : Call Id Request),
      (hub.fail begun call).call = some later →
        call.id = later.id ∧ call.request = later.request := by
    intro begun call hcurrent
    obtain ⟨waiting, hwaits, heq⟩ := fail_cases hub begun call
    rw [heq] at hcurrent
    cases hwaits with
    | ended => exact nomatch hcurrent
    | again =>
        rw [← Option.some.inj hcurrent]
        exact ⟨rfl, rfl⟩
  have hconclude : ∀ (begun : LocalConnection Id Request Response) (call : Call Id Request)
      (encoded : List UInt8), (hub.conclude begun call encoded).call = some later →
        call.id = later.id ∧ call.request = later.request := by
    intro begun call encoded hcurrent
    rcases conclude_cases hub begun call encoded with hfailed | ⟨_, _, -, -, -, -, hreturned⟩
    · rw [hfailed] at hcurrent
      exact hfail _ _ hcurrent
    · rw [hreturned] at hcurrent
      exact nomatch hcurrent
  cases moves_of_step hstep with
  | calls => exact haction.elim
  | drops => exact haction.elim
  | refused => exact nomatch haction
  | writes hcall =>
      rw [← Option.some.inj hlater]
      exact ⟨_, hcall, rfl, rfl⟩
  | reads hcall =>
      rw [LocalHub.read] at hlater
      dsimp only at hlater
      split_ifs at hlater
      · rw [← Option.some.inj hlater]
        exact ⟨_, hcall, rfl, rfl⟩
      · exact ⟨_, hcall, hconclude _ _ _ hlater⟩
  | breaks hcall => exact ⟨_, hcall, hfail _ _ hlater⟩
  | ends hcall => exact ⟨_, hcall, hconclude _ _ _ hlater⟩
  | connects hcall =>
      refine ⟨_, hcall, ?_⟩
      rw [once] at hlater
      dsimp only at hlater
      split_ifs at hlater
      · exact hfail _ _ hlater
      · rw [← Option.some.inj hlater]
        exact ⟨rfl, rfl⟩
  | takes => exact ⟨later, hlater, rfl, rfl⟩
  | answers =>
      rw [answer_call] at hlater
      exact ⟨later, hlater, rfl, rfl⟩
  | replies => exact ⟨later, hlater, rfl, rfl⟩

/-- Nobody gets out of a jam. -/
theorem Jammed.kept (h : hub.Jammed connection) (hgoes : hub.Goes connection after) :
    hub.Jammed after := by
  obtain ⟨call, rest, left, hcall, hphase, hdaemon, hrest, hleft⟩ := h
  obtain ⟨action, haction, hstep⟩ := hgoes
  cases moves_of_step hstep with
  | calls => exact haction.elim
  | drops => exact haction.elim
  | refused => cases haction
  | writes hother hwriting halive hpasses =>
      rename_i other frame count
      obtain rfl := Option.some.inj (hcall.symm.trans hother)
      obtain rfl := Phase.writing.inj (hphase.symm.trans hwriting)
      obtain ⟨-, hcount, hroom⟩ := hpasses
      have hdrop := List.length_drop (i := count) (l := rest)
      have hmore : rest.drop count ≠ [] := by
        apply List.ne_nil_of_length_pos
        omega
      refine ⟨_, rest.drop count, left, rfl, if_neg hmore, hdaemon, ?_, hleft⟩
      simp only [write, List.length_append, List.length_take_of_le hcount]
      omega
  | reads hother hreading =>
      obtain rfl := Option.some.inj (hcall.symm.trans hother)
      cases hphase.symm.trans hreading
  | breaks hother hwriting hended => cases hdaemon.symm.trans hended
  | ends hother hreading hended => cases hdaemon.symm.trans hended
  | connects hother hconnecting =>
      obtain rfl := Option.some.inj (hcall.symm.trans hother)
      cases hphase.symm.trans hconnecting
  | takes hreading => cases hdaemon.symm.trans hreading
  | answers hhandling => cases hdaemon.symm.trans hhandling
  | replies hreplying hpasses =>
      rename_i reply count
      obtain rfl := Daemon.replying.inj (hdaemon.symm.trans hreplying)
      obtain ⟨-, hcount, hroom⟩ := hpasses
      have hdrop := List.length_drop (i := count) (l := left)
      have hmore : left.drop count ≠ [] := by
        apply List.ne_nil_of_length_pos
        omega
      refine ⟨call, rest, left.drop count, hcall, hphase, if_neg hmore, hrest, ?_⟩
      simp only [LocalHub.reply, List.length_append, List.length_take_of_le hcount]
      omega

end LocalHub

end Mews.Client
