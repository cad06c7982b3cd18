import Mews.Acp.McpHttp

/-!
# What connections do to a pending request

A connection that is refused, answered, dropped or stalled leaves the request as it was.
Where its reading breaks, or the socket fails, the request ends with it, and where it is
through while a line of the Harness is read, the beginning of that line is lost.
-/

namespace Mews

open Protocol Lines

/-! ## Bytes that do not break a connection -/

namespace HttpReading

/-- A header line that ends within its limit can be read. -/
def AdmitsHeader (head : HttpHead) (line : List UInt8) : Prop :=
  isBlankLine line = true ∨ ∃ text, fromUtf8 line = some text ∧
    ∀ name value, splitHeader text = some (name, value) →
      asciiLowercase (trimText name) = "content-length" →
        head.sawContentLength = false ∧ (parseUsize (trimText value)).isSome

/-- The lines stay within their limits and can be read when they end. -/
def Admits (reading : HttpReading) (byte : UInt8) : Prop :=
  match reading with
  | .requestLine line =>
      line.length < maxRequestLineBytes ∧
        (byte = newline → (fromUtf8 (line ++ [byte])).isSome)
  | .headers head line =>
      line.length < head.remaining ∧ (byte = newline → AdmitsHeader head (line ++ [byte]))
  | .broken _ => False
  | _ => True

/-- Nothing is missing when the peer hangs up. -/
def Ends : HttpReading → Prop
  | .refused _ | .complete _ => True
  | _ => False

def IsBroken : HttpReading → Prop
  | .broken _ => True
  | _ => False

instance (reading : HttpReading) : Decidable reading.IsBroken :=
  match reading with
  | .broken _ => isTrue trivial
  | .requestLine _ | .headers .. | .body .. | .refused _ | .complete _ => isFalse id

instance (reading : HttpReading) : Decidable reading.Ends :=
  match reading with
  | .refused _ | .complete _ => isTrue trivial
  | .requestLine _ | .headers .. | .body .. | .broken _ => isFalse id

section Breaking

variable {endpoint : McpEndpoint} {head : HttpHead} {line bytes : List UInt8}
  {reading : HttpReading} {byte : UInt8}

theorem not_isBroken_endBody : ¬ (endBody endpoint bytes).IsBroken := by
  rw [endBody]
  cases endpoint.parse bytes with
  | none => exact id
  | some request => exact id

theorem not_isBroken_endHeaders : ¬ (endHeaders endpoint head).IsBroken := by
  rw [endHeaders]
  split_ifs
  · exact id
  · exact id
  · exact id
  · exact id
  · exact not_isBroken_endBody
  · exact id

theorem not_isBroken_insert (name value : String) : ¬ (head.insert name value).IsBroken := by
  rw [HttpHead.insert]
  split_ifs
  · exact id
  · exact id

theorem not_isBroken_endHeader_iff :
    ¬ (endHeader endpoint head line).IsBroken ↔ AdmitsHeader head line := by
  rw [endHeader, AdmitsHeader]
  dsimp only
  cases hblank : isBlankLine line with
  | true => simp [not_isBroken_endHeaders]
  | false =>
      simp only [Bool.false_eq_true, if_false, false_or]
      cases htext : fromUtf8 line with
      | none => simp [IsBroken]
      | some text =>
          simp only [Option.some.injEq, exists_eq_left']
          cases splitHeader text with
          | none => simp [IsBroken]
          | some parts =>
              obtain ⟨name, value⟩ := parts
              simp only [Option.some.injEq, Prod.mk.injEq, and_imp, forall_apply_eq_imp_iff,
                forall_eq']
              by_cases hname : asciiLowercase (trimText name) = "content-length"
              · cases hsaw : head.sawContentLength with
                | true => simp [hname, IsBroken]
                | false =>
                    cases parseUsize (trimText value) with
                    | none => simp [hname, IsBroken]
                    | some length => simp [hname, not_isBroken_insert]
              · simp [hname, not_isBroken_insert]

/-- A byte breaks the reading if and only if it is not admitted. -/
theorem not_isBroken_push_iff : ¬ (push endpoint reading byte).IsBroken ↔ reading.Admits byte := by
  cases reading with
  | requestLine line =>
      rw [push, Admits]
      simp only [List.length_append, List.length_singleton]
      split_ifs with hlong hend
      · simp only [IsBroken, not_true, false_iff, not_and]
        omega
      · have hwithin : line.length < maxRequestLineBytes := by omega
        rw [endRequestLine]
        cases fromUtf8 (line ++ [byte]) with
        | none => simp [IsBroken, hend]
        | some text => simp [IsBroken, hwithin]
      · have hwithin : line.length < maxRequestLineBytes := by omega
        simp [IsBroken, hwithin, hend]
  | headers head line =>
      rw [push, Admits]
      simp only [List.length_append, List.length_singleton]
      split_ifs with hlong hend
      · simp only [IsBroken, not_true, false_iff, not_and]
        omega
      · have hwithin : line.length < head.remaining := by omega
        rw [not_isBroken_endHeader_iff]
        simp [hwithin, hend]
      · have hwithin : line.length < head.remaining := by omega
        simp [IsBroken, hwithin, hend]
  | body length bytes =>
      have hadmits : (body length bytes).Admits byte := trivial
      apply iff_of_true _ hadmits
      rw [push]
      split_ifs
      · exact not_isBroken_endBody
      · exact id
  | refused status => simp [push, Admits, IsBroken]
  | complete request => simp [push, Admits, IsBroken]
  | broken text => simp [push, Admits, IsBroken]

theorem not_isBroken_hangUp_iff : ¬ reading.hangUp.IsBroken ↔ reading.Ends := by
  cases reading with
  | requestLine line => cases line <;> simp [hangUp, IsBroken, Ends]
  | headers head line => cases line <;> simp [hangUp, IsBroken, Ends]
  | _ => simp [hangUp, IsBroken, Ends]

/-- Every byte of a chunk is admitted where it comes. -/
def AdmitsAll (endpoint : McpEndpoint) (reading : HttpReading) : List UInt8 → Prop
  | [] => ¬ reading.IsBroken
  | byte :: bytes => reading.Admits byte ∧ AdmitsAll endpoint (reading.push endpoint byte) bytes

theorem isBroken_foldl (hbroken : reading.IsBroken) :
    (bytes.foldl (push endpoint) reading).IsBroken := by
  induction bytes generalizing reading with
  | nil => exact hbroken
  | cons byte bytes ih =>
      have hnext : (push endpoint reading byte).IsBroken := by
        by_contra hnot
        cases reading with
        | broken text => exact not_isBroken_push_iff.mp hnot
        | _ => exact hbroken
      exact ih hnext

theorem not_isBroken_foldl_iff :
    ¬ (bytes.foldl (push endpoint) reading).IsBroken ↔ AdmitsAll endpoint reading bytes := by
  induction bytes generalizing reading with
  | nil => rfl
  | cons byte bytes ih =>
      have hadmits : ¬ (push endpoint reading byte).IsBroken ↔ reading.Admits byte :=
        not_isBroken_push_iff
      rw [AdmitsAll, ← ih, ← hadmits, List.foldl_cons]
      constructor
      · intro hwhole
        exact ⟨fun hbroken => hwhole (isBroken_foldl hbroken), hwhole⟩
      · exact And.right

instance : Decidable (AdmitsAll endpoint reading bytes) := decidable_of_iff _ not_isBroken_foldl_iff

end Breaking

end HttpReading

/-! ## Connections that spare the request -/

namespace McpLoop

variable (request : Request) (tools : BridgeTools) (endpoint : McpEndpoint)
  (parse : String → Option RpcMessage)

/-- A wake of a connection does no harm where the loop stands: what the peer sends is
admitted, the socket does not fail, and no line of the Harness has been begun when the
connection is through. -/
def Spares (loop : McpLoop) : McpWake → Prop
  | .received chunk =>
      ∀ reading ∈ loop.reading, loop.serving = .reading → reading.AdmitsAll endpoint chunk
  | .hungUp => ∀ reading ∈ loop.reading, loop.serving = .reading → reading.Ends
  | .step (.broken _) => request.http = false
  | .step .written => (∃ call, loop.serving = .answering call) → loop.stdout.encoded = []
  | _ => True

instance (call : Serving) : Decidable (∃ answer, call = .answering answer) :=
  match call with
  | .answering answer => isTrue ⟨answer, rfl⟩
  | .reading | .before _ | .executing _ | .after .. => isFalse nofun

instance (loop : McpLoop) (next : McpWake) : Decidable (loop.Spares request endpoint next) :=
  match next with
  | .received chunk =>
      inferInstanceAs (Decidable (∀ reading ∈ loop.reading, loop.serving = .reading →
        reading.AdmitsAll endpoint chunk))
  | .hungUp =>
      inferInstanceAs (Decidable (∀ reading ∈ loop.reading, loop.serving = .reading →
        reading.Ends))
  | .step (.broken _) => inferInstanceAs (Decidable (request.http = false))
  | .step .written =>
      inferInstanceAs (Decidable ((∃ call, loop.serving = .answering call) →
        loop.stdout.encoded = []))
  | .step .immediate | .step (.called ..) | .step (.beforeTool _) => isTrue trivial
  | .step (.executed _) => isTrue trivial
  | .step (.afterTool _) | .cancelled | .elapsed | .accepted | .stdout _ => isTrue trivial

section Steps

variable {request tools endpoint parse} {loop : McpLoop} {reading : HttpReading} {step : HttpStep}

theorem drop_eq_iff {stdout : Stdout} : stdout.drop = stdout ↔ stdout.encoded = [] := by
  obtain ⟨pipe, buffer, encoded⟩ := stdout
  constructor
  · intro hsame
    exact (congrArg Stdout.encoded hsame).symm
  · rintro rfl
    rfl

/-- The loop goes on and has read as much of the stdout as before. -/
def GoesOn (loop : McpLoop) (turned : McpTurned) : Prop :=
  ∃ after, turned = .goes after ∧ after.stdout = loop.stdout

theorem goesOn_read_iff (hserving : loop.serving = .reading) :
    loop.GoesOn (loop.read request tools reading) ↔ ¬ reading.IsBroken := by
  rw [read]
  cases reading with
  | broken text =>
      simp [HttpReading.step?, HttpReading.IsBroken, serve, Bridge.serve, GoesOn]
  | refused status =>
      simp [HttpReading.step?, HttpReading.IsBroken, serve, Bridge.serve, hserving, GoesOn]
  | _ => simp [HttpReading.step?, HttpReading.IsBroken, GoesOn]

/-- A step that is no failure and does not end the answer leaves the connection pending. -/
theorem serve_pending {bridge : Bridge} {serving : Serving} (hfailure : ∀ text, step ≠ .broken text)
    (hwritten : step ≠ .written ∨ ∀ call, serving ≠ .answering call) :
    ∃ next after, bridge.serve tools serving step = (.pending next, after) := by
  cases step with
  | broken text => exact absurd rfl (hfailure text)
  | written =>
      have hother := hwritten.resolve_left (not_not_intro rfl)
      cases serving with
      | answering call => exact absurd rfl (hother call)
      | _ => exact ⟨_, _, rfl⟩
  | _ => cases serving <;> exact ⟨_, _, rfl⟩

theorem goesOn_serve (hfailure : ∀ text, step ≠ .broken text)
    (hwritten : step ≠ .written ∨ ∀ call, loop.serving ≠ .answering call) :
    loop.GoesOn (loop.serve request tools step) := by
  obtain ⟨next, after, hserve⟩ : ∃ next after,
      loop.bridge.serve tools loop.serving step = (.pending next, after) :=
    serve_pending hfailure hwritten
  rw [serve, hserve]
  exact ⟨_, rfl, rfl⟩

theorem goesOn_self : loop.GoesOn (.goes loop) := ⟨loop, rfl, rfl⟩

/-- The socket fails. -/
theorem goesOn_broken_iff {text : String} :
    loop.GoesOn (loop.wake request tools endpoint parse (.step (.broken text))) ↔
      request.http = false := by
  rw [wake]
  cases hhttp : request.http with
  | true => simp [allows, hhttp, serve, Bridge.serve, GoesOn]
  | false => simp [allows, hhttp, GoesOn]

/-- The answer is written. -/
theorem goesOn_written_iff :
    loop.GoesOn (loop.wake request tools endpoint parse (.step .written)) ↔
      ((∃ call, loop.serving = .answering call) → loop.stdout.encoded = []) := by
  have hallows : loop.allows request .written = true := rfl
  rw [wake, if_pos hallows]
  cases hserving : loop.serving with
  | answering call =>
      rw [serve, hserving]
      cases call <;> simp [Bridge.serve, GoesOn, drop_eq_iff]
  | _ =>
      apply iff_of_true
      · apply goesOn_serve
        · rintro text ⟨⟩
        · simp [hserving]
      · simp

/-- Any other step of the connection. -/
theorem goesOn_step (hfailure : ∀ text, step ≠ .broken text) (hwritten : step ≠ .written) :
    loop.GoesOn (loop.wake request tools endpoint parse (.step step)) := by
  rw [wake]
  split_ifs
  · exact goesOn_serve hfailure (Or.inl hwritten)
  · exact goesOn_self

theorem goesOn_step_iff :
    loop.GoesOn (loop.wake request tools endpoint parse (.step step)) ↔
      loop.Spares request endpoint (.step step) := by
  cases step with
  | broken text => exact goesOn_broken_iff
  | written => exact goesOn_written_iff
  | _ =>
      apply iff_of_true _ trivial
      apply goesOn_step
      · rintro text ⟨⟩
      · rintro ⟨⟩

/-- What comes from a connection leaves the request as it was if and only if it does no
harm. -/
theorem goesOn_iff {next : McpWake} (hconnection : next.harness? = none) :
    loop.GoesOn (loop.wake request tools endpoint parse next) ↔
      loop.Spares request endpoint next := by
  cases next with
  | accepted =>
      have hspares : loop.Spares request endpoint .accepted := trivial
      apply iff_of_true _ hspares
      rw [wake]
      split_ifs
      · exact ⟨_, rfl, rfl⟩
      · exact goesOn_self
  | received chunk =>
      rw [wake, Spares]
      cases hreading : loop.reading with
      | none => exact iff_of_true goesOn_self nofun
      | some reading =>
          cases hserving : loop.serving with
          | reading => simp [goesOn_read_iff hserving, HttpReading.not_isBroken_foldl_iff]
          | _ => exact iff_of_true goesOn_self fun _ _ => Serving.noConfusion
  | hungUp =>
      rw [wake, Spares]
      cases hreading : loop.reading with
      | none => exact iff_of_true goesOn_self nofun
      | some reading =>
          cases hserving : loop.serving with
          | reading => simp [goesOn_read_iff hserving, HttpReading.not_isBroken_hangUp_iff]
          | _ => exact iff_of_true goesOn_self fun _ _ => Serving.noConfusion
  | step step => exact goesOn_step_iff
  | cancelled => cases hconnection
  | elapsed => cases hconnection
  | stdout answers => cases hconnection

/-! ### Runs -/

/-- No connection does any harm as long as the request is pending. -/
def Careful (request : Request) (tools : BridgeTools) (endpoint : McpEndpoint)
    (parse : String → Option RpcMessage) : List McpWake → McpLoop → Prop
  | [], _ => True
  | next :: wakes, loop =>
      (next.harness? = none → loop.Spares request endpoint next) ∧
        match loop.wake request tools endpoint parse next with
        | .goes loop => Careful request tools endpoint parse wakes loop
        | .ended .. => True

instance decidableCareful : (wakes : List McpWake) → (loop : McpLoop) →
    Decidable (Careful request tools endpoint parse wakes loop)
  | [], _ => isTrue trivial
  | next :: wakes, loop =>
      have : Decidable (match loop.wake request tools endpoint parse next with
          | .goes loop => Careful request tools endpoint parse wakes loop
          | .ended .. => True) :=
        match loop.wake request tools endpoint parse next with
        | .goes loop => decidableCareful wakes loop
        | .ended .. => isTrue trivial
      inferInstanceAs (Decidable ((next.harness? = none → loop.Spares request endpoint next) ∧ _))

/-- The loop after the wakes, if the request is still pending. -/
def pending (request : Request) (tools : BridgeTools) (endpoint : McpEndpoint)
    (parse : String → Option RpcMessage) : List McpWake → McpLoop → Option McpLoop
  | [], loop => some loop
  | next :: wakes, loop =>
      match loop.wake request tools endpoint parse next with
      | .goes loop => pending request tools endpoint parse wakes loop
      | .ended .. => none

/-- The statuses of a connection that is not taken. -/
def refusals : List ℕ := [400, 403, 404, 405, 413]

/-- A connection that was refused is being answered with an error. -/
def Answers (loop : McpLoop) : Prop :=
  ∀ status, loop.reading = some (.refused status) →
    status ∈ refusals ∧ loop.serving = .answering none

/-- The request ends as without the connections, and the stdout is read as without them. -/
def EndsAlone (request : Request) (tools : BridgeTools) (endpoint : McpEndpoint)
    (parse : String → Option RpcMessage) (wakes : List McpWake) (loop : McpLoop) : Prop :=
  ∀ serving bridge,
    let (ended, stdout) := loop.await request tools endpoint parse wakes
    let alone := request.awaitStdout tools parse (wakes.filterMap McpWake.harness?) loop.stdout
      serving bridge
    ended.result = alone.ended.result ∧ ended.reply = alone.ended.reply ∧ stdout = alone.stdout

/-- The connections do not end the request, and each that is refused is answered. -/
def Outlives (request : Request) (tools : BridgeTools) (endpoint : McpEndpoint)
    (parse : String → Option RpcMessage) (wakes : List McpWake) (loop : McpLoop) : Prop :=
  loop.EndsAlone request tools endpoint parse wakes ∧
    ∀ count after, loop.pending request tools endpoint parse (wakes.take count) = some after →
      after.Answers

/-! ### Refusals -/

theorem answers_start {stdout : Stdout} {bridge : Bridge} : (start stdout bridge).Answers :=
  nofun

/-- A reading refuses with one of the statuses. -/
def Refuses (reading : HttpReading) : Prop :=
  ∀ status, reading = .refused status → status ∈ refusals

theorem refuses_endBody {bytes : List UInt8} : Refuses (.endBody endpoint bytes) := by
  rw [HttpReading.endBody]
  cases endpoint.parse bytes with
  | none =>
      rintro status ⟨⟩
      decide
  | some request => nofun

theorem refuses_endHeaders {head : HttpHead} : Refuses (.endHeaders endpoint head) := by
  rw [HttpReading.endHeaders]
  split_ifs
  · rintro status ⟨⟩
    decide
  · rintro status ⟨⟩
    decide
  · rintro status ⟨⟩
    decide
  · rintro status ⟨⟩
    decide
  · exact refuses_endBody
  · nofun

theorem refuses_insert {head : HttpHead} (name value : String) :
    Refuses (head.insert name value) := by
  rw [HttpHead.insert]
  split_ifs
  · rintro status ⟨⟩
    decide
  · nofun

theorem refuses_endHeader {head : HttpHead} {line : List UInt8} :
    Refuses (.endHeader endpoint head line) := by
  rw [HttpReading.endHeader]
  dsimp only
  cases HttpReading.isBlankLine line with
  | true => exact refuses_endHeaders
  | false =>
      simp only [Bool.false_eq_true, if_false]
      cases fromUtf8 line with
      | none => nofun
      | some text =>
          simp only
          cases splitHeader text with
          | none =>
              rintro status ⟨⟩
              decide
          | some parts =>
              obtain ⟨name, value⟩ := parts
              simp only
              split_ifs
              · nofun
              · cases parseUsize (trimText value) with
                | none => nofun
                | some length => exact refuses_insert _ _
              · exact refuses_insert _ _

theorem refuses_push {byte : UInt8} (hrefuses : Refuses reading) :
    Refuses (.push endpoint reading byte) := by
  cases reading with
  | requestLine line =>
      rw [HttpReading.push]
      split_ifs
      · nofun
      · rw [HttpReading.endRequestLine]
        cases fromUtf8 (line ++ [byte]) with
        | none => nofun
        | some text => nofun
      · nofun
  | headers head line =>
      rw [HttpReading.push]
      split_ifs
      · nofun
      · exact refuses_endHeader
      · nofun
  | body length bytes =>
      rw [HttpReading.push]
      split_ifs
      · exact refuses_endBody
      · nofun
  | refused status => exact hrefuses
  | complete request => exact hrefuses
  | broken text => exact hrefuses

theorem refuses_foldl {bytes : List UInt8} (hrefuses : Refuses reading) :
    Refuses (bytes.foldl (.push endpoint) reading) := by
  induction bytes generalizing reading with
  | nil => exact hrefuses
  | cons byte bytes ih => exact ih (refuses_push hrefuses)

theorem refuses_hangUp (hrefuses : Refuses reading) : Refuses reading.hangUp := by
  cases reading with
  | requestLine line => cases line <;> nofun
  | headers head line => cases line <;> nofun
  | body length bytes => nofun
  | refused status => exact hrefuses
  | complete request => exact hrefuses
  | broken text => exact hrefuses

/-- What was read is being answered if it is refused. -/
theorem answers_read {after : McpLoop} (hrefuses : Refuses reading)
    (hserving : loop.serving = .reading) (hgoes : loop.read request tools reading = .goes after) :
    after.Answers := by
  intro status hreading
  rw [read] at hgoes
  cases reading with
  | refused status' =>
      simp only [HttpReading.step?, serve, hserving, Bridge.serve, McpTurned.goes.injEq] at hgoes
      subst hgoes
      obtain rfl : status' = status := by simpa using hreading
      exact ⟨hrefuses status' rfl, rfl⟩
  | broken text => simp [HttpReading.step?, serve, Bridge.serve] at hgoes
  | _ =>
      simp only [HttpReading.step?, McpTurned.goes.injEq] at hgoes
      subst hgoes
      cases hreading

/-- A step goes on with the connection, or it is the end of it. -/
theorem reading_serve {after : McpLoop} (hgoes : loop.serve request tools step = .goes after) :
    after.reading = none ∨ after.reading = loop.reading ∧
      ∃ bridge, loop.bridge.serve tools loop.serving step = (.pending after.serving, bridge) := by
  rw [serve] at hgoes
  rcases hserve : loop.bridge.serve tools loop.serving step with ⟨served, bridge⟩
  rw [hserve] at hgoes
  cases served with
  | pending serving =>
      obtain rfl := McpTurned.goes.inj hgoes
      exact Or.inr ⟨rfl, bridge, rfl⟩
  | finished =>
      obtain rfl := McpTurned.goes.inj hgoes
      exact Or.inl rfl
  | failed text => cases hgoes

/-- A step leaves an answer that was begun as it was, or it is the end of it. -/
theorem answers_serve {after : McpLoop} (hanswers : loop.Answers)
    (hgoes : loop.serve request tools step = .goes after) : after.Answers := by
  intro status hreading
  rcases reading_serve hgoes with hnone | ⟨hsame, bridge, hserve⟩
  · rw [hnone] at hreading
    cases hreading
  · obtain ⟨hstatus, hserving⟩ := hanswers status (hsame ▸ hreading)
    rw [hserving] at hserve
    have hkept : after.serving = .answering none := by
      cases step <;> simp_all [Bridge.serve]
    exact ⟨hstatus, hkept⟩

/-- A connection that is not answered yet refuses with one of the statuses only. -/
theorem refuses_of_answers (hanswers : loop.Answers) (hreading : loop.reading = some reading) :
    Refuses reading := by
  rintro status rfl
  exact (hanswers status hreading).1

theorem answers_wake {next : McpWake} {after : McpLoop} (hanswers : loop.Answers)
    (hgoes : loop.wake request tools endpoint parse next = .goes after) : after.Answers := by
  cases next with
  | cancelled => cases hgoes
  | elapsed => cases hgoes
  | accepted =>
      rw [wake] at hgoes
      split_ifs at hgoes
      · obtain rfl := McpTurned.goes.inj hgoes
        nofun
      · obtain rfl := McpTurned.goes.inj hgoes
        exact hanswers
  | received chunk =>
      rw [wake] at hgoes
      split at hgoes
      · rename_i reading hreading hserving
        exact answers_read (refuses_foldl (refuses_of_answers hanswers hreading)) hserving hgoes
      · obtain rfl := McpTurned.goes.inj hgoes
        exact hanswers
  | hungUp =>
      rw [wake] at hgoes
      split at hgoes
      · rename_i reading hreading hserving
        exact answers_read (refuses_hangUp (refuses_of_answers hanswers hreading)) hserving hgoes
      · obtain rfl := McpTurned.goes.inj hgoes
        exact hanswers
  | step step =>
      rw [wake] at hgoes
      split_ifs at hgoes
      · exact answers_serve hanswers hgoes
      · obtain rfl := McpTurned.goes.inj hgoes
        exact hanswers
  | stdout answers =>
      rw [wake] at hgoes
      split at hgoes
      · obtain rfl := McpTurned.goes.inj hgoes
        exact hanswers
      · dsimp only at hgoes
        split at hgoes
        · cases hgoes
        · obtain rfl := McpTurned.goes.inj hgoes
          nofun
        · cases hgoes

/-- The request goes on with what it took from the stdout before. -/
theorem answers_pending {wakes : List McpWake} {after : McpLoop} (hanswers : loop.Answers)
    (hpending : loop.pending request tools endpoint parse wakes = some after) :
    after.Answers := by
  induction wakes generalizing loop with
  | nil =>
      obtain rfl := Option.some.inj hpending
      exact hanswers
  | cons next wakes ih =>
      rw [pending] at hpending
      cases hwake : loop.wake request tools endpoint parse next with
      | goes middle =>
          rw [hwake] at hpending
          exact ih (answers_wake hanswers hwake) hpending
      | ended ended stdout =>
          rw [hwake] at hpending
          cases hpending

/-! ### The request without its connections -/

theorem endsAlone_of_careful {wakes : List McpWake}
    (hcareful : Careful request tools endpoint parse wakes loop) :
    loop.EndsAlone request tools endpoint parse wakes := by
  induction wakes generalizing loop with
  | nil =>
      intro serving bridge
      exact ⟨rfl, rfl, rfl⟩
  | cons next wakes ih =>
      obtain ⟨hspares, hnext⟩ := hcareful
      intro serving bridge
      cases hharness : next.harness? with
      | none =>
          obtain ⟨after, hwake, hstdout⟩ := (goesOn_iff hharness).mpr (hspares hharness)
          rw [hwake] at hnext
          have halone := ih hnext serving bridge
          rw [await, hwake, List.filterMap_cons_none hharness, ← hstdout]
          exact halone
      | some wake =>
          rw [List.filterMap_cons_some hharness]
          cases next with
          | cancelled =>
              obtain rfl := Option.some.inj hharness
              exact ⟨rfl, rfl, rfl⟩
          | elapsed =>
              obtain rfl := Option.some.inj hharness
              exact ⟨rfl, rfl, rfl⟩
          | stdout answers =>
              obtain rfl := Option.some.inj hharness
              rw [await, Request.awaitStdout]
              simp only [wake] at hnext ⊢
              rcases hpoll : loop.stdout.poll with ⟨_ | read, stdout⟩
              · rw [hpoll] at hnext
                exact ih hnext serving bridge
              · rw [hpoll] at hnext
                dsimp only at hnext ⊢
                cases hreceive : request.receive (read.received parse answers) with
                | error failure => exact ⟨rfl, rfl, rfl⟩
                | ok message =>
                    simp only [hreceive] at hnext
                    cases message with
                    | none => exact ih hnext .reading _
                    | some message => exact ⟨rfl, rfl, rfl⟩
          | accepted => cases hharness
          | received chunk => cases hharness
          | hungUp => cases hharness
          | step step => cases hharness

/-- Where no connection does any harm, a request outlives all of them. -/
theorem outlives_of_careful (request : Request) (tools : BridgeTools) (endpoint : McpEndpoint)
    (parse : String → Option RpcMessage) (wakes : List McpWake) (stdout : Stdout) (bridge : Bridge)
    (hcareful : Careful request tools endpoint parse wakes (start stdout bridge)) :
    (start stdout bridge).Outlives request tools endpoint parse wakes :=
  ⟨endsAlone_of_careful hcareful, fun _ _ hpending => answers_pending answers_start hpending⟩

end Steps

end McpLoop

/-! ## An empty connection -/

namespace EmptyConnection

def request : Request :=
  { id := 3, method := "session/prompt", sessionId := some "s-1", reported := true, http := true }

def tools : BridgeTools := { tools := [], skills := [], inventory := "[]" }

def endpoint : McpEndpoint := { path := "/mcp", parse := fun _ => none }

def parse (_ : String) : Option RpcMessage := none

/-- A browser asks for the endpoint, and another connection stalls. -/
def asked : List McpWake :=
  [.accepted, .received "GET /mcp HTTP/1.1\r\nHost: x\r\n".toUTF8.toList,
    .received "\r\n".toUTF8.toList, .step .written, .accepted,
    .received "POST /mcp".toUTF8.toList, .cancelled]

/-- A connection is closed before anything was sent. -/
def closed : List McpWake := [.accepted, .hungUp, .cancelled]

end EmptyConnection

open EmptyConnection in
theorem McpLoop.outlives_asked :
    (McpLoop.start (.new []) .new).Outlives request tools endpoint parse asked := by
  apply outlives_of_careful
  with_unfolding_all decide

open EmptyConnection in
theorem closed_endsRequest :
    ¬∀ (request : Request) (tools : BridgeTools) (endpoint : McpEndpoint)
      (parse : String → Option RpcMessage) (wakes : List McpWake) (stdout : Stdout)
      (bridge : Bridge),
      (McpLoop.start stdout bridge).Outlives request tools endpoint parse wakes := by
  intro houtlives
  have halone := (houtlives request tools endpoint parse closed (.new []) .new).1 .reading .new
  have hresult : ((McpLoop.start (.new []) .new).await request tools endpoint parse closed).1.result
      ≠ (request.awaitStdout tools parse [.cancelled] (.new []) .reading .new).ended.result := by
    with_unfolding_all decide
  exact hresult halone.1

end Mews
