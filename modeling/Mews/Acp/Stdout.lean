import Mews.Acp.Rpc
import Mews.Core.Lines

/-!
# The stdout of a Harness

The requests to a Harness read its stdout one after another for the life of the process.
What a request reads ahead stays in the buffer for the next one, but the line that is
being read belongs to the future that reads it: where another branch of the loop is ready
first, what the future has taken is gone with it.
-/

namespace Mews

open Protocol Lines

def maxAcpLineBytes : ℕ := 1024 * 1024

def carriageReturn : UInt8 := 13

/-- The stdout of a Harness with its `BufReader` and the future that reads a line. -/
structure Stdout where
  /-- What the reads of the pipe bring; one that brings nothing is its end. -/
  pipe : List (List UInt8)
  buffer : List UInt8
  /-- What the future has taken, lost when it is dropped. -/
  encoded : List UInt8
  deriving DecidableEq

/-- What `read_until` ends with. -/
inductive LineRead where
  | closed
  | exceeded (encoded : List UInt8)
  | line (encoded : List UInt8)
  deriving DecidableEq

namespace LineRead

def new (encoded : List UInt8) : LineRead :=
  if encoded = [] then .closed
  else if maxAcpLineBytes < encoded.length ∨ encoded.getLast? ≠ some newline then
    .exceeded encoded
  else .line encoded

def piece : LineRead → Piece UInt8
  | closed => .lost []
  | exceeded encoded => .lost encoded
  | line encoded => .line encoded

end LineRead

/-- A line without its end. -/
def lineText (encoded : List UInt8) : List UInt8 :=
  let text := encoded.dropLast
  if text.getLast? = some carriageReturn then text.dropLast else text

/-- The lines as the loop takes them. -/
def LineRead.received (parse : String → Option RpcMessage) (answers : Answers) :
    LineRead → Line
  | .closed => .closed
  | .exceeded _ => .broken "ACP JSON-RPC line exceeds 1 MiB"
  | .line encoded =>
      match String.fromUTF8? ⟨(lineText encoded).toArray⟩ with
      | none => .broken "ACP JSON-RPC line is not UTF-8"
      | some text =>
          match parse text with
          | none => .invalid text
          | some message => .message message answers

namespace Stdout

def new (pipe : List (List UInt8)) : Stdout := { pipe, buffer := [], encoded := [] }

/-- `fill_buf`. -/
def fillBuf (stdout : Stdout) : Stdout :=
  match stdout.buffer, stdout.pipe with
  | [], chunk :: pipe => { stdout with pipe, buffer := chunk }
  | _, _ => stdout

/-- One turn of `read_until` when the buffer or the pipe has something. -/
def poll (stdout : Stdout) : Option LineRead × Stdout :=
  let { pipe, buffer, encoded } := stdout.fillBuf
  let used := takeUntil newline (maxAcpLineBytes + 1) encoded buffer
  let buffer := buffer.drop used.length
  if GoesOn newline (maxAcpLineBytes + 1) encoded used then
    (none, { pipe, buffer, encoded := encoded ++ used })
  else (some (.new (encoded ++ used)), { pipe, buffer, encoded := [] })

/-- The future that reads a line is dropped. -/
def drop (stdout : Stdout) : Stdout := { stdout with encoded := [] }

/-- What was not returned yet. -/
def unread (stdout : Stdout) : List UInt8 :=
  stdout.encoded ++ (stdout.buffer ++ stdout.pipe.flatten)

/-- What was taken from the stdout before it was left so. -/
def consumed (stdout after : Stdout) : List UInt8 :=
  stdout.unread.take (stdout.unread.length - after.unread.length)

end Stdout

/-- What is ready first, where the stdout brings bytes. -/
inductive StdoutWake where
  | cancelled
  | elapsed
  | http (step : HttpStep)
  | stdout (answers : Answers)

/-- How a request ends, and what it read. -/
structure Awaited where
  ended : RequestEnd
  stdout : Stdout
  pieces : List (Piece UInt8)

namespace Awaited

/-- The request ends while a line is read. -/
def dropped (stdout : Stdout) (ended : RequestEnd) : Awaited :=
  { ended, stdout := stdout.drop, pieces := [.lost stdout.encoded] }

def after (piece : Piece UInt8) (awaited : Awaited) : Awaited :=
  { awaited with pieces := piece :: awaited.pieces }

end Awaited

namespace Request

/-- The loop of `request_with_dispatch` over the bytes of the stdout. -/
def awaitStdout (request : Request) (tools : BridgeTools) (parse : String → Option RpcMessage) :
    List StdoutWake → Stdout → Serving → Bridge → Awaited
  | [], stdout, serving, bridge =>
      .dropped stdout
        (fails (.msg "ACP request timed out") (bridge.drop tools request.method serving .elapsed))
  | .cancelled :: _, stdout, serving, bridge =>
      .dropped stdout
        (fails (.of .acpCancelled) (bridge.drop tools request.method serving .cancelled))
  | .elapsed :: _, stdout, serving, bridge =>
      .dropped stdout
        (fails (.msg "ACP request timed out") (bridge.drop tools request.method serving .elapsed))
  | .http step :: wakes, stdout, serving, bridge =>
      if request.http then
        match bridge.serve tools serving step with
        | (.pending serving, bridge) => awaitStdout request tools parse wakes stdout serving bridge
        | (.finished, bridge) =>
            -- The loop goes round, and the line that was being read is dropped.
            (awaitStdout request tools parse wakes stdout.drop .reading bridge).after
              (.lost stdout.encoded)
        | (.failed text, bridge) =>
            .dropped stdout
              (fails (.msg text) (bridge.drop tools request.method serving .broken))
      else awaitStdout request tools parse wakes stdout serving bridge
  | .stdout answers :: wakes, stdout, serving, bridge =>
      match stdout.poll with
      | (none, stdout) => awaitStdout request tools parse wakes stdout serving bridge
      | (some read, stdout) =>
          let bridge := bridge.drop tools request.method serving .line
          match request.receive (read.received parse answers) with
          | .error failure => { ended := fails failure bridge, stdout, pieces := [read.piece] }
          | .ok none =>
              (awaitStdout request tools parse wakes stdout .reading bridge).after read.piece
          | .ok (some message) =>
              { ended := { result := request.conclude message, reply := reply message, bridge }
                stdout, pieces := [read.piece] }

end Request

/-- A request in the life of a process. -/
structure LiveRequest where
  request : Request
  tools : BridgeTools
  bridge : Bridge
  /-- Writing and flushing the request. -/
  sent : Except String Unit
  /-- The event sink takes the report of the dispatch. -/
  dispatched : Except String Unit
  wakes : List StdoutWake

/-- `request_with_dispatch`. -/
def LiveRequest.perform (live : LiveRequest) (parse : String → Option RpcMessage)
    (stdout : Stdout) : Awaited :=
  match texted live.sent with
  | .error failure => { ended := Request.fails failure live.bridge, stdout, pieces := [] }
  | .ok () =>
      match (if live.request.reported then texted live.dispatched else .ok ()) with
      | .error failure => { ended := Request.fails failure live.bridge, stdout, pieces := [] }
      | .ok () =>
          live.request.awaitStdout live.tools parse live.wakes stdout .reading live.bridge

/-- The requests of a process.  A shutdown closes one Session after another, whatever
became of the request before. -/
def acpLife (parse : String → Option RpcMessage) :
    List LiveRequest → Stdout → Stdout × List (Piece UInt8)
  | [], stdout => (stdout, [])
  | live :: requests, stdout =>
      let awaited := live.perform parse stdout
      let (after, pieces) := acpLife parse requests awaited.stdout
      (after, awaited.pieces ++ pieces)

/-- The complete lines within the limit. -/
def harnessLines (bytes : List UInt8) : List (List UInt8) :=
  ((complete newline bytes).filter (·.length ≤ maxAcpLineBytes)).map lineText

/-- The lines of which the requests of a life take messages are the complete lines within
the limit of what was read, each once and in order. -/
def FramesLines (parse : String → Option RpcMessage) (requests : List LiveRequest)
    (pipe : List (List UInt8)) : Prop :=
  let (after, pieces) := acpLife parse requests (.new pipe)
  (returned pieces).map lineText = harnessLines ((Stdout.new pipe).consumed after)

/-! ## What a request takes from the stdout -/

/-- The line being read goes on, and is within the limit so far. -/
def Stdout.Partial (stdout : Stdout) : Prop :=
  newline ∉ stdout.encoded ∧ stdout.encoded.length ≤ maxAcpLineBytes

/-- What the pieces hold is what was there before. -/
structure Stdout.Takes (stdout : Stdout) (pieces : List (Piece UInt8)) (after : Stdout) :
    Prop where
  unread : stdout.unread = taken pieces ++ after.unread
  fits : ∀ piece ∈ pieces, piece.Fits newline maxAcpLineBytes
  going : after.Partial

namespace Stdout

variable {stdout middle after : Stdout} {pieces more : List (Piece UInt8)}

theorem partial_nil {pipe : List (List UInt8)} {buffer : List UInt8} :
    ({ pipe, buffer, encoded := [] } : Stdout).Partial :=
  ⟨List.not_mem_nil, Nat.zero_le _⟩

theorem unread_fillBuf : stdout.fillBuf.unread = stdout.unread := by
  obtain ⟨pipe, buffer, encoded⟩ := stdout
  cases buffer with
  | nil =>
      cases pipe with
      | nil => rfl
      | cons chunk pipe => rfl
  | cons byte buffer => rfl

theorem encoded_fillBuf : stdout.fillBuf.encoded = stdout.encoded := by
  obtain ⟨pipe, buffer, encoded⟩ := stdout
  cases buffer with
  | nil =>
      cases pipe with
      | nil => rfl
      | cons chunk pipe => rfl
  | cons byte buffer => rfl

theorem Takes.refl (hgoing : stdout.Partial) : stdout.Takes [] stdout :=
  ⟨rfl, nofun, hgoing⟩

theorem Takes.trans (hfirst : stdout.Takes pieces middle) (hsecond : middle.Takes more after) :
    stdout.Takes (pieces ++ more) after where
  unread := by rw [hfirst.unread, hsecond.unread, taken_append, List.append_assoc]
  fits piece hmem := by
    rcases List.mem_append.mp hmem with hmem | hmem
    · exact hfirst.fits piece hmem
    · exact hsecond.fits piece hmem
  going := hsecond.going

theorem takes_drop (hgoing : stdout.Partial) :
    stdout.Takes [.lost stdout.encoded] stdout.drop where
  unread := by simp [unread, drop, taken, Piece.items]
  fits := List.forall_mem_singleton.mpr (Or.inl hgoing.1)
  going := partial_nil

end Stdout

namespace LineRead

/-- A read that ended with a newline. -/
theorem new_delimited {text : List UInt8} (htext : newline ∉ text) :
    (new (text ++ [newline])).piece.items = text ++ [newline] ∧
      (new (text ++ [newline])).piece.Fits newline maxAcpLineBytes := by
  rw [new, if_neg (by simp), List.getLast?_concat]
  split_ifs with hexceeded
  · have hlong := hexceeded.resolve_right fun hother => hother rfl
    exact ⟨rfl, Or.inr ⟨hlong, text, htext, rfl⟩⟩
  · rw [not_or, not_lt] at hexceeded
    exact ⟨rfl, hexceeded.1, text, htext, rfl⟩

/-- A read that ended without one. -/
theorem new_undelimited {encoded : List UInt8} (hencoded : newline ∉ encoded) :
    (new encoded).piece.items = encoded ∧
      (new encoded).piece.Fits newline maxAcpLineBytes := by
  rw [new]
  split_ifs with hnil hexceeded
  · exact ⟨hnil.symm, Or.inl List.not_mem_nil⟩
  · exact ⟨rfl, Or.inl hencoded⟩
  · rw [not_or, not_not] at hexceeded
    exact absurd (List.mem_of_getLast? hexceeded.2) hencoded

end LineRead

namespace Stdout

variable {stdout after : Stdout}

theorem takes_poll (hgoing : stdout.Partial) :
    stdout.Takes (stdout.poll.1.toList.map LineRead.piece) stdout.poll.2 := by
  have hunread := stdout.unread_fillBuf
  have hencoded := stdout.encoded_fillBuf
  rw [poll]
  generalize stdout.fillBuf = filled at hunread hencoded
  obtain ⟨pipe, buffer, encoded⟩ := filled
  obtain rfl : encoded = stdout.encoded := hencoded
  dsimp only
  have htaken := readsUntil_takeUntil newline (maxAcpLineBytes + 1) stdout.encoded buffer
  generalize takeUntil newline (maxAcpLineBytes + 1) stdout.encoded buffer = used at htaken ⊢
  have hlength := htaken.length_le
  have hcases := htaken.ends hgoing.1
  obtain ⟨rest, rfl⟩ := htaken.begins
  rw [List.drop_left]
  split_ifs with hgoes
  · obtain ⟨-, hnewline, hother⟩ := hgoes
    refine ⟨?_, nofun, ?_, ?_⟩
    · rw [← hunread]
      simp only [unread, taken, Option.toList_none, List.map_nil, List.flatMap_nil,
        List.append_assoc, List.nil_append]
    · exact List.not_mem_append hgoing.1 hnewline
    · have hshort := hgoing.2
      change (stdout.encoded ++ used).length ≤ maxAcpLineBytes
      rw [List.length_append] at hother ⊢
      omega
  · have hread : (LineRead.new (stdout.encoded ++ used)).piece.items = stdout.encoded ++ used ∧
        (LineRead.new (stdout.encoded ++ used)).piece.Fits newline maxAcpLineBytes := by
      rcases hcases with ⟨text, htext, hline⟩ | hnewline
      · rw [hline]
        exact LineRead.new_delimited htext
      · exact LineRead.new_undelimited hnewline
    refine ⟨?_, List.forall_mem_singleton.mpr hread.2, partial_nil⟩
    rw [← hunread]
    simp only [unread, taken, Option.toList_some, List.map_cons, List.map_nil,
      List.flatMap_singleton, hread.1, List.append_assoc, List.nil_append]

end Stdout

namespace Request

/-- A request takes from the stdout what its pieces hold. -/
theorem takes_awaitStdout (request : Request) (tools : BridgeTools)
    (parse : String → Option RpcMessage) (wakes : List StdoutWake) {stdout : Stdout}
    (serving : Serving) (bridge : Bridge) (hgoing : stdout.Partial) :
    let awaited := request.awaitStdout tools parse wakes stdout serving bridge
    stdout.Takes awaited.pieces awaited.stdout := by
  induction wakes generalizing stdout serving bridge with
  | nil => exact Stdout.takes_drop hgoing
  | cons wake wakes ih =>
      cases wake with
      | cancelled => exact Stdout.takes_drop hgoing
      | elapsed => exact Stdout.takes_drop hgoing
      | http step =>
          rw [awaitStdout]
          split_ifs
          · split
            · exact ih _ _ hgoing
            · have hdrop := Stdout.takes_drop hgoing
              exact hdrop.trans (ih _ _ hdrop.going)
            · exact Stdout.takes_drop hgoing
          · exact ih _ _ hgoing
      | stdout answers =>
          have hpoll := Stdout.takes_poll hgoing
          rw [awaitStdout]
          generalize stdout.poll = polled at hpoll
          obtain ⟨_ | read, after⟩ := polled
          · exact hpoll.trans (ih _ _ hpoll.going)
          · dsimp only
            split
            · exact hpoll
            · exact hpoll.trans (ih _ _ hpoll.going)
            · exact hpoll

end Request

/-- The line that a wake brings. -/
def RpcWake.line? : RpcWake → Option Line
  | .line brought => some brought
  | _ => none

/-- The loop over bytes is the loop over lines, on the lines that the reads end with. -/
structure Request.Refines (request : Request) (tools : BridgeTools)
    (parse : String → Option RpcMessage) (serving : Serving) (bridge : Bridge)
    (awaited : Awaited) (wakes : List RpcWake) (reads : List LineRead) : Prop where
  ended : awaited.ended = request.await tools wakes serving bridge
  lines : List.Forall₂ (fun line read => ∃ answers, line = read.received parse answers)
    (wakes.filterMap RpcWake.line?) reads
  returned : returned awaited.pieces = returned (reads.map LineRead.piece)

namespace Request

theorem awaitStdout_refines (request : Request) (tools : BridgeTools)
    (parse : String → Option RpcMessage) (wakes : List StdoutWake) (stdout : Stdout)
    (serving : Serving) (bridge : Bridge) :
    ∃ lineWakes reads, request.Refines tools parse serving bridge
      (request.awaitStdout tools parse wakes stdout serving bridge) lineWakes reads := by
  induction wakes generalizing stdout serving bridge with
  | nil => exact ⟨[], [], rfl, .nil, rfl⟩
  | cons wake wakes ih =>
      cases wake with
      | cancelled => exact ⟨[.cancelled], [], rfl, .nil, rfl⟩
      | elapsed => exact ⟨[.elapsed], [], rfl, .nil, rfl⟩
      | http step =>
          rw [awaitStdout]
          split_ifs with hhttp
          · split
            · rename_i serving' bridge' hserve
              obtain ⟨lineWakes, reads, hended, hlines, hreturned⟩ := ih stdout serving' bridge'
              refine ⟨.http step :: lineWakes, reads, ?_, hlines, hreturned⟩
              rw [await, if_pos hhttp, hserve]
              exact hended
            · rename_i bridge' hserve
              obtain ⟨lineWakes, reads, hended, hlines, hreturned⟩ := ih stdout.drop .reading bridge'
              refine ⟨.http step :: lineWakes, reads, ?_, hlines, hreturned⟩
              rw [await, if_pos hhttp, hserve]
              exact hended
            · rename_i text bridge' hserve
              refine ⟨[.http step], [], ?_, .nil, rfl⟩
              rw [await, if_pos hhttp, hserve]
              rfl
          · exact ih stdout serving bridge
      | stdout answers =>
          rw [awaitStdout]
          split
          · rename_i after _
            exact ih after serving bridge
          · rename_i read after _
            dsimp only
            split
            · rename_i failure hreceive
              refine ⟨[.line (read.received parse answers)], [read], ?_,
                .cons ⟨answers, rfl⟩ .nil, rfl⟩
              rw [await, hreceive]
            · rename_i hreceive
              obtain ⟨lineWakes, reads, hended, hlines, hreturned⟩ := ih after .reading
                (bridge.drop tools request.method serving .line)
              refine ⟨.line (read.received parse answers) :: lineWakes, read :: reads, ?_,
                .cons ⟨answers, rfl⟩ hlines, ?_⟩
              · rw [await, hreceive]
                exact hended
              · calc
                  returned (read.piece :: _) = returned [read.piece] ++ returned _ :=
                    returned_append [read.piece] _
                  _ = returned [read.piece] ++ returned (reads.map LineRead.piece) := by
                    rw [hreturned]
                  _ = returned ((read :: reads).map LineRead.piece) :=
                    (returned_append [read.piece] _).symm
            · rename_i message hreceive
              refine ⟨[.line (read.received parse answers)], [read], ?_,
                .cons ⟨answers, rfl⟩ .nil, rfl⟩
              rw [await, hreceive]

end Request

theorem LiveRequest.takes_perform (live : LiveRequest) (parse : String → Option RpcMessage)
    {stdout : Stdout} (hgoing : stdout.Partial) :
    stdout.Takes (live.perform parse stdout).pieces (live.perform parse stdout).stdout := by
  rw [perform]
  split
  · exact Stdout.Takes.refl hgoing
  · split
    · exact Stdout.Takes.refl hgoing
    · exact live.request.takes_awaitStdout live.tools parse live.wakes .reading live.bridge hgoing

theorem takes_acpLife (parse : String → Option RpcMessage) (requests : List LiveRequest)
    {stdout : Stdout} (hgoing : stdout.Partial) :
    stdout.Takes (acpLife parse requests stdout).2 (acpLife parse requests stdout).1 := by
  induction requests generalizing stdout with
  | nil => exact Stdout.Takes.refl hgoing
  | cons live requests ih =>
      have hlive := live.takes_perform parse hgoing
      exact hlive.trans (ih hlive.going)

/-! ## Lines that come whole -/

/-- A carriage return before an empty line. -/
def LoneReturn (lost line : List UInt8) : Prop := lost = [carriageReturn] ∧ line = [newline]

theorem Stdout.Takes.consumed_eq {stdout after : Stdout} {pieces : List (Piece UInt8)}
    (htakes : stdout.Takes pieces after) : stdout.consumed after = taken pieces := by
  rw [consumed, htakes.unread, List.length_append, Nat.add_sub_cancel]
  exact List.take_left' rfl

theorem lineText_delimited (text : List UInt8) :
    lineText (text ++ [newline]) =
      if text.getLast? = some carriageReturn then text.dropLast else text := by
  rw [lineText, List.dropLast_concat]

/-- A line that has lost a part reads otherwise. -/
theorem lineText_append_iff (lost text : List UInt8) (hlost : lost ≠ []) :
    lineText (text ++ [newline]) = lineText (lost ++ (text ++ [newline])) ↔
      LoneReturn lost (text ++ [newline]) := by
  rw [← List.append_assoc, lineText_delimited, lineText_delimited]
  by_cases htext : text = []
  · subst htext
    rw [List.append_nil, List.nil_append, LoneReturn, and_iff_left rfl]
    simp only [List.getLast?_nil, reduceCtorEq, if_false]
    obtain ⟨front, last, rfl⟩ := (List.eq_nil_or_concat lost).resolve_left hlost
    rw [List.concat_eq_append, List.getLast?_concat, List.dropLast_concat]
    split_ifs with hreturn
    · rw [Option.some.inj hreturn]
      cases front with
      | nil => exact iff_of_true rfl rfl
      | cons byte front => simp
    · cases front with
      | nil => simpa using hreturn
      | cons byte front => simp
  · rw [List.getLast?_append_of_ne_nil lost htext, List.dropLast_append_of_ne_nil htext]
    apply iff_of_false
    · intro hsame
      have hlengths := congrArg List.length hsame
      have hpos := List.length_pos_of_ne_nil hlost
      split_ifs at hlengths
      · rw [List.length_append] at hlengths
        omega
      · rw [List.length_append] at hlengths
        omega
    · rintro ⟨-, hnewline⟩
      exact htext (List.append_left_eq_self.mp hnewline)

/-- The requests take their messages from the complete lines within the limit if and only
if no line is returned of which an earlier read was dropped with a part, or refused a part
as too long.  Only a carriage return before an empty line is not missed. -/
theorem framesLines_iff (parse : String → Option RpcMessage) (requests : List LiveRequest)
    (pipe : List (List UInt8)) :
    FramesLines parse requests pipe ↔
      Whole newline LoneReturn [] (acpLife parse requests (.new pipe)).2 := by
  have hgoing : (Stdout.new pipe).Partial := Stdout.partial_nil
  have htakes := takes_acpLife parse requests hgoing
  have hshort : ∀ lost line, LoneReturn lost line →
      (lost ++ line).length ≤ maxAcpLineBytes := by
    rintro lost line ⟨rfl, rfl⟩
    decide
  have hiff := map_returned_iff [] lineText_append_iff hshort htakes.fits
  rw [FramesLines]
  change _ = harnessLines ((Stdout.new pipe).consumed (acpLife parse requests (.new pipe)).1) ↔ _
  rw [harnessLines, htakes.consumed_eq]
  exact hiff

/-! ## A reply cut by a connection -/

namespace SplitReply

def request : Request :=
  { id := 1, method := "session/prompt", sessionId := some "s-1", reported := true, http := true }

def answers : Answers :=
  { sink := .ok (), options := .ok [], decision := .ok .cancelled, write := .ok () }

def reply : String := "\x7b\"id\":1,\"result\":null\x7d"

def parse (text : String) : Option RpcMessage :=
  if text = reply then
    some
      { method := none, id := some (.number "1"), sessionId := none, update := none,
        error := none, result := some .null }
  else none

/-- A connection is served while the Harness has written a part of its reply. -/
def live : LiveRequest :=
  { request, tools := { tools := [], skills := [], inventory := "[]" }, bridge := .new
    sent := .ok (), dispatched := .ok ()
    wakes := [.stdout answers, .http .immediate, .http .written, .stdout answers] }

def pipe : List (List UInt8) :=
  let bytes := (reply ++ "\n").toUTF8.toList
  [bytes.take 8, bytes.drop 8]

end SplitReply

theorem reply_cut :
    ¬∀ (parse : String → Option RpcMessage) (requests : List LiveRequest)
      (pipe : List (List UInt8)), FramesLines parse requests pipe := by
  intro hframes
  have hframed := hframes SplitReply.parse [SplitReply.live] SplitReply.pipe
  have hlines : (returned (acpLife SplitReply.parse [SplitReply.live]
      (.new SplitReply.pipe)).2).map lineText ≠
      harnessLines ((Stdout.new SplitReply.pipe).consumed
        (acpLife SplitReply.parse [SplitReply.live] (.new SplitReply.pipe)).1) := by
    with_unfolding_all decide
  exact hlines hframed

end Mews
