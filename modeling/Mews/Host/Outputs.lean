import Mews.Core.Texts
import Mews.Host.Messages

/-!
# What a Host puts into a frame

A Host limits what it reads from files, processes and Harnesses by their raw bytes.
The frame of a message is limited by its encoding, and the side that cannot encode a
message leaves its loop, which ends every request that waits for a reply.
-/

namespace Mews

open Protocol

namespace HostProtocol

/-! ## Producers -/

def maxOutput : Nat := 64 * 1024

/-- What a process of an extension has left. -/
structure ExtensionRun where
  success : Bool
  stdout : List UInt8
  stderr : List UInt8
  deriving DecidableEq, Repr

/-- The tools of a Host, with what the world gives them. -/
inductive ToolRun where
  | read (path : String) (file : List UInt8)
  | write (path content : String)
  | edit (path : String)
  | bash (status : Option Int) (stdout stderr : List UInt8)
  | extension (run : ExtensionRun)
  /-- The run fails before there is an output, or for want of one. -/
  | failed (error : String)
  deriving DecidableEq, Repr

section Producers

variable (fromSlice : List UInt8 → Option Value)

/-- `process::execute`, with `serde_json::from_slice` for the output. -/
def ExtensionRun.execute (run : ExtensionRun) : Except String Value :=
  if maxOutput < run.stdout.length ∨ maxOutput < run.stderr.length then
    .error "extension tool output exceeds 64 KiB"
  else if run.success = false then
    .error ("extension tool failed: " ++ fromUtf8Lossy run.stderr)
  else
    match fromSlice run.stdout with
    | none => .error "extension must print one JSON value"
    | some value => .ok value

def readFile (path : String) (file : List UInt8) : Except String Value :=
  if maxOutput < file.length then .error "file exceeds 64 KiB read limit"
  else
    match fromUtf8 file with
    | none => .error "file is not UTF-8"
    | some content => .ok (.object [("content", .string content), ("path", .string path)])

def exitStatus : Option Int → Value
  | none => .null
  | some status => .number (toString status)

/-- `Bash::execute`; what is over the limit is cut off. -/
def runBash (status : Option Int) (stdout stderr : List UInt8) : Value :=
  .object
    [("status", exitStatus status), ("stderr", .string (fromUtf8Lossy (stderr.take maxOutput))),
      ("stdout", .string (fromUtf8Lossy (stdout.take maxOutput))),
      ("success", .bool (status == some 0))]

def ToolRun.execute : ToolRun → Except String Value
  | .read path file => readFile path file
  | .write path content =>
      .ok (.object
        [("bytes", .number (toString content.utf8ByteSize)), ("path", .string path)])
  | .edit path => .ok (.object [("path", .string path), ("replacements", .number "1")])
  | .bash status stdout stderr => .ok (runBash status stdout stderr)
  | .extension run => run.execute fromSlice
  | .failed error => .error error

/-- `execute_hooks_at_generation`: a hook that prints `null` keeps the payload. -/
def executeHooks (hook : String) : Value → List (String × ExtensionRun) → Except String Value
  | payload, [] => .ok payload
  | payload, (extension, run) :: rest =>
      match run.execute fromSlice with
      | .error _ => .error ("extension \"" ++ extension ++ "\" hook " ++ hook)
      | .ok .null => executeHooks hook payload rest
      | .ok output => executeHooks hook output rest

end Producers

def maxDeltaBytes : Nat := 32 * 1024

/-- `split_stream_delta`: a chunk takes as many characters as its bytes allow. -/
def splitChars : List Char → Nat → List Char → List String
  | [], _, [] => []
  | [], _, char :: chunk => [String.ofList (char :: chunk).reverse]
  | char :: rest, used, chunk =>
      if used + char.utf8Size ≤ maxDeltaBytes then
        splitChars rest (used + char.utf8Size) (char :: chunk)
      else String.ofList chunk.reverse :: splitChars rest char.utf8Size [char]

def splitStreamDelta (text : String) : List String := splitChars text.toList 0 []

/-- The events that an observation of an ACP Turn is sent as. -/
def AcpEvent.split : AcpEvent → List AcpEvent
  | .assistantDelta eventKey delta messageId raw =>
      (splitStreamDelta delta).zipIdx.map fun (delta, index) =>
        .assistantDelta (eventKey ++ ":" ++ toString index) delta messageId raw
  | event => [event]

/-- The requests that are answered with the text of an error. -/
inductive ErrorReply where
  | configuration
  | hubTransfer
  | harnessCatalog
  | hook
  | acp
  | directory
  | agentSynchronized
  | agentReplica
  | projectContext
  deriving DecidableEq, Repr

def ErrorReply.message (requestId : RequestId) (error : String) : ErrorReply → HostToHub
  | .configuration => .configurationResult requestId (some error)
  | .hubTransfer => .hubTransferResult requestId none (some error)
  | .harnessCatalog => .harnessCatalog requestId [] (some error)
  | .hook => .hookResult requestId none (some error)
  | .acp => .acpResult requestId none none false none none (some error)
  | .directory => .directoryAttested requestId none (some error)
  | .agentSynchronized => .agentSynchronized requestId (some error)
  | .agentReplica => .agentReplica requestId none (some error)
  | .projectContext => .projectContext requestId none (some error)

/-- What a Host has for the Hub. -/
inductive HostOutput where
  | tool (requestId : RequestId) (run : ToolRun)
  | hook (requestId : RequestId) (name : String) (payload : Value)
      (runs : List (String × ExtensionRun))
  | failed (reply : ErrorReply) (requestId : RequestId) (error : String)
  /-- A new catalog, which `apply_extensions` has encoded before. -/
  | catalog (tools : ToolCatalogSnapshot)
      (haccepted : Carrier.inProcess.frameBytes "tool_response" (HostToHub.toolCatalogChanged tools).bytes
        ≤ maxHostFrameBytes)
  /-- The same catalog at the start of a link. -/
  | ready (tools : ToolCatalogSnapshot) (harnesses : List HarnessDescriptor)
      (haccepted : Carrier.inProcess.frameBytes "tool_response" (HostToHub.toolCatalogChanged tools).bytes
        ≤ maxHostFrameBytes)
  | event (requestId : RequestId) (observed : AcpEvent)
  | answer (requestId : RequestId) (outcome : AcpSessionOutcome)

def toolMessage (requestId : RequestId) : Except String Value → HostToHub
  | .ok result => .toolResult requestId result none
  | .error error => .toolResult requestId .null (some error)

def hookMessage (requestId : RequestId) : Except String Value → HostToHub
  | .ok payload => .hookResult requestId (some payload) none
  | .error error => ErrorReply.hook.message requestId error

def HostOutput.messages (fromSlice : List UInt8 → Option Value) : HostOutput → List HostToHub
  | .tool requestId run => [toolMessage requestId (run.execute fromSlice)]
  | .hook requestId name payload runs =>
      [hookMessage requestId (executeHooks fromSlice name payload runs)]
  | .failed reply requestId error => [reply.message requestId error]
  | .catalog tools _ => [.toolCatalogChanged tools]
  | .ready tools harnesses _ => [.ready tools harnesses]
  | .event requestId observed => observed.split.map (.acpEvent requestId)
  | .answer requestId outcome =>
      [.acpResult requestId (some outcome.answer) (some outcome.sessionId) outcome.sessionReplaced
        (some outcome.stopReason) (some outcome.timings) none]

/-! ## The response loop -/

/-- The limit for a message, by what its frame has besides. -/
def Carrier.room (carrier : Carrier) : Nat := maxHostFrameBytes - carrier.envelope "tool_response"

/-- `mews_protocol::encode` of a message with its frame. -/
def Carrier.encode (carrier : Carrier) (message : HostToHub) : Except FrameError HostToHub :=
  if maxHostFrameBytes < carrier.frameBytes "tool_response" message.bytes then .error .tooLarge
  else .ok message

/-- A message on its way to the response loop, which encodes it once more. -/
def Carrier.deliver (carrier : Carrier) (message : HostToHub) : Except FrameError HostToHub :=
  carrier.encode message >>= Carrier.inProcess.encode

/-- The requests that wait for a reply while the loop runs. -/
structure ResponseLoop where
  running : Bool
  waiting : List RequestId
  disconnected : List RequestId
  deriving DecidableEq, Repr

namespace ResponseLoop

def start (waiting : List RequestId) : ResponseLoop :=
  { running := true, waiting, disconnected := [] }

def receive (carrier : Carrier) (loop : ResponseLoop) (message : HostToHub) : ResponseLoop :=
  if loop.running then
    match carrier.deliver message with
    | .error _ => { running := false, waiting := [], disconnected := loop.waiting }
    | .ok message =>
        match message.answers with
        | some requestId => { loop with waiting := loop.waiting.erase requestId }
        | none => loop
  else loop

def run (carrier : Carrier) (loop : ResponseLoop) (messages : List HostToHub) : ResponseLoop :=
  messages.foldl (receive carrier) loop

/-- The loop goes on, and nobody has lost a reply. -/
structure Undisturbed (loop : ResponseLoop) : Prop where
  running : loop.running = true
  disconnected : loop.disconnected = []

end ResponseLoop

/-! ## What fits -/

/-- What the reply with an error has besides the text of the error. -/
def ErrorReply.rest : ErrorReply → Nat
  | .configuration => 98
  | .hubTransfer => 116
  | .harnessCatalog => 108
  | .hook => 104
  | .acp => 183
  | .directory => 118
  | .agentSynchronized => 96
  | .agentReplica => 106
  | .projectContext => 108

/-- The texts of the output leave enough room: every quote, backslash and line break
in them counts twice, and every other control character six times. -/
def ToolRun.Modest (fromSlice : List UInt8 → Option Value) (room : Nat) : ToolRun → Prop
  | .read path file =>
      file.length ≤ maxOutput → ∀ content, fromUtf8 file = some content →
        125 + escapedBytes path + escapedBytes content ≤ room
  | .write path content =>
      121 + escapedBytes path + (toString content.utf8ByteSize).utf8ByteSize ≤ room
  | .edit path => 129 + escapedBytes path ≤ room
  | .bash status stdout stderr =>
      147 + (exitStatus status).bytes + boolBytes (status == some 0) +
        escapedBytes (fromUtf8Lossy (stdout.take maxOutput)) +
        escapedBytes (fromUtf8Lossy (stderr.take maxOutput)) ≤ room
  | .extension run =>
      run.stdout.length ≤ maxOutput → run.stderr.length ≤ maxOutput →
        if run.success then ∀ output, fromSlice run.stdout = some output → 101 + output.bytes ≤ room
        else 126 + escapedBytes (fromUtf8Lossy run.stderr) ≤ room
  | .failed error => 103 + escapedBytes error ≤ room

/-- The same for everything that a Host has for the Hub. -/
def HostOutput.Modest (fromSlice : List UInt8 → Option Value) (room : Nat) : HostOutput → Prop
  | .tool _ run => run.Modest fromSlice room
  | .hook _ name payload runs =>
      match executeHooks fromSlice name payload runs with
      | .ok output => 102 + output.bytes ≤ room
      | .error error => 104 + escapedBytes error ≤ room
  | .failed reply _ error => reply.rest + escapedBytes error ≤ room
  | .catalog tools _ => 40 + tools.bytes ≤ room
  | .ready tools harnesses _ => 38 + tools.bytes + arrayBytes (harnesses.map (·.bytes)) ≤ room
  | .event _ observed => ∀ event ∈ observed.split, 85 + event.bytes ≤ room
  | .answer _ outcome =>
      168 + escapedBytes outcome.answer + escapedBytes outcome.sessionId +
        boolBytes outcome.sessionReplaced + nameBytes (stopReasonText outcome.stopReason) +
        timingsBytes outcome.timings ≤ room

section Lengths

variable (requestId : RequestId)

attribute [local simp] HostToHub.bytes

theorem ErrorReply.bytes_message (reply : ErrorReply) (error : String) :
    (reply.message requestId error).bytes = reply.rest + escapedBytes error := by
  cases reply <;>
    simp [message, HostToHub.bytes, nullableText, nullable, objectBytes, fieldsBytes, textBytes,
      nameBytes, TaggedId.bytes, TaggedId.textLength, rest, boolBytes, arrayBytes] <;>
    omega

theorem bytes_toolMessage_ok (value : Value) :
    (toolMessage requestId (.ok value)).bytes = 101 + value.bytes := by
  simp [toolMessage, HostToHub.bytes, nullableText, nullable, objectBytes, fieldsBytes, nameBytes,
    TaggedId.bytes, TaggedId.textLength]
  omega

theorem bytes_toolMessage_error (error : String) :
    (toolMessage requestId (.error error)).bytes = 103 + escapedBytes error := by
  simp [toolMessage, HostToHub.bytes, nullableText, nullable, objectBytes, fieldsBytes, textBytes,
    nameBytes, TaggedId.bytes, TaggedId.textLength, Value.bytes]
  omega

theorem bytes_hookMessage_ok (value : Value) :
    (hookMessage requestId (.ok value)).bytes = 102 + value.bytes := by
  simp [hookMessage, HostToHub.bytes, nullableText, nullable, objectBytes, fieldsBytes, nameBytes,
    TaggedId.bytes, TaggedId.textLength]
  omega

theorem bytes_ready (tools : ToolCatalogSnapshot) (harnesses : List HarnessDescriptor) :
    (HostToHub.ready tools harnesses).bytes =
      38 + tools.bytes + arrayBytes (harnesses.map (·.bytes)) := by
  simp [HostToHub.bytes, objectBytes, fieldsBytes, nameBytes]
  omega

theorem bytes_toolCatalogChanged (tools : ToolCatalogSnapshot) :
    (HostToHub.toolCatalogChanged tools).bytes = 40 + tools.bytes := by
  simp [HostToHub.bytes, objectBytes, fieldsBytes, nameBytes]
  omega

theorem bytes_acpEvent (event : AcpEvent) :
    (HostToHub.acpEvent requestId event).bytes = 85 + event.bytes := by
  simp [HostToHub.bytes, objectBytes, fieldsBytes, nameBytes, TaggedId.bytes, TaggedId.textLength]
  omega

theorem bytes_answer (outcome : AcpSessionOutcome) :
    (HostToHub.acpResult requestId (some outcome.answer) (some outcome.sessionId)
      outcome.sessionReplaced (some outcome.stopReason) (some outcome.timings) none).bytes =
      168 + escapedBytes outcome.answer + escapedBytes outcome.sessionId +
        boolBytes outcome.sessionReplaced + nameBytes (stopReasonText outcome.stopReason) +
        timingsBytes outcome.timings := by
  simp [HostToHub.bytes, nullableText, nullable, objectBytes, fieldsBytes, textBytes, nameBytes,
    TaggedId.bytes, TaggedId.textLength]
  omega

end Lengths

theorem bytes_readFile {path content : String} {file : List UInt8} (hlength : file.length ≤ maxOutput)
    (hcontent : fromUtf8 file = some content) :
    ∃ output, readFile path file = .ok output ∧
      output.bytes = 24 + escapedBytes path + escapedBytes content := by
  refine ⟨.object [("content", .string content), ("path", .string path)], ?_, ?_⟩
  · rw [readFile, if_neg (Nat.not_lt_of_le hlength), hcontent]
  · simp [Value.bytes, Value.membersBytes, textBytes]
    have hnames : escapedBytes "content" = 7 ∧ escapedBytes "path" = 4 := by decide
    omega

theorem bytes_runBash (status : Option Int) (stdout stderr : List UInt8) :
    (runBash status stdout stderr).bytes =
      46 + (exitStatus status).bytes + boolBytes (status == some 0) +
        escapedBytes (fromUtf8Lossy (stdout.take maxOutput)) +
        escapedBytes (fromUtf8Lossy (stderr.take maxOutput)) := by
  have hnames : escapedBytes "status" = 6 ∧ escapedBytes "stderr" = 6 ∧
      escapedBytes "stdout" = 6 ∧ escapedBytes "success" = 7 := by decide
  simp [runBash, Value.bytes, Value.membersBytes, textBytes]
  omega

variable {fromSlice : List UInt8 → Option Value} {carrier : Carrier}

theorem Carrier.room_large (carrier : Carrier) : 262000 ≤ carrier.room := by
  cases carrier <;> decide

theorem Carrier.room_le (carrier : Carrier) : carrier.room ≤ Carrier.inProcess.room := by
  cases carrier <;> decide

/-- Errors that the Host words itself are short. -/
theorem toolMessage_error_le (requestId : RequestId) {error : String}
    (hshort : escapedBytes error ≤ 1000) :
    (toolMessage requestId (.error error)).bytes ≤ carrier.room := by
  have hroom := carrier.room_large
  rw [bytes_toolMessage_error]
  omega

theorem readFile_modest_iff (requestId : RequestId) (path : String) (file : List UInt8) :
    (toolMessage requestId (readFile path file)).bytes ≤ carrier.room ↔
      (ToolRun.read path file).Modest fromSlice carrier.room := by
  rw [ToolRun.Modest]
  by_cases hlength : file.length ≤ maxOutput
  · cases hcontent : fromUtf8 file with
    | none =>
        have hshort : escapedBytes "file is not UTF-8" ≤ 1000 := by decide
        rw [readFile, if_neg (Nat.not_lt_of_le hlength), hcontent]
        simp [toolMessage_error_le requestId hshort]
    | some content =>
        obtain ⟨output, houtput, hbytes⟩ := @bytes_readFile path _ _ hlength hcontent
        rw [houtput, bytes_toolMessage_ok, hbytes]
        simp only [hlength, Option.some.injEq, forall_const, forall_eq']
        omega
  · have hshort : escapedBytes "file exceeds 64 KiB read limit" ≤ 1000 := by decide
    rw [readFile, if_pos (Nat.lt_of_not_le hlength)]
    simp [hlength, toolMessage_error_le requestId hshort]

theorem extension_modest_iff (requestId : RequestId) (run : ExtensionRun) :
    (toolMessage requestId (run.execute fromSlice)).bytes ≤ carrier.room ↔
      (ToolRun.extension run).Modest fromSlice carrier.room := by
  rw [ToolRun.Modest, ExtensionRun.execute]
  by_cases hlimit : maxOutput < run.stdout.length ∨ maxOutput < run.stderr.length
  · have hshort : escapedBytes "extension tool output exceeds 64 KiB" ≤ 1000 := by decide
    rw [if_pos hlimit]
    have hover : run.stdout.length ≤ maxOutput → ¬run.stderr.length ≤ maxOutput := by omega
    simp only [toolMessage_error_le requestId hshort, true_iff]
    intro hstdout hstderr
    exact absurd hstderr (hover hstdout)
  · obtain ⟨hstdout, hstderr⟩ := not_or.mp hlimit
    rw [if_neg hlimit]
    simp only [Nat.le_of_not_lt hstdout, Nat.le_of_not_lt hstderr, forall_const]
    cases hsuccess : run.success with
    | false =>
        have hprefix : escapedBytes "extension tool failed: " = 23 := by decide
        simp only [if_true, bytes_toolMessage_error, escapedBytes_append, hprefix]
        simp only [Bool.false_eq_true, if_false]
        omega
    | true =>
        simp only [Bool.true_eq_false, if_false, if_true]
        cases houtput : fromSlice run.stdout with
        | none =>
            have hshort : escapedBytes "extension must print one JSON value" ≤ 1000 := by decide
            simp [toolMessage_error_le requestId hshort]
        | some output => simp [bytes_toolMessage_ok]

theorem ToolRun.modest_iff (requestId : RequestId) (run : ToolRun) :
    (toolMessage requestId (run.execute fromSlice)).bytes ≤ carrier.room ↔
      run.Modest fromSlice carrier.room := by
  cases run with
  | read path file => exact readFile_modest_iff requestId path file
  | write path content =>
      have hnames : escapedBytes "bytes" = 5 ∧ escapedBytes "path" = 4 := by decide
      rw [ToolRun.execute, ToolRun.Modest, bytes_toolMessage_ok]
      simp only [Value.bytes, Value.membersBytes, textBytes, hnames]
      omega
  | edit path =>
      have hnames : escapedBytes "replacements" = 12 ∧ escapedBytes "path" = 4 ∧
          "1".utf8ByteSize = 1 := by decide
      rw [ToolRun.execute, ToolRun.Modest, bytes_toolMessage_ok]
      simp only [Value.bytes, Value.membersBytes, textBytes, hnames]
      omega
  | bash status stdout stderr =>
      rw [ToolRun.execute, ToolRun.Modest, bytes_toolMessage_ok, bytes_runBash]
      omega
  | extension run => exact extension_modest_iff requestId run
  | failed error => rw [ToolRun.execute, ToolRun.Modest, bytes_toolMessage_error]

/-- The messages of an output fit if and only if its texts do. -/
theorem HostOutput.modest_iff (output : HostOutput) :
    (∀ message ∈ output.messages fromSlice, message.bytes ≤ carrier.room) ↔
      output.Modest fromSlice carrier.room := by
  cases output with
  | tool requestId run =>
      rw [messages, List.forall_mem_singleton]
      exact run.modest_iff requestId
  | hook requestId name payload runs =>
      rw [messages, List.forall_mem_singleton, Modest]
      cases executeHooks fromSlice name payload runs with
      | ok output => rw [bytes_hookMessage_ok]
      | error error =>
          rw [hookMessage, ErrorReply.bytes_message]
          rfl
  | failed reply requestId error =>
      rw [messages, List.forall_mem_singleton, Modest, ErrorReply.bytes_message]
  | catalog tools haccepted =>
      rw [messages, List.forall_mem_singleton, Modest, bytes_toolCatalogChanged]
  | ready tools harnesses haccepted =>
      rw [messages, List.forall_mem_singleton, Modest, bytes_ready]
  | event requestId observed =>
      rw [messages, List.forall_mem_map, Modest]
      simp only [bytes_acpEvent]
  | answer requestId outcome =>
      rw [messages, List.forall_mem_singleton, Modest, bytes_answer]

namespace ResponseLoop

theorem encode_eq (carrier : Carrier) (message : HostToHub) :
    carrier.encode message =
      if message.bytes ≤ carrier.room then .ok message else .error .tooLarge := by
  have henvelope : carrier.envelope "tool_response" ≤ maxHostFrameBytes := by
    cases carrier <;> decide
  rw [Carrier.encode, Carrier.frameBytes_eq, Carrier.room]
  split_ifs with hlarge hfits hfits
  · omega
  · rfl
  · rfl
  · omega

theorem deliver_eq (carrier : Carrier) (message : HostToHub) :
    carrier.deliver message =
      if message.bytes ≤ carrier.room then .ok message else .error .tooLarge := by
  have hroom := carrier.room_le
  rw [Carrier.deliver, encode_eq]
  split_ifs with hfits
  · change Carrier.inProcess.encode message = .ok message
    rw [encode_eq, if_pos (hfits.trans hroom)]
  · rfl

variable {loop : ResponseLoop}

/-- A message that does not fit ends the loop and every request that waits. -/
theorem receive_of_not_fits {message : HostToHub} (hrunning : loop.running = true)
    (hfits : ¬message.bytes ≤ carrier.room) :
    loop.receive carrier message =
      { running := false, waiting := [], disconnected := loop.waiting } := by
  rw [receive, if_pos hrunning, deliver_eq, if_neg hfits]

/-- The loop has ended for good. -/
theorem run_stopped (hstopped : loop.running = false) (messages : List HostToHub) :
    loop.run carrier messages = loop := by
  induction messages with
  | nil => rfl
  | cons message messages ih =>
      rw [run, List.foldl_cons, receive, hstopped]
      exact ih

theorem undisturbed_run_iff (hloop : loop.Undisturbed) (messages : List HostToHub) :
    (loop.run carrier messages).Undisturbed ↔
      ∀ message ∈ messages, message.bytes ≤ carrier.room := by
  induction messages generalizing loop with
  | nil => simp [run, hloop]
  | cons message messages ih =>
      rw [run, List.foldl_cons, List.forall_mem_cons]
      change ((loop.receive carrier message).run carrier messages).Undisturbed ↔ _
      by_cases hfits : message.bytes ≤ carrier.room
      · rw [receive, if_pos hloop.running, deliver_eq, if_pos hfits]
        simp only [hfits, true_and]
        cases message.answers with
        | some requestId => exact ih ⟨hloop.running, hloop.disconnected⟩
        | none => exact ih hloop
      · rw [receive_of_not_fits hloop.running hfits, run_stopped rfl]
        simp only [hfits, false_and, iff_false]
        intro hundisturbed
        cases hundisturbed.running

end ResponseLoop

/-! ## A file of control characters -/

namespace ControlFile

def soh : Char := Char.ofNat 1

/-- As long as a file may be that is read. -/
def file : List UInt8 := List.replicate maxOutput 1

theorem content_file : fromUtf8 file = some (String.ofList (List.replicate maxOutput soh)) := by
  have hsoh : String.utf8EncodeChar soh = [1] := by decide
  have hbytes : bytesOf (String.ofList (List.replicate maxOutput soh)) = file := by
    rw [bytesOf_ofList, List.flatMap_replicate, hsoh]
    simp [file]
  rw [← hbytes]
  exact fromUtf8_bytesOf _

theorem escapedBytes_content :
    escapedBytes (String.ofList (List.replicate maxOutput soh)) = maxOutput * 6 := by
  have hsoh : charBytes soh = 6 := by decide
  simp [escapedBytes, hsoh]

/-- The result of one request ends every other. -/
theorem disconnects (fromSlice : List UInt8 → Option Value) :
    (ResponseLoop.start [⟨"1"⟩, ⟨"2"⟩]).run .inProcess
        ((HostOutput.tool ⟨"1"⟩ (.read "/work/log" file)).messages fromSlice) =
      { running := false, waiting := [], disconnected := [⟨"1"⟩, ⟨"2"⟩] } := by
  have hlength : file.length ≤ maxOutput := by
    rw [file, List.length_replicate]
  obtain ⟨output, houtput, hbytes⟩ := @bytes_readFile "/work/log" _ _ hlength content_file
  rw [escapedBytes_content] at hbytes
  rw [HostOutput.messages, ToolRun.execute, houtput, ResponseLoop.run, List.foldl_cons,
    List.foldl_nil]
  apply ResponseLoop.receive_of_not_fits rfl
  rw [bytes_toolMessage_ok, hbytes]
  decide

end ControlFile

end HostProtocol

end Mews
