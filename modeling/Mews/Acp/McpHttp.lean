import Mews.Acp.Stdout
import Mews.Core.Texts

/-!
# Connections to the MCP endpoint

While a request is pending, the connections to the MCP endpoint of the Turn are served one
after another.  A connection is read byte by byte: a request line, headers and a body, each
with its limit.  What the endpoint does not take it refuses with a status, or the reading
breaks, and then the request that is pending ends with it.
-/

namespace Mews

open Protocol Lines

def maxRequestLineBytes : ℕ := 8 * 1024

def maxHeaderBytes : ℕ := 32 * 1024

def maxBodyBytes : ℕ := 1024 * 1024

/-! ## The parts of a request -/

/-- The next of `split_whitespace`, and what follows it. -/
def nextWord (chars : List Char) : List Char × List Char :=
  let begun := chars.dropWhile isWhitespace
  (begun.takeWhile fun char => !isWhitespace char, begun.dropWhile fun char => !isWhitespace char)

/-- `split_once(':')`. -/
def splitHeader (text : String) : Option (String × String) :=
  if ':' ∈ text.toList then
    some (String.ofList (text.toList.takeWhile (· ≠ ':')),
      String.ofList (text.toList.dropWhile (· ≠ ':')).tail)
  else none

/-- `to_ascii_lowercase`. -/
def asciiLowercase (text : String) : String := String.ofList (text.toList.map Char.toLower)

def allowedOrigins : List String :=
  ["http://localhost", "https://localhost", "http://127.0.0.1", "https://127.0.0.1",
    "http://[::1]", "https://[::1]"]

def allowedOrigin (origin : String) : Bool :=
  allowedOrigins.any fun allowed =>
    origin == allowed ||
      match allowed.toList.isPrefixOf? origin.toList with
      | some (':' :: port) => port ≠ [] && port.all Char.isDigit
      | _ => false

/-! ## Reading a connection -/

/-- The endpoint of a Turn. -/
structure McpEndpoint where
  path : String
  /-- `serde_json::from_slice`. -/
  parse : List UInt8 → Option Value

structure HttpHead where
  method : String
  path : String
  contentLength : ℕ
  headerBytes : ℕ
  sawContentLength : Bool
  headers : List (String × String)
  deriving DecidableEq

/-- How far `handle_http_connection` has read a connection. -/
inductive HttpReading where
  | requestLine (line : List UInt8)
  | headers (head : HttpHead) (line : List UInt8)
  | body (length : ℕ) (bytes : List UInt8)
  /-- The connection is answered with a status and no body. -/
  | refused (status : ℕ)
  | complete (request : Value)
  | broken (text : String)
  deriving DecidableEq

namespace HttpHead

def new (line : String) : HttpHead :=
  let (method, rest) := nextWord line.toList
  { method := String.ofList method, path := String.ofList (nextWord rest).1, contentLength := 0
    headerBytes := 0, sawContentLength := false, headers := [] }

/-- What is left of the limit on all headers. -/
def remaining (head : HttpHead) : ℕ := maxHeaderBytes - head.headerBytes

def insert (head : HttpHead) (name value : String) : HttpReading :=
  if (head.headers.lookup name).isSome then .refused 400
  else .headers { head with headers := (name, value) :: head.headers } []

end HttpHead

namespace HttpReading

def exceeded : String := "MCP HTTP line exceeds its byte limit"

def endBody (endpoint : McpEndpoint) (bytes : List UInt8) : HttpReading :=
  match endpoint.parse bytes with
  | none => .refused 400
  | some request => .complete request

/-- The blank line after the headers. -/
def endHeaders (endpoint : McpEndpoint) (head : HttpHead) : HttpReading :=
  if head.path ≠ endpoint.path then .refused 404
  else if head.method ≠ "POST" then .refused 405
  else if (head.headers.lookup "origin").any fun origin => !allowedOrigin origin then .refused 403
  else if maxBodyBytes < head.contentLength then .refused 413
  else if head.contentLength = 0 then endBody endpoint []
  else .body head.contentLength []

def isBlankLine (line : List UInt8) : Bool := line = [carriageReturn, newline] || line = [newline]

/-- A header line with its end. -/
def endHeader (endpoint : McpEndpoint) (head : HttpHead) (line : List UInt8) : HttpReading :=
  let head := { head with headerBytes := head.headerBytes + line.length }
  if isBlankLine line then endHeaders endpoint head
  else
    match fromUtf8 line with
    | none => .broken "MCP header is not UTF-8"
    | some text =>
        match splitHeader text with
        | none => .refused 400
        | some (name, value) =>
            let name := asciiLowercase (trimText name)
            let value := trimText value
            if name = "content-length" then
              if head.sawContentLength then .broken "duplicate MCP Content-Length header"
              else
                match parseUsize value with
                | none => .broken "parse MCP content length"
                | some contentLength =>
                    { head with sawContentLength := true, contentLength }.insert name value
            else head.insert name value

def endRequestLine (line : List UInt8) : HttpReading :=
  match fromUtf8 line with
  | none => .broken "MCP request line is not UTF-8"
  | some text => .headers (.new text) []

/-- The next byte of the connection. -/
def push (endpoint : McpEndpoint) (reading : HttpReading) (byte : UInt8) : HttpReading :=
  match reading with
  | .requestLine line =>
      let line := line ++ [byte]
      if maxRequestLineBytes < line.length then .broken ("read MCP HTTP request line: " ++ exceeded)
      else if byte = newline then endRequestLine line
      else .requestLine line
  | .headers head line =>
      let line := line ++ [byte]
      if head.remaining < line.length then .broken exceeded
      else if byte = newline then endHeader endpoint head line
      else .headers head line
  | .body length bytes =>
      let bytes := bytes ++ [byte]
      if bytes.length = length then endBody endpoint bytes else .body length bytes
  | reading => reading

/-- The peer sends nothing more. -/
def hangUp : HttpReading → HttpReading
  | .requestLine [] => .broken "MCP HTTP request is empty"
  | .requestLine (_ :: _) => .broken ("read MCP HTTP request line: " ++ exceeded)
  | .headers _ [] => .broken "MCP HTTP headers ended before the blank line"
  | .headers _ (_ :: _) => .broken exceeded
  | .body _ _ => .broken "read MCP HTTP body"
  | reading => reading

/-- What the serving future goes on with. -/
def step? : HttpReading → Option HttpStep
  | .refused _ => some .immediate
  | .broken text => some (.broken text)
  | _ => none

end HttpReading

/-! ## The loop of a request -/

/-- What is ready first, where connections bring bytes too. -/
inductive McpWake where
  | cancelled
  | elapsed
  | accepted
  | received (chunk : List UInt8)
  | hungUp
  /-- What becomes of a request that was read, and failures of the socket. -/
  | step (step : HttpStep)
  | stdout (answers : Answers)

/-- What the harness, the Turn and the clock bring. -/
def McpWake.harness? : McpWake → Option StdoutWake
  | .cancelled => some .cancelled
  | .elapsed => some .elapsed
  | .stdout answers => some (.stdout answers)
  | _ => none

structure McpLoop where
  stdout : Stdout
  /-- The connection that was accepted. -/
  reading : Option HttpReading
  serving : Serving
  bridge : Bridge

/-- What a wake makes of the loop. -/
inductive McpTurned where
  | goes (loop : McpLoop)
  | ended (ended : RequestEnd) (stdout : Stdout)

namespace McpLoop

variable (request : Request) (tools : BridgeTools) (endpoint : McpEndpoint)
  (parse : String → Option RpcMessage)

def serve (loop : McpLoop) (step : HttpStep) : McpTurned :=
  match loop.bridge.serve tools loop.serving step with
  | (.pending serving, bridge) => .goes { loop with serving, bridge }
  | (.finished, bridge) =>
      .goes { stdout := loop.stdout.drop, reading := none, serving := .reading, bridge }
  | (.failed text, bridge) =>
      .ended (Request.fails (.msg text) (bridge.drop tools request.method loop.serving .broken))
        loop.stdout.drop

def read (loop : McpLoop) (reading : HttpReading) : McpTurned :=
  let loop := { loop with reading := some reading }
  match reading.step? with
  | none => .goes loop
  | some step => loop.serve request tools step

/-- The steps that the serving future can take where it stands. -/
def allows (loop : McpLoop) : HttpStep → Bool
  | .broken _ => request.http
  | .immediate | .called .. =>
      match loop.reading with
      | some (.complete _) => true
      | _ => false
  | _ => true

def wake (loop : McpLoop) : McpWake → McpTurned
  | .cancelled =>
      .ended (Request.fails (.of .acpCancelled)
        (loop.bridge.drop tools request.method loop.serving .cancelled)) loop.stdout.drop
  | .elapsed =>
      .ended (Request.fails (.msg "ACP request timed out")
        (loop.bridge.drop tools request.method loop.serving .elapsed)) loop.stdout.drop
  | .accepted =>
      if request.http && loop.reading.isNone then
        .goes { loop with reading := some (.requestLine []) }
      else .goes loop
  | .received chunk =>
      match loop.reading, loop.serving with
      | some reading, .reading => loop.read request tools (chunk.foldl (.push endpoint) reading)
      | _, _ => .goes loop
  | .hungUp =>
      match loop.reading, loop.serving with
      | some reading, .reading => loop.read request tools reading.hangUp
      | _, _ => .goes loop
  | .step step => if loop.allows request step then loop.serve request tools step else .goes loop
  | .stdout answers =>
      match loop.stdout.poll with
      | (none, stdout) => .goes { loop with stdout }
      | (some read, stdout) =>
          -- The connection is dropped, wherever it stands.
          let bridge := loop.bridge.drop tools request.method loop.serving .line
          match request.receive (read.received parse answers) with
          | .error failure => .ended (Request.fails failure bridge) stdout
          | .ok none => .goes { stdout, reading := none, serving := .reading, bridge }
          | .ok (some message) =>
              .ended { result := request.conclude message, reply := Request.reply message, bridge }
                stdout

/-- `request_with_dispatch` over the bytes of the stdout and of the connections. -/
def await : List McpWake → McpLoop → RequestEnd × Stdout
  | [], loop =>
      (Request.fails (.msg "ACP request timed out")
        (loop.bridge.drop tools request.method loop.serving .elapsed), loop.stdout.drop)
  | next :: wakes, loop =>
      match loop.wake request tools endpoint parse next with
      | .goes loop => await wakes loop
      | .ended ended stdout => (ended, stdout)

def start (stdout : Stdout) (bridge : Bridge) : McpLoop :=
  { stdout, reading := none, serving := .reading, bridge }

end McpLoop

end Mews
