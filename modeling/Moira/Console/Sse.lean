import Moira.Domain.AppError
import Moira.Lib.Split
import Moira.Lib.Utf8Decoder

/-!
# Events of a playground run

The reader of `text/event-stream` in the console.

- `parseSseFrame`, `parsePublicSseEnvelope` — a frame, and the envelope in its data

`JSON.parse` is a parameter.
-/

namespace Moira.Console

namespace Sse

/-! ## Frames -/

/-- `replace(/\r\n/g, "\n")` -/
def normalizeLineEnds : List Char → List Char
  | [] => []
  | [c] => [c]
  | c :: d :: rest =>
    if c = '\r' ∧ d = '\n' then '\n' :: normalizeLineEnds rest else c :: normalizeLineEnds (d :: rest)

/-- The complete frames, and the text whose terminator has not been seen. -/
def splitSseFrames (buffer : List Char) : List (List Char) × List Char :=
  let parts := Split.splitTwice '\n' (normalizeLineEnds buffer)
  (parts.dropLast, parts.getLast?.getD [])

structure ParsedSseFrame where
  event : Option (List Char)
  id : Option (List Char)
  data : List Char

/-- What `parseSseFrame` has read before a line. -/
structure FrameFields where
  event : Option (List Char) := none
  id : Option (List Char) := none
  dataLines : List (List Char) := []

def FrameFields.line (fields : FrameFields) (line : List Char) : FrameFields :=
  -- blank or a comment (keep-alive)
  if line.isEmpty || line.head? = some ':' then fields
  else
    let field := line.takeWhile (· ≠ ':')
    let rawValue := (line.dropWhile (· ≠ ':')).drop 1
    let value := if rawValue.head? = some ' ' then rawValue.drop 1 else rawValue
    if field = "event".toList then { fields with event := some value }
    else if field = "id".toList then { fields with id := some value }
    else if field = "data".toList then { fields with dataLines := fields.dataLines ++ [value] }
    else fields

def parseSseFrame (frame : List Char) : ParsedSseFrame :=
  let fields := (frame.splitOn '\n').foldl FrameFields.line {}
  { event := fields.event
    id := fields.id
    data := ['\n'].intercalate fields.dataLines }

/-! ## Envelopes -/

structure PublicSseEnvelope where
  responseId : String
  executionId : String
  requestId : String
  sequence : Int
  timestamp : String
  type : String
  payload : Json
  deriving DecidableEq

def asNumber : Json → Option Int
  | .num n => some n
  | _ => none

section Reader

variable (parseJson : List Char → Option Json)

/-- `none` on anything that does not match the shape. -/
def parsePublicSseEnvelope (data : List Char) : Option PublicSseEnvelope := do
  let parsed ← parseJson data
  let type ← (parsed.get "type").bind Json.asStr
  let executionId ← (parsed.get "execution_id").bind Json.asStr
  let responseId ← (parsed.get "response_id").bind Json.asStr
  let requestId ← (parsed.get "request_id").bind Json.asStr
  let sequence ← (parsed.get "sequence").bind asNumber
  let timestamp ← (parsed.get "timestamp").bind Json.asStr
  return {
    responseId, executionId, requestId, sequence, timestamp, type
    payload := (parsed.get "payload").getD .null }

/-- A frame without data (a bare keep-alive comment) is skipped. -/
def frameEnvelope (frame : List Char) : Option PublicSseEnvelope :=
  let parsed := parseSseFrame frame
  if parsed.data.isEmpty then none else parsePublicSseEnvelope parseJson parsed.data

/-! ## The loop -/

/-- The locals of `readSseEnvelopes`. -/
structure SseReader where
  decoder : Utf8.TextDecoder := {}
  buffer : List Char := []

/-- One read: what is yielded, and the locals afterwards. -/
def SseReader.read (r : SseReader) (value : List UInt8) : List PublicSseEnvelope × SseReader :=
  let decoded := r.decoder.decodeStream value
  let split := splitSseFrames (r.buffer ++ decoded.1)
  (split.1.filterMap (frameEnvelope parseJson), { decoder := decoded.2, buffer := split.2 })

/-- `aborted n` is what the signal says before the read with the number `n`. -/
def SseReader.loop (aborted : Nat → Bool) : Nat → SseReader → List (List UInt8) → List PublicSseEnvelope
  | _, _, [] => []
  | n, r, value :: values =>
    if aborted n then []
    else (r.read parseJson value).1 ++ loop aborted (n + 1) (r.read parseJson value).2 values

/-- What is yielded for a body that arrives in the chunks. -/
def readSseEnvelopes (aborted : Nat → Bool) (chunks : List (List UInt8)) : List PublicSseEnvelope :=
  SseReader.loop parseJson aborted 0 {} chunks

end Reader

end Sse

end Moira.Console
