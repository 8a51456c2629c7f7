import Mathlib.Algebra.GroupWithZero.Nat
import Moira.Execution.Types

/-!
# The runner

What the runner finds in the tty stream of a container: the authorization URL, the paste prompt, the
minted token and the marks of a failed exchange.

Texts are lists of characters here. Rust's `char::to_lowercase` is a parameter.

The engine is the registry: what is durable about a runner stands in the labels, in the name and in
the tty stream of its container.

The formats of UUIDs and of times are parameters.

- `RunnerIdentity.fromRecord` — a runner read back from its container
-/

namespace Moira.Runner

/-! ## Characters -/

/-- Characters that may appear in a URL. -/
def isUrlChar (candidate : Char) : Bool :=
  candidate.isAlphanum || "-._~:/?#[]@!$&'()*+,;=%".toList.contains candidate

/-- `char::is_control` -/
def isControl (c : Char) : Bool :=
  c.toNat ≤ 0x1f || (0x7f ≤ c.toNat && c.toNat ≤ 0x9f)

def escape : Char := Char.ofNat 0x1b

def bell : Char := Char.ofNat 0x07

/-- The sequences that run to a string terminator. -/
def introducesString (c : Char) : Bool :=
  c = ']' || c = 'P' || c = 'X' || c = '^' || c = '_'

/-! ## Escape sequences -/

/-- Where in the stream the reader is. -/
inductive AnsiMode
  | text
  | csi
  | osc

/-- `strip_ansi`, from inside of a sequence or of the text. -/
def stripAnsiFrom : AnsiMode → List Char → List Char
  | _, [] => []
  | .text, [c] => if c = escape || (isControl c && !"\n\r\t".toList.contains c) then [] else [c]
  | .text, c :: d :: rest =>
    if c = escape then
      if d = '[' then stripAnsiFrom .csi rest
      else if introducesString d then stripAnsiFrom .osc rest
      -- a two-character escape
      else stripAnsiFrom .text rest
    else if isControl c && !"\n\r\t".toList.contains c then stripAnsiFrom .text (d :: rest)
    else c :: stripAnsiFrom .text (d :: rest)
  | .csi, c :: rest =>
    if 0x40 ≤ c.toNat && c.toNat ≤ 0x7e then stripAnsiFrom .text rest else stripAnsiFrom .csi rest
  | .osc, [_] => []
  | .osc, c :: d :: rest =>
    if c = bell then stripAnsiFrom .text (d :: rest)
    else if c = escape && d = '\\' then stripAnsiFrom .text rest
    else stripAnsiFrom .osc (d :: rest)

/-- The text without its escape sequences. -/
def stripAnsi (input : List Char) : List Char :=
  stripAnsiFrom .text input

/-- What stands before and after the first occurrence of the pattern. -/
def splitOnce (pattern : List Char) : List Char → Option (List Char × List Char)
  | [] => if pattern = [] then some ([], []) else none
  | c :: rest =>
    if pattern.isPrefixOf (c :: rest) then some ([], (c :: rest).drop pattern.length)
    else (splitOnce pattern rest).map fun (before, after) => (c :: before, after)

/-- `str::contains` -/
def containsText (pattern text : List Char) : Bool :=
  (splitOnce pattern text).isSome

/-- The text up to `BEL` or `ESC \`, whichever comes first, and what starts there. -/
def untilTerminator : List Char → Option (List Char × List Char)
  | [] => none
  | c :: rest =>
    if c = bell || (c = escape && rest.head? = some '\\') then some ([], c :: rest)
    else (untilTerminator rest).map fun (target, after) => (c :: target, after)

/-- One hyperlink after another; each is shorter than the text it is found in, so as many rounds as
there are characters are enough. -/
def osc8TargetsFrom : Nat → List Char → List (List Char)
  | 0, _ => []
  | rounds + 1, raw =>
    match splitOnce (escape :: "]8;".toList) raw with
    | none => []
    | some (_, rest) =>
      match splitOnce [';'] rest with
      | none => []
      | some (_, afterParams) =>
        match untilTerminator afterParams with
        | none => []
        | some (target, rest) =>
          if !target.isEmpty && target.all isUrlChar then target :: osc8TargetsFrom rounds rest
          else osc8TargetsFrom rounds rest

/-- The targets of the hyperlinks, which `stripAnsi` would delete. -/
def osc8Targets (raw : List Char) : List (List Char) :=
  osc8TargetsFrom raw.length raw

/-! ## Values -/

/-- `str::trim` -/
def trimText (line : List Char) : List Char :=
  ((line.dropWhile isWhiteSpace).reverse.dropWhile isWhiteSpace).reverse

/-- The lines that are not blank; a run of `\r` and `\n` is one break. -/
def textLines (stripped : List Char) : List (List Char) :=
  ((stripped.splitOnP fun c => c = '\n' || c = '\r').map trimText).filter fun line => !line.isEmpty

/-- `str::len` -/
def byteLength (text : List Char) : Nat :=
  (text.map Char.utf8Size).sum

/-- The first line with the start of the value, from there on, and the lines after it. -/
def valueLines (start : List Char) : List (List Char) → Option (List Char × List (List Char))
  | [] => none
  | line :: rest =>
    match splitOnce start line with
    | some (before, _) => some (line.drop before.length, rest)
    | none => valueLines start rest

/-- A value put together from the lines that the terminal has wrapped it across. -/
def rejoinWrapped (stripped start : List Char) : Option (List Char) :=
  match valueLines start (textLines stripped) with
  | none => none
  | some (first, rest) =>
    let value := (first ++ (rest.takeWhile (·.all isUrlChar)).flatten).takeWhile isUrlChar
    if byteLength value ≤ byteLength start then none else some value

abbrev TtyTranscript := String

abbrev MintedToken := String

/-- The authorization URL: the target of a hyperlink, or else put together from the text. -/
def extractAuthorizationUrl (transcript : TtyTranscript) (start : String) : Option String :=
  match (osc8Targets transcript.toList).find? start.toList.isPrefixOf with
  | some target => some (String.ofList target)
  | none => (rejoinWrapped (stripAnsi transcript.toList) start.toList).map String.ofList

/-- The minted token, if the exchange has produced one. -/
def extractToken (transcript : TtyTranscript) (start : String) : Option MintedToken :=
  (rejoinWrapped (stripAnsi transcript.toList) start.toList).map String.ofList

def containsFailureMarker (transcript : TtyTranscript) (markers : List String) : Bool :=
  markers.any fun marker => !marker.isEmpty && containsText marker.toList (stripAnsi transcript.toList)

/-- Whether the prompt is on the screen, compared without white space and without case. -/
def containsPastePrompt (toLowercase : Char → List Char) (transcript : TtyTranscript)
    (marker : String) : Bool :=
  let normalise := fun text : List Char => (text.filter fun c => !isWhiteSpace c).flatMap toLowercase
  !marker.isEmpty && containsText (normalise marker.toList) (normalise (stripAnsi transcript.toList))

/-- A prompt laid out with cursor movements is read without them. -/
example : containsPastePrompt (fun c => [c.toLower])
    (String.ofList ([escape] ++ "[2GPaste".toList ++ [escape] ++ "[8Gcode".toList)) "paste code" =
      true := by
  decide +kernel

/-- A value that is wrapped by `\r\r\n`. -/
example : extractToken "x sk-ant-oat\r\r\n01 \r\nend of it" "sk-ant-" = some "sk-ant-oat01" := by
  decide +kernel

abbrev ContainerId := Nat

/-- Formats and tables of the libraries. -/
structure Libraries where
  formatUuid : Uuid → String
  parseUuid : String → Option Uuid
  formatRfc3339 : Nat → String
  parseRfc3339 : String → Option Nat
  /-- `char::to_lowercase` -/
  toLowercase : Char → List Char

/-- The settings that are read here; times are in seconds. -/
structure RunnerConfig where
  image : String
  command : List String := ["claude", "setup-token"]
  memoryBytes : Int
  nanoCpus : Int
  pidsLimit : Int
  defaultTtl : Nat
  maxTtl : Nat
  authorizationUrlPrefix : String
  pastePromptMarker : String
  tokenPrefix : String
  failureMarkers : List String

/-- What the engine reports about one container. -/
structure ContainerRecord where
  id : ContainerId
  name : String
  labels : List (String × String)
  running : Bool
  deriving DecidableEq

inductive RunnerState
  | provisioning
  | awaitingAuthorization
  | exchanging
  | ready
  | failed
  | expired
  deriving DecidableEq

def labelMarker : String := "moira.runner"

def labelMarkerValue : String := "1"

def labelId : String := "moira.runner.id"

def labelExpiresAt : String := "moira.runner.expires_at"

def consumedSuffix : String := "-consumed"

def errorOauthExchangeFailed : String := "oauth_exchange_failed"

def errorRunnerExited : String := "runner_exited"

/-- What one runner looks like from the outside. -/
structure RunnerView where
  id : Uuid
  containerId : ContainerId
  containerName : String
  state : RunnerState
  authorizationUrl : Option String
  expiresAt : Nat
  errorCode : Option String
  tokenConsumed : Bool

variable (lib : Libraries)

def runnerLabels (id : Uuid) (expiresAt : Nat) : List (String × String) :=
  [(labelMarker, labelMarkerValue), (labelId, lib.formatUuid id),
    (labelExpiresAt, lib.formatRfc3339 expiresAt)]

def containerName (label : String) (id : Uuid) : String :=
  "moira-runner-" ++ label ++ "-" ++ lib.formatUuid id

/-- `str::ends_with` the suffix. -/
def isConsumed (name : String) : Bool :=
  consumedSuffix.toList.isSuffixOf name.toList

/-- The name that says that its token has been handed out. -/
def consumedName (current : String) : String :=
  if isConsumed current then current else current ++ consumedSuffix

/-- The durable half of a runner. -/
structure RunnerIdentity where
  id : Uuid
  containerId : ContainerId
  containerName : String
  expiresAt : Nat
  running : Bool
  consumed : Bool

namespace RunnerIdentity

/-- A container whose labels do not parse is no runner. -/
def fromRecord (record : ContainerRecord) : Option RunnerIdentity :=
  if record.labels.lookup labelMarker = some labelMarkerValue then do
    let id ← (record.labels.lookup labelId).bind lib.parseUuid
    let expiresAt ← (record.labels.lookup labelExpiresAt).bind lib.parseRfc3339
    some
      { id, containerId := record.id, containerName := record.name, expiresAt
        running := record.running, consumed := isConsumed record.name }
  else none

end RunnerIdentity

/-- The state of a runner, with its authorization URL and its error code. -/
def deriveState (identity : RunnerIdentity) (transcript : TtyTranscript) (config : RunnerConfig)
    (now : Nat) (codeSubmitted : Bool) : RunnerState × Option String × Option String :=
  let url := extractAuthorizationUrl transcript config.authorizationUrlPrefix
  if identity.expiresAt ≤ now then (.expired, url, none)
  else if (extractToken transcript config.tokenPrefix).isSome then (.ready, url, none)
  else if containsFailureMarker transcript config.failureMarkers then
    (.failed, url, some errorOauthExchangeFailed)
  else if !identity.running then (.failed, url, some errorRunnerExited)
  else if codeSubmitted then (.exchanging, url, none)
  else if url.isSome && containsPastePrompt lib.toLowercase transcript config.pastePromptMarker then
    (.awaitingAuthorization, url, none)
  else (.provisioning, url, none)

/-! ## What the definitions say -/

variable {lib} {record : ContainerRecord} {identity : RunnerIdentity}

@[simp] theorem isConsumed_consumedName (name : String) : isConsumed (consumedName name) = true := by
  unfold consumedName
  split
  · assumption
  · simp [isConsumed, String.toList_append]

/-- The id in the labels of a container. -/
def runnerId (lib : Libraries) (labels : List (String × String)) : Option Uuid :=
  (labels.lookup labelId).bind lib.parseUuid

theorem fromRecord_cases (h : RunnerIdentity.fromRecord lib record = some identity) :
    runnerId lib record.labels = some identity.id ∧ identity.containerId = record.id ∧
      identity.containerName = record.name ∧ identity.consumed = isConsumed record.name := by
  unfold RunnerIdentity.fromRecord at h
  split at h
  · obtain ⟨id, hid, h⟩ := Option.bind_eq_some_iff.mp h
    obtain ⟨expiresAt, -, h⟩ := Option.bind_eq_some_iff.mp h
    cases h
    exact ⟨hid, rfl, rfl, rfl⟩
  · cases h

theorem runnerId_runnerLabels (id : Uuid) (expiresAt : Nat) :
    runnerId lib (runnerLabels lib id expiresAt) = lib.parseUuid (lib.formatUuid id) := by
  simp [runnerId, runnerLabels, labelId, labelMarker, labelExpiresAt, List.lookup_cons]

theorem deriveState_awaiting {transcript : TtyTranscript} {config : RunnerConfig} {now : Nat}
    {codeSubmitted : Bool}
    (h : (deriveState lib identity transcript config now codeSubmitted).1 = .awaitingAuthorization) :
    (extractToken transcript config.tokenPrefix).isSome = false ∧
      containsFailureMarker transcript config.failureMarkers = false ∧ codeSubmitted = false := by
  unfold deriveState at h
  simp only at h
  split at h
  · cases h
  · split at h
    · cases h
    · next htoken =>
      split at h
      · cases h
      · next hmarker =>
        split at h
        · cases h
        · split at h
          · cases h
          · next hsubmitted => exact ⟨by simpa using htoken, by simpa using hmarker, by simpa using hsubmitted⟩

end Moira.Runner
