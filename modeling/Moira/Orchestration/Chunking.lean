import Moira.Execution.Types
import Moira.Lib.Text

/-!
# Document chunking

A document body is divided into chunks, each the text between two byte offsets of the body.

- `trimSpan`, `windowSpans` — a span without the blank characters around it, and the windows of a
  span

None stands for the panic of an offset that is not a character boundary.
-/

namespace Moira.Chunking

open Text

/-! ## Input and output -/

inductive ChunkStrategy
  | paragraph
  | markdown
  | fixedWindow (windowChars overlapChars : Nat)

structure ChunkingLimits where
  maxChunkChars : Nat
  maxChunksPerDocument : Nat
  /-- `RagSettings::validate` -/
  validated : maxChunksPerDocument < 2147483647

structure ChunkCandidate where
  text : List Char
  startOffset : Nat
  endOffset : Nat
  sectionTitle : Option (List Char)
  chunkIndex : Int32

inductive ChunkingError
  | tooManyChunks (produced limit : Nat)

/-! ## Windows -/

/-- `str::trim` -/
abbrev trim (text : List Char) : List Char :=
  trimmed isWhiteSpace text

/-- The core of a span, if it has one. -/
def trimSpan (content : List Char) (start stop : Nat) : Option (Option (Nat × Nat)) := do
  let inside ← slice content start stop
  if (trim inside).isEmpty then return none
  else
    let lead := byteLen inside - byteLen (inside.dropWhile isWhiteSpace)
    return some (start + lead, start + lead + byteLen (trim inside))

/-- `char_indices` -/
def charIndices (offset : Nat) : List Char → List Nat
  | [] => []
  | c :: rest => offset :: charIndices (offset + c.utf8Size) rest

/-- Where the characters of a text start, and where the last one ends. -/
def boundaries (text : List Char) : List Nat :=
  charIndices 0 text ++ [byteLen text]

/-- The `while` loop of `window_spans`. -/
def windowLoop (content : List Char) (start : Nat) (bounds : List Nat) (charCount window overlap : Nat)
    (cursor : Nat) : Option (List (Nat × Nat)) :=
  if cursor < charCount then do
    let stop := min (cursor + window) charCount
    let rawStart ← bounds[cursor]?
    let rawEnd ← bounds[stop]?
    let span ← trimSpan content (start + rawStart) (start + rawEnd)
    if stop = charCount then return span.toList
    else
      let rest ← windowLoop content start bounds charCount window overlap (cursor + max (window - overlap) 1)
      return span.toList ++ rest
  else some []
  termination_by charCount - cursor

def windowSpans (content : List Char) (start stop windowChars overlapChars : Nat) :
    Option (List (Nat × Nat)) :=
  if start ≥ stop then some []
  else do
    let inside ← slice content start stop
    let bounds := boundaries inside
    let charCount := bounds.length - 1
    if charCount = 0 then return []
    else windowLoop content start bounds charCount (max windowChars 1) overlapChars 0

/-! ## Lines -/

/-- `split_inclusive('\n')` -/
def splitInclusive : List Char → List (List Char)
  | [] => []
  | c :: rest =>
    if c = '\n' then [c] :: splitInclusive rest
    else match splitInclusive rest with
      | [] => [[c]]
      | line :: lines => (c :: line) :: lines

/-- A line without its line ending. -/
def stripEnding (line : List Char) : List Char :=
  (line.rdropWhile (· = '\n')).rdropWhile (· = '\r')

def lineSpans (offset : Nat) : List (List Char) → List (Nat × List Char)
  | [] => []
  | line :: lines => (offset, stripEnding line) :: lineSpans (offset + byteLen line) lines

def leadingWhitespaceBytes (line : List Char) : Nat :=
  byteLen line - byteLen (line.dropWhile isWhiteSpace)

/-- An ATX heading, and its text cut to 512 characters. -/
def atxHeading (trimmedLine : List Char) : Option (List Char) :=
  let hashes := (trimmedLine.takeWhile (· = '#')).length
  if hashes = 0 || hashes > 6 then none
  else
    let rest := trimmedLine.drop hashes
    if !rest.head?.any isWhiteSpace then none
    else
      let title := trim ((trim rest).rdropWhile (· = '#'))
      if title.isEmpty then none else some (title.take 512)

/-! ## Structure -/

structure SectionSpan where
  start : Nat
  stop : Nat
  sectionTitle : Option (List Char)

/-- The locals of the walk. -/
structure Walk where
  spans : List SectionSpan := []
  sectionTitle : Option (List Char) := none
  blockStart : Option Nat := none
  blockEnd : Nat := 0

/-- Closes the current block, if there is one. -/
def Walk.flush (content : List Char) (maxChunkChars : Nat) (w : Walk) : Option Walk :=
  match w.blockStart with
  | none => some w
  | some start => do
    let windows ← windowSpans content start w.blockEnd maxChunkChars 0
    let found := windows.map fun span =>
      { start := span.1, stop := span.2, sectionTitle := w.sectionTitle : SectionSpan }
    return { w with spans := w.spans ++ found, blockStart := none }

/-- A line that is not blank joins the block, or starts one. -/
def Walk.extend (w : Walk) (lineStart : Nat) (line : List Char) : Walk :=
  { w with
    blockStart := some (w.blockStart.getD (lineStart + leadingWhitespaceBytes line))
    blockEnd := lineStart + byteLen (line.rdropWhile isWhiteSpace) }

def walkLine (content : List Char) (markdown : Bool) (maxChunkChars : Nat) (w : Walk)
    (numbered : Nat × List Char) : Option Walk :=
  let (lineStart, line) := numbered
  let trimmed := trim line
  if trimmed.isEmpty then w.flush content maxChunkChars
  else match (if markdown then atxHeading trimmed else none) with
    | some heading => do
      let w ← w.flush content maxChunkChars
      return { w with sectionTitle := some heading }.extend lineStart line
    | none => some (w.extend lineStart line)

/-- The blocks between blank lines and, in Markdown, headings, cut into windows. -/
def structuralSpans (content : List Char) (markdown : Bool) (maxChunkChars : Nat) :
    Option (List SectionSpan) := do
  let w ← (lineSpans 0 (splitInclusive content)).foldlM (walkLine content markdown maxChunkChars) {}
  let w ← w.flush content maxChunkChars
  return w.spans

/-! ## Chunks -/

def spansOf (content : List Char) (strategy : ChunkStrategy) (limits : ChunkingLimits) :
    Option (List SectionSpan) :=
  let maxChunkChars := max limits.maxChunkChars 1
  match strategy with
  | .paragraph => structuralSpans content false maxChunkChars
  | .markdown => structuralSpans content true maxChunkChars
  | .fixedWindow windowChars overlapChars => do
    let window := min (max windowChars 1) maxChunkChars
    let overlap := min overlapChars (window - 1)
    let windows ← windowSpans content 0 (byteLen content) window overlap
    return windows.map fun span => { start := span.1, stop := span.2, sectionTitle := none }

/-- The chunks of the spans, numbered from `index`. -/
def candidates (content : List Char) (index : Nat) : List SectionSpan → Option (List ChunkCandidate)
  | [] => some []
  | span :: spans => do
    let text ← slice content span.start span.stop
    let rest ← candidates content (index + 1) spans
    return { text, startOffset := span.start, endOffset := span.stop
             sectionTitle := span.sectionTitle, chunkIndex := Int32.ofNat index } :: rest

/-- `chunk` -/
def chunk (content : List Char) (strategy : ChunkStrategy) (limits : ChunkingLimits) :
    Option (Except ChunkingError (List ChunkCandidate)) := do
  let spans ← spansOf content strategy limits
  if spans.length > limits.maxChunksPerDocument then
    return .error (.tooManyChunks spans.length limits.maxChunksPerDocument)
  else
    let chunks ← candidates content 0 spans
    return .ok chunks

end Moira.Chunking
