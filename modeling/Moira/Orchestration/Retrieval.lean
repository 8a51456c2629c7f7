import Mathlib.Algebra.Order.Field.Rat
import Mathlib.Data.String.Basic
import Moira.Lib.Capped

/-!
# The re-ranking of retrieved candidates

Scores are exact rationals. A distance or an age that is not finite is `none`; an importance and the
weights are finite.

- `rankMemories`, `rankChunks` — scored, filtered, sorted, diversified and cut
-/

namespace Moira.Retrieval

abbrev Uuid := Nat

structure RetrievalWeights where
  semantic : ℚ
  keyword : ℚ
  recency : ℚ
  importance : ℚ

structure RetrievalLimits where
  maximumResults : Nat
  /-- A candidate must score strictly above this to be returned. -/
  minimumScore : ℚ
  /-- Ignored for memories. -/
  maximumPerGroup : Nat
  diversityEnabled : Bool

structure MemoryCandidate where
  publicId : String
  content : Option String
  importance : ℚ
  distance : Option ℚ
  ageSeconds : Option ℚ

structure RagChunkCandidate where
  publicId : String
  documentUuid : Uuid
  text : Option String
  distance : Option ℚ
  ageSeconds : Option ℚ

/-- A candidate plus the score that decided its fate. -/
structure Scored (T : Type) where
  item : T
  score : ℚ

structure ScoreComponents where
  semantic : ℚ
  keyword : ℚ
  recency : ℚ
  importance : Option ℚ

/-- The tables of the character classes and of the lower case. -/
structure Letters where
  isAlphanumeric : Char → Bool
  toLowercase : List Char → List Char

/-! ## Scores -/

def clamp (x : ℚ) : ℚ :=
  max 0 (min 1 x)

def semanticScore : Option ℚ → ℚ
  | none => 0
  | some distance => clamp ((2 - distance) / 2)

def recencyScore : Option ℚ → ℚ
  | none => 1
  | some ageSeconds => if ageSeconds ≤ 0 then 1 else 1 / (1 + ageSeconds / (7 * 24 * 60 * 60))

def normalizedTerms (letters : Letters) (text : String) : List (List Char) :=
  ((text.toList.splitOnP fun c => !letters.isAlphanumeric c).filter fun term => !term.isEmpty).map
    letters.toLowercase

/-- The fraction of the distinct terms of the query that are in the text. -/
def lexicalOverlapScore (letters : Letters) (query : String) : Option String → ℚ
  | none => 0
  | some text =>
    let seen := (normalizedTerms letters query).dedup
    let matched := seen.filter fun term => (normalizedTerms letters text).contains term
    if seen.length = 0 then 0 else (matched.length : ℚ) / seen.length

/-- The weighted mean of the components that are present. -/
def blend (components : ScoreComponents) (weights : RetrievalWeights) : ℚ :=
  let weighted := [(some components.semantic, weights.semantic), (some components.keyword, weights.keyword),
    (some components.recency, weights.recency), (components.importance, weights.importance)]
  let used := weighted.filterMap fun (value, weight) =>
    if weight > 0 then value.map fun value => (value, weight) else none
  let numerator := (used.map fun (value, weight) => value * weight).sum
  let denominator := (used.map Prod.snd).sum
  if denominator ≤ 0 then clamp components.semantic else clamp (numerator / denominator)

variable (letters : Letters) (query : String) (weights : RetrievalWeights)

def memoryScore (candidate : MemoryCandidate) : ℚ :=
  blend
    { semantic := semanticScore candidate.distance
      keyword := lexicalOverlapScore letters query candidate.content
      recency := recencyScore candidate.ageSeconds
      importance := some (clamp candidate.importance) } weights

def chunkScore (candidate : RagChunkCandidate) : ℚ :=
  blend
    { semantic := semanticScore candidate.distance
      keyword := lexicalOverlapScore letters query candidate.text
      recency := recencyScore candidate.ageSeconds
      importance := none } weights

/-! ## Ranking -/

section Ranking

variable {T : Type} (score : T → ℚ) (key : T → String) (limits : RetrievalLimits)

/-- Descending by score, ties broken by public id. -/
def sortByScore (scored : List (Scored T)) : List (Scored T) :=
  scored.mergeSort fun left right =>
    ((compare right.score left.score).then (compare (key left.item) (key right.item))).isLE

/-- The candidates above the minimum, in order. -/
def scoredAbove (candidates : List T) : List (Scored T) :=
  sortByScore key
    ((candidates.map fun candidate => { item := candidate, score := score candidate }).filter fun scored =>
      scored.score > limits.minimumScore)

end Ranking

def rankMemories (candidates : List MemoryCandidate) (limits : RetrievalLimits) :
    List (Scored MemoryCandidate) :=
  (scoredAbove (memoryScore letters query weights) MemoryCandidate.publicId limits candidates).take
    limits.maximumResults

/-- Diversity is applied before the global cap. -/
def rankChunks (candidates : List RagChunkCandidate) (limits : RetrievalLimits) :
    List (Scored RagChunkCandidate) :=
  let scored := scoredAbove (chunkScore letters query weights) RagChunkCandidate.publicId limits candidates
  let scored :=
    if limits.diversityEnabled && limits.maximumPerGroup > 0 then
      Rows.retainCapped (fun entry => entry.item.documentUuid) limits.maximumPerGroup (fun _ => 0) scored
    else scored
  scored.take limits.maximumResults

end Moira.Retrieval
