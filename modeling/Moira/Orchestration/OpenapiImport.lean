import Mathlib.Algebra.GroupWithZero.Nat
import Mathlib.Data.List.Sort
import Mathlib.Data.Set.Finite.Basic
import Moira.Execution.Types
import Moira.Lib.Text

/-!
# The import of an OpenAPI document

Every operation of a document becomes a skill: a key, a display name and the schema of its
parameters.

- `slugify`, `dedupeKey` — the key of a skill
- `SchemaBudget`, `buildParamsSchema` — the schema of the parameters, and what its parts are charged

The fields of an object stand in the order of their insertion. A number stands for its text, which
has the length `numLen`.
-/

namespace Moira.OpenApi

/-! ## Values -/

abbrev Fields := List (String × Json)

def asArr : Json → Option (List Json)
  | .arr items => some items
  | _ => none

def asObj : Json → Option Fields
  | .obj fields => some fields
  | _ => none

def asBool : Json → Option Bool
  | .bool b => some b
  | _ => none

/-- `Map::contains_key` -/
def containsKey (fields : Fields) (key : String) : Bool :=
  fields.any fun field => field.1 = key

theorem containsKey_iff {fields : Fields} {key : String} :
    containsKey fields key = true ↔ key ∈ fields.map Prod.fst := by
  simp only [containsKey, List.any_eq_true, decide_eq_true_eq, List.mem_map]

/-- `Map::insert` -/
def insert (key : String) (value : Json) : Fields → Fields
  | [] => [(key, value)]
  | field :: fields => if field.1 = key then (key, value) :: fields else field :: insert key value fields

/-! ## Limits -/

def maxImportOperations : Nat := 300

def maxDocumentBytes : Nat := 512 * 1024

def maxOperationSchemaBytes : Nat := 64 * 1024

def maxTotalSchemaBytes : Nat := 2 * 1024 * 1024

def maxSkillKeyLen : Nat := 120

def maxDisplayNameLen : Nat := 200

def defaultBodyProperty : String := "body"

def bodyPropertyAnnotation : String := "x-moira-body-property"

inductive OpenApiImportError
  | notAnObject
  | unsupportedVersion
  | missingServerUrl
  | invalidServerUrl (url : List Char)
  | noOperations
  | tooManyOperations (found cap : Nat)
  | documentTooLarge (bytes cap : Nat)
  | operationSchemaTooLarge (skillKey : List Char) (bytes cap : Nat)
  | totalSchemaTooLarge (bytes cap : Nat)

/-! ## Sizes -/

/-- What one character takes in a JSON string. -/
def escapedLen (c : Char) : Nat :=
  if "\"\\\n\r\t\x08\x0c".toList.contains c then 2
  else if c.toNat < 0x20 then 6
  else c.utf8Size

def stringLen (text : String) : Nat :=
  2 + (text.toList.map escapedLen).sum

section Size

variable (numLen : Int → Nat)

mutual

/-- The length of the compact text of a value, in bytes. -/
def serializedLen : Json → Nat
  | .null => 4
  | .bool b => if b then 4 else 5
  | .num n => numLen n
  | .str text => stringLen text
  | .arr items => 1 + max 1 (itemsLen items)
  | .obj fields => 1 + max 1 (fieldsLen fields)

/-- The items, each with the comma or bracket behind it. -/
def itemsLen : List Json → Nat
  | [] => 0
  | item :: items => serializedLen item + 1 + itemsLen items

/-- The fields, each with its colon and the comma or brace behind it. -/
def fieldsLen : List (String × Json) → Nat
  | [] => 0
  | (key, value) :: fields => stringLen key + 1 + serializedLen value + 1 + fieldsLen fields

end

/-! ## The budget -/

structure SchemaBudget where
  operationBytes : Nat := 0
  totalBytes : Nat := 0

def SchemaBudget.beginOperation (budget : SchemaBudget) : SchemaBudget :=
  { budget with operationBytes := 0 }

/-- Charges `bytes` against both caps. -/
def SchemaBudget.charge (budget : SchemaBudget) (bytes : Nat) (skillKey : List Char) :
    Except OpenApiImportError SchemaBudget :=
  let charged : SchemaBudget :=
    { operationBytes := min (budget.operationBytes + bytes) usizeMax
      totalBytes := min (budget.totalBytes + bytes) usizeMax }
  if maxOperationSchemaBytes < charged.operationBytes then
    .error (.operationSchemaTooLarge skillKey charged.operationBytes maxOperationSchemaBytes)
  else if maxTotalSchemaBytes < charged.totalBytes then
    .error (.totalSchemaTooLarge charged.totalBytes maxTotalSchemaBytes)
  else .ok charged

end Size

/-! ## References -/

/-- `replace("~1", "/")` and the like: a tilde with a digit behind it stands for a character. -/
def unescapeTilde (digit stands : Char) : List Char → List Char
  | '~' :: c :: rest =>
    if c = digit then stands :: unescapeTilde digit stands rest
    else '~' :: unescapeTilde digit stands (c :: rest)
  | c :: rest => c :: unescapeTilde digit stands rest
  | [] => []

/-- `parse::<usize>` -/
def parseUsize (text : List Char) : Option Nat :=
  let digits := match text with
    | '+' :: rest => rest
    | _ => text
  if digits.isEmpty || !digits.all Char.isDigit then none
  else
    let value := Nat.ofDigitChars 10 digits 0
    if usizeMax < value then none else some value

/-- One segment of a pointer. -/
def stepInto (current : Json) (segment : List Char) : Option Json :=
  let segment := unescapeTilde '0' '~' (unescapeTilde '1' '/' segment)
  match current with
  | .obj _ => current.get (String.ofList segment)
  | .arr items => (parseUsize segment).bind fun index => items[index]?
  | _ => none

def resolveJsonPointer (root : Json) (pointer : List Char) : Option Json :=
  match pointer with
  | '#' :: '/' :: path => (path.splitOn '/').foldlM stepInto root
  | _ => none

/-- A `$ref` is followed one level deep; what is not resolved stays as it is. -/
def resolveMaybeRef (root value : Json) : Json :=
  match (value.get "$ref").bind Json.asStr with
  | some pointer => (resolveJsonPointer root pointer.toList).getD value
  | none => value

/-! ## Keys -/

/-- What a character of a key becomes. -/
def mapSlugChar (c : Char) : Char :=
  if c.isAlphanum then c.toLower else if c = '_' || c = '-' then c else '-'

def collapseFrom : Bool → List Char → List Char
  | _, [] => []
  | lastWasDash, c :: rest =>
    if c = '-' then
      if lastWasDash then collapseFrom true rest else c :: collapseFrom true rest
    else c :: collapseFrom false rest

def collapseConsecutiveDashes (input : List Char) : List Char :=
  collapseFrom false input

/-- What is trimmed from a key. -/
def notAlphanum (c : Char) : Bool :=
  !c.isAlphanum

def truncateSlug (input : List Char) (maxLen : Nat) : List Char :=
  (input.take maxLen).rdropWhile notAlphanum

def slugify (input : List Char) : List Char :=
  truncateSlug (Text.trimmed notAlphanum (collapseConsecutiveDashes (input.map mapSlugChar))) maxSkillKeyLen

def suffixed (base : List Char) (suffix : Nat) : List Char :=
  base ++ '-' :: Nat.toDigits 10 suffix

/-- A key that is not used yet, with the keys used after it. -/
def dedupeKey (base : List Char) (used : List (List Char)) : List Char × List (List Char) :=
  let base := if base.isEmpty then "operation".toList else base
  if !used.contains base then (base, base :: used)
  else
    match (List.range' 2 maxImportOperations).find? fun suffix => !used.contains (suffixed base suffix) with
    | some suffix => (suffixed base suffix, suffixed base suffix :: used)
    | none => (suffixed base used.length, used)

/-! ## The body property -/

/-- The property of a schema that carries the request body. -/
def bodyPropertyName (paramsSchema : Json) : Option String := do
  let object ← asObj paramsSchema
  let properties ← ((Json.obj object).get "properties").bind asObj
  match ((Json.obj object).get bodyPropertyAnnotation).bind Json.asStr with
  | some annotated =>
    if containsKey properties annotated then some annotated
    else if containsKey properties defaultBodyProperty then some defaultBodyProperty else none
  | none => if containsKey properties defaultBodyProperty then some defaultBodyProperty else none

def suffixedBody (suffix : Nat) : String :=
  "request_body_" ++ Nat.repr suffix

theorem suffixedBody_injective : Function.Injective suffixedBody := by
  intro m n h
  have hlist := congrArg String.toList h
  simp only [suffixedBody, String.toList_append, List.append_cancel_left_eq, Nat.toList_repr] at hlist
  have hvalue := congrArg (fun digits => Nat.ofDigitChars 10 digits 0) hlist
  simpa only [Nat.ofDigitChars_toDigits (b := 10) (by decide) (by decide)] using hvalue

theorem exists_suffix_free (properties : Fields) :
    ∃ suffix, 2 ≤ suffix ∧ containsKey properties (suffixedBody suffix) = false := by
  classical
  have hinj : Function.Injective fun n => suffixedBody (n + 2) := fun m n h => by
    simpa using suffixedBody_injective h
  obtain ⟨_, ⟨n, rfl⟩, hfree⟩ :=
    (Set.infinite_range_of_injective hinj).exists_notMem_finset (properties.map Prod.fst).toFinset
  refine ⟨n + 2, Nat.le_add_left _ _, ?_⟩
  rw [← Bool.not_eq_true, containsKey_iff]
  exact fun hmem => hfree (List.mem_toFinset.mpr hmem)

/-- The first property name free for the request body. -/
def freeBodyPropertyName (properties : Fields) : String :=
  if !containsKey properties defaultBodyProperty then defaultBodyProperty
  else if !containsKey properties "request_body" then "request_body"
  else suffixedBody (Nat.find (exists_suffix_free properties))

/-! ## Parameters -/

structure Param where
  parameter : Json
  name : String
  location : Option String
  deriving DecidableEq

/-- A parameter takes the place of one with its name and location. -/
def upsertParam (param : Param) : List Param → List Param
  | [] => [param]
  | p :: params =>
    if p.name = param.name ∧ p.location = param.location then param :: params
    else p :: upsertParam param params

def processParam (root : Json) (params : List Param) (param : Json) : List Param :=
  let resolved := resolveMaybeRef root param
  match (resolved.get "name").bind Json.asStr with
  | some name => upsertParam ⟨resolved, name, (resolved.get "in").bind Json.asStr⟩ params
  | none => params

def processParamArray (root : Json) (params : List Param) (array : Option Json) : List Param :=
  ((array.bind asArr).getD []).foldl (processParam root) params

/-- The parameters of the path item, then those of the operation. -/
def paramList (root pathItem operation : Json) : List Param :=
  processParamArray root (processParamArray root [] (pathItem.get "parameters")) (operation.get "parameters")

/-- `get("required").and_then(as_bool).unwrap_or(false)` -/
def isRequired (value : Json) : Bool :=
  ((value.get "required").bind asBool).getD false

def undeclaredSchema : Json :=
  .obj [("type", .str "string")]

/-- The request body of an operation and the schema of its JSON form, both resolved. -/
def jsonBody (root operation : Json) : Option (Json × Json) := do
  let requestBody ← operation.get "requestBody"
  let requestBody := resolveMaybeRef root requestBody
  let content ← (requestBody.get "content").bind asObj
  let mediaType ← (Json.obj content).get "application/json"
  let schema ← mediaType.get "schema"
  return (requestBody, resolveMaybeRef root schema)

/-- The first of every name. -/
def uniqueRequired (required : List String) : List String :=
  required.foldl (fun unique name => if unique.contains name then unique else unique ++ [name]) []

/-- The schema of an operation, from its properties. -/
def paramsSchema (properties : Fields) (required : List String) (bodyProperty : Option String) : Json :=
  let schema := insert "properties" (.obj properties) (insert "type" (.str "object") [])
  let schema :=
    if (uniqueRequired required).isEmpty then schema
    else insert "required" (.arr ((uniqueRequired required).map .str)) schema
  match bodyProperty with
  | some name =>
    if name = defaultBodyProperty then .obj schema
    else .obj (insert bodyPropertyAnnotation (.str name) schema)
  | none => .obj schema

/-! ## One operation -/

inductive HttpMethod
  | get
  | post
  | put
  | patch
  | delete
  deriving DecidableEq

/-- The name of a method in a path item. -/
def HttpMethod.name : HttpMethod → String
  | get => "get"
  | post => "post"
  | put => "put"
  | patch => "patch"
  | delete => "delete"

def recognizedMethods : List HttpMethod :=
  [.get, .post, .put, .patch, .delete]

structure RawOperation where
  path : String
  pathItem : Json
  operation : Json
  method : HttpMethod
  deriving DecidableEq

structure ParsedOperation where
  skillKey : List Char
  displayName : List Char
  description : Option String
  tags : List String
  paramsSchema : Json
  method : HttpMethod
  path : String

structure ParsedImport where
  baseUrl : List Char
  operations : List ParsedOperation

section Build

variable (numLen : Int → Nat)

/-- The properties of the parameters; every schema is charged before it is copied. -/
def addParameters (skillKey : List Char) : List Param → SchemaBudget → Fields → List String →
    Except OpenApiImportError (SchemaBudget × Fields × List String)
  | [], budget, properties, required => .ok (budget, properties, required)
  | param :: params, budget, properties, required => do
    let declared := param.parameter.get "schema"
    let budget ← budget.charge ((declared.map (serializedLen numLen)).getD 0) skillKey
    let schema := declared.getD undeclaredSchema
    let required := if isRequired param.parameter then required ++ [param.name] else required
    addParameters skillKey params budget (insert param.name schema properties) required

def buildParamsSchema (root : Json) (raw : RawOperation) (skillKey : List Char) (budget : SchemaBudget) :
    Except OpenApiImportError (Json × SchemaBudget) := do
  let (budget, properties, required) ←
    addParameters numLen skillKey (paramList root raw.pathItem raw.operation) budget.beginOperation [] []
  match jsonBody root raw.operation with
  | none => return (paramsSchema properties required none, budget)
  | some (requestBody, schema) =>
    let budget ← budget.charge (serializedLen numLen schema) skillKey
    let chosen := freeBodyPropertyName properties
    let required := if isRequired requestBody then required ++ [chosen] else required
    return (paramsSchema (insert chosen schema properties) required (some chosen), budget)

def baseKey (raw : RawOperation) : List Char :=
  let fallback := slugify (raw.method.name.toList ++ '-' :: raw.path.toList)
  match (raw.operation.get "operationId").bind Json.asStr with
  | some operationId =>
    let key := slugify operationId.toList
    if key.isEmpty then fallback else key
  | none => fallback

def displayName (raw : RawOperation) : List Char :=
  let operationId := (raw.operation.get "operationId").bind Json.asStr
  let summary := ((raw.operation.get "summary").bind Json.asStr).filter fun summary =>
    !(Text.trimmed isWhiteSpace summary.toList).isEmpty
  let name := ((summary <|> operationId).map String.toList).getD
    (raw.method.name.toList.map Char.toUpper ++ ' ' :: raw.path.toList)
  (Text.trimmed isWhiteSpace name).take maxDisplayNameLen

def buildOperation (root : Json) (raw : RawOperation) (used : List (List Char)) (budget : SchemaBudget) :
    Except OpenApiImportError (ParsedOperation × List (List Char) × SchemaBudget) := do
  let (skillKey, used) := dedupeKey (baseKey raw) used
  let (schema, budget) ← buildParamsSchema numLen root raw skillKey budget
  let operation : ParsedOperation :=
    { skillKey := skillKey
      displayName := displayName raw
      description := (raw.operation.get "description").bind Json.asStr
      tags := (((raw.operation.get "tags").bind asArr).getD []).filterMap Json.asStr
      paramsSchema := schema
      method := raw.method
      path := raw.path }
  return (operation, used, budget)

/-- The operations in order, under the keys and the budget so far. -/
def buildOperations (root : Json) : List RawOperation → List (List Char) → SchemaBudget →
    Except OpenApiImportError (List ParsedOperation)
  | [], _, _ => .ok []
  | raw :: raws, used, budget => do
    let (operation, used, budget) ← buildOperation numLen root raw used budget
    let operations ← buildOperations root raws used budget
    return operation :: operations

end Build

/-! ## The document -/

/-- The operations of one path. -/
def pathOperations (paths : Fields) (path : String) : List RawOperation :=
  match (Json.obj paths).get path with
  | some (.obj item) =>
    recognizedMethods.filterMap fun method =>
      match (Json.obj item).get method.name with
      | some (.obj operation) => some ⟨path, .obj item, .obj operation, method⟩
      | _ => none
  | _ => []

/-- Every pair of a path and a recognized method. -/
def rawOperations (paths : Fields) : List RawOperation :=
  ((paths.map Prod.fst).insertionSort (· ≤ ·)).flatMap (pathOperations paths)

def versionOk (root : Json) : Bool :=
  ((root.get "openapi").bind Json.asStr).any fun version => "3.".toList.isPrefixOf version.toList

/-- `servers[0].url` without the slashes behind it. -/
def serverUrl (root : Json) : Option (List Char) := do
  let servers ← (root.get "servers").bind asArr
  let server ← servers.head?
  let url ← (server.get "url").bind Json.asStr
  let url := (Text.trimmed isWhiteSpace url.toList).rdropWhile (· = '/')
  if url.isEmpty then none else some url

/-- `urlParses` is whether `Url::parse` takes a text. -/
def parseOpenapiDocument (numLen : Int → Nat) (urlParses : List Char → Bool) (document : Json) :
    Except OpenApiImportError ParsedImport :=
  match asObj document with
  | none => .error .notAnObject
  | some _ =>
    let documentBytes := serializedLen numLen document
    if maxDocumentBytes < documentBytes then .error (.documentTooLarge documentBytes maxDocumentBytes)
    else if !versionOk document then .error .unsupportedVersion
    else
      match serverUrl document with
      | none => .error .missingServerUrl
      | some baseUrl =>
        if !urlParses baseUrl then .error (.invalidServerUrl baseUrl)
        else
          match (document.get "paths").bind asObj with
          | none => .error .noOperations
          | some paths =>
            let raws := rawOperations paths
            if raws.isEmpty then .error .noOperations
            else if maxImportOperations < raws.length then
              .error (.tooManyOperations raws.length maxImportOperations)
            else do
              let operations ← buildOperations numLen document raws [] {}
              return { baseUrl := baseUrl, operations := operations }

/-! ## The schema a tool takes -/

inductive SkillToolBuildError
  | invalidParametersSchema

/-- A `required` entry that names a property. -/
def namesProperty (properties : Fields) (entry : Json) : Bool :=
  match entry.asStr with
  | some name => containsKey properties name
  | none => false

def validateParametersSchema (schema : Json) : Except SkillToolBuildError Unit :=
  match asObj schema with
  | none => .error .invalidParametersSchema
  | some _ =>
    if (schema.get "type").bind Json.asStr ≠ some "object" then .error .invalidParametersSchema
    else
      match schema.get "properties" with
      | some (.obj properties) =>
        match schema.get "required" with
        | none | some .null => .ok ()
        | some (.arr required) =>
          if required.all (namesProperty properties) then .ok () else .error .invalidParametersSchema
        | some _ => .error .invalidParametersSchema
      | _ => .error .invalidParametersSchema

end Moira.OpenApi
