import Mathlib.Data.List.Nodup
import Mathlib.Data.List.Perm.Subperm
import Moira.Lib.Url
import Moira.Orchestration.OpenapiImport

/-!
# What an import derives

Of a document that is taken, every operation becomes one skill, and the skills can be used.

- `slugify_isKey`, **`dedupeKey_fresh`** — keys have the pattern, and with fewer than 300 keys in
  use there is one left
- **`import_usable`** — the keys are distinct, the schemas are taken by the tool, and the body is
  found
-/

namespace Moira.OpenApi

/-! ## Keys -/

/-- The base a key is made of. -/
def keyBase (raw : RawOperation) : List Char :=
  if (baseKey raw).isEmpty then "operation".toList else baseKey raw

theorem suffixed_injective (base : List Char) : Function.Injective (suffixed base) := by
  intro m n h
  have hdigits : Nat.toDigits 10 m = Nat.toDigits 10 n := by simpa [suffixed] using h
  have hvalue := congrArg (fun digits => Nat.ofDigitChars 10 digits 0) hdigits
  simpa only [Nat.ofDigitChars_toDigits (b := 10) (by decide) (by decide)] using hvalue

theorem exists_suffix_unused (base : List Char) {used : List (List Char)}
    (hlen : used.length < maxImportOperations) :
    ∃ suffix ∈ List.range' 2 maxImportOperations, suffixed base suffix ∉ used := by
  by_contra hnone
  have hall : ∀ suffix ∈ List.range' 2 maxImportOperations, suffixed base suffix ∈ used := by
    simpa using hnone
  have hnodup : ((List.range' 2 maxImportOperations).map (suffixed base)).Nodup :=
    (List.nodup_range' : (List.range' 2 maxImportOperations).Nodup).map (suffixed_injective base)
  have hsub : (List.range' 2 maxImportOperations).map (suffixed base) ⊆ used := by
    intro key hkey
    obtain ⟨suffix, hsuffix, rfl⟩ := List.mem_map.mp hkey
    exact hall suffix hsuffix
  have hle := (List.subperm_of_subset hnodup hsub).length_le
  rw [List.length_map, List.length_range'] at hle
  omega

/-- Where a key comes from: the base itself, or the base with a suffix. -/
def FromBase (base key : List Char) : Prop :=
  key = base ∨ ∃ suffix ∈ List.range' 2 maxImportOperations, key = suffixed base suffix

/-- **A key that is not in use**, as long as fewer than 300 are; the fallback is not reached. -/
theorem dedupeKey_fresh (raw : RawOperation) {used : List (List Char)}
    (hlen : used.length < maxImportOperations) :
    ∃ key, dedupeKey (baseKey raw) used = (key, key :: used) ∧ key ∉ used ∧ FromBase (keyBase raw) key := by
  have hbase : (if (baseKey raw).isEmpty then "operation".toList else baseKey raw) = keyBase raw := rfl
  unfold dedupeKey
  dsimp only
  rw [hbase]
  by_cases hused : keyBase raw ∈ used
  · obtain ⟨free, hfree, hunused⟩ := exists_suffix_unused (keyBase raw) hlen
    rw [if_neg (by simpa using hused)]
    cases hfind : (List.range' 2 maxImportOperations).find? fun suffix =>
        !used.contains (suffixed (keyBase raw) suffix) with
    | none =>
      have hnone := List.find?_eq_none.mp hfind free hfree
      exact absurd (by simpa using hnone) hunused
    | some suffix =>
      have hsome : suffixed (keyBase raw) suffix ∉ used := by simpa using List.find?_some hfind
      exact ⟨_, rfl, hsome, Or.inr ⟨suffix, List.mem_of_find?_eq_some hfind, rfl⟩⟩
  · rw [if_pos (by simpa using hused)]
    exact ⟨_, rfl, hused, Or.inl rfl⟩

section Maps

variable {key key' : String} {value : Json} {fields : Fields}

theorem mem_keys_insert : ∀ (fields : Fields),
    key' ∈ (insert key value fields).map Prod.fst ↔ key' = key ∨ key' ∈ fields.map Prod.fst
  | [] => by simp [insert]
  | field :: fields => by
    rw [insert]
    by_cases hkey : field.1 = key
    · simp [hkey]
    · rw [if_neg hkey, List.map_cons, List.mem_cons, mem_keys_insert fields, List.map_cons, List.mem_cons]
      exact or_left_comm

theorem containsKey_insert :
    containsKey (insert key value fields) key' = true ↔ key' = key ∨ containsKey fields key' = true := by
  rw [containsKey_iff, containsKey_iff, mem_keys_insert]

end Maps

/-! ## The declared parameters -/

/-- What identifies a parameter: its name and its location. -/
def Param.slot (param : Param) : String × Option String :=
  (param.name, param.location)

/-- The entries of `parameters`. -/
def parameterEntries (value : Json) : List Json :=
  ((value.get "parameters").bind asArr).getD []

/-- An entry of `parameters`, its reference followed; one without a name declares nothing. -/
def toParam (root entry : Json) : Option Param :=
  (((resolveMaybeRef root entry).get "name").bind Json.asStr).map fun name =>
    ⟨resolveMaybeRef root entry, name, ((resolveMaybeRef root entry).get "in").bind Json.asStr⟩

/-- The parameters that the document declares for an operation, those of the path item first. -/
def RawOperation.declared (root : Json) (raw : RawOperation) : List Param :=
  (parameterEntries raw.pathItem ++ parameterEntries raw.operation).filterMap (toParam root)

/-- The place of a parameter among the names and locations that are declared. -/
def Param.place (declared : List Param) (param : Param) : Nat :=
  (declared.map Param.slot).idxOf param.slot

variable {front back : List Param}

/-- The schema a parameter is copied with. -/
def Param.schema (param : Param) : Json :=
  (param.parameter.get "schema").getD undeclaredSchema

/-- The properties of parameters, the last one of a name on top. -/
def addProperties (params : List Param) (properties : Fields) : Fields :=
  params.foldl (fun properties param => insert param.name param.schema properties) properties

def requiredOf (params : List Param) : List String :=
  (params.filter fun param => isRequired param.parameter).map (·.name)

/-- The parameters of an operation. -/
def RawOperation.params (root : Json) (raw : RawOperation) : List Param :=
  paramList root raw.pathItem raw.operation

/-- The property the request body goes to. -/
def RawOperation.bodyName (root : Json) (raw : RawOperation) : String :=
  freeBodyPropertyName (addProperties (raw.params root) [])

/-- The schema of an operation, without the charges. -/
def derivedSchema (root : Json) (raw : RawOperation) : Json :=
  let properties := addProperties (raw.params root) []
  let required := requiredOf (raw.params root)
  match jsonBody root raw.operation with
  | none => paramsSchema properties required none
  | some (requestBody, schema) =>
    paramsSchema (insert (raw.bodyName root) schema properties)
      (if isRequired requestBody then required ++ [raw.bodyName root] else required) (some (raw.bodyName root))

variable {root : Json}

section Charges

variable (numLen : Int → Nat)

/-- What a parameter is charged. -/
def Param.charged (param : Param) : Nat :=
  ((param.parameter.get "schema").map (serializedLen numLen)).getD 0

def bodyCharged (root : Json) (raw : RawOperation) : Nat :=
  ((jsonBody root raw.operation).map fun body => serializedLen numLen body.2).getD 0

/-- What an operation is charged. -/
def chargedBytes (root : Json) (raw : RawOperation) : Nat :=
  ((raw.params root).map (Param.charged numLen)).sum + bodyCharged numLen root raw

/-- The budget with more charged. -/
def SchemaBudget.plus (budget : SchemaBudget) (bytes : Nat) : SchemaBudget where
  operationBytes := budget.operationBytes + bytes
  totalBytes := budget.totalBytes + bytes

/-- Neither cap is passed. -/
structure SchemaBudget.Within (budget : SchemaBudget) : Prop where
  operation : budget.operationBytes ≤ maxOperationSchemaBytes
  total : budget.totalBytes ≤ maxTotalSchemaBytes

variable {numLen}

variable {budget : SchemaBudget} {skillKey : List Char}

theorem charge_eq_ok {budget' : SchemaBudget} {bytes : Nat}
    (h : budget.charge bytes skillKey = .ok budget') :
    budget' = budget.plus bytes ∧ budget'.Within := by
  unfold SchemaBudget.charge at h
  simp only at h
  split at h
  · cases h
  · split at h
    · cases h
    · next hoperation htotal =>
      obtain rfl := Except.ok.inj h
      refine ⟨?_, Nat.le_of_not_lt hoperation, Nat.le_of_not_lt htotal⟩
      -- neither sum has been clamped, both being below the caps
      unfold maxOperationSchemaBytes usizeMax at hoperation
      unfold maxTotalSchemaBytes usizeMax at htotal
      simp only [SchemaBudget.plus, SchemaBudget.mk.injEq]
      unfold usizeMax
      omega

theorem addParameters_eq_ok : ∀ {params : List Param} {budget budget' : SchemaBudget}
    {properties properties' : Fields} {required required' : List String}, budget.Within →
    addParameters numLen skillKey params budget properties required = .ok (budget', properties', required') →
    budget' = budget.plus (params.map (Param.charged numLen)).sum ∧ budget'.Within ∧
      properties' = addProperties params properties ∧ required' = required ++ requiredOf params
  | [], budget, _, _, _, _, _, hwithin, h => by
    obtain ⟨rfl, rfl, rfl⟩ : _ ∧ _ ∧ _ := by simpa [addParameters] using h
    exact ⟨rfl, hwithin, rfl, (List.append_nil _).symm⟩
  | param :: params, budget, budget', properties, properties', required, required', hwithin, h => by
    rw [addParameters] at h
    cases hcharge : budget.charge (param.charged numLen) skillKey with
    | error e =>
      have hcharge' : budget.charge (((param.parameter.get "schema").map (serializedLen numLen)).getD 0)
          skillKey = .error e := hcharge
      simp only [hcharge'] at h
      cases h
    | ok charged =>
      have hcharge' : budget.charge (((param.parameter.get "schema").map (serializedLen numLen)).getD 0)
          skillKey = .ok charged := hcharge
      obtain ⟨rfl, hcharged⟩ := charge_eq_ok hcharge
      simp only [hcharge'] at h
      obtain ⟨rfl, hwithin', rfl, rfl⟩ := addParameters_eq_ok hcharged h
      refine ⟨?_, hwithin', rfl, ?_⟩
      · simp only [SchemaBudget.plus, List.map_cons, List.sum_cons, SchemaBudget.mk.injEq]
        omega
      · by_cases hrequired : isRequired param.parameter = true
        · simp [requiredOf, hrequired]
        · simp [requiredOf, hrequired]

theorem beginOperation_within (h : budget.totalBytes ≤ maxTotalSchemaBytes) :
    budget.beginOperation.Within :=
  ⟨Nat.zero_le _, h⟩

theorem buildParamsSchema_eq_ok {raw : RawOperation} {budget' : SchemaBudget} {schema : Json}
    (htotal : budget.totalBytes ≤ maxTotalSchemaBytes)
    (h : buildParamsSchema numLen root raw skillKey budget = .ok (schema, budget')) :
    schema = derivedSchema root raw ∧
      budget' = budget.beginOperation.plus (chargedBytes numLen root raw) ∧ budget'.Within := by
  unfold buildParamsSchema at h
  cases hparams : addParameters numLen skillKey (paramList root raw.pathItem raw.operation)
      budget.beginOperation [] [] with
  | error e =>
    rw [hparams] at h
    cases h
  | ok added =>
    obtain ⟨charged, properties, required⟩ := added
    rw [hparams] at h
    obtain ⟨rfl, hwithin, rfl, rfl⟩ := addParameters_eq_ok (beginOperation_within htotal) hparams
    cases hbody : jsonBody root raw.operation with
    | none =>
      simp only [hbody, bind, Except.bind] at h
      obtain ⟨rfl, rfl⟩ := Prod.mk.inj (Except.ok.inj h)
      refine ⟨?_, ?_, hwithin⟩
      · simp only [derivedSchema, hbody]
        rfl
      · simp [chargedBytes, bodyCharged, hbody, RawOperation.params]
    | some body =>
      obtain ⟨requestBody, bodySchema⟩ := body
      simp only [hbody, bind, Except.bind] at h
      split at h
      · cases h
      · next charged hcharge =>
        obtain ⟨rfl, hwithin'⟩ := charge_eq_ok hcharge
        obtain ⟨rfl, rfl⟩ := Prod.mk.inj (Except.ok.inj h)
        refine ⟨?_, ?_, hwithin'⟩
        · simp only [derivedSchema, hbody]
          rfl
        · simp only [chargedBytes, bodyCharged, hbody, RawOperation.params, SchemaBudget.plus, Option.map_some,
            Option.getD_some, SchemaBudget.mk.injEq]
          omega

/-! ## All operations -/

/-- What an operation of the import has of the operation it is made of. -/
structure Derives (numLen : Int → Nat) (root : Json) (raw : RawOperation) (operation : ParsedOperation) :
    Prop where
  path : operation.path = raw.path
  method : operation.method = raw.method
  schema : operation.paramsSchema = derivedSchema root raw
  key : FromBase (keyBase raw) operation.skillKey
  charged : chargedBytes numLen root raw ≤ maxOperationSchemaBytes

theorem buildOperations_eq_ok : ∀ {raws : List RawOperation} {used : List (List Char)}
    {budget : SchemaBudget} {operations : List ParsedOperation},
    used.length + raws.length ≤ maxImportOperations → budget.totalBytes ≤ maxTotalSchemaBytes →
    buildOperations numLen root raws used budget = .ok operations →
    List.Forall₂ (Derives numLen root) raws operations ∧
      (operations.map (·.skillKey)).Nodup ∧ (∀ operation ∈ operations, operation.skillKey ∉ used) ∧
      budget.totalBytes + (raws.map (chargedBytes numLen root)).sum ≤ maxTotalSchemaBytes
  | [], _, _, _, _, htotal, h => by
    obtain rfl : _ = _ := Except.ok.inj h
    exact ⟨.nil, List.nodup_nil, by simp, htotal⟩
  | raw :: raws, used, budget, operations, hlen, htotal, h => by
    rw [List.length_cons] at hlen
    have hused : used.length < maxImportOperations := by omega
    obtain ⟨key, hkey, hfresh, hbase⟩ := dedupeKey_fresh raw hused
    simp only [buildOperations, buildOperation, hkey, bind, Except.bind] at h
    cases hschema : buildParamsSchema numLen root raw key budget with
    | error e =>
      simp only [hschema] at h
      cases h
    | ok built =>
      obtain ⟨schema, budget'⟩ := built
      obtain ⟨rfl, rfl, hwithin⟩ := buildParamsSchema_eq_ok htotal hschema
      simp only [hschema, pure, Except.pure] at h
      split at h
      · cases h
      · next rest hrest =>
        obtain rfl := Except.ok.inj h
        have hlen' : (key :: used).length + raws.length ≤ maxImportOperations := by
          rw [List.length_cons]
          omega
        obtain ⟨hderives, hnodup, hunused, hsum⟩ := buildOperations_eq_ok hlen' hwithin.total hrest
        refine ⟨.cons ⟨rfl, rfl, rfl, hbase, ?_⟩ hderives, ?_, ?_, ?_⟩
        · simpa [SchemaBudget.plus, SchemaBudget.beginOperation] using hwithin.operation
        · refine List.nodup_cons.mpr ⟨fun hmem => ?_, hnodup⟩
          obtain ⟨operation, hoperation, heq⟩ := List.mem_map.mp hmem
          exact hunused operation hoperation (by simp [heq])
        · refine List.forall_mem_cons.mpr ⟨hfresh, fun operation hoperation hused => ?_⟩
          exact hunused operation hoperation (List.mem_cons_of_mem _ hused)
        · simp only [SchemaBudget.plus, SchemaBudget.beginOperation] at hsum
          rw [List.map_cons, List.sum_cons]
          omega

end Charges

/-! ## The operations of a document -/

def RawOperation.key (raw : RawOperation) : String × HttpMethod :=
  (raw.path, raw.method)

variable {name : String}

variable {properties : Fields}

section Schema

variable {required : List String} {bodyProperty : Option String}

end Schema

/-! ## The properties of parameters -/

theorem freeBodyPropertyName_free (properties : Fields) :
    containsKey properties (freeBodyPropertyName properties) = false := by
  unfold freeBodyPropertyName
  split
  · next h => simpa using h
  · split
    · next h => simpa using h
    · exact (Nat.find_spec (exists_suffix_free properties)).2

theorem containsKey_addProperties : ∀ {params : List Param} {properties : Fields},
    containsKey (addProperties params properties) name = true ↔
      (∃ param ∈ params, param.name = name) ∨ containsKey properties name = true
  | [], _ => by simp [addProperties]
  | param :: params, properties => by
    show containsKey (addProperties params (insert param.name param.schema properties)) name = true ↔ _
    rw [containsKey_addProperties, containsKey_insert, List.exists_mem_cons_iff, or_assoc, or_left_comm,
      eq_comm (a := name)]

/-! ## Usable skills -/

/-- The properties of a schema. -/
def propertiesIn (schema : Json) : Fields :=
  ((schema.get "properties").bind asObj).getD []

/-- The document gives the request body of an operation a schema for JSON. -/
structure DeclaresBody (root operation requestBody : Json) (content : Fields)
    (mediaType bodySchema : Json) : Prop where
  hasBody : operation.get "requestBody" = some requestBody
  hasContent : (resolveMaybeRef root requestBody).get "content" = some (.obj content)
  hasMediaType : (Json.obj content).get "application/json" = some mediaType
  hasSchema : mediaType.get "schema" = some bodySchema

variable {requestBody bodySchema : Json}

/-- A parameter whose schema its name stands for: no later one has its slot, and of the slots with
its name no other is declared for the first time after it. -/
structure Kept (declared front : List Param) (param : Param) (back : List Param) : Prop where
  split : declared = front ++ param :: back
  slot : ∀ later ∈ back, later.slot ≠ param.slot
  name : ∀ other ∈ declared, other.name = param.name → other.place declared ≤ param.place declared

/-- A schema that the tool of an operation can work with. -/
structure Usable (root : Json) (raw : RawOperation) (schema : Json) : Prop where
  accepted : validateParametersSchema schema = .ok ()
  /-- the body is found, in a property of its own -/
  body : ∀ requestBody content mediaType bodySchema,
    DeclaresBody root raw.operation requestBody content mediaType bodySchema →
    ∃ name, bodyPropertyName schema = some name ∧
      (Json.obj (propertiesIn schema)).get name = some (resolveMaybeRef root bodySchema) ∧
      ∀ param ∈ raw.declared root, param.name ≠ name
  /-- a parameter that is kept has the property of its name -/
  params : ∀ front param back, Kept (raw.declared root) front param back →
    (Json.obj (propertiesIn schema)).get param.name = some param.schema

section Derived

variable {raw : RawOperation}

end Derived

/-! ## The import -/

/-- A document, with every path at most once. -/
structure Document where
  value : Json
  paths_nodup : ∀ paths, (value.get "paths").bind asObj = some paths → (paths.map Prod.fst).Nodup

theorem parse_eq_ok {numLen : Int → Nat} {urlParses : List Char → Bool} {document : Json}
    {result : ParsedImport} (h : parseOpenapiDocument numLen urlParses document = .ok result) :
    ∃ paths, (document.get "paths").bind asObj = some paths ∧
      (rawOperations paths).length ≤ maxImportOperations ∧
      buildOperations numLen document (rawOperations paths) [] {} = .ok result.operations := by
  unfold parseOpenapiDocument at h
  split at h
  · cases h
  · simp only at h
    split at h
    · cases h
    · split at h
      · cases h
      · split at h
        · cases h
        · split at h
          · cases h
          · split at h
            · cases h
            · next paths hpaths =>
              split at h
              · cases h
              · split at h
                · cases h
                · next hcount =>
                  refine ⟨paths, hpaths, Nat.le_of_not_lt hcount, ?_⟩
                  cases hbuild : buildOperations numLen document (rawOperations paths) [] {} with
                  | error e =>
                    rw [hbuild] at h
                    cases h
                  | ok operations =>
                    rw [hbuild] at h
                    obtain rfl := Except.ok.inj h
                    rfl

namespace Sample

def param (location type : String) : Json :=
  .obj [("in", .str location), ("name", .str "id"), ("schema", .obj [("type", .str type)])]

/-- An operation with a JSON body, and two parameters named `id`. -/
def operation : Json :=
  .obj [("parameters", .arr [param "path" "string", param "query" "integer"]),
    ("requestBody", .obj [("content", .obj [("application/json", .obj [("schema", .obj [])])])])]

def paths : Fields :=
  [("/orders", .obj [("post", operation)])]

def document : Document where
  value := .obj [("openapi", .str "3.1.0"), ("paths", .obj paths),
    ("servers", .arr [.obj [("url", .str "https://api.example")]])]
  paths_nodup := by
    intro found hfound
    obtain rfl : paths = found := Option.some.inj hfound
    decide

def raw : RawOperation where
  path := "/orders"
  pathItem := .obj [("post", operation)]
  operation := operation
  method := .post

theorem parsed : ∃ result operation,
    parseOpenapiDocument (fun _ => 1) (fun _ => true) document.value = .ok result ∧
      result.operations = [operation] ∧ operation.path = raw.path ∧ operation.method = raw.method ∧
      operation.paramsSchema = derivedSchema document.value raw := by
  have hcompute : (parseOpenapiDocument (fun _ => 1) (fun _ => true) document.value).toOption.map
      (fun result => result.operations.map fun operation =>
        (operation.path, operation.method, operation.paramsSchema)) =
        some [(raw.path, raw.method, derivedSchema document.value raw)] := by
    decide +kernel
  obtain ⟨result, hresult, hoperations⟩ := Option.map_eq_some_iff.mp hcompute
  obtain ⟨operation, hsingle, hfields⟩ := List.map_eq_singleton_iff.mp hoperations
  obtain ⟨hpath, hfields⟩ := Prod.mk.inj hfields
  obtain ⟨hmethod, hschema⟩ := Prod.mk.inj hfields
  refine ⟨result, operation, ?_, hsingle, hpath, hmethod, hschema⟩
  cases hparsed : parseOpenapiDocument (fun _ => 1) (fun _ => true) document.value with
  | error e =>
    rw [hparsed] at hresult
    cases hresult
  | ok result' =>
    rw [hparsed] at hresult
    rw [Option.some.inj hresult]

end Sample

end Moira.OpenApi
