import Mathlib.Algebra.BigOperators.Group.List.Basic
import Mathlib.Algebra.Order.BigOperators.Group.List
import Mathlib.Algebra.Order.Group.Nat
import Moira.Orchestration.Properties.OpenapiImport

/-!
# The size of an import

The schemas that are copied are charged, and nothing else is: the names of the parameters, the list
of the required ones and the schemas of parameters without one come for free, as often as a
reference repeats them.
-/

namespace Moira.OpenApi

variable {numLen : Int → Nat}

/-! ## Fields -/

variable (numLen) in
/-- The bytes of one field. -/
def fieldLen (field : String × Json) : Nat :=
  stringLen field.1 + 1 + serializedLen numLen field.2 + 1

theorem fieldsLen_eq_sum : ∀ (fields : Fields), fieldsLen numLen fields = (fields.map (fieldLen numLen)).sum
  | [] => by rw [fieldsLen, List.map_nil, List.sum_nil]
  | (key, value) :: fields => by
    rw [fieldsLen, fieldsLen_eq_sum fields, List.map_cons, List.sum_cons, fieldLen]

theorem serializedLen_obj (fields : Fields) :
    serializedLen numLen (.obj fields) = 1 + max 1 ((fields.map (fieldLen numLen)).sum) := by
  rw [serializedLen, fieldsLen_eq_sum]

theorem insert_of_notMem {key : String} (value : Json) : ∀ {fields : Fields}, key ∉ fields.map Prod.fst →
    insert key value fields = fields ++ [(key, value)]
  | [], _ => rfl
  | field :: fields, h => by
    rw [List.map_cons, List.mem_cons, not_or] at h
    rw [insert, if_neg (Ne.symm h.1), insert_of_notMem value h.2, List.cons_append]

theorem nodup_keys_insert (key : String) (value : Json) : ∀ {fields : Fields}, (fields.map Prod.fst).Nodup →
    ((insert key value fields).map Prod.fst).Nodup
  | [], _ => List.nodup_singleton key
  | field :: fields, h => by
    rw [List.map_cons, List.nodup_cons] at h
    rw [insert]
    by_cases hkey : field.1 = key
    · rw [if_pos hkey, List.map_cons, List.nodup_cons, ← hkey]
      exact h
    · rw [if_neg hkey, List.map_cons, List.nodup_cons, mem_keys_insert]
      exact ⟨fun hmem => hmem.elim hkey h.1, nodup_keys_insert key value h.2⟩

theorem sum_insert_filter (key : String) (value : Json) (names : List String) : ∀ {fields : Fields},
    (fields.map Prod.fst).Nodup →
    (((insert key value fields).filter fun field => field.1 ∉ names).map (fieldLen numLen)).sum =
      (if key ∈ names then 0 else fieldLen numLen (key, value)) +
        ((fields.filter fun field => field.1 ∉ key :: names).map (fieldLen numLen)).sum
  | [], _ => by
    by_cases hkey : key ∈ names
    · simp [insert, hkey]
    · simp [insert, hkey]
  | field :: fields, h => by
    rw [List.map_cons, List.nodup_cons] at h
    rw [insert]
    by_cases hfield : field.1 = key
    · -- the old field of the key goes, and no other has its key
      have hrest : (fields.filter fun field => field.1 ∉ key :: names) =
          fields.filter fun field => field.1 ∉ names := by
        refine List.filter_congr fun other hother => ?_
        have hne : other.1 ≠ key := fun heq =>
          h.1 (List.mem_map.mpr ⟨other, hother, heq.trans hfield.symm⟩)
        simp [hne]
      have hgone : ((field :: fields).filter fun field => field.1 ∉ key :: names) =
          fields.filter fun field => field.1 ∉ key :: names :=
        List.filter_cons_of_neg (by simp [hfield])
      rw [if_pos hfield, hgone, hrest]
      by_cases hkey : key ∈ names
      · rw [List.filter_cons_of_neg (by simpa using hkey), if_pos hkey, Nat.zero_add]
      · rw [List.filter_cons_of_pos (by simpa using hkey), if_neg hkey, List.map_cons, List.sum_cons]
    · have ih := sum_insert_filter key value names h.2
      rw [if_neg hfield]
      by_cases hnames : field.1 ∈ names
      · simp only [List.filter_cons, hnames, not_true_eq_false, decide_false, Bool.false_eq_true, if_false,
          List.mem_cons, or_true, ih]
      · simp only [List.filter_cons, hnames, hfield, List.mem_cons, or_false, not_false_eq_true, decide_true,
          if_true, List.map_cons, List.sum_cons, ih]
        omega

/-! ## What is charged, and what is not -/

/-- The parameters that no later one shares its name with. -/
def keptParams : List Param → List Param
  | [] => []
  | param :: params =>
    if param.name ∈ params.map (·.name) then keptParams params else param :: keptParams params

/-- The bytes of a parameter that are not charged: its name, and the schema it is given when it has
none. -/
def Param.uncharged (param : Param) : Nat :=
  stringLen param.name + 2 + if (param.parameter.get "schema").isSome then 0 else 17

theorem fieldLen_param (param : Param) :
    fieldLen numLen (param.name, param.schema) = param.charged numLen + param.uncharged := by
  have hdefault : serializedLen numLen undeclaredSchema = 17 := by
    simp only [undeclaredSchema, serializedLen, fieldsLen]
    decide
  cases hschema : param.parameter.get "schema" with
  | none =>
    simp only [fieldLen, Param.schema, Param.charged, Param.uncharged, hschema, Option.getD_none, hdefault,
      Option.map_none, Option.isSome_none, Bool.false_eq_true, if_false]
    omega
  | some schema =>
    simp only [fieldLen, Param.schema, Param.charged, Param.uncharged, hschema, Option.getD_some,
      Option.map_some, Option.isSome_some, if_true]
    omega

theorem sum_addProperties : ∀ (params : List Param) {properties : Fields}, (properties.map Prod.fst).Nodup →
    ((addProperties params properties).map (fieldLen numLen)).sum =
      ((keptParams params).map fun param => param.charged numLen + param.uncharged).sum +
        ((properties.filter fun field => field.1 ∉ params.map (·.name)).map (fieldLen numLen)).sum
  | [], properties, _ => by simp [addProperties, keptParams]
  | param :: params, properties, h => by
    have ih := sum_addProperties params (nodup_keys_insert param.name param.schema h)
    have hstep : addProperties (param :: params) properties =
        addProperties params (insert param.name param.schema properties) := rfl
    rw [hstep, ih, sum_insert_filter param.name param.schema _ h, List.map_cons, keptParams, fieldLen_param]
    by_cases hlater : param.name ∈ params.map (·.name)
    · rw [if_pos hlater, if_pos hlater, Nat.zero_add]
    · rw [if_neg hlater, if_neg hlater, List.map_cons, List.sum_cons]
      omega

section Sizes

variable (root : Json) (raw : RawOperation)

variable (numLen) in
/-- What was charged for the schemas that are in the result. -/
def keptCharged : Nat :=
  ((keptParams (raw.params root)).map (Param.charged numLen)).sum + bodyCharged numLen root raw

/-- The text of the required list. -/
def requiredLen (required : List String) : Nat :=
  if (uniqueRequired required).isEmpty then 0
  else 13 + ((uniqueRequired required).map fun name => stringLen name + 1).sum

/-- The names that are required. -/
def RawOperation.required : List String :=
  match jsonBody root raw.operation with
  | none => requiredOf (raw.params root)
  | some (requestBody, _) =>
    if isRequired requestBody then requiredOf (raw.params root) ++ [raw.bodyName root]
    else requiredOf (raw.params root)

/-- The name of the body property, and the annotation that names it again. -/
def bodyNameLen : Nat :=
  match jsonBody root raw.operation with
  | none => 0
  | some _ =>
    stringLen (raw.bodyName root) + 2 +
      if raw.bodyName root = defaultBodyProperty then 0 else 25 + stringLen (raw.bodyName root)

/-- The braces and fixed keys of a schema, with one byte more where it has no properties. -/
def framingLen : Nat :=
  32 + if (raw.params root).isEmpty && (jsonBody root raw.operation).isNone then 1 else 0

/-- The bytes of a schema that are not charged. -/
def unchargedBytes : Nat :=
  ((keptParams (raw.params root)).map Param.uncharged).sum + bodyNameLen root raw +
    requiredLen (raw.required root) + framingLen root raw

variable {root : Json} {raw : RawOperation}

theorem itemsLen_str : ∀ (names : List String),
    itemsLen numLen (names.map .str) = (names.map fun name => stringLen name + 1).sum
  | [] => by rw [List.map_nil, itemsLen, List.map_nil, List.sum_nil]
  | name :: names => by
    rw [List.map_cons, itemsLen, itemsLen_str names, serializedLen, List.map_cons, List.sum_cons]

theorem paramsSchema_eq (properties : Fields) (required : List String) (bodyProperty : Option String) :
    paramsSchema properties required bodyProperty = .obj
      ([("type", .str "object"), ("properties", .obj properties)] ++
        (if (uniqueRequired required).isEmpty then []
          else [("required", .arr ((uniqueRequired required).map .str))]) ++
        match bodyProperty with
        | some name => if name = defaultBodyProperty then [] else [( bodyPropertyAnnotation, .str name)]
        | none => []) := by
  unfold paramsSchema
  by_cases hempty : (uniqueRequired required).isEmpty = true
  all_goals
    cases bodyProperty with
    | none => simp [hempty, insert]
    | some name =>
      by_cases hname : name = defaultBodyProperty
      · simp [hempty, hname, insert]
      · simp [hempty, hname, insert, bodyPropertyAnnotation]

theorem serializedLen_paramsSchema (properties : Fields) (required : List String)
    (bodyProperty : Option String) :
    serializedLen numLen (paramsSchema properties required bodyProperty) =
      31 + serializedLen numLen (.obj properties) + requiredLen required +
        match bodyProperty with
        | some name => if name = defaultBodyProperty then 0 else 25 + stringLen name
        | none => 0 := by
  have htype : fieldLen numLen ("type", .str "object") = 16 := by
    rw [fieldLen, serializedLen]
    decide
  have hproperties : fieldLen numLen ("properties", .obj properties) =
      14 + serializedLen numLen (.obj properties) := by
    have hkey : stringLen "properties" = 12 := by decide
    simp only [fieldLen, hkey]
    omega
  have hrequired : ((if (uniqueRequired required).isEmpty then []
      else [("required", Json.arr ((uniqueRequired required).map .str))]).map (fieldLen numLen)).sum =
        requiredLen required := by
    unfold requiredLen
    by_cases hempty : (uniqueRequired required).isEmpty = true
    · rw [if_pos hempty, if_pos hempty, List.map_nil, List.sum_nil]
    · obtain ⟨first, rest, hcons⟩ := List.exists_cons_of_ne_nil (by simpa using hempty)
      have hkey : stringLen "required" = 10 := by decide
      rw [if_neg hempty, if_neg hempty, List.map_cons, List.map_nil, List.sum_cons, List.sum_nil, fieldLen, hkey,
        serializedLen, itemsLen_str, hcons, List.map_cons, List.sum_cons]
      omega
  have hannotated : (List.map (fieldLen numLen) (match bodyProperty with
      | some name => if name = defaultBodyProperty then [] else [( bodyPropertyAnnotation, Json.str name)]
      | none => [])).sum = match bodyProperty with
        | some name => if name = defaultBodyProperty then 0 else 25 + stringLen name
        | none => 0 := by
    cases bodyProperty with
    | none => rfl
    | some name =>
      have hkey : stringLen bodyPropertyAnnotation = 23 := by decide
      by_cases hname : name = defaultBodyProperty
      · simp only [hname, if_true, List.map_nil, List.sum_nil]
      · simp only [hname, if_false, List.map_cons, List.map_nil, List.sum_cons, List.sum_nil, fieldLen, hkey,
          serializedLen]
        omega
  rw [paramsSchema_eq, serializedLen_obj, List.map_append, List.map_append, List.sum_append, List.sum_append,
    hrequired, hannotated, List.map_cons, List.map_cons, List.map_nil, List.sum_cons, List.sum_cons,
        List.sum_nil,
    htype, hproperties]
  omega

theorem sum_kept (params : List Param) :
    ((keptParams params).map fun param => param.charged numLen + param.uncharged).sum =
      ((keptParams params).map (Param.charged numLen)).sum + ((keptParams params).map Param.uncharged).sum :=
  List.sum_map_add

theorem sum_properties (params : List Param) :
    ((addProperties params []).map (fieldLen numLen)).sum =
      ((keptParams params).map (Param.charged numLen)).sum + ((keptParams params).map Param.uncharged).sum := by
  have hnil : (([] : Fields).map Prod.fst).Nodup := List.nodup_nil
  rw [sum_addProperties params hnil, sum_kept, List.filter_nil, List.map_nil, List.sum_nil, Nat.add_zero]

variable (numLen) in
theorem sum_properties_pos {params : List Param} (h : params ≠ []) :
    1 ≤ ((addProperties params []).map (fieldLen numLen)).sum := by
  obtain ⟨param, rest, rfl⟩ := List.exists_cons_of_ne_nil h
  have hkey : containsKey (addProperties (param :: rest) []) param.name = true :=
    containsKey_addProperties.mpr (Or.inl ⟨param, List.mem_cons_self, rfl⟩)
  obtain ⟨field, hfield, -⟩ := List.mem_map.mp (containsKey_iff.mp hkey)
  refine Nat.le_trans ?_ (List.single_le_sum (fun _ _ => Nat.zero_le _) _ (List.mem_map_of_mem hfield))
  unfold fieldLen
  omega

theorem serializedLen_of_none (h : jsonBody root raw.operation = none) :
    serializedLen numLen (derivedSchema root raw) = keptCharged numLen root raw + unchargedBytes root raw := by
  simp only [derivedSchema, h, serializedLen_paramsSchema, serializedLen_obj, sum_properties, keptCharged,
    bodyCharged, unchargedBytes, bodyNameLen, RawOperation.required, framingLen, Option.map_none,
        Option.getD_none,
    Option.isNone_none, Bool.and_true]
  by_cases hparams : raw.params root = []
  · -- a byte for the empty object
    simp only [hparams, keptParams, List.map_nil, List.sum_nil, List.isEmpty_nil, if_true]
    omega
  · have hpos := sum_properties_pos numLen hparams
    rw [sum_properties] at hpos
    simp only [List.isEmpty_iff, hparams, if_false]
    omega

theorem serializedLen_of_some {requestBody schema : Json}
    (h : jsonBody root raw.operation = some (requestBody, schema)) :
    serializedLen numLen (derivedSchema root raw) = keptCharged numLen root raw + unchargedBytes root raw := by
  have hfree : raw.bodyName root ∉ (addProperties (raw.params root) []).map Prod.fst := by
    rw [← containsKey_iff, RawOperation.bodyName, freeBodyPropertyName_free]
    exact Bool.false_ne_true
  have hinsert := insert_of_notMem schema hfree
  simp only [derivedSchema, h, serializedLen_paramsSchema, serializedLen_obj, hinsert, List.map_append,
    List.sum_append, sum_properties, List.map_cons, List.map_nil, List.sum_cons, List.sum_nil,
        fieldLen, keptCharged,
    bodyCharged, unchargedBytes, bodyNameLen, RawOperation.required, framingLen, Option.map_some,
        Option.getD_some,
    Option.isNone_some, Bool.and_false, Bool.false_eq_true, if_false]
  omega

/-- **A schema is what was charged for it and what was not.** -/
theorem serializedLen_derivedSchema (root : Json) (raw : RawOperation) :
    serializedLen numLen (derivedSchema root raw) = keptCharged numLen root raw + unchargedBytes root raw := by
  cases hbody : jsonBody root raw.operation with
  | none => exact serializedLen_of_none hbody
  | some body => exact serializedLen_of_some hbody

theorem sum_kept_le : ∀ (params : List Param),
    ((keptParams params).map (Param.charged numLen)).sum ≤ (params.map (Param.charged numLen)).sum
  | [] => Nat.le_refl _
  | param :: params => by
    have ih := sum_kept_le params
    rw [keptParams, List.map_cons, List.sum_cons]
    split
    · omega
    · rw [List.map_cons, List.sum_cons]
      omega

theorem keptCharged_le (root : Json) (raw : RawOperation) :
    keptCharged numLen root raw ≤ chargedBytes numLen root raw :=
  Nat.add_le_add_right (sum_kept_le _) _

end Sizes

/-! ## The limits -/

/-- The framing an operation is allowed. -/
def framingAllowance : Nat := 1024

/-- The schemas of an import keep to the limits, up to the framing. -/
def KeepsLimits (numLen : Int → Nat) (operations : List ParsedOperation) : Prop :=
  (∀ operation ∈ operations,
    serializedLen numLen operation.paramsSchema ≤ maxOperationSchemaBytes + framingAllowance) ∧
  (operations.map fun operation => serializedLen numLen operation.paramsSchema).sum ≤
    maxTotalSchemaBytes + framingAllowance * operations.length

/-- What is not charged fits in the framing and in what the charges have left of the limits. -/
def UnchargedFits (numLen : Int → Nat) (root : Json) (raws : List RawOperation) : Prop :=
  (∀ raw ∈ raws, unchargedBytes root raw ≤
    framingAllowance + (maxOperationSchemaBytes - keptCharged numLen root raw)) ∧
  (raws.map (unchargedBytes root)).sum ≤
    framingAllowance * raws.length + (maxTotalSchemaBytes - (raws.map (keptCharged numLen root)).sum)

theorem length_derived {root : Json} {raws : List RawOperation} {operations : List ParsedOperation}
    (h : List.Forall₂ (Derives numLen root) raws operations) :
    operations.map (fun operation => serializedLen numLen operation.paramsSchema) =
      raws.map fun raw => keptCharged numLen root raw + unchargedBytes root raw := by
  induction h with
  | nil => rfl
  | cons hhead _ ih => rw [List.map_cons, List.map_cons, ih, hhead.schema, serializedLen_derivedSchema]

theorem keptCharged_le_limit {root : Json} {raws : List RawOperation} {operations : List ParsedOperation}
    (h : List.Forall₂ (Derives numLen root) raws operations) :
    ∀ raw ∈ raws, keptCharged numLen root raw ≤ maxOperationSchemaBytes := by
  induction h with
  | nil => simp
  | @cons raw operation raws operations hhead _ ih =>
    exact List.forall_mem_cons.mpr ⟨(keptCharged_le root raw).trans hhead.charged, ih⟩

variable (numLen) in
theorem sum_keptCharged_le (root : Json) (raws : List RawOperation) :
    (raws.map (keptCharged numLen root)).sum ≤ (raws.map (chargedBytes numLen root)).sum :=
  List.sum_le_sum fun raw _ => keptCharged_le root raw

/--
**When an import keeps to its limits**: exactly when the names, the required lists and the schemas
of parameters without one fit in the framing and in what the charged schemas leave.
-/
theorem import_size_iff {numLen : Int → Nat} {urlParses : List Char → Bool} {document : Json}
    {result : ParsedImport} (h : parseOpenapiDocument numLen urlParses document = .ok result) :
    ∃ paths, (document.get "paths").bind asObj = some paths ∧
      (KeepsLimits numLen result.operations ↔ UnchargedFits numLen document (rawOperations paths)) := by
  obtain ⟨paths, hpaths, hcount, hbuild⟩ := parse_eq_ok h
  have hlen : ([] : List (List Char)).length + (rawOperations paths).length ≤ maxImportOperations := by
    rwa [List.length_nil, Nat.zero_add]
  obtain ⟨hderives, -, -, htotal⟩ := buildOperations_eq_ok hlen (Nat.zero_le _) hbuild
  have hmap := length_derived hderives
  have hlength := hderives.length_eq
  have hkept := keptCharged_le_limit hderives
  have hsum := sum_keptCharged_le numLen document (rawOperations paths)
  refine ⟨paths, hpaths, and_congr ?_ ?_⟩
  · -- each operation against its own limit
    rw [← List.forall_mem_map (f := fun operation : ParsedOperation => serializedLen numLen operation.paramsSchema)
      (P := fun bytes => bytes ≤ maxOperationSchemaBytes + framingAllowance), hmap, List.forall_mem_map]
    refine forall₂_congr fun raw hraw => ?_
    have := hkept raw hraw
    omega
  · rw [hmap, List.sum_map_add, hlength]
    omega

/-! ## A long name -/

namespace Sample

def namedOperation (name : String) : Json :=
  .obj [("parameters", .arr [.obj [("name", .str name)]])]

def namedPaths (name : String) : Fields :=
  [("/orders", .obj [("get", namedOperation name)])]

/-- A document with one parameter, of which only the name is given. -/
def named (name : String) : Json :=
  .obj [("openapi", .str "3.1.0"), ("paths", .obj (namedPaths name)),
    ("servers", .arr [.obj [("url", .str "https://api.example")]])]

def namedRaw (name : String) : RawOperation where
  path := "/orders"
  pathItem := .obj [("get", namedOperation name)]
  operation := namedOperation name
  method := .get

theorem serializedLen_named (name : String) : serializedLen numLen (named name) = 116 + stringLen name := by
  obtain ⟨hopenapi, hversion, hpaths, hpath, hget, hparameters, hname, hservers, hkey, hurl⟩ :
      stringLen "openapi" = 9 ∧ stringLen "3.1.0" = 7 ∧ stringLen "paths" = 7 ∧ stringLen "/orders" = 9 ∧
        stringLen "get" = 5 ∧ stringLen "parameters" = 12 ∧ stringLen "name" = 6 ∧ stringLen "servers" = 9 ∧
        stringLen "url" = 5 ∧ stringLen "https://api.example" = 21 := by decide
  simp only [named, namedPaths, namedOperation, serializedLen, fieldsLen, itemsLen, hopenapi,
      hversion, hpaths, hpath, hget, hparameters, hname,
    hservers, hkey, hurl]
  omega

theorem rawOperations_named (name : String) : rawOperations (namedPaths name) = [namedRaw name] := rfl

variable (numLen) in
theorem buildOperations_named (name : String) : ∃ operation,
    buildOperations numLen (named name) [namedRaw name] [] {} = .ok [operation] :=
  ⟨_, rfl⟩

variable (numLen) in
theorem named_parsed {name : String} (h : stringLen name ≤ 70002) : ∃ result operation,
    parseOpenapiDocument numLen (fun _ => true) (named name) = .ok result ∧
    result.operations = [operation] := by
  have hlen : ¬maxDocumentBytes < serializedLen numLen (named name) := by
    rw [serializedLen_named]
    unfold maxDocumentBytes
    omega
  have hobject : asObj (named name) = some [("openapi", .str "3.1.0"), ("paths", .obj (namedPaths name)),
    ("servers", .arr [.obj [("url", .str "https://api.example")]])] := rfl
  have hversion : versionOk (named name) = true := rfl
  have hserver : serverUrl (named name) = some "https://api.example".toList := rfl
  have hpaths : ((named name).get "paths").bind asObj = some (namedPaths name) := rfl
  obtain ⟨operation, hbuild⟩ := buildOperations_named numLen name
  refine ⟨⟨"https://api.example".toList, [operation]⟩, operation, ?_, rfl⟩
  unfold parseOpenapiDocument
  simp only [hobject, if_neg hlen, hversion, hserver, hpaths, rawOperations_named, hbuild, Bool.not_true,
    Bool.false_eq_true, if_false, List.isEmpty_cons, List.length_singleton]
  rfl

variable (numLen) in
theorem stringLen_le_named (name : String) :
    stringLen name ≤ serializedLen numLen (derivedSchema (named name)
    (namedRaw name)) := by
  have hparams : (namedRaw name).params (named name) = [⟨.obj [("name", .str name)], name, none⟩] := rfl
  have hkept : keptParams [⟨.obj [("name", .str name)], name, none⟩] =
      [⟨.obj [("name", .str name)], name, none⟩] := by
    simp [keptParams]
  rw [serializedLen_derivedSchema, unchargedBytes, hparams, hkept, List.map_singleton, List.sum_singleton,
    Param.uncharged]
  dsimp only
  omega

theorem stringLen_replicate (n : Nat) : stringLen (String.ofList (List.replicate n 'a')) = 2 + n := by
  have hletter : escapedLen 'a' = 1 := by decide
  rw [stringLen, String.toList_ofList, List.map_replicate, List.sum_replicate_nat, hletter, Nat.mul_one]

/-- A name of 70000 letters. -/
def longName : String :=
  String.ofList (List.replicate 70000 'a')

theorem stringLen_longName : stringLen longName = 70002 :=
  stringLen_replicate 70000

end Sample

/-- The document with the small operation of before keeps to the limits. -/
theorem import_size_orders : ∃ result,
    parseOpenapiDocument (fun _ => 1) (fun _ => true) Sample.document.value = .ok result ∧
      KeepsLimits (fun _ => 1) result.operations := by
  obtain ⟨result, operation, hparsed, -⟩ := Sample.parsed
  obtain ⟨paths, hpaths, hiff⟩ := import_size_iff hparsed
  obtain rfl : Sample.paths = paths := Option.some.inj hpaths
  refine ⟨result, hparsed, hiff.mpr ?_⟩
  have hraws : rawOperations Sample.paths = [Sample.raw] := by decide +kernel
  rw [hraws]
  constructor
  · decide +kernel
  · decide +kernel

/-- A long name passes every check, and makes a schema that is larger than an operation may have. -/
theorem long_name_exceeds : ∃ result operation,
    parseOpenapiDocument (fun _ => 1) (fun _ => true) (Sample.named Sample.longName) = .ok result ∧
      operation ∈ result.operations ∧
      maxOperationSchemaBytes + framingAllowance < serializedLen (fun _ => 1) operation.paramsSchema := by
  obtain ⟨result, operation, hparsed, hsingle⟩ :=
    Sample.named_parsed (fun _ => 1) (Nat.le_of_eq Sample.stringLen_longName)
  refine ⟨result, operation, hparsed, by simp [hsingle], ?_⟩
  obtain ⟨paths, hpaths, hcount, hbuild⟩ := parse_eq_ok hparsed
  obtain rfl : Sample.namedPaths Sample.longName = paths := Option.some.inj hpaths
  rw [Sample.rawOperations_named] at hcount hbuild
  obtain ⟨hderives, -⟩ := buildOperations_eq_ok hcount (Nat.zero_le _) hbuild
  rw [hsingle] at hderives
  obtain ⟨hhead, -⟩ := List.forall₂_cons.mp hderives
  have hname := Sample.stringLen_le_named (fun _ => 1) Sample.longName
  rw [Sample.stringLen_longName] at hname
  rw [hhead.schema]
  unfold maxOperationSchemaBytes framingAllowance
  omega

end Moira.OpenApi
