import Moira.Public.Properties.Decision

/-!
# The next call with the same key

What a later call of the same caller meets, once a call with a claim has returned.

- `laterDecision_live`, `laterDecision_swept`, `laterDecision_expired` — what the claim of the later
  call comes to, by the state of the row the first call left
- **`finished_and_neverBlocked_iff`** — when a call leaves no claim behind that blocks its key
-/

namespace Moira.Public

open Prog

section

variable {hasher : IdempotencyHasher} {codec : ResponseCodec} {input later : CallInput}
variable {ledger l : Ledger} {now time : Nat} {record row : IdempotencyRecord} {c : CallLog}

/-! ## The rows of a caller -/

/-- The same caller with the same key; the request may differ. -/
structure SameCaller (input later : CallInput) : Prop where
  key : later.key = input.key
  actorFingerprint : later.actorFingerprint = input.actorFingerprint
  unkeyedActorFingerprint : later.unkeyedActorFingerprint = input.unkeyedActorFingerprint
  legacyActorFingerprint : later.legacyActorFingerprint = input.legacyActorFingerprint

theorem SameCaller.currentPosition_eq (h : SameCaller input later) (key : String) :
    currentPosition hasher later key = currentPosition hasher input key := by
  simp [currentPosition, h.actorFingerprint]

theorem SameCaller.legacyPositions_eq (h : SameCaller input later) (key : String) :
    legacyPositions hasher later key = legacyPositions hasher input key := by
  simp [legacyPositions, h.actorFingerprint, h.unkeyedActorFingerprint, h.legacyActorFingerprint]

/--
`l'` is what `time` has left of the caller's rows in `l`: retention may have deleted those that
expired, and nobody else has touched them.
-/
def Rests (hasher : IdempotencyHasher) (input : CallInput) (l l' : Ledger) (time : Nat) : Prop :=
  ∀ key, input.key = some key →
    ∀ p ∈ currentPosition hasher input key :: legacyPositions hasher input key,
      l' p = l p ∨ (l' p = none ∧ ∀ row, l p = some row → row.expiresAt < time)

/-- Where the first call left its row, and what has become of it. -/
structure LeftBehind (hasher : IdempotencyHasher) (input later : CallInput) (ledger l : Ledger)
    (now time : Nat) (record row : IdempotencyRecord) : Prop where
  claim : ClaimOf hasher input ledger now record
  expiresAt : row.expiresAt = record.expiresAt
  caller : SameCaller input later
  rests : Rests hasher input (Function.update ledger record.position (some row)) l time
  le : now ≤ time

namespace LeftBehind

section

variable (h : LeftBehind hasher input later ledger l now time record row)
include h

theorem position_cases :
    l record.position = some row ∨ (l record.position = none ∧ record.expiresAt < time) := by
  obtain ⟨key, hkey, hposition, -⟩ := h.claim.keyed
  have hrests := h.rests key hkey record.position (by simp [hposition])
  rw [Function.update_self] at hrests
  rcases hrests with hrow | ⟨hnone, hexpired⟩
  · exact .inl hrow
  · exact .inr ⟨hnone, h.expiresAt ▸ hexpired row rfl⟩

theorem get_legacy {key : String} (hkey : input.key = some key) {p : Position}
    (hp : p ∈ legacyPositions hasher input key) {existing : IdempotencyRecord}
    (hget : l.get time p = some existing) : existing = row ∧ time < record.expiresAt := by
  obtain ⟨key', hkey', hposition, hlegacy⟩ := h.claim.keyed
  obtain rfl : key' = key := Option.some.inj (hkey'.symm.trans hkey)
  obtain ⟨hsome, hlive⟩ := Ledger.get_eq_some.mp hget
  by_cases heq : p = record.position
  · subst heq
    rcases h.position_cases with hrow | ⟨hnone, -⟩
    · rw [hrow] at hsome
      obtain rfl := Option.some.inj hsome
      exact ⟨rfl, h.expiresAt ▸ hlive⟩
    · rw [hnone] at hsome
      cases hsome
  · -- any other row there had expired before the first call
    have hexpired := Ledger.get_none_mono (hlegacy p hp) h.le
    have hrests := h.rests key' hkey p (List.mem_cons_of_mem _ hp)
    rw [Function.update_of_ne heq] at hrests
    rcases hrests with hsame | ⟨hnone, -⟩
    · rw [hsame] at hsome
      have := Ledger.get_eq_none.mp hexpired existing hsome
      omega
    · rw [hnone] at hsome
      cases hsome

theorem laterDecision_live (hlive : time < record.expiresAt) :
    claimDecision hasher later l time = foundDecision hasher later row := by
  obtain ⟨key, hkey, hposition, -⟩ := h.claim.keyed
  have hrow : l record.position = some row := by
    rcases h.position_cases with hrow | ⟨-, hexpired⟩
    · exact hrow
    · omega
  simp only [claimDecision, h.caller.key, hkey, h.caller.legacyPositions_eq,
    h.caller.currentPosition_eq, ← hposition]
  cases hfind : (legacyPositions hasher input key).findSome? (l.get time) with
  | some existing =>
    obtain ⟨p, hp, hget⟩ := List.exists_of_findSome?_eq_some hfind
    rw [(h.get_legacy hkey hp hget).1]
  | none =>
    have hget : l.get time record.position = some row :=
      Ledger.get_eq_some.mpr ⟨hrow, h.expiresAt ▸ hlive⟩
    simp only [positionDecision, hrow, hget]

theorem laterDecision_of_expired (hexpired : record.expiresAt ≤ time) :
    claimDecision hasher later l time = positionDecision hasher later l time record.position := by
  obtain ⟨key, hkey, hposition, -⟩ := h.claim.keyed
  simp only [claimDecision, h.caller.key, hkey, h.caller.legacyPositions_eq,
    h.caller.currentPosition_eq, ← hposition]
  have hfind : (legacyPositions hasher input key).findSome? (l.get time) = none := by
    rw [List.findSome?_eq_none_iff]
    intro p hp
    cases hget : l.get time p with
    | none => rfl
    | some existing =>
      have := (h.get_legacy hkey hp hget).2
      omega
  rw [hfind]

theorem laterDecision_swept (hswept : l record.position = none) :
    claimDecision hasher later l time = .ok (some record.position) := by
  have hexpired : record.expiresAt ≤ time := by
    rcases h.position_cases with hrow | ⟨-, hexpired⟩
    · rw [hswept] at hrow
      cases hrow
    · exact Nat.le_of_lt hexpired
  rw [h.laterDecision_of_expired hexpired]
  simp only [positionDecision, hswept]

theorem laterDecision_expired (hexpired : record.expiresAt ≤ time)
    (hrow : l record.position ≠ none) :
    claimDecision hasher later l time = .error executionInProgress := by
  obtain ⟨existing, hexisting⟩ := Option.ne_none_iff_exists'.mp hrow
  have hsame : existing = row := by
    rcases h.position_cases with hrow | ⟨hnone, -⟩
    · exact Option.some.inj (hexisting.symm.trans hrow)
    · rw [hnone] at hexisting
      cases hexisting
  have hget : l.get time record.position = none := by
    rw [Ledger.get_eq_none]
    intro row' hrow'
    obtain rfl := Option.some.inj (hexisting.symm.trans hrow')
    rw [hsame, h.expiresAt]
    exact hexpired
  rw [h.laterDecision_of_expired hexpired]
  simp only [positionDecision, hexisting, hget]

end

end LeftBehind

/-! ## No claim is left behind -/

theorem failureCode_ne (failureClass : ExecutionFailureClass) :
    failureClass.code ≠ "execution_in_progress" ∧ failureClass.code ≠ "execution_failed" := by
  cases failureClass <;> decide

/-- The error of a call that met none of its own does not say that an execution is going on. -/
def NotBlocked (c : CallLog) (err : AppError) : Prop :=
  c.erred = false → err ≠ executionInProgress

variable {state : Option Position}

theorem wp_finish {status : Int} {body : Json} {resourceId : String} {Q : CallLog → Unit → Prop}
    {E : CallLog → AppError → Prop} (hE : ∀ c err, c.erred = true → E c err) (hQ : ∀ c', Q c' ()) :
    wp callContract (finish state status body resourceId) c Q E := by
  cases state with
  | none => exact hQ c
  | some p =>
    refine ⟨trivial, fun written _ => ?_⟩
    show wp callContract (Create.orFail written.result) _ Q E
    cases hresult : written.result with
    | error err => exact hE _ err (by simp [callContract, CallLog.record, stepErred, hresult, isError])
    | ok => exact hQ _

theorem wp_respond_notBlocked {policy : ApplicationExecutionPolicy} :
    wp callContract (respond hasher codec input policy state) c (fun _ _ => True)
      NotBlocked := by
  have hE : ∀ c err, c.erred = true → NotBlocked c err := fun _ _ => erred_absurd
  refine wp_step .newConversationService id hE (fun _ => rfl) fun _ _ _ _ => ?_
  refine wp_step .prepareResponseConversation id hE (fun _ => rfl) fun _ link _ _ => ?_
  refine wp_step (.insertResponseStarted _) id hE (fun _ => rfl) fun _ _ _ _ => ?_
  refine wp_step (.audit "response.started") id hE (fun _ => rfl) fun _ _ _ _ => ?_
  refine wp_step .newExecutionService id hE (fun _ => rfl) fun _ _ _ _ => ?_
  refine wp_step .execute id hE (fun _ => rfl) fun _ outcome _ _ => ?_
  have hfailed : ∀ c, wp callContract (respondFailed hasher input policy state outcome) c
      (fun _ _ => True) NotBlocked := by
    intro c
    refine wp_step (.failResponse _) id hE (fun _ => rfl) fun _ _ _ _ => ?_
    refine wp_step (.audit "response.failed") id hE (fun _ => rfl) fun _ _ _ _ => ?_
    rw [wp_bind]
    refine wp_finish hE fun c' _ heq => ?_
    simp only [executionInProgress, AppError.conflict, AppError.coded, AppError.api.injEq] at heq
    exact (failureCode_ne _).1 heq.2.1
  split
  · refine wp_step (.completeResponse _) id hE (fun _ => rfl) fun _ _ _ _ => ?_
    rw [wp_bind]
    have hrest : ∀ c, wp callContract (recordConversationAssistant link outcome.outputText) c
        (fun _ _ => True) NotBlocked := by
      intro c
      cases link with
      | none => trivial
      | some link =>
        refine ⟨trivial, fun x _ => ?_⟩
        cases x with
        | error err => exact hE _ err (by simp [callContract, CallLog.record, stepErred, isError])
        | ok => trivial
    refine wp_mono (hrest _) (fun c' _ _ => ?_) fun _ _ he => he
    refine wp_step (.audit "response.completed") id hE (fun _ => rfl) fun _ _ _ _ => ?_
    rw [wp_bind]
    exact wp_finish hE fun _ => trivial
  · exact hfailed _
  · exact hfailed _

theorem wp_replayOrRespond_notBlocked {policy : ApplicationExecutionPolicy} :
    wp callContract (replayOrRespond hasher codec input policy state) c (fun _ _ => True)
      NotBlocked := by
  cases state with
  | none => exact wp_respond_notBlocked
  | some p =>
    unfold replayOrRespond replayIdempotency
    rw [wp_bind]
    refine wp_step (.getIdempotencyRecord .replay p) id (fun _ _ => erred_absurd)
      (fun _ => rfl) fun _ row _ _ => ?_
    cases row with
    | none => exact wp_respond_notBlocked
    | some row =>
      dsimp only
      cases row.responseBody with
      | none => exact wp_respond_notBlocked
      | some body =>
        dsimp only
        cases hanswer : replayAnswer codec row body with
        | ok response => trivial
        | error err =>
          rintro - rfl
          unfold replayAnswer at hanswer
          split at hanswer
          · simp [executionInProgress, AppError.conflict, AppError.coded] at hanswer
          · cases hdecode : codec.decode body with
            | ok response => simp [hdecode] at hanswer
            | error err =>
              simp [hdecode, executionInProgress, AppError.conflict, AppError.coded] at hanswer

/-- The row at a position holds an answer. -/
def Finished (l : Ledger) (p : Position) : Prop :=
  ∃ row, l p = some row ∧ row.responseBody.isSome = true

/-- No call that meets no error of its own is told that an execution is in progress. -/
def NeverBlocked (hasher : IdempotencyHasher) (codec : ResponseCodec) (later : CallInput)
    (l : Ledger) (time : Nat) : Prop :=
  ∀ tr result, After (createResponse hasher codec later) tr (ofExcept result) →
    HonestCall l time tr → (logOf l time tr).erred = false →
      result ≠ .error executionInProgress

theorem neverBlocked_iff :
    NeverBlocked hasher codec later l time ↔
      claimDecision hasher later l time ≠ .error executionInProgress := by
  constructor
  · intro hnever hdecision
    obtain ⟨hrun, hhonest, herred⟩ :=
      workingRun_spec (succeededWith "hi") (createResponse hasher codec later) l time
    have hwp : wp callContract (createResponse hasher codec later) (CallLog.start l time)
        (fun _ _ => False) (fun c err => c.erred = false → err = executionInProgress) := by
      refine wp_createResponse (fun _ _ => erred_absurd) sees_start ?_ ?_
      · intro c' policy state hstate
        rw [hdecision] at hstate
        cases hstate
      · intro c' err herr _
        rw [hdecision] at herr
        exact (Except.error.inj herr).symm
    refine hnever _ _ hrun hhonest herred ?_
    have hend := wp_after hrun hhonest hwp
    cases hresult : (workingRun (succeededWith "hi") (createResponse hasher codec later) l time).2 with
    | ok response =>
      rw [hresult] at hend
      exact hend.elim
    | error err =>
      rw [hresult] at hend
      exact congrArg _ (hend herred)
  · intro hdecision tr result hrun hhonest herred heq
    subst heq
    have hwp : wp callContract (createResponse hasher codec later) (CallLog.start l time)
        (fun _ _ => True) NotBlocked := by
      refine wp_createResponse (fun _ _ => erred_absurd) sees_start ?_ ?_
      · intro c' policy state _ _
        exact wp_replayOrRespond_notBlocked
      · rintro c' err herr - rfl
        exact hdecision herr
    exact wp_after hrun hhonest hwp herred rfl

theorem foundDecision_ne (h : row.responseBody.isSome = true) :
    foundDecision hasher input row ≠ .error executionInProgress := by
  have hsome : row.responseBody.isNone = false := by
    cases hbody : row.responseBody with
    | none => simp [hbody] at h
    | some body => rfl
  unfold foundDecision replayedIdempotencyState
  rw [hsome]
  split
  · simp [Except.map, idempotencyConflict, executionInProgress, AppError.conflict, AppError.coded]
  · simp [Except.map]

theorem Stored.isSome {outcome : ExecutionOutcome} {answer : Except AppError PublicResponse}
    (h : Stored codec input outcome row answer) : row.responseBody.isSome = true := by
  unfold Stored at h
  split at h
  · obtain ⟨response, -, hbody, -⟩ := h
    simp [hbody]
  · simp [h.2.1]

/--
**A call leaves no claim behind that blocks its key** exactly when no step between the claim and the
committed finishing write fails, and the later call comes before the row has expired or after
retention has deleted it.
-/
theorem finished_and_neverBlocked_iff {tr : List (Exchange responseSig)}
    {result : Except AppError PublicResponse}
    (hrun : After (createResponse hasher codec input) tr (ofExcept result))
    (hhonest : HonestCall ledger now tr) (hclaimed : (logOf ledger now tr).claimed = some record)
    (hcaller : SameCaller input later)
    (hrests : Rests hasher input (logOf ledger now tr).ledger l time) (hle : now ≤ time) :
    (Finished (logOf ledger now tr).ledger record.position ∧
        NeverBlocked hasher codec later l time) ↔
      ((logOf ledger now tr).broken = false ∧
        (time < record.expiresAt ∨ l record.position = none)) := by
  obtain ⟨hclaim, hend⟩ := ended_createResponse hrun hhonest record hclaimed
  rw [neverBlocked_iff]
  rcases hend with ⟨hbroken, hledger⟩ | ⟨hwhole, outcome, row, answer, -, hledger, -, -, hexpires,
    hstored, -⟩
  · -- the row is as it was inserted
    have hnot : ¬ Finished (logOf ledger now tr).ledger record.position := by
      rintro ⟨row, hrow, hbody⟩
      rw [hledger, Function.update_self] at hrow
      obtain rfl := Option.some.inj hrow
      simp [hclaim.unfinished] at hbody
    simp [hnot, hbroken]
  · have hfinished : Finished (logOf ledger now tr).ledger record.position :=
      ⟨row, by rw [hledger, Function.update_self], hstored.isSome⟩
    have hleft : LeftBehind hasher input later ledger l now time record row :=
      ⟨hclaim, hexpires, hcaller, hledger ▸ hrests, hle⟩
    simp only [hfinished, hwhole, true_and]
    constructor
    · intro hdecision
      by_contra hnot
      rw [not_or] at hnot
      exact hdecision (hleft.laterDecision_expired (by omega) hnot.2)
    · rintro (hlive | hswept)
      · rw [hleft.laterDecision_live hlive]
        exact foundDecision_ne hstored.isSome
      · rw [hleft.laterDecision_swept hswept]
        simp

end

/-! ## A call that is served, and one that is not -/

namespace Sample

def requestBytes : String :=
  "[null,\x7b\"input\":[]\x7d]"

/-- The digests, under the pepper `pepper-one`, of the texts that are used below. -/
def hasher : IdempotencyHasher where
  pepperVersion := "v1"
  mac bytes :=
    if bytes = "key-1" then "oDqVHkp1-7NBHcz2b0a3qvrRvcG1E77dmrdZSb3pPrk"
    else if bytes = requestBytes then "2wg7EENdxzeU996I8AhbBucUyiU2eBQZA1YlcaQAYgM"
    else "DCHtEoK9Q5-ES4OrLRO2mZCQGF3KIYRjfF1du7dv9E4"
  secretFingerprint bytes :=
    if bytes = "key-1" then "vil0VGl443OebW2oXEvp8zTOMt8rn9S2_xtVwNV-nUQ"
    else "MzdSXK9toTHpGox0ePphkfJIM1Pqe6j62IX6eVZMme8"
  version_plain := defaultVersion_plain

def input : CallInput where
  key := some "key-1"
  requestId := "req-1"
  actorFingerprint := "v1:eva0ZWNU2zeuLZS39SLwDE0j25nHE35rPi1wRfOCmxQ"
  unkeyedActorFingerprint := "UMnErrQLWyBrbZj1Fvi4wO_SnOLlanazRfuSQMIlobc"
  legacyActorFingerprint := "pegGBFKOgxWYR2NiBZC36zKG0jo0oUGXHTmBmnK-ezA"
  requestBytes := requestBytes

/-- The answer to `succeededWith "hi"`. -/
def greeting : PublicResponse where
  id := "resp_1"
  object := "response"
  createdAt := 0
  status := .completed
  executionId := "exec_7"
  requestId := "req-1"
  route := none
  model := none
  conversation := none
  output := [{ role := "assistant", content := [.outputText "hi"] }]
  citations := []
  usage := {}
  metadata := .null
  outputPersisted := false

def greetingJson : Json :=
  .obj [("id", .str "resp_1"), ("object", .str "response"),
    ("created_at", .str "1970-01-01T00:00:00Z"), ("status", .str "completed"),
    ("execution_id", .str "exec_7"), ("request_id", .str "req-1"), ("route", .null),
    ("model", .null), ("conversation", .null),
    ("output", .arr [.obj [("type", .str "message"), ("role", .str "assistant"),
      ("content", .arr [.obj [("type", .str "output_text"), ("text", .str "hi")]])]]),
    ("citations", .arr []),
    ("usage", .obj [("input_tokens", .null), ("output_tokens", .null),
      ("cached_input_tokens", .null), ("reasoning_tokens", .null), ("total_tokens", .null),
      ("estimated_cost", .null), ("currency", .null)]),
    ("metadata", .null), ("output_persisted", .bool false)]

def codec : ResponseCodec where
  encode response := if response = greeting then greetingJson else .null
  decode body := if body = greetingJson then .ok greeting else .error "invalid type"

/-- A ledger without rows. -/
def empty : Ledger := fun _ => none

def record : IdempotencyRecord where
  position := currentPosition hasher input "key-1"
  requestHash := hasher.hash input.requestBytes
  expiresAt := retentionSeconds

def served : List (Exchange responseSig) × Except AppError PublicResponse :=
  workingRun (succeededWith "hi") (createResponse hasher codec input) empty 0

/-- The audit log cannot be written; everything else works. -/
def unauditedAnswer (c : CallLog) : (o : ResponseOp) → o.Ans
  | .audit _ => .error .sqlx
  | o => workingAnswer (succeededWith "hi") c o

def unaudited : List (Exchange responseSig) × Except AppError PublicResponse :=
  (createResponse hasher codec input).runOn callContract unauditedAnswer (CallLog.start empty 0)

theorem honest_unaudited : HonestCall empty 0 unaudited.1 := by
  refine honest_runOn _ (fun c o => ?_) _
  cases o <;> simp [callContract, callAnswers, unauditedAnswer, workingAnswer]

theorem sameCaller (later : CallInput) : SameCaller later later :=
  ⟨rfl, rfl, rfl, rfl⟩

theorem rests_refl (l : Ledger) : Rests hasher input l l 1 := by
  intro key _ p _
  exact .inl rfl

end Sample

theorem finished_and_neverBlocked_served :
    Finished (logOf Sample.empty 0 Sample.served.1).ledger Sample.record.position ∧
      NeverBlocked Sample.hasher Sample.codec Sample.input
        (logOf Sample.empty 0 Sample.served.1).ledger 1 := by
  obtain ⟨hrun, hhonest, -⟩ := workingRun_spec (succeededWith "hi")
    (createResponse Sample.hasher Sample.codec Sample.input) Sample.empty 0
  have hclaimed : (logOf Sample.empty 0 Sample.served.1).claimed = some Sample.record := by
    decide +kernel
  have hwhole : (logOf Sample.empty 0 Sample.served.1).broken = false := by decide +kernel
  exact (finished_and_neverBlocked_iff hrun hhonest hclaimed (Sample.sameCaller _)
    (Sample.rests_refl _) (by decide)).mpr ⟨hwhole, .inl (by decide)⟩

/-- The audit of the start fails, and the key is stuck. -/
theorem claim_left_behind_unaudited :
    After (createResponse Sample.hasher Sample.codec Sample.input) Sample.unaudited.1
        (ofExcept Sample.unaudited.2) ∧
      HonestCall Sample.empty 0 Sample.unaudited.1 ∧
      (logOf Sample.empty 0 Sample.unaudited.1).claimed = some Sample.record ∧
      ¬ Finished (logOf Sample.empty 0 Sample.unaudited.1).ledger Sample.record.position ∧
      ¬ NeverBlocked Sample.hasher Sample.codec Sample.input
        (logOf Sample.empty 0 Sample.unaudited.1).ledger 1 := by
  have hrow : (logOf Sample.empty 0 Sample.unaudited.1).ledger Sample.record.position =
      some Sample.record := by decide +kernel
  refine ⟨after_runWith _ _ _, Sample.honest_unaudited, by decide +kernel, ?_, ?_⟩
  · rintro ⟨row, hfound, hbody⟩
    rw [hrow] at hfound
    obtain rfl := Option.some.inj hfound
    cases hbody
  · rw [neverBlocked_iff, not_not]
    rfl

end Moira.Public
