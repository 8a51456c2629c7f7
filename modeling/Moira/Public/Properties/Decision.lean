import Moira.Public.Properties.Claim

/-!
# What a call finds in the ledger

`claimDecision` is what `claim_idempotency` comes to on a given ledger, as a function: a row under
an earlier spelling, a free position, a row that is live, or one that has expired and was not swept
yet.
-/

namespace Moira.Public

open Prog

variable {hasher : IdempotencyHasher} {codec : ResponseCodec} {input : CallInput}
variable {ledger : Ledger} {now : Nat} {c : CallLog} {α β : Type}

/-- A row that was found, as the answer of the claim. -/
def foundDecision (hasher : IdempotencyHasher) (input : CallInput) (existing : IdempotencyRecord) :
    Except AppError (Option Position) :=
  (replayedIdempotencyState hasher input existing).map some

/-- What the current position holds. -/
def positionDecision (hasher : IdempotencyHasher) (input : CallInput) (ledger : Ledger) (now : Nat)
    (p : Position) : Except AppError (Option Position) :=
  match ledger p, ledger.get now p with
  | none, _ => .ok (some p)
  | some _, some existing => foundDecision hasher input existing
  | some _, none => .error executionInProgress

def claimDecision (hasher : IdempotencyHasher) (input : CallInput) (ledger : Ledger) (now : Nat) :
    Except AppError (Option Position) :=
  match input.key with
  | none => .ok none
  | some key =>
    match (legacyPositions hasher input key).findSome? (ledger.get now) with
    | some existing => foundDecision hasher input existing
    | none => positionDecision hasher input ledger now (currentPosition hasher input key)

/-- The ledger is the given one. -/
structure Sees (ledger : Ledger) (now : Nat) (c : CallLog) : Prop where
  ledger_eq : c.ledger = ledger
  now_eq : c.now = now

theorem Sees.step (h : Sees ledger now c) {o : ResponseOp} (ho : Plain o) (x : o.Ans) :
    Sees ledger now (c.record o x) :=
  ⟨(record_ledger ho x).trans h.ledger_eq, h.now_eq⟩

theorem sees_start : Sees ledger now (CallLog.start ledger now) :=
  ⟨rfl, rfl⟩

theorem erred_absurd {P : Prop} (h : c.erred = true) : c.erred = false → P := by
  intro h'
  rw [h] at h'
  cases h'

variable {E : CallLog → AppError → Prop}

theorem wp_step (o : ResponseOp) (g : o.Ans → Except AppError α) {f : α → Create β}
    {Q : CallLog → β → Prop} (hE : ∀ c err, c.erred = true → E c err)
    (hg : ∀ x, stepErred o x = isError (g x))
    (hf : ∀ x a, callAnswers c o x → g x = .ok a → wp callContract (f a) (c.record o x) Q E) :
    wp callContract (Create.ask o >>= fun x => Create.orFail (g x) >>= f) c Q E := by
  refine ⟨trivial, fun x hanswers => ?_⟩
  have herred := hg x
  show wp callContract (Create.orFail (g x) >>= f) (c.record o x) Q E
  cases hx : g x with
  | error err =>
    rw [hx] at herred
    exact hE _ err (by simp [CallLog.record, herred, isError])
  | ok a => exact hf x a hanswers hx

theorem wp_found {existing : IdempotencyRecord} {Q : CallLog → Option Position → Prop}
    (hQ : ∀ state, foundDecision hasher input existing = .ok state → Q c state)
    (hE : ∀ err, foundDecision hasher input existing = .error err → E c err) :
    wp callContract (Create.orFail (replayedIdempotencyState hasher input existing) >>= fun p =>
      pure (some p)) c Q E := by
  unfold foundDecision at hQ hE
  cases hstate : replayedIdempotencyState hasher input existing with
  | error err => exact hE err (by rw [hstate]; rfl)
  | ok p => exact hQ (some p) (by rw [hstate]; rfl)

section

variable (hE : ∀ c err, c.erred = true → E c err)
include hE

theorem wp_probe {Q : CallLog → Option IdempotencyRecord → Prop} (positions : List Position) :
    ∀ {c : CallLog}, Sees ledger now c →
      (∀ c', Sees ledger now c' → Q c' (positions.findSome? (ledger.get now))) →
      wp callContract (probe positions) c Q E := by
  induction positions with
  | nil => exact fun h hQ => hQ _ h
  | cons p rest ih =>
    intro c h hQ
    refine ⟨trivial, fun x hx => ?_⟩
    cases x with
    | error err => exact hE _ _ (by simp [callContract, CallLog.record, stepErred, isError])
    | ok row =>
      have hread := h.step (o := .getIdempotencyRecord .probe p) trivial (.ok row)
      have hgot : row = ledger.get now p := by
        have hgot : row = c.ledger.get c.now p := hx
        rw [hgot, h.ledger_eq, h.now_eq]
      have hfind : (p :: rest).findSome? (ledger.get now) =
          row.or (rest.findSome? (ledger.get now)) := by
        rw [List.findSome?_cons, hgot]
        cases ledger.get now p <;> rfl
      rw [hfind] at hQ
      cases row with
      | some existing => exact hQ _ hread
      | none => exact ih hread hQ

theorem wp_claimRecord {record : IdempotencyRecord}
    {Q : CallLog → Option IdempotencyRecord → Prop} (h : Sees ledger now c)
    (hfree : ledger record.position = none → ∀ c', Q c' none)
    (hfound : ∀ existing, ledger.get now record.position = some existing →
      ∀ c', Sees ledger now c' → Q c' (some existing))
    (hexpired : ledger record.position ≠ none → ledger.get now record.position = none →
      ∀ c', E c' executionInProgress) : wp callContract (claimRecord record) c Q E := by
  refine ⟨trivial, fun written hwritten => ?_⟩
  show wp callContract (Create.orFail written.result >>= _) (c.record (.claimInsert record) written)
    _ _
  obtain ⟨result, committed⟩ := written
  cases result with
  | error err => exact hE _ _ (by simp [CallLog.record, stepErred, isError])
  | ok inserted =>
    obtain ⟨hinserted, rfl⟩ := hwritten
    rw [h.ledger_eq] at hinserted
    cases inserted with
    | true => exact hfree (Ledger.insert_true.mp (Prod.ext hinserted.symm rfl)).1 _
    | false =>
      obtain ⟨htaken, hsame⟩ := Ledger.insert_false.mp (Prod.ext hinserted.symm rfl)
      have h₁ : Sees ledger now (c.record (.claimInsert record) ⟨.ok false, true⟩) := by
        refine ⟨?_, h.now_eq⟩
        simp only [CallLog.record, ledgerAfter, if_true]
        rw [h.ledger_eq]
        exact hsame
      refine ⟨trivial, fun x hx => ?_⟩
      cases x with
      | error err => exact hE _ _ (by simp [callContract, CallLog.record, stepErred, isError])
      | ok row =>
        have hgot : row = ledger.get now record.position := by
          have hgot := hx
          simp only [callContract, callAnswers] at hgot
          rw [hgot, h₁.ledger_eq, h₁.now_eq]
        cases row with
        | some existing =>
          exact hfound existing hgot.symm _
            (h₁.step (o := .getIdempotencyRecord .conflict record.position) trivial _)
        | none => exact hexpired htaken hgot.symm _

/--
**The claim comes to its decision**, unless a statement fails. The ledger has changed only when the
position was free.
-/
theorem wp_claimIdempotency {Q : CallLog → Option Position → Prop} (h : Sees ledger now c)
    (hok : ∀ c' state, claimDecision hasher input ledger now = .ok state →
      (∀ p, state = some p → ledger p ≠ none → Sees ledger now c') → Q c' state)
    (hrefused : ∀ c' err, claimDecision hasher input ledger now = .error err → E c' err) :
    wp callContract (claimIdempotency hasher input) c Q E := by
  cases hkey : input.key with
  | none =>
    simp only [claimIdempotency, claimDecision, hkey] at hok ⊢
    exact hok c none rfl fun _ hstate => nomatch hstate
  | some key =>
    simp only [claimIdempotency, claimDecision, hkey] at hok hrefused ⊢
    show wp callContract (claimKey hasher input key >>= fun p => pure (some p)) c _ _
    rw [wp_bind, claimKey, wp_bind]
    refine wp_probe hE _ h fun c₁ h₁ => ?_
    cases hprobed : (legacyPositions hasher input key).findSome? (ledger.get now) with
    | some existing =>
      rw [hprobed] at hok hrefused
      rw [← wp_bind]
      exact wp_found (fun state hstate => hok _ state hstate fun _ _ _ => h₁)
        fun err herr => hrefused _ err herr
    | none =>
      rw [hprobed] at hok hrefused
      simp only [positionDecision] at hok hrefused
      refine ⟨trivial, fun time _ => ?_⟩
      have h₂ := h₁.step (o := .now) trivial time
      show wp callContract (claimRecord _ >>= _) (c₁.record .now time) _ _
      rw [wp_bind]
      refine wp_claimRecord hE h₂ ?_ ?_ ?_
      · intro hfree c'
        refine hok c' _ (by rw [hfree]) fun p hp htaken => ?_
        cases hp
        exact (htaken hfree).elim
      · intro existing hexisting c' h₃
        have htaken : ledger (currentPosition hasher input key) = some existing :=
          (Ledger.get_eq_some.mp hexisting).1
        rw [htaken, hexisting] at hok hrefused
        rw [← wp_bind]
        exact wp_found (fun state hstate => hok _ state hstate fun _ _ _ => h₃)
          fun err herr => hrefused _ err herr
      · intro htaken hexpired c'
        obtain ⟨row, hrow⟩ := Option.ne_none_iff_exists'.mp htaken
        rw [hrow, hexpired] at hrefused
        exact hrefused c' _ rfl

/-! ## The whole call -/

theorem wp_admission {Q : CallLog → ApplicationExecutionPolicy → Prop} (h : Sees ledger now c)
    (hQ : ∀ c' policy, Sees ledger now c' → Q c' policy) : wp callContract admission c Q E := by
  refine wp_step .authorize id hE (fun _ => rfl) fun x applicationId _ _ => ?_
  have h₁ := h.step (o := .authorize) trivial x
  refine ⟨trivial, fun y _ => ?_⟩
  have h₂ := h₁.step (o := .executionPolicy applicationId) trivial y
  cases y with
  | error err => exact hE _ _ (by simp [callContract, CallLog.record, stepErred])
  | ok policy =>
    show wp callContract (if _ then _ else _) _ _ _
    split
    · next hdisabled =>
      have hrefused : stepErred (.executionPolicy applicationId) (.ok policy) = true := hdisabled
      exact hE _ _ (by simp [callContract, CallLog.record, hrefused])
    · refine wp_step (.checkRateLimit _) id hE (fun _ => rfl) fun x _ _ _ => ?_
      have h₃ := h₂.step (o := .checkRateLimit policy.rateLimitRequestsPerMinute) trivial x
      refine wp_step .prepareExecution id hE (fun _ => rfl) fun x _ _ _ => ?_
      exact hQ _ _ (h₃.step (o := .prepareExecution) trivial x)

/-- A call is admitted, comes to its decision, and goes on from there. -/
theorem wp_createResponse {Q : CallLog → PublicResponse → Prop} (h : Sees ledger now c)
    (hok : ∀ c' policy state, claimDecision hasher input ledger now = .ok state →
      (∀ p, state = some p → ledger p ≠ none → Sees ledger now c') →
      wp callContract (replayOrRespond hasher codec input policy state) c' Q E)
    (hrefused : ∀ c' err, claimDecision hasher input ledger now = .error err → E c' err) :
    wp callContract (createResponse hasher codec input) c Q E := by
  unfold createResponse
  rw [wp_bind]
  refine wp_admission hE h fun c₁ policy h₁ => ?_
  rw [wp_bind]
  exact wp_claimIdempotency hE h₁ (fun c' state hstate hsees => hok c' policy state hstate hsees)
    hrefused

/-! ## Services that work -/

end

/-- The answers of a database and of services that meet no error. -/
def workingAnswer (outcome : ExecutionOutcome) (c : CallLog) : (o : ResponseOp) → o.Ans
  | .now => c.now
  | .getIdempotencyRecord _ p => .ok (c.ledger.get c.now p)
  | .claimInsert record => ⟨.ok (c.ledger.insert record).1, true⟩
  | .finishIdempotency .. => ⟨.ok (), true⟩
  | .authorize => .ok none
  | .executionPolicy _ =>
    .ok { responsesEnabled := true, rateLimitRequestsPerMinute := 60, persistenceMode := "none" }
  | .checkRateLimit _ => .ok ()
  | .prepareExecution => .ok ()
  | .newConversationService => .ok ()
  | .prepareResponseConversation => .ok none
  | .insertResponseStarted _ =>
    .ok { id := 1, executionId := outcome.executionId, requestId := outcome.requestId, createdAt := 0
          status := .inProgress }
  | .completeResponse _ =>
    .ok { id := 1, executionId := outcome.executionId, requestId := outcome.requestId, createdAt := 0
          status := .completed }
  | .failResponse _ =>
    .ok { id := 1, executionId := outcome.executionId, requestId := outcome.requestId, createdAt := 0
          status := .failed }
  | .audit _ => .ok ()
  | .newExecutionService => .ok ()
  | .execute => .ok outcome
  | .recordAssistant .. => .ok ()

/-- An execution that succeeded with a text. -/
def succeededWith (text : String) : ExecutionOutcome where
  requestId := "req-1"
  executionId := 7
  status := .succeeded
  outputText := some text
  structuredOutput := none
  usage := {}
  route := none
  model := none
  attempts := []
  failure := none

theorem workingAnswer_answers (outcome : ExecutionOutcome) (c : CallLog) (o : ResponseOp) :
    callAnswers c o (workingAnswer outcome c o) := by
  cases o <;> simp [callAnswers, workingAnswer]

theorem workingAnswer_ok (outcome : ExecutionOutcome) (c : CallLog) (o : ResponseOp) :
    stepErred o (workingAnswer outcome c o) = false := by
  cases o <;> simp [workingAnswer, stepErred, isError]

/-- A call that is served without an error. -/
def workingRun (outcome : ExecutionOutcome) (p : Create α) (ledger : Ledger) (now : Nat) :
    List (Exchange responseSig) × Except AppError α :=
  p.runOn callContract (workingAnswer outcome) (CallLog.start ledger now)

/-- There is a run that meets no error, whatever the outcome of the execution. -/
theorem workingRun_spec (outcome : ExecutionOutcome) (p : Create α) (ledger : Ledger) (now : Nat) :
    let run := workingRun outcome p ledger now
    After p run.1 (ofExcept run.2) ∧ HonestCall ledger now run.1 ∧
      (logOf ledger now run.1).erred = false := by
  refine ⟨after_runWith _ _ _, honest_runOn p (workingAnswer_answers outcome) _, ?_⟩
  refine track_runOn (C := callContract) (I := fun c => c.erred = false) p ?_ _ rfl
  intro c o herred
  simp [callContract, CallLog.record, herred, workingAnswer_ok]

end Moira.Public
