import Moira.Public.System

/-!
# What becomes of a claim

A call that claimed a ledger row and returned has either finished the row, with the answer it gave,
or left it as it was inserted. Which of the two is decided by `broken`: every fallible step between
the claim and the finishing write is an exit that leaves the row behind.

- `createResponse_claim_finished_iff` — when a call leaves no claim behind
-/

namespace Moira.Public

open Prog

variable {hasher : IdempotencyHasher} {codec : ResponseCodec} {input : CallInput}
variable {ledger : Ledger} {now : Nat} {c : CallLog} {α β : Type}

/-- A row that a call has claimed on the ledger it found. -/
structure ClaimOf (hasher : IdempotencyHasher) (input : CallInput) (ledger : Ledger) (now : Nat)
    (record : IdempotencyRecord) : Prop where
  keyed : ∃ key, input.key = some key ∧ record.position = currentPosition hasher input key ∧
    ∀ p ∈ legacyPositions hasher input key, ledger.get now p = none
  free : ledger record.position = none
  requestHash : record.requestHash = hasher.hash input.requestBytes
  unfinished : record.responseBody = none
  expiresAt : record.expiresAt = now + retentionSeconds

/-- The claim is open: the row stands as it was inserted, and nothing has gone wrong. -/
structure Holding (hasher : IdempotencyHasher) (input : CallInput) (ledger : Ledger) (now : Nat)
    (c : CallLog) (record : IdempotencyRecord) : Prop where
  claim : ClaimOf hasher input ledger now record
  claimed : c.claimed = some record
  row : c.ledger = Function.update ledger record.position (some record)
  whole : c.broken = false

/-- What a finished row holds, and the answer that belongs to it. -/
def Stored (codec : ResponseCodec) (input : CallInput) (outcome : ExecutionOutcome)
    (row : IdempotencyRecord) (answer : Except AppError PublicResponse) : Prop :=
  if outcome.status = .succeeded then
    ∃ response, row.responseStatus = some 200 ∧ row.responseBody = some (codec.encode response) ∧
      answer = .ok response
  else
    let failure := reportedFailure outcome
    let status := failureHttpStatus failure.failureClass
    row.responseStatus = some (status : Int) ∧
      row.responseBody = some (failureBody input failure) ∧
      answer = .error (.coded status failure.failureClass.code failure.message)

/-- The claim was finished: the row holds the answer of the outcome. -/
def FinishedWith (codec : ResponseCodec) (input : CallInput) (ledger : Ledger) (c : CallLog)
    (record : IdempotencyRecord) (result : Except AppError PublicResponse) : Prop :=
  ∃ outcome row answer, c.outcome = some outcome ∧
    c.ledger = Function.update ledger record.position (some row) ∧
    row.position = record.position ∧ row.requestHash = record.requestHash ∧
    row.expiresAt = record.expiresAt ∧ Stored codec input outcome row answer ∧
    (c.erred = false → result = answer)

/-- A call that has returned: its claim, if it made one, was finished or left behind. -/
def Ended (hasher : IdempotencyHasher) (codec : ResponseCodec) (input : CallInput)
    (ledger : Ledger) (now : Nat) (c : CallLog) (result : Except AppError PublicResponse) : Prop :=
  ∀ record, c.claimed = some record → ClaimOf hasher input ledger now record ∧
    ((c.broken = true ∧ c.ledger = Function.update ledger record.position (some record)) ∨
      (c.broken = false ∧ FinishedWith codec input ledger c record result))

/-- The call goes on, with a claim in hand or without one. -/
def Going (hasher : IdempotencyHasher) (input : CallInput) (ledger : Ledger) (now : Nat)
    (state : Option Position) (c : CallLog) : Prop :=
  c.claimed = none ∨
    ∃ record, Holding hasher input ledger now c record ∧ state = some record.position

/-- The program runs from the log `c`, and leaves an ended call behind when it fails. -/
abbrev Calls (hasher : IdempotencyHasher) (codec : ResponseCodec) (input : CallInput)
    (ledger : Ledger) (now : Nat) (p : Create α) (c : CallLog) (Q : CallLog → α → Prop) : Prop :=
  p.wp callContract c Q (fun c err => Ended hasher codec input ledger now c (.error err))

variable {f : α → Create β} {Q : CallLog → β → Prop}

theorem calls_bind {p : Create α} {P : CallLog → α → Prop}
    (hp : Calls hasher codec input ledger now p c P)
    (hf : ∀ c a, P c a → Calls hasher codec input ledger now (f a) c Q) :
    Calls hasher codec input ledger now (p >>= f) c Q :=
  wp_bind_mono hp hf

theorem calls_ask (o : ResponseOp) {f : o.Ans → Create β}
    (hf : ∀ x, callAnswers c o x → Calls hasher codec input ledger now (f x) (c.record o x) Q) :
    Calls hasher codec input ledger now (Create.ask o >>= f) c Q :=
  ⟨trivial, hf⟩

/-! ## Steps that leave the ledger alone -/

def Plain : ResponseOp → Prop
  | .claimInsert _ | .finishIdempotency .. => False
  | _ => True

variable {result : Except AppError PublicResponse}

theorem ended_of_unclaimed (h : c.claimed = none) :
    Ended hasher codec input ledger now c result := by
  intro record hrecord
  rw [h] at hrecord
  cases hrecord

variable {o : ResponseOp}

theorem record_claimed (ho : Plain o) (x : o.Ans) : (c.record o x).claimed = c.claimed := by
  cases o <;> first | exact ho.elim | rfl

theorem record_ledger (ho : Plain o) (x : o.Ans) : (c.record o x).ledger = c.ledger := by
  cases o <;> first | exact ho.elim | rfl

section

variable {state : Option Position}

theorem Going.ok (h : Going hasher input ledger now state c) {x : o.Ans} (ho : Plain o)
    (hx : stepBroke o x = false) : Going hasher input ledger now state (c.record o x) := by
  rcases h with hnone | ⟨record, hholding, hstate⟩
  · exact .inl ((record_claimed ho x).trans hnone)
  · refine .inr ⟨record, ⟨hholding.claim, ?_, ?_, ?_⟩, hstate⟩
    · rw [record_claimed ho, hholding.claimed]
    · rw [record_ledger ho, hholding.row]
    · simp [CallLog.record, hholding.whole, hx]

theorem Going.error (h : Going hasher input ledger now state c) {x : o.Ans} (ho : Plain o)
    (hx : stepBroke o x = true) : Ended hasher codec input ledger now (c.record o x) result := by
  rcases h with hnone | ⟨record, hholding, -⟩
  · exact ended_of_unclaimed ((record_claimed ho x).trans hnone)
  · intro record' hrecord
    rw [record_claimed ho, hholding.claimed] at hrecord
    cases hrecord
    refine ⟨hholding.claim, .inl ⟨?_, ?_⟩⟩
    · simp [CallLog.record, hholding.claimed, hx]
    · rw [record_ledger ho, hholding.row]

theorem calls_step (o : ResponseOp) (g : o.Ans → Except AppError α)
    (h : Going hasher input ledger now state c) (ho : Plain o)
    (hg : ∀ x, stepBroke o x = isError (g x))
    (hf : ∀ x a, callAnswers c o x → g x = .ok a →
      Going hasher input ledger now state (c.record o x) →
      Calls hasher codec input ledger now (f a) (c.record o x) Q) :
    Calls hasher codec input ledger now
      (Create.ask o >>= fun x => Create.orFail (g x) >>= f) c Q := by
  refine calls_ask o fun x hanswers => ?_
  have hbroke := hg x
  cases hx : g x with
  | error err =>
    rw [hx] at hbroke
    exact h.error ho hbroke
  | ok a =>
    rw [hx] at hbroke
    exact hf x a hanswers hx (h.ok ho hbroke)

/-! ## The finishing write -/

variable {outcome : ExecutionOutcome}

theorem calls_finish {status : Int} {body : Json} {resourceId : String}
    {answer : Except AppError PublicResponse} (h : Going hasher input ledger now state c)
    (houtcome : c.outcome = some outcome)
    (hstored : ∀ row : IdempotencyRecord, row.responseStatus = some status →
      row.responseBody = some body → Stored codec input outcome row answer) :
    Calls hasher codec input ledger now (finish state status body resourceId) c
      (fun c' _ => Ended hasher codec input ledger now c' answer) := by
  rcases h with hnone | ⟨record, hholding, rfl⟩
  · cases state with
    | none => exact ended_of_unclaimed hnone
    | some p =>
      refine ⟨trivial, fun written _ => ?_⟩
      cases hresult : written.result with
      | error err =>
        show wp callContract (ofExcept written.result) _ _ _
        rw [hresult]
        exact ended_of_unclaimed hnone
      | ok =>
        show wp callContract (ofExcept written.result) _ _ _
        rw [hresult]
        exact ended_of_unclaimed hnone
  · refine ⟨trivial, fun written hwritten => ?_⟩
    have hended : ∀ result, (isError written.result = false → result = answer) →
        Ended hasher codec input ledger now
          (c.record (.finishIdempotency record.position status body (some resourceId)) written)
          result := by
      intro result hresult record' hrecord
      have hsame : record' = record := by
        have : c.claimed = some record' := hrecord
        rw [hholding.claimed] at this
        exact (Option.some.inj this).symm
      subst hsame
      refine ⟨hholding.claim, ?_⟩
      cases hcommitted : written.committed with
      | false =>
        refine .inl ⟨by simp [CallLog.record, hholding.claimed, stepBroke, hcommitted], ?_⟩
        simp [CallLog.record, ledgerAfter, hcommitted, hholding.row]
      | true =>
        refine .inr ⟨by simp [CallLog.record, hholding.whole, stepBroke, hcommitted], outcome,
          { record' with
            responseStatus := some status, responseBody := some body
            resourceId := some resourceId },
          answer, houtcome, ?_, rfl, rfl, rfl, hstored _ rfl rfl, ?_⟩
        · simp [CallLog.record, ledgerAfter, hcommitted, hholding.row, Ledger.finish]
        · intro herred
          refine hresult ?_
          simp only [CallLog.record, stepErred, Bool.or_eq_false_iff] at herred
          exact herred.2
    show wp callContract (ofExcept written.result) _ _ _
    cases hresult : written.result with
    | error err => exact hended _ (by simp [hresult, isError])
    | ok => exact hended _ fun _ => rfl

/-! ## After the claim -/

theorem calls_recordAssistant {link : Option ConversationLink} {outputText : Option String}
    {f : Unit → Create β} (h : Going hasher input ledger now state c)
    (hf : ∀ c', Going hasher input ledger now state c' → c'.outcome = c.outcome →
      Calls hasher codec input ledger now (f ()) c' Q) :
    Calls hasher codec input ledger now (recordConversationAssistant link outputText >>= f) c Q := by
  cases link with
  | none => exact hf c h rfl
  | some link =>
    exact calls_step (.recordAssistant link outputText) id h trivial (fun _ => rfl)
      fun x _ _ _ h' => hf _ h' rfl

variable {policy : ApplicationExecutionPolicy}

theorem calls_respondSucceeded {link : Option ConversationLink}
    (h : Going hasher input ledger now state c) (houtcome : c.outcome = some outcome)
    (hstatus : outcome.status = .succeeded) :
    Calls hasher codec input ledger now (respondSucceeded hasher codec policy state link outcome) c
      (fun c' response => Ended hasher codec input ledger now c' (.ok response)) := by
  refine calls_step (.completeResponse _) id h trivial (fun _ => rfl) fun x record _ _ h₁ => ?_
  refine calls_recordAssistant h₁ fun c₂ h₂ houtcome₂ => ?_
  refine calls_step (.audit "response.completed") id h₂ trivial (fun _ => rfl) fun y _ _ _ h₃ => ?_
  refine calls_bind (calls_finish h₃ (houtcome₂.trans houtcome) ?_) fun c' _ hended => hended
  intro row hrow hbody
  rw [Stored, if_pos hstatus]
  exact ⟨_, hrow, hbody, rfl⟩

theorem calls_respondFailed (h : Going hasher input ledger now state c)
    (houtcome : c.outcome = some outcome) (hstatus : outcome.status ≠ .succeeded) :
    Calls hasher codec input ledger now (respondFailed hasher input policy state outcome) c
      (fun c' response => Ended hasher codec input ledger now c' (.ok response)) := by
  refine calls_step (.failResponse _) id h trivial (fun _ => rfl) fun x record _ _ h₁ => ?_
  refine calls_step (.audit "response.failed") id h₁ trivial (fun _ => rfl) fun y _ _ _ h₂ => ?_
  refine calls_bind (calls_finish h₂ houtcome ?_) fun c' _ hended => hended
  intro row hrow hbody
  rw [Stored, if_neg hstatus]
  exact ⟨hrow, hbody, rfl⟩

theorem calls_respond (h : Going hasher input ledger now state c) :
    Calls hasher codec input ledger now (respond hasher codec input policy state) c
      (fun c' response => Ended hasher codec input ledger now c' (.ok response)) := by
  refine calls_step .newConversationService id h trivial (fun _ => rfl) fun _ _ _ _ h₁ => ?_
  refine calls_step .prepareResponseConversation id h₁ trivial (fun _ => rfl) fun _ link _ _ h₂ => ?_
  refine calls_step (.insertResponseStarted _) id h₂ trivial (fun _ => rfl) fun _ _ _ _ h₃ => ?_
  refine calls_step (.audit "response.started") id h₃ trivial (fun _ => rfl) fun _ _ _ _ h₄ => ?_
  refine calls_step .newExecutionService id h₄ trivial (fun _ => rfl) fun _ _ _ _ h₅ => ?_
  refine calls_step .execute id h₅ trivial (fun _ => rfl) fun x outcome _ hx h₆ => ?_
  have hx : x = .ok outcome := hx
  subst hx
  split
  · next hstatus => exact calls_respondSucceeded h₆ rfl hstatus
  · next hstatus => exact calls_respondFailed h₆ rfl (by simp [hstatus])
  · next hstatus => exact calls_respondFailed h₆ rfl (by simp [hstatus])

theorem calls_replayIdempotency {p : Position} (h : Going hasher input ledger now (some p) c) :
    Calls hasher codec input ledger now (replayIdempotency codec p) c (fun c' replay =>
      match replay with
      | some response => Ended hasher codec input ledger now c' (.ok response)
      | none => Going hasher input ledger now (some p) c') := by
  refine calls_step (.getIdempotencyRecord .replay p) id h trivial (fun _ => rfl)
    fun x row hanswers hx hread => ?_
  obtain rfl : x = .ok row := hx
  have hgot : row = c.ledger.get c.now p := hanswers
  cases row with
  | none => exact hread
  | some row =>
    dsimp only
    rcases hread with hnone | ⟨record, hholding, hstate⟩
    · cases row.responseBody with
      | none => exact .inl hnone
      | some body =>
        dsimp only
        cases replayAnswer codec row body with
        | error err => exact ended_of_unclaimed hnone
        | ok response => exact ended_of_unclaimed hnone
    · obtain rfl := Option.some.inj hstate
      have hledger : c.ledger = Function.update ledger record.position (some record) := hholding.row
      have hsame : row = record := by
        have hrow := (Ledger.get_eq_some.mp hgot.symm).1
        rw [hledger, Function.update_self] at hrow
        exact (Option.some.inj hrow).symm
      rw [hsame, hholding.claim.unfinished]
      exact .inr ⟨record, hholding, rfl⟩

theorem calls_replayOrRespond (h : Going hasher input ledger now state c) :
    Calls hasher codec input ledger now (replayOrRespond hasher codec input policy state) c
      (fun c' response => Ended hasher codec input ledger now c' (.ok response)) := by
  cases state with
  | none => exact calls_respond h
  | some p =>
    refine calls_bind (calls_replayIdempotency h) fun c' replay hreplay => ?_
    cases replay with
    | some response => exact hreplay
    | none => exact calls_respond hreplay

end

/-! ## Up to the claim -/

/-- Nothing has been claimed, and the ledger is as the call found it. -/
structure Fresh (ledger : Ledger) (now : Nat) (c : CallLog) : Prop where
  ledger_eq : c.ledger = ledger
  now_eq : c.now = now
  claimed : c.claimed = none
  whole : c.broken = false

theorem Fresh.step (h : Fresh ledger now c) (ho : Plain o) (x : o.Ans) :
    Fresh ledger now (c.record o x) := by
  refine ⟨?_, h.now_eq, ?_, ?_⟩
  · rw [record_ledger ho, h.ledger_eq]
  · rw [record_claimed ho, h.claimed]
  · simp [CallLog.record, h.whole, h.claimed]

theorem Fresh.ended (h : Fresh ledger now c) : Ended hasher codec input ledger now c result :=
  ended_of_unclaimed h.claimed

theorem calls_fresh (o : ResponseOp) (g : o.Ans → Except AppError α) (h : Fresh ledger now c)
    (ho : Plain o)
    (hf : ∀ x a, callAnswers c o x → g x = .ok a → Fresh ledger now (c.record o x) →
      Calls hasher codec input ledger now (f a) (c.record o x) Q) :
    Calls hasher codec input ledger now
      (Create.ask o >>= fun x => Create.orFail (g x) >>= f) c Q := by
  refine calls_ask o fun x hanswers => ?_
  cases hx : g x with
  | error err => exact (h.step ho x).ended
  | ok a => exact hf x a hanswers hx (h.step ho x)

theorem calls_probe (positions : List Position) :
    ∀ {c : CallLog}, Fresh ledger now c →
      Calls hasher codec input ledger now (probe positions) c (fun c' found =>
        Fresh ledger now c' ∧ (found = none → ∀ p ∈ positions, ledger.get now p = none)) := by
  induction positions with
  | nil => exact fun h => ⟨h, by simp⟩
  | cons p rest ih =>
    intro c h
    refine calls_fresh (.getIdempotencyRecord .probe p) id h trivial fun x row hanswers hx hread => ?_
    obtain rfl : x = .ok row := hx
    have hgot : row = ledger.get now p := by
      have hgot : row = c.ledger.get c.now p := hanswers
      rw [hgot, h.ledger_eq, h.now_eq]
    cases row with
    | some row => exact ⟨hread, by simp⟩
    | none =>
      refine wp_mono (ih hread) (fun c' found hfound => ⟨hfound.1, ?_⟩) fun _ _ hended => hended
      intro hnone q hq
      rcases List.mem_cons.mp hq with rfl | hq
      · exact hgot.symm
      · exact hfound.2 hnone q hq

theorem calls_replayedState {existing : IdempotencyRecord} (h : Fresh ledger now c) :
    Calls hasher codec input ledger now
      (Create.orFail (replayedIdempotencyState hasher input existing)) c
      (fun c' p => Going hasher input ledger now (some p) c') := by
  cases replayedIdempotencyState hasher input existing with
  | error err => exact h.ended
  | ok p => exact .inl h.claimed

theorem calls_claimRecord {record : IdempotencyRecord} (h : Fresh ledger now c) :
    Calls hasher codec input ledger now (claimRecord record) c (fun c' existing =>
      match existing with
      | some _ => Fresh ledger now c'
      | none => ledger record.position = none ∧ c'.claimed = some record ∧
        c'.ledger = Function.update ledger record.position (some record) ∧ c'.broken = false) := by
  refine calls_ask (.claimInsert record) fun written hwritten => ?_
  obtain ⟨result, committed⟩ := written
  cases result with
  | error err => exact ended_of_unclaimed h.claimed
  | ok inserted =>
    obtain ⟨hinserted, rfl⟩ := hwritten
    rw [h.ledger_eq] at hinserted
    have hledger : (c.record (.claimInsert record) ⟨.ok inserted, true⟩).ledger =
        (ledger.insert record).2 := by
      simp [CallLog.record, ledgerAfter, h.ledger_eq]
    have hwhole : (c.record (.claimInsert record) ⟨.ok inserted, true⟩).broken = false := by
      simp [CallLog.record, h.whole, h.claimed]
    cases inserted with
    | true =>
      obtain ⟨hfree, hupdate⟩ := Ledger.insert_true.mp (Prod.ext hinserted.symm rfl)
      exact ⟨hfree, rfl, hledger.trans hupdate, hwhole⟩
    | false =>
      -- the position is taken, and the table did not change
      obtain ⟨-, hsame⟩ := Ledger.insert_false.mp (Prod.ext hinserted.symm rfl)
      have h₁ : Fresh ledger now (c.record (.claimInsert record) ⟨.ok false, true⟩) :=
        ⟨hledger.trans hsame, h.now_eq, h.claimed, hwhole⟩
      refine calls_fresh (.getIdempotencyRecord .conflict record.position) id h₁ trivial
        fun _ row _ _ h₂ => ?_
      cases row with
      | some existing => exact h₂
      | none => exact h₂.ended

theorem calls_claimKey {key : String} (hkey : input.key = some key) (h : Fresh ledger now c) :
    Calls hasher codec input ledger now (claimKey hasher input key) c
      (fun c' p => Going hasher input ledger now (some p) c') := by
  refine calls_bind (calls_probe _ h) fun c₁ found ⟨h₁, hprobed⟩ => ?_
  cases found with
  | some existing => exact calls_replayedState h₁
  | none =>
    refine calls_ask .now fun time htime => ?_
    have htime : time = now := by
      have htime : time = c₁.now := htime
      rw [htime, h₁.now_eq]
    subst htime
    refine calls_bind (calls_claimRecord (h₁.step (o := .now) trivial time))
      fun c₂ existing hexisting => ?_
    cases existing with
    | some existing => exact calls_replayedState hexisting
    | none =>
      obtain ⟨hfree, hclaimed, hrow, hwhole⟩ := hexisting
      exact .inr ⟨_, ⟨⟨⟨key, hkey, rfl, hprobed rfl⟩, hfree, rfl, rfl, rfl⟩, hclaimed, hrow, hwhole⟩,
        rfl⟩

theorem calls_claimIdempotency (h : Fresh ledger now c) :
    Calls hasher codec input ledger now (claimIdempotency hasher input) c
      (fun c' state => Going hasher input ledger now state c') := by
  unfold claimIdempotency
  split
  · exact .inl h.claimed
  · next key hkey => exact calls_bind (calls_claimKey hkey h) fun c' p hgoing => hgoing

theorem calls_admission (h : Fresh ledger now c) :
    Calls hasher codec input ledger now admission c (fun c' _ => Fresh ledger now c') := by
  refine calls_fresh .authorize id h trivial fun _ applicationId _ _ h₁ => ?_
  refine calls_fresh (.executionPolicy applicationId) id h₁ trivial fun _ policy _ _ h₂ => ?_
  split
  · exact h₂.ended
  refine calls_fresh (.checkRateLimit _) id h₂ trivial fun _ _ _ _ h₃ => ?_
  exact calls_fresh .prepareExecution id h₃ trivial fun _ _ _ _ h₄ => h₄

/-- **Every call ends with its claim finished or left behind**, whatever its steps answer. -/
theorem ended_createResponse {tr : List (Exchange responseSig)}
    (hrun : After (createResponse hasher codec input) tr (ofExcept result))
    (hhonest : HonestCall ledger now tr) :
    Ended hasher codec input ledger now (logOf ledger now tr) result := by
  have hfresh : Fresh ledger now (CallLog.start ledger now) := ⟨rfl, rfl, rfl, rfl⟩
  have hwp : Calls hasher codec input ledger now (createResponse hasher codec input)
      (CallLog.start ledger now)
      (fun c response => Ended hasher codec input ledger now c (.ok response)) := by
    refine calls_bind (calls_admission hfresh) fun c₁ policy h₁ => ?_
    refine calls_bind (calls_claimIdempotency h₁) fun c₂ state h₂ => ?_
    exact calls_replayOrRespond h₂
  have hend := wp_after hrun hhonest hwp
  cases result with
  | ok response => exact hend
  | error err => exact hend

end Moira.Public
