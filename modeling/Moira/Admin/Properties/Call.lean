import Moira.Admin.System

/-!
# One admin command

What a call owes the ledger and its caller, whatever the database answers.
-/

namespace Moira.Admin

open Prog

variable {T α β : Type} {runner : AdminCommandRunner T} {spec : AdminCommandSpec}
variable {call : AdminCall T}

/-! ## What a call owes -/

/-- The claim of a command, up to its expiry. -/
def commandClaim (runner : AdminCommandRunner T) (spec : AdminCommandSpec) :
    Option AdminIdempotencyClaim :=
  spec.idempotency.map fun idempotency => claimOf runner spec idempotency 0

/-- The row is the claim of the command. -/
def ClaimRow (runner : AdminCommandRunner T) (spec : AdminCommandSpec) (row : IdempotencyRecord) :
    Prop :=
  ∃ claim, commandClaim runner spec = some claim ∧ row.position = claim.position ∧
    row.requestHash = runner.hasher.hash (envelopeBytes runner spec)

/-- The row holds what is stored for the mutation. -/
def HoldsStored (row : IdempotencyRecord) (m : Except AppError (AdminCommandMutation T)) : Prop :=
  row.responseStatus = some (stored m).1 ∧ row.responseBody = some (stored m).2.1 ∧
    row.resourceId = (stored m).2.2

/-- What a transaction may commit: nothing, or a mutation and its record. -/
def Commits (runner : AdminCommandRunner T) (spec : AdminCommandSpec)
    (mutation : Option (Except AppError (AdminCommandMutation T))) (row : Option IdempotencyRecord)
    (mutated : Bool) : Prop :=
  (row = none ∧ mutated = false) ∨
    ∃ m, mutation = some m ∧
      (∀ err, m = .error err → mutated = false ∧ err.isCacheableAdminFailure = true) ∧
      ((spec.idempotency = none ∧ row = none) ∨
        ∃ r, row = some r ∧ ClaimRow runner spec r ∧ HoldsStored r m)

/-- A call with a key has the lock, has found every position of its key empty, and has inserted its
row. -/
def Ready (runner : AdminCommandRunner T) (spec : AdminCommandSpec) (call : AdminCall T) : Prop :=
  ∀ claim, commandClaim runner spec = some claim → call.locked = true ∧
    (∀ p ∈ claim.positions, p ∈ call.clear) ∧
    ∃ row, call.inserted = some row ∧ row.position = claim.position

/-- The mutation is committed, with its effects if it succeeded; a failure that is stored, as a row.
-/
def Settled (spec : AdminCommandSpec) (committed : Option (Option IdempotencyRecord × Bool)) :
    Except AppError (AdminCommandMutation T) → Prop
  | .ok _ => ∃ row, committed = some (row, true)
  | .error err => spec.idempotency.isSome = true → err.isCacheableAdminFailure = true →
    ∃ row, committed = some (some row, false)

/-- The answer to a caller whose mutation ran. -/
def ownAnswer : Except AppError (AdminCommandMutation T) → Except AppError (AdminCommandOutcome T)
  | .ok result =>
    .ok { response := result.clientResponse, status := result.status
          resourceId := result.resourceId, replayed := false }
  | .error err => .error err

/-- The answer from a record that was found. -/
def answerFrom (runner : AdminCommandRunner T) (spec : AdminCommandSpec)
    (row : IdempotencyRecord) : Except AppError (AdminCommandOutcome T) :=
  match recordVerdict runner spec row with
  | .error err => .error err
  | .ok _ => replayRecord runner row

/-- The caller is told of an error, of its own mutation, or what is stored. -/
def Told (runner : AdminCommandRunner T) (spec : AdminCommandSpec) (call : AdminCall T)
    (r : Except AppError (AdminCommandOutcome T)) : Prop :=
  call.failed = true ∨
    (∃ m, call.mutation = some m ∧ r = ownAnswer m ∧ Settled spec call.committed m) ∨
    (call.mutation = none ∧ ∃ row, call.found = some row ∧ r = answerFrom runner spec row)

/-- A call inserts its claim only with the lock, on a position it has found empty, and runs its
mutation only then; it commits a mutation that succeeded with its record, a failure that is stored
without its effects, and nothing else. -/
def commandContract (runner : AdminCommandRunner T) (spec : AdminCommandSpec) :
    Contract (adminSig T) (AdminCall T) where
  may
    | call, .begin => call.locked = false ∧ call.clear = [] ∧ call.inserted = none
    | _, .tryLock key =>
      ∃ claim, commandClaim runner spec = some claim ∧ key = runner.advisoryLockKey claim.position
    | call, .load p => call.locked = true ∧ call.inserted = none ∧ call.reply = none ∧
      ∃ claim, commandClaim runner spec = some claim ∧ p ∈ claim.positions
    | call, .insertClaim row => call.locked = true ∧ call.inserted = none ∧
      row.position ∈ call.clear ∧ ClaimRow runner spec row
    | call, .mutate => call.mutation = none ∧ call.reply = none ∧ Ready runner spec call
    | call, .commit => Commits runner spec call.mutation call.inserted call.mutated ∧ call.reply = none
    | call, .reply r => Told runner spec call r
    | _, _ => True
  answers _ _ _ := True
  next := AdminCall.record

/-- The program keeps the contract; its failures are what the caller is told. -/
abbrev Settles (runner : AdminCommandRunner T) (spec : AdminCommandSpec) (p : Command T α)
    (call : AdminCall T) (Q : AdminCall T → α → Prop) : Prop :=
  p.wp (commandContract runner spec) call Q fun call err => Told runner spec call (.error err)

variable {Q : AdminCall T → β → Prop}

theorem settles_step (o : AdminOp T) (g : o.Ans → Except AppError α) {f : α → Command T β}
    (hmay : (commandContract runner spec).may call o)
    (hfailed : ∀ x err, g x = .error err → (call.record o x).failed = true)
    (hf : ∀ x a, g x = .ok a → Settles runner spec (f a) (call.record o x) Q) :
    Settles runner spec (Command.ask o >>= fun x => Command.orFail (g x) >>= f) call Q := by
  refine ⟨hmay, fun x _ => ?_⟩
  show Settles runner spec (Command.orFail (g x) >>= f) (call.record o x) Q
  cases hx : g x with
  | error err => exact .inl (hfailed x err hx)
  | ok a => exact hf x a hx

/-! ## The claim -/

/-- The transaction has the lock, and has written nothing yet. -/
structure Looking (call : AdminCall T) : Prop where
  locked : call.locked = true
  inserted : call.inserted = none
  mutation : call.mutation = none
  mutated : call.mutated = false
  reply : call.reply = none

theorem settles_loadFirst {claim : AdminIdempotencyClaim} (hclaim : commandClaim runner spec = some claim)
    (positions : List Position) : ∀ {call : AdminCall T}, Looking call →
      (∀ p ∈ positions, p ∈ claim.positions) →
      Settles runner spec (loadFirst positions) call (fun call' found =>
        Looking call' ∧ (∀ p ∈ call.clear, p ∈ call'.clear) ∧
          match found with
          | some row => call'.found = some row
          | none => ∀ p ∈ positions, p ∈ call'.clear) := by
  induction positions with
  | nil => exact fun h _ => ⟨h, fun _ hp => hp, by simp⟩
  | cons p rest ih =>
    intro call h hpositions
    refine settles_step (.load p) id ⟨h.locked, h.inserted, h.reply, claim, hclaim, hpositions p (by simp)⟩
      ?_ fun x row hx => ?_
    · rintro x err rfl
      simp [AdminCall.record, AdminCall.stepFailed, isError]
    obtain rfl : x = .ok row := hx
    cases row with
    | some row => exact ⟨⟨h.locked, h.inserted, h.mutation, h.mutated, h.reply⟩, fun _ hp => hp, rfl⟩
    | none =>
      have h₁ : Looking (call.record (.load p) (.ok none)) :=
        ⟨h.locked, h.inserted, h.mutation, h.mutated, h.reply⟩
      refine wp_mono (ih h₁ fun q hq => hpositions q (List.mem_cons_of_mem _ hq)) ?_
        fun _ _ htold => htold
      rintro call' found ⟨hlooking, hclear, hfound⟩
      refine ⟨hlooking, fun q hq => hclear q (List.mem_cons_of_mem _ hq), ?_⟩
      cases found with
      | some row => exact hfound
      | none =>
        intro q hq
        rcases List.mem_cons.mp hq with rfl | hq
        · exact hclear q (List.mem_cons_self ..)
        · exact hfound q hq

/-- The claim has been inserted, and the mutation has not run. -/
structure Claimed (runner : AdminCommandRunner T) (spec : AdminCommandSpec) (call : AdminCall T) :
    Prop where
  ready : Ready runner spec call
  row : ∃ row, call.inserted = some row ∧ ClaimRow runner spec row
  mutation : call.mutation = none
  reply : call.reply = none

theorem position_mem_positions (claim : AdminIdempotencyClaim) :
    claim.position ∈ claim.positions := by
  simp [AdminIdempotencyClaim.positions, AdminIdempotencyClaim.position]

theorem positions_claimOf (idempotency : AdminCommandIdempotency) (now now' : Nat) :
    (claimOf runner spec idempotency now).positions =
      (claimOf runner spec idempotency now').positions := by
  simp [AdminIdempotencyClaim.positions, claimOf]

theorem position_claimOf (idempotency : AdminCommandIdempotency) (now now' : Nat) :
    (claimOf runner spec idempotency now).position =
      (claimOf runner spec idempotency now').position := by
  simp [AdminIdempotencyClaim.position, claimOf]

variable {idempotency : AdminCommandIdempotency} {now : Nat}

theorem claimRow_record (hspec : spec.idempotency = some idempotency) :
    ClaimRow runner spec (claimOf runner spec idempotency now).record :=
  ⟨claimOf runner spec idempotency 0, by simp only [commandClaim, hspec, Option.map_some],
    position_claimOf _ _ _, rfl⟩

theorem settles_claimIdempotency (hspec : spec.idempotency = some idempotency) (h : Looking call) :
    Settles runner spec (claimIdempotency (claimOf runner spec idempotency now)) call
      (fun call' found =>
        match found with
        | some row => Looking call' ∧ call'.found = some row
        | none => Claimed runner spec call') := by
  have hclaim : commandClaim runner spec = some (claimOf runner spec idempotency 0) := by
    simp [commandClaim, hspec]
  refine settles_step (.sweepExpired _) id trivial ?_ fun x _ hx => ?_
  · rintro x err rfl
    simp [AdminCall.record, AdminCall.stepFailed, isError]
  obtain rfl : x = .ok () := hx
  have h₁ : Looking (call.record (.sweepExpired (claimOf runner spec idempotency now).positions)
      (.ok ())) := ⟨h.locked, h.inserted, h.mutation, h.mutated, h.reply⟩
  refine wp_bind_mono (settles_loadFirst hclaim _ h₁ fun p hp => positions_claimOf _ _ _ ▸ hp) ?_
  rintro call₂ found ⟨h₂, -, hfound⟩
  cases found with
  | some row => exact ⟨h₂, hfound⟩
  | none =>
    refine settles_step (.insertClaim _) (·.result) ⟨h₂.locked, h₂.inserted, ?_, ?_⟩ ?_ ?_
    · exact hfound _ (position_mem_positions _)
    · exact claimRow_record hspec
    · intro x err hx
      cases x with
      | inserted => cases hx
      | duplicate => rfl
      | failed err => simp [AdminCall.record, AdminCall.stepFailed, Inserted.result, isError]
    · intro x _ hx
      cases x with
      | inserted =>
        refine ⟨fun other hother => ?_, ⟨_, rfl, claimRow_record hspec⟩, h₂.mutation, h₂.reply⟩
        obtain rfl := Option.some.inj (hclaim.symm.trans hother)
        refine ⟨h₂.locked, fun p hp => hfound p ?_, _, rfl, position_claimOf _ _ _⟩
        rwa [positions_claimOf _ now 0]
      | duplicate => cases hx
      | failed err => cases hx

/-! ## The mutation -/

variable {m : Except AppError (AdminCommandMutation T)}

variable {row : IdempotencyRecord}

theorem settles_finalize {f : Unit → Command T β} (hrow : call.inserted = some row)
    (hclaim : ClaimRow runner spec row)
    (hf : ∀ call' row', call'.inserted = some row' → ClaimRow runner spec row' → HoldsStored row' m →
      call'.mutation = call.mutation → call'.mutated = call.mutated → call'.reply = call.reply →
      Settles runner spec (f ()) call' Q) : Settles runner spec (finalize m >>= f) call Q := by
  unfold finalize
  refine settles_step (.finalize _ _ _) id trivial ?_ fun x _ hx => ?_
  · rintro x err rfl
    simp [AdminCall.record, AdminCall.stepFailed, isError]
  obtain rfl : x = .ok () := hx
  refine hf _ (answeredRow (stored m).1 (stored m).2.1 (stored m).2.2 row) ?_ ?_ ?_ rfl rfl rfl
  · simp [AdminCall.record, hrow]
  · exact hclaim
  · exact ⟨rfl, rfl, rfl⟩

theorem settles_commit {f : Unit → Command T β}
    (hcommits : Commits runner spec call.mutation call.inserted call.mutated)
    (hreply : call.reply = none)
    (hf : Settles runner spec (f ()) { call with committed := some (call.inserted, call.mutated) } Q) :
    Settles runner spec (Command.ask .commit >>= fun x => Command.orFail x.result >>= f) call Q := by
  refine settles_step .commit (·.result) ⟨hcommits, hreply⟩ ?_ ?_
  · rintro ⟨result, committed⟩ err rfl
    simp [AdminCall.record, AdminCall.stepFailed, isError]
  · rintro ⟨result, committed⟩ a rfl
    exact hf

/-- A call without a key, or with its claim in the transaction. -/
def MayRun (runner : AdminCommandRunner T) (spec : AdminCommandSpec) (claimed : Bool)
    (call : AdminCall T) : Prop :=
  call.mutation = none ∧ call.reply = none ∧ Ready runner spec call ∧
    if claimed then ∃ row, call.inserted = some row ∧ ClaimRow runner spec row
    else spec.idempotency = none ∧ call.inserted = none

theorem settles_runMutation {claimed : Bool} (h : MayRun runner spec claimed call) :
    Settles runner spec (runMutation claimed) call
      (fun call' outcome => Told runner spec call' (.ok outcome)) := by
  obtain ⟨hmutation, hreply, hready, hclaimed⟩ := h
  refine settles_step .savepoint id trivial ?_ fun x _ hx => ?_
  · rintro x err rfl
    simp [AdminCall.record, AdminCall.stepFailed, isError]
  obtain rfl : x = .ok () := hx
  refine ⟨⟨hmutation, hreply, hready⟩, fun m _ => ?_⟩
  show Settles runner spec _ (AdminCall.record _ .mutate m) _
  cases m with
  | ok result =>
    refine settles_step .releaseSavepoint id trivial ?_ fun x _ hx => ?_
    · rintro x err rfl
      simp [AdminCall.record, AdminCall.stepFailed, isError]
    obtain rfl : x = .ok () := hx
    cases claimed with
    | true =>
      obtain ⟨row, hrow, hclaim⟩ := hclaimed
      refine settles_finalize hrow hclaim fun call' row' hrow' hclaim' hstored hm hmu hre => ?_
      refine settles_commit (.inr ⟨.ok result, hm, (by simp), .inr ⟨row', hrow', hclaim', hstored⟩⟩)
        (hre.trans hreply) ?_
      exact .inr (.inl ⟨.ok result, hm, rfl, call'.inserted, by rw [hmu]; rfl⟩)
    | false =>
      refine settles_commit (.inr ⟨.ok result, rfl, (by simp), .inl hclaimed⟩) hreply ?_
      exact .inr (.inl ⟨.ok result, rfl, rfl, call.inserted, rfl⟩)
  | error err =>
    show Settles runner spec (if (claimed && err.isCacheableAdminFailure) = true then _ else _) _ _
    split
    · next hcacheable =>
      rw [Bool.and_eq_true] at hcacheable
      obtain ⟨rfl, hcacheable⟩ := hcacheable
      obtain ⟨row, hrow, hclaim⟩ := hclaimed
      refine settles_step .rollbackSavepoint id trivial ?_ fun x _ hx => ?_
      · rintro x err rfl
        simp [AdminCall.record, AdminCall.stepFailed, isError]
      obtain rfl : x = .ok () := hx
      refine settles_finalize hrow hclaim fun call' row' hrow' hclaim' hstored hm hmu hre => ?_
      refine settles_commit (.inr ⟨.error err, hm, ?_, .inr ⟨row', hrow', hclaim', hstored⟩⟩)
        (hre.trans hreply) ?_
      · rintro err' he
        cases he
        exact ⟨hmu, hcacheable⟩
      · refine .inr (.inl ⟨.error err, hm, rfl, fun _ _ => ⟨row', ?_⟩⟩)
        rw [hrow', hmu]
        rfl
    · next hother =>
      refine settles_step .rollback id trivial ?_ fun x _ hx => ?_
      · rintro x err rfl
        simp [AdminCall.record, AdminCall.stepFailed, isError]
      refine .inr (.inl ⟨.error err, rfl, rfl, fun hkeyed hcacheable => absurd ?_ hother⟩)
      -- a failure that is stored is rolled back only where there is no key
      cases claimed with
      | true => simpa using hcacheable
      | false => simp [hclaimed.1] at hkeyed

/-! ## The whole call -/

theorem settles_withLock (hspec : spec.idempotency = some idempotency) (h : Looking call) :
    Settles runner spec (withLock runner spec (claimOf runner spec idempotency now)) call
      (fun call' outcome => Told runner spec call' (.ok outcome)) := by
  refine wp_bind_mono (settles_claimIdempotency hspec h) fun call₁ found hfound => ?_
  cases found with
  | none => exact settles_runMutation ⟨hfound.mutation, hfound.reply, hfound.ready, hfound.row⟩
  | some row =>
    obtain ⟨h₁, hrow⟩ := hfound
    dsimp only
    cases hverdict : recordVerdict runner spec row with
    | error err =>
      exact .inr (.inr ⟨h₁.mutation, row, hrow, by simp [answerFrom, hverdict]⟩)
    | ok =>
      refine settles_commit (.inl ⟨h₁.inserted, h₁.mutated⟩) h₁.reply ?_
      have htold : ∀ r, replayRecord runner row = r →
          Told runner spec { call₁ with committed := some (call₁.inserted, call₁.mutated) } r := fun r hr =>
        .inr (.inr ⟨h₁.mutation, row, hrow, by simp [answerFrom, hverdict, hr]⟩)
      cases hreplay : replayRecord runner row with
      | error err => exact htold _ hreplay
      | ok outcome => exact htold _ hreplay

/-- What a call has done when it stands at a control point: nothing that is seen. -/
def AtPoint (runner : AdminCommandRunner T) (spec : AdminCommandSpec) (call : AdminCall T) :
    AdminPoint → Prop
  | .start => call = {}
  | .tryLock claim => call = {} ∧ ∃ idempotency now, spec.idempotency = some idempotency ∧
    claim = claimOf runner spec idempotency now

theorem settles_execute {point : AdminPoint} (h : AtPoint runner spec call point) :
    Settles runner spec (execute runner spec point) call (fun call' next =>
      match next with
      | .done outcome => Told runner spec call' (.ok outcome)
      | .jump point => AtPoint runner spec call' point) := by
  cases point with
  | start =>
    obtain rfl : call = {} := h
    refine settles_step .begin id ⟨rfl, rfl, rfl⟩ ?_ fun x _ hx => ?_
    · rintro x err rfl
      rfl
    obtain rfl : x = .ok () := hx
    cases hspec : spec.idempotency with
    | none =>
      have hready : Ready runner spec (AdminCall.record {} (.begin : AdminOp T) (.ok ())) := by
        intro claim hclaim
        simp [commandClaim, hspec] at hclaim
      refine wp_bind_mono (settles_runMutation ⟨rfl, rfl, hready, hspec, rfl⟩) ?_
      exact fun _ outcome htold => htold
    | some idempotency =>
      refine ⟨trivial, fun now _ => ?_⟩
      exact ⟨rfl, idempotency, now, hspec, rfl⟩
  | tryLock claim =>
    obtain ⟨rfl, idempotency, now, hspec, rfl⟩ := h
    have hmay : (commandContract runner spec).may {} (.tryLock (runner.advisoryLockKey
        (claimOf runner spec idempotency now).position)) :=
      ⟨claimOf runner spec idempotency 0, by simp only [commandClaim, hspec, Option.map_some],
        congrArg _ (position_claimOf _ _ _)⟩
    refine settles_step (.tryLock _) id hmay ?_ fun x acquired hx => ?_
    · rintro x err rfl
      rfl
    obtain rfl : x = .ok acquired := hx
    cases acquired with
    | true =>
      refine wp_bind_mono (settles_withLock hspec ⟨rfl, rfl, rfl, rfl, rfl⟩) ?_
      exact fun _ outcome htold => htold
    | false =>
      refine ⟨trivial, fun past _ => ?_⟩
      cases past with
      | true => exact .inl rfl
      | false =>
        refine ⟨trivial, fun _ _ => ?_⟩
        exact ⟨rfl, idempotency, now, hspec, rfl⟩

/-- `execute` keeps the contract. -/
theorem settles_code {point : AdminPoint} (h : AtPoint runner spec call point) :
    (code runner spec point).wp (commandContract runner spec) call
      (fun call' next => ∀ point, next = some point → AtPoint runner spec call' point)
      fun _ _ => True := by
  have hanswer : ∀ call r, Told runner spec call r →
      (answer r).wp (commandContract runner spec) call
        (fun call' next => ∀ point, next = some point → AtPoint runner spec call' point)
        fun _ _ => True := by
    intro call r htold
    refine ⟨trivial, fun _ _ => ⟨?_, fun _ _ => ?_⟩⟩
    · rcases htold with hfailed | htold
      · refine .inl ?_
        simp [commandContract, AdminCall.record, hfailed]
      · exact .inr htold
    · intro point hpoint
      cases hpoint
  unfold code
  rw [wp_bind, wp_attempt]
  refine wp_mono (settles_execute h) ?_ fun call' err htold => hanswer call' _ htold
  intro call' next hnext
  cases next with
  | done outcome => exact hanswer call' _ hnext
  | jump point =>
    intro point' hpoint
    cases hpoint
    exact hnext

/-! ## What a replay is answered -/

/-- The replay of a mutation: its stored answer, marked as such. -/
def replayOf (runner : AdminCommandRunner T) :
    Except AppError (AdminCommandMutation T) → Except AppError (AdminCommandOutcome T)
  | .ok result =>
    match runner.decode result.replayResponse with
    | .ok response =>
      .ok { response, status := result.status, resourceId := result.resourceId, replayed := true }
    | .error err => .error (.internal ("decode idempotent success response: " ++ err))
  | .error err =>
    let response := err.errorResponse ""
    .error (.replayed
      { status := err.status, code := response.code, messageKey := response.messageKey
        message := response.message, messageArgs := response.messageArgs
        details := optional response.details })

theorem fromJson_toJson_success (body : Json) :
    StoredAdminReplay.fromJson (StoredAdminReplay.success body).toJson = some (.success body) := by
  simp [StoredAdminReplay.fromJson, StoredAdminReplay.toJson, Json.get, Json.asStr]

theorem fromJson_toJson_failure (error : StoredAdminError) :
    StoredAdminReplay.fromJson (StoredAdminReplay.failure error).toJson =
      some (.failure { error with details := optional error.details }) := by
  have hdetails : optional (some (error.details.getD .null)) = optional error.details := by
    cases error.details <;> rfl
  simp [StoredAdminReplay.fromJson, StoredAdminReplay.toJson, StoredAdminError.fromJson, Json.get,
    Json.asStr, hdetails]

theorem statusOf_toNat (status : UInt16) : statusOf status.toNat = some status := by
  have hlt := status.toNat_lt
  simp [statusOf, show (status.toNat : Int) < 65536 by omega]

variable {err : AppError}

theorem status_of_cacheable (h : err.isCacheableAdminFailure = true) :
    100 ≤ err.status ∧ err.status < 1000 := by
  simp only [AppError.isCacheableAdminFailure, Bool.and_eq_true, List.contains_eq_mem,
    decide_eq_true_eq, List.mem_cons, List.not_mem_nil, or_false] at h
  omega

theorem statusOf_cacheable (h : err.isCacheableAdminFailure = true) :
    statusOf err.status = some (UInt16.ofNat err.status) := by
  have hlt : (err.status : Int) < 65536 := by
    have := status_of_cacheable h
    omega
  simp [statusOf, hlt]

theorem httpStatus_cacheable (h : err.isCacheableAdminFailure = true) :
    httpStatus (UInt16.ofNat err.status) = .ok err.status := by
  obtain ⟨hge, hlt⟩ := status_of_cacheable h
  have hnat : (UInt16.ofNat err.status).toNat = err.status := by
    rw [UInt16.toNat_ofNat']
    exact Nat.mod_eq_of_lt (Nat.lt_trans hlt (by decide))
  simp [httpStatus, hnat, hge, hlt]

section

variable {status : UInt16} {body : Json}

theorem replayRecord_success {response : Json} (hstatus : row.responseStatus.bind statusOf = some status)
    (hbody : row.responseBody = some body)
    (hstored : StoredAdminReplay.fromJson body = some (.success response)) :
    replayRecord runner row =
      decoded runner "decode idempotent success response: " row status response := by
  simp only [replayRecord, hstatus, hbody, hstored]

theorem replayRecord_failure {error : StoredAdminError} {http : Nat}
    (hstatus : row.responseStatus.bind statusOf = some status) (hbody : row.responseBody = some body)
    (hstored : StoredAdminReplay.fromJson body = some (.failure error))
    (hhttp : httpStatus status = .ok http) :
    replayRecord runner row = .error (.replayed
      { status := http, code := error.code, messageKey := error.messageKey
        message := error.message, messageArgs := error.messageArgs, details := error.details }) := by
  simp only [replayRecord, hstatus, hbody, hstored, hhttp]

end

/-- What a stored answer is read back as. -/
theorem replayRecord_stored (h : HoldsStored row m)
    (hm : ∀ err, m = .error err → err.isCacheableAdminFailure = true) :
    replayRecord runner row = replayOf runner m := by
  obtain ⟨hstatus, hbody, hresource⟩ := h
  cases m with
  | ok result =>
    have hstatus' : row.responseStatus.bind statusOf = some result.status := by
      have hstored : (stored (.ok result)).1 = (result.status.toNat : Int) := rfl
      rw [hstatus, Option.bind_some, hstored, statusOf_toNat]
    rw [replayRecord_success hstatus' hbody (fromJson_toJson_success _), decoded, hresource, replayOf]
    cases runner.decode result.replayResponse <;> rfl
  | error err =>
    have hcacheable := hm err rfl
    have hstatus' : row.responseStatus.bind statusOf = some (UInt16.ofNat err.status) := by
      have hstored : (stored (T := T) (.error err)).1 = (err.status : Int) := rfl
      rw [hstatus, Option.bind_some, hstored, statusOf_cacheable hcacheable]
    rw [replayRecord_failure hstatus' hbody (fromJson_toJson_failure _)
      (httpStatus_cacheable hcacheable), replayOf]

theorem answerFrom_stored {other : AdminCommandSpec} (hrow : ClaimRow runner other row)
    (h : HoldsStored row m) (hm : ∀ err, m = .error err → err.isCacheableAdminFailure = true)
    (hmac : runner.hasher.mac (envelopeBytes runner other) =
        runner.hasher.mac (envelopeBytes runner spec) →
      envelopeBytes runner other = envelopeBytes runner spec) :
    answerFrom runner spec row =
      if envelopeBytes runner other = envelopeBytes runner spec then replayOf runner m
      else .error idempotencyConflict := by
  obtain ⟨-, -, -, hhash⟩ := hrow
  have hmatches : storedHashMatches runner (envelopeBytes runner spec) row.requestHash = true ↔
      envelopeBytes runner other = envelopeBytes runner spec := by
    rw [storedHashMatches, hhash, Bool.and_eq_true, IdempotencyHasher.verify_hash_iff]
    constructor
    · exact fun hverify => hmac hverify.2
    · intro heq
      exact ⟨by simp [IdempotencyHasher.hash], by rw [heq]⟩
  unfold answerFrom recordVerdict
  by_cases heq : envelopeBytes runner other = envelopeBytes runner spec
  · rw [hmatches.mpr heq]
    simp [h.1, h.2.1, heq, replayRecord_stored h hm]
  · have hno : storedHashMatches runner (envelopeBytes runner spec) row.requestHash = false := by
      rw [← Bool.not_eq_true, hmatches]
      exact heq
    simp [hno, heq]

end Moira.Admin
