import Moira.Public.Properties.LaterCall

/-!
# Replay

The second answer to a request: what a later call with the same key and body makes of a finished
row.

- **`replay_sameAnswer_iff`** — the answer of the first call comes back exactly when its execution
  succeeded: every failure class is replayed as `502 execution_failed`
-/

namespace Moira.Public

open Prog

section

variable {hasher : IdempotencyHasher} {codec : ResponseCodec} {input later : CallInput}
variable {ledger l : Ledger} {now time : Nat} {record row : IdempotencyRecord} {c : CallLog}
variable {tr tr' : List (Exchange responseSig)} {result result' : Except AppError PublicResponse}

/-! ## A call that is served without an error -/

theorem stepErred_of_stepBroke {o : ResponseOp} {x : o.Ans} (hx : callAnswers c o x)
    (h : stepBroke o x = true) : stepErred o x = true := by
  cases o with
  | finishIdempotency p status body resourceId =>
    obtain ⟨written, committed⟩ := x
    cases written with
    | error err => rfl
    | ok =>
      have hcommitted : committed = true := hx
      simp [stepBroke, hcommitted] at h
  | _ => exact h

theorem whole_of_not_erred (hhonest : callContract.Honest c tr)
    (herred : (callContract.track c tr).erred = false) (hwhole : c.erred = false → c.broken = false) :
    (callContract.track c tr).broken = false := by
  induction tr generalizing c with
  | nil => exact hwhole herred
  | cons e tr ih =>
    obtain ⟨o, x⟩ := e
    obtain ⟨hanswers, hrest⟩ := hhonest
    refine ih hrest herred fun hnext => ?_
    have hnext : (c.erred || stepErred o x) = false := hnext
    rw [Bool.or_eq_false_iff] at hnext
    have hbroke : stepBroke o x = false := by
      cases hbroke : stepBroke o x with
      | false => rfl
      | true => rw [stepErred_of_stepBroke hanswers hbroke] at hnext; cases hnext.2
    show (c.broken || (c.claimed.isSome && stepBroke o x)) = false
    rw [hwhole hnext.1, hbroke]
    simp

/-! ## The replay -/

theorem wp_replay {policy : ApplicationExecutionPolicy} {p : Position} {body : Json}
    (h : Sees l time c) (hrow : l.get time p = some row) (hbody : row.responseBody = some body) :
    wp callContract (replayOrRespond hasher codec later policy (some p)) c
      (fun _ response => replayAnswer codec row body = .ok response)
      (fun c' err => c'.erred = false → replayAnswer codec row body = .error err) := by
  unfold replayOrRespond replayIdempotency
  rw [wp_bind]
  refine wp_step (.getIdempotencyRecord .replay p) id (fun _ _ => erred_absurd) (fun _ => rfl)
    fun x found hanswers hx => ?_
  obtain rfl : x = .ok found := hx
  have hfound : found = some row := by
    have hget : found = c.ledger.get c.now p := hanswers
    rw [hget, h.ledger_eq, h.now_eq, hrow]
  subst hfound
  dsimp only
  rw [hbody]
  dsimp only
  cases replayAnswer codec row body with
  | ok response => rfl
  | error err => exact fun _ => rfl

/-- A call that finds a finished row answers from it. -/
theorem result_of_replay (h : LeftBehind hasher input later ledger l now time record row)
    (hposition : row.position = record.position)
    (hhash : row.requestHash = hasher.hash later.requestBytes) {body : Json}
    (hbody : row.responseBody = some body) (hlive : time < record.expiresAt)
    (hrun : After (createResponse hasher codec later) tr (ofExcept result))
    (hhonest : HonestCall l time tr) (herred : (logOf l time tr).erred = false) :
    result = replayAnswer codec row body := by
  have hdecision : claimDecision hasher later l time = .ok (some record.position) := by
    rw [h.laterDecision_live hlive]
    simp [foundDecision, replayedIdempotencyState, hhash, hasher.verify_hash, hbody, hposition,
      Except.map]
  have hrow : l record.position = some row := by
    rcases h.position_cases with hrow | ⟨-, hexpired⟩
    · exact hrow
    · omega
  have hget : l.get time record.position = some row :=
    Ledger.get_eq_some.mpr ⟨hrow, h.expiresAt ▸ hlive⟩
  have hwp : wp callContract (createResponse hasher codec later) (CallLog.start l time)
      (fun _ response => replayAnswer codec row body = .ok response)
      (fun c err => c.erred = false → replayAnswer codec row body = .error err) := by
    refine wp_createResponse (fun _ _ => erred_absurd) sees_start ?_ ?_
    · intro c' policy state hstate hsees
      rw [hdecision] at hstate
      obtain rfl := Except.ok.inj hstate
      exact wp_replay (hsees _ rfl (by simp [hrow])) hget hbody
    · intro c' err herr
      rw [hdecision] at herr
      cases herr
  have hend := wp_after hrun hhonest hwp
  cases result with
  | ok response => exact hend.symm
  | error err => exact (hend herred).symm

/-! ## The two answers -/

theorem failureHttpStatus_ge (failureClass : ExecutionFailureClass) :
    400 ≤ failureHttpStatus failureClass := by
  cases failureClass <;> decide

theorem replayAnswer_succeeded {response : PublicResponse} (hstatus : row.responseStatus = some 200)
    (hcodec : codec.decode (codec.encode response) = .ok response) :
    replayAnswer codec row (codec.encode response) = .ok response := by
  simp [replayAnswer, hstatus, hcodec]

theorem replayAnswer_failed {failure : ExecutionFailure}
    (hstatus : row.responseStatus = some (failureHttpStatus failure.failureClass : Int)) :
    replayAnswer codec row (failureBody input failure) =
      .error (.coded 502 "execution_failed" failure.message) := by
  have hge : (400 : Int) ≤ (failureHttpStatus failure.failureClass : Int) := by
    have := failureHttpStatus_ge failure.failureClass
    omega
  simp [replayAnswer, hstatus, hge, storedMessage, failureBody, Json.get, Json.asStr]

/--
**The replay gives the answer of the first call** exactly when the first execution succeeded. The
first call has claimed the key and met no error of a step; the later call has the same key, actor
and body, comes before the row expires, and meets no error of its own.
-/
theorem replay_sameAnswer_iff
    (hrun : After (createResponse hasher codec input) tr (ofExcept result))
    (hhonest : HonestCall ledger now tr) (hclaimed : (logOf ledger now tr).claimed = some record)
    (herred : (logOf ledger now tr).erred = false)
    (hcaller : SameCaller input later) (hbytes : later.requestBytes = input.requestBytes)
    (hrests : Rests hasher input (logOf ledger now tr).ledger l time) (hle : now ≤ time)
    (hlive : time < record.expiresAt)
    (hrun' : After (createResponse hasher codec later) tr' (ofExcept result'))
    (hhonest' : HonestCall l time tr') (herred' : (logOf l time tr').erred = false)
    (hcodec : ∀ response, result = .ok response →
      codec.decode (codec.encode response) = .ok response) :
    ∃ outcome, (logOf ledger now tr).outcome = some outcome ∧
      (httpAnswer later.requestId result' = httpAnswer input.requestId result ↔
        outcome.status = .succeeded) := by
  have hwhole := whole_of_not_erred hhonest herred fun _ => rfl
  obtain ⟨hclaim, ⟨hbroken, -⟩ | ⟨-, outcome, row, answer, houtcome, hledger, hposition, hhash,
    hexpires, hstored, hanswer⟩⟩ := ended_createResponse hrun hhonest record hclaimed
  · exact absurd (hbroken.symm.trans hwhole) (by simp)
  have hleft : LeftBehind hasher input later ledger l now time record row :=
    ⟨hclaim, hexpires, hcaller, hledger ▸ hrests, hle⟩
  have hhash' : row.requestHash = hasher.hash later.requestBytes := by
    rw [hhash, hclaim.requestHash, hbytes]
  obtain rfl := hanswer herred
  refine ⟨outcome, houtcome, ?_⟩
  unfold Stored at hstored
  split at hstored
  · next hstatus =>
    obtain ⟨response, hrow, hbody, rfl⟩ := hstored
    have hreplayed := result_of_replay hleft hposition hhash' hbody hlive hrun' hhonest' herred'
    rw [replayAnswer_succeeded hrow (hcodec response rfl)] at hreplayed
    simp [hreplayed, hstatus, httpAnswer]
  · next hstatus =>
    obtain ⟨hrow, hbody, rfl⟩ := hstored
    have hreplayed := result_of_replay hleft hposition hhash' hbody hlive hrun' hhonest' herred'
    rw [replayAnswer_failed hrow] at hreplayed
    have hcode := (failureCode_ne (reportedFailure outcome).failureClass).2
    simp only [hstatus, iff_false]
    intro heq
    rw [hreplayed] at heq
    simp only [httpAnswer, AppError.coded, AppError.code, HttpAnswer.mk.injEq,
      Option.some.injEq] at heq
    exact hcode heq.2.1.symm

end

/-! ## A success and a failure that are replayed -/

namespace Sample

/-- An execution whose provider did not answer in time. -/
def timedOut : ExecutionOutcome :=
  { succeededWith "hi" with
    status := .failed, outputText := none
    failure := some (.new .providerTimeout "provider timed out") }

def failed : List (Exchange responseSig) × Except AppError PublicResponse :=
  workingRun timedOut (createResponse hasher codec input) empty 0

def replayOf (first : List (Exchange responseSig) × Except AppError PublicResponse) :
    List (Exchange responseSig) × Except AppError PublicResponse :=
  workingRun (succeededWith "hi") (createResponse hasher codec input) (logOf empty 0 first.1).ledger 1

end Sample

theorem replay_sameAnswer_served :
    httpAnswer "req-1" (Sample.replayOf Sample.served).2 = httpAnswer "req-1" Sample.served.2 := by
  obtain ⟨hrun, hhonest, herred⟩ := workingRun_spec (succeededWith "hi")
    (createResponse Sample.hasher Sample.codec Sample.input) Sample.empty 0
  obtain ⟨hrun', hhonest', herred'⟩ := workingRun_spec (succeededWith "hi")
    (createResponse Sample.hasher Sample.codec Sample.input)
    (logOf Sample.empty 0 Sample.served.1).ledger 1
  have hclaimed : (logOf Sample.empty 0 Sample.served.1).claimed = some Sample.record := by
    decide +kernel
  have hresult : Sample.served.2 = .ok Sample.greeting := by rfl
  have hcodec : ∀ response, Sample.served.2 = .ok response →
      Sample.codec.decode (Sample.codec.encode response) = .ok response := by
    intro response h
    rw [hresult] at h
    obtain rfl := Except.ok.inj h
    rfl
  obtain ⟨outcome, houtcome, hiff⟩ := replay_sameAnswer_iff hrun hhonest hclaimed herred
    (Sample.sameCaller _) rfl (Sample.rests_refl _) (by decide) (by decide) hrun' hhonest' herred'
    hcodec
  have hsucceeded : (logOf Sample.empty 0 Sample.served.1).outcome = some (succeededWith "hi") := by
    decide +kernel
  obtain rfl := Option.some.inj (houtcome.symm.trans hsucceeded)
  exact hiff.mpr rfl

/-- A timeout is answered with 504, and replayed as 502 with another code. -/
theorem replay_differs_timedOut :
    ∃ tr tr' result result',
      After (createResponse Sample.hasher Sample.codec Sample.input) tr (ofExcept result) ∧
      HonestCall Sample.empty 0 tr ∧ (logOf Sample.empty 0 tr).erred = false ∧
      (logOf Sample.empty 0 tr).claimed = some Sample.record ∧
      After (createResponse Sample.hasher Sample.codec Sample.input) tr' (ofExcept result') ∧
      HonestCall (logOf Sample.empty 0 tr).ledger 1 tr' ∧
      (logOf (logOf Sample.empty 0 tr).ledger 1 tr').erred = false ∧
      (httpAnswer "req-1" result).status = 504 ∧
      (httpAnswer "req-1" result).code = some "provider_timeout" ∧
      (httpAnswer "req-1" result').status = 502 ∧
      (httpAnswer "req-1" result').code = some "execution_failed" := by
  obtain ⟨hrun, hhonest, herred⟩ := workingRun_spec Sample.timedOut
    (createResponse Sample.hasher Sample.codec Sample.input) Sample.empty 0
  obtain ⟨hrun', hhonest', herred'⟩ := workingRun_spec (succeededWith "hi")
    (createResponse Sample.hasher Sample.codec Sample.input)
    (logOf Sample.empty 0 Sample.failed.1).ledger 1
  exact ⟨_, _, _, _, hrun, hhonest, herred, by decide +kernel, hrun', hhonest', herred',
    by decide +kernel, by decide +kernel, by decide +kernel, by decide +kernel⟩

end Moira.Public
