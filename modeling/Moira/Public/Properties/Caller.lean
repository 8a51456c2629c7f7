import Moira.Public.Properties.Decision

/-!
# What one call makes of the ledger

A call reads the ledger three times and executes when its last read finds no answer. Between the
read that told it "somebody has finished this" and that last read the row can expire.

- `seenContract` — a call dispatches only with a claim of its own, as long as a finished row that it
  found is still there when it reads it for the last time
-/

namespace Moira.Public

open Prog

section

variable {hasher : IdempotencyHasher} {codec : ResponseCodec} {input : CallInput}
variable {inputs : Nat → CallInput} {seen : CallSeen} {α β : Type}

/-! ## One call -/

def seenContract (hasher : IdempotencyHasher) (input : CallInput) : Contract responseSig CallSeen where
  may
    | _, .claimInsert record =>
      ∃ key, input.key = some key ∧ record.position = currentPosition hasher input key
    | seen, .execute => (input.key = none ∨ seen.claimed.isSome = true) ∧ seen.dispatched = false
    | _, _ => True
  answers
    | seen, .getIdempotencyRecord .replay p, .ok answer =>
      ∀ row, seen.found = some row → row.responseBody.isSome = true → row.position = p →
        ∃ row', answer = some row' ∧ row'.responseBody.isSome = true
    | _, _, _ => True
  next := CallSeen.record

/-- The program keeps the contract, and `Q` holds when it returns. -/
abbrev Sound (hasher : IdempotencyHasher) (input : CallInput) (p : Create α) (seen : CallSeen)
    (Q : CallSeen → α → Prop) : Prop :=
  p.wp (seenContract hasher input) seen Q fun _ _ => True

theorem sound_step (o : ResponseOp) (g : o.Ans → Except AppError α) {f : α → Create β}
    {Q : CallSeen → β → Prop} (hmay : (seenContract hasher input).may seen o)
    (hf : ∀ x a, (seenContract hasher input).answers seen o x → g x = .ok a →
      Sound hasher input (f a) (seen.record o x) Q) :
    Sound hasher input (Create.ask o >>= fun x => Create.orFail (g x) >>= f) seen Q := by
  refine ⟨hmay, fun x hanswers => ?_⟩
  show Sound hasher input (Create.orFail (g x) >>= f) (seen.record o x) Q
  cases hx : g x with
  | error err => trivial
  | ok a => exact hf x a hanswers hx

theorem sound_admission : Sound hasher input admission seen (fun seen' _ => seen' = seen) := by
  refine sound_step .authorize id trivial fun _ applicationId _ _ => ?_
  refine sound_step (.executionPolicy applicationId) id trivial fun _ policy _ _ => ?_
  split
  · trivial
  refine sound_step (.checkRateLimit _) id trivial fun _ _ _ _ => ?_
  exact sound_step .prepareExecution id trivial fun _ _ _ _ => rfl

theorem sound_probe (positions : List Position) :
    Sound hasher input (probe positions) seen (fun seen' found =>
      seen' = { seen with found := found.or seen.found }) := by
  induction positions with
  | nil => rfl
  | cons p rest ih =>
    refine sound_step (.getIdempotencyRecord .probe p) id trivial fun x row _ hx => ?_
    obtain rfl : x = .ok row := hx
    cases row with
    | some row => rfl
    | none => exact ih

theorem sound_claimRecord {record : IdempotencyRecord}
    (hmay : ∃ key, input.key = some key ∧ record.position = currentPosition hasher input key) :
    Sound hasher input (claimRecord record) seen (fun seen' existing =>
      match existing with
      | some row => seen' = { seen with found := some row }
      | none => seen' = { seen with claimed := some record }) := by
  refine sound_step (.claimInsert record) (·.result) hmay fun written inserted _ hwritten => ?_
  obtain ⟨result, committed⟩ := written
  obtain rfl : result = .ok inserted := hwritten
  cases inserted with
  | true => exact rfl
  | false =>
    refine sound_step (.getIdempotencyRecord .conflict _) id trivial fun x row _ hx => ?_
    obtain rfl : x = .ok row := hx
    cases row with
    | some row => exact rfl
    | none => trivial

/-- What a call may rest on when it comes back from the ledger. -/
def Entitled (input : CallInput) (seen : CallSeen) (state : Option Position) : Prop :=
  seen.dispatched = false ∧
    ((input.key = none ∧ state = none) ∨ seen.claimed.isSome = true ∨
      ∃ row, seen.found = some row ∧ row.responseBody.isSome = true ∧ state = some row.position)

theorem replayedState_ok {existing : IdempotencyRecord} {p : Position}
    (h : replayedIdempotencyState hasher input existing = .ok p) :
    existing.responseBody.isSome = true ∧ p = existing.position := by
  unfold replayedIdempotencyState at h
  split at h
  · cases h
  · split at h
    · cases h
    · next hbody =>
      refine ⟨?_, (Except.ok.inj h).symm⟩
      cases hresponse : existing.responseBody with
      | none => simp [hresponse] at hbody
      | some body => rfl

theorem sound_found {existing : IdempotencyRecord} (hnot : seen.dispatched = false)
    (hfound : seen.found = some existing) :
    Sound hasher input (Create.orFail (replayedIdempotencyState hasher input existing)) seen
      (fun seen' p => Entitled input seen' (some p)) := by
  cases hstate : replayedIdempotencyState hasher input existing with
  | error err => trivial
  | ok p =>
    obtain ⟨hbody, rfl⟩ := replayedState_ok hstate
    exact ⟨hnot, .inr (.inr ⟨existing, hfound, hbody, rfl⟩)⟩

theorem sound_claimKey {key : String} (hkey : input.key = some key)
    (hnot : seen.dispatched = false) :
    Sound hasher input (claimKey hasher input key) seen
      (fun seen' p => Entitled input seen' (some p)) := by
  refine wp_bind_mono (sound_probe _) fun seen₁ found hfound => ?_
  subst hfound
  cases found with
  | some existing => exact sound_found hnot rfl
  | none =>
    refine ⟨trivial, fun time _ => ?_⟩
    show Sound hasher input (claimRecord _ >>= _) _ _
    refine wp_bind_mono (sound_claimRecord ⟨key, hkey, rfl⟩) fun seen₂ existing hexisting => ?_
    cases existing with
    | some existing =>
      obtain rfl := hexisting
      exact sound_found hnot rfl
    | none =>
      obtain rfl := hexisting
      exact ⟨hnot, .inr (.inl rfl)⟩

theorem sound_claimIdempotency (hnot : seen.dispatched = false) :
    Sound hasher input (claimIdempotency hasher input) seen (Entitled input) := by
  cases hkey : input.key with
  | none =>
    simp only [claimIdempotency, hkey]
    exact ⟨hnot, .inl ⟨hkey, rfl⟩⟩
  | some key =>
    simp only [claimIdempotency, hkey]
    exact wp_bind_mono (sound_claimKey hkey hnot) fun _ p hentitled => hentitled

variable {state : Option Position}

theorem sound_finish {status : Int} {body : Json} {resourceId : String} :
    Sound hasher input (finish state status body resourceId) seen fun _ _ => True := by
  cases state with
  | none => trivial
  | some p =>
    refine ⟨trivial, fun written _ => ?_⟩
    show Sound hasher input (Create.orFail written.result) _ _
    cases written.result <;> trivial

theorem sound_respond {policy : ApplicationExecutionPolicy} (hnot : seen.dispatched = false)
    (hclaim : input.key = none ∨ seen.claimed.isSome = true) :
    Sound hasher input (respond hasher codec input policy state) seen fun _ _ => True := by
  refine sound_step .newConversationService id trivial fun _ _ _ _ => ?_
  refine sound_step .prepareResponseConversation id trivial fun _ link _ _ => ?_
  refine sound_step (.insertResponseStarted _) id trivial fun _ _ _ _ => ?_
  refine sound_step (.audit "response.started") id trivial fun _ _ _ _ => ?_
  refine sound_step .newExecutionService id trivial fun _ _ _ _ => ?_
  refine sound_step .execute id ⟨hclaim, hnot⟩ fun _ outcome _ _ => ?_
  have hfailed : ∀ seen, Sound hasher input (respondFailed hasher input policy state outcome) seen
      fun _ _ => True := by
    intro seen
    refine sound_step (.failResponse _) id trivial fun _ _ _ _ => ?_
    refine sound_step (.audit "response.failed") id trivial fun _ _ _ _ => ?_
    exact wp_bind_mono sound_finish fun _ _ _ => trivial
  have hassistant : ∀ seen, Sound hasher input
      (recordConversationAssistant link outcome.outputText) seen fun _ _ => True := by
    intro seen
    cases link with
    | none => trivial
    | some link =>
      refine ⟨trivial, fun x _ => ?_⟩
      cases x <;> trivial
  split
  · refine sound_step (.completeResponse _) id trivial fun _ _ _ _ => ?_
    refine wp_bind_mono (hassistant _) fun _ _ _ => ?_
    refine sound_step (.audit "response.completed") id trivial fun _ _ _ _ => ?_
    exact wp_bind_mono sound_finish fun _ _ _ => trivial
  · exact hfailed _
  · exact hfailed _

theorem sound_replayIdempotency {p : Position} (h : Entitled input seen (some p)) :
    Sound hasher input (replayIdempotency codec p) seen (fun seen' replay =>
      seen' = seen ∧ (replay = none → seen.claimed.isSome = true)) := by
  refine sound_step (.getIdempotencyRecord .replay p) id trivial fun x answer hanswers hx => ?_
  obtain rfl : x = .ok answer := hx
  obtain ⟨-, ⟨-, hstate⟩ | hclaimed | ⟨row, hfound, hbody, hstate⟩⟩ := h
  · cases hstate
  · cases answer with
    | none => exact ⟨rfl, fun _ => hclaimed⟩
    | some row =>
      dsimp only
      cases row.responseBody with
      | none => exact ⟨rfl, fun _ => hclaimed⟩
      | some body =>
        dsimp only
        cases replayAnswer codec row body with
        | error err => trivial
        | ok response => exact ⟨rfl, fun _ => hclaimed⟩
  · obtain ⟨row', rfl, hbody'⟩ := hanswers row hfound hbody (Option.some.inj hstate).symm
    dsimp only
    cases hresponse : row'.responseBody with
    | none => simp [hresponse] at hbody'
    | some body =>
      dsimp only
      cases replayAnswer codec row' body with
      | error err => trivial
      | ok response => exact ⟨rfl, fun hnone => by cases hnone⟩

theorem sound_replayOrRespond {policy : ApplicationExecutionPolicy}
    (h : Entitled input seen state) :
    Sound hasher input (replayOrRespond hasher codec input policy state) seen fun _ _ => True := by
  cases state with
  | none =>
    obtain ⟨hnot, ⟨hkey, -⟩ | hclaimed | ⟨row, -, -, hstate⟩⟩ := h
    · exact sound_respond hnot (.inl hkey)
    · exact sound_respond hnot (.inr hclaimed)
    · cases hstate
  | some p =>
    refine wp_bind_mono (sound_replayIdempotency h) fun seen' replay hreplay => ?_
    obtain ⟨rfl, hnone⟩ := hreplay
    cases replay with
    | some response => trivial
    | none => exact sound_respond h.1 (.inr (hnone rfl))

/-- `create_response` keeps the contract. -/
theorem sound_createResponse :
    Sound hasher input (createResponse hasher codec input) {} fun _ _ => True := by
  refine wp_bind_mono sound_admission fun seen₁ policy hseen => ?_
  subst hseen
  refine wp_bind_mono (sound_claimIdempotency rfl) fun seen₂ state hentitled => ?_
  exact sound_replayOrRespond hentitled

end

end Moira.Public
