import Mathlib.Tactic.Common
import Moira.Public.Retention

/-!
# Expiry and retention

- **`expiry_times_in_range_iff`** — of the four times, the one of the ledgers is always in range
- **`live_responses_kept`** — a call that ends within its retention finds its row
-/

namespace Moira

namespace Expiry

open Pagination (DateTime)

/-- `9999-12-31T23:59:59.999999999Z` -/
def endOfYear9999 : Int := 253402300799999999999

/-- The whole seconds from the clock to the last date there is. -/
def secondsLeft (now : DateTime) : Int :=
  (8210266876799999999999 - now.nanos) / 1000000000

theorem addDelta_ok_iff {t : DateTime} {d : TimeDelta} :
    (∃ u, addDelta t d = .ok u) ↔
      -8334601228800000000000 ≤ t.nanos + d.nanos ∧ t.nanos + d.nanos ≤ 8210266876799999999999 := by
  unfold addDelta
  split
  · next h => exact iff_of_true ⟨_, rfl⟩ h
  · next h => exact iff_of_false (by rintro ⟨u, hu⟩; cases hu) h

theorem addSeconds_iff {now : DateTime} {n : Int} (hn : 0 ≤ n) :
    (∃ u, (TimeDelta.seconds n >>= addDelta now) = .ok u) ↔ n ≤ secondsLeft now := by
  have hlower := now.lower
  have hupper := now.upper
  have hleft : n ≤ secondsLeft now ↔ now.nanos + n * 1000000000 ≤ 8210266876799999999999 := by
    unfold secondsLeft
    omega
  rw [hleft]
  unfold TimeDelta.seconds
  split
  · next h =>
    show (∃ u, addDelta now _ = .ok u) ↔ _
    rw [addDelta_ok_iff]
    show -8334601228800000000000 ≤ now.nanos + n * 1000000000 ∧
      now.nanos + n * 1000000000 ≤ 8210266876799999999999 ↔ _
    omega
  · next h =>
    refine iff_of_false (by rintro ⟨u, hu⟩; cases hu) ?_
    omega

theorem addSeconds_some_iff {now : DateTime} {n : Int} (hn : 0 ≤ n) :
    (∃ u, (do return some (← addDelta now (← TimeDelta.seconds n)) : Except Panic (Option DateTime)) =
      .ok u) ↔ n ≤ secondsLeft now := by
  rw [← addSeconds_iff hn]
  cases TimeDelta.seconds n with
  | error e => exact iff_of_false (by rintro ⟨u, hu⟩; cases hu) (by rintro ⟨u, hu⟩; cases hu)
  | ok d =>
    show (∃ u, (do return some (← addDelta now d) : Except Panic (Option DateTime)) = .ok u) ↔
      ∃ u, addDelta now d = .ok u
    cases addDelta now d with
    | error e => exact iff_of_false (by rintro ⟨u, hu⟩; cases hu) (by rintro ⟨u, hu⟩; cases hu)
    | ok t => exact iff_of_true ⟨_, rfl⟩ ⟨_, rfl⟩

theorem retention_ok_iff {n : Int64} {now : DateTime} (hn : 0 ≤ n.toInt) :
    (∃ u, retentionExpiresAt n now = .ok u) ↔ n = 0 ∨ n.toInt ≤ secondsLeft now := by
  unfold retentionExpiresAt
  split
  · next hzero => exact iff_of_true ⟨none, rfl⟩ (.inl hzero)
  · next hzero => rw [addSeconds_some_iff hn, or_iff_right hzero]

theorem conversation_ok_iff {n : Int32} {now : DateTime} (hn : 0 ≤ n.toInt) :
    (∃ u, conversationExpiresAt n now = .ok u) ↔ n = 0 ∨ n.toInt * 86400 ≤ secondsLeft now := by
  unfold conversationExpiresAt
  split
  · next hzero => exact iff_of_true ⟨none, rfl⟩ (.inl hzero)
  · next hzero =>
    have hdays : 0 ≤ n.toInt * 86400 := by omega
    rw [or_iff_right hzero, ← addSeconds_some_iff hdays]
    rfl

theorem token_ok_iff {expiresIn : Option Int64} {now : DateTime} :
    (∃ u, tokenExpiresAt expiresIn now = .ok u) ↔
      ∀ seconds, expiresIn = some seconds → max seconds.toInt 0 ≤ secondsLeft now := by
  unfold tokenExpiresAt
  cases expiresIn with
  | none => exact iff_of_true ⟨none, rfl⟩ (by simp)
  | some seconds =>
    rw [addSeconds_some_iff (le_max_right _ _)]
    constructor
    · rintro hle _ ⟨⟩
      exact hle
    · intro hall
      exact hall seconds rfl

theorem idempotency_ok {now : DateTime} (hnow : now.nanos ≤ endOfYear9999) :
    ∃ u, idempotencyExpiresAt now = .ok u := by
  have hday : (24 : Int) * 3600 ≤ secondsLeft now := by
    unfold secondsLeft
    unfold endOfYear9999 at hnow
    omega
  exact (addSeconds_iff (by decide)).mpr hday

theorem retentionAfter_nonneg {row : ExecutionPolicyRow} {request : PolicyPutRequest}
    (h : validatePolicyRequest request = .ok ()) : 0 ≤ (retentionAfter row request).toInt := by
  unfold retentionAfter
  cases hretention : request.responseRetentionSeconds with
  | none => exact row.nonneg
  | some n =>
    unfold validatePolicyRequest at h
    split at h
    · cases h
    · next hbounds =>
      simp only [hretention, Option.any_some, Bool.or_eq_true, decide_eq_true_eq, not_or] at hbounds
      show 0 ≤ n.toInt
      omega

/-- The retention after the request, that of new conversations and the lifetime of the token all end
within the range of dates. -/
structure WithinDates (row : ExecutionPolicyRow) (request : PolicyPutRequest)
    (conversations : ConversationRetention) (expiresIn : Option Int64) (now : DateTime) : Prop where
  response : retentionAfter row request = 0 ∨ (retentionAfter row request).toInt ≤ secondsLeft now
  conversation : conversations.defaultRetentionDays = 0 ∨
    conversations.defaultRetentionDays.toInt * 86400 ≤ secondsLeft now
  token : ∀ seconds, expiresIn = some seconds → max seconds.toInt 0 ≤ secondsLeft now

/-- **When no expiry time panics**, under a policy that was accepted and up to the year 9999. -/
theorem expiry_times_in_range_iff {row : ExecutionPolicyRow} {request : PolicyPutRequest}
    {conversations : ConversationRetention} {expiresIn : Option Int64} {now : DateTime}
    (haccepted : validatePolicyRequest request = .ok ()) (hnow : now.nanos ≤ endOfYear9999) :
    ((∃ u, retentionExpiresAt (retentionAfter row request) now = .ok u) ∧
      (∃ u, conversationExpiresAt conversations.defaultRetentionDays now = .ok u) ∧
      (∃ u, idempotencyExpiresAt now = .ok u) ∧
      (∃ u, tokenExpiresAt expiresIn now = .ok u)) ↔
      WithinDates row request conversations expiresIn now := by
  rw [retention_ok_iff (retentionAfter_nonneg haccepted), conversation_ok_iff conversations.nonneg,
    token_ok_iff]
  constructor
  · rintro ⟨hresponse, hconversation, -, htoken⟩
    exact ⟨hresponse, hconversation, htoken⟩
  · rintro ⟨hresponse, hconversation, htoken⟩
    exact ⟨hresponse, hconversation, idempotency_ok hnow, htoken⟩

namespace Sample

/-- The 25th of July 2025. -/
def now : DateTime := ⟨1753401600000000000, by decide, by decide⟩

def monthly : PolicyPutRequest := { responseRetentionSeconds := some 2592000 }

def endless : PolicyPutRequest := { responseRetentionSeconds := some 9223372036854775807 }

def ninetyDays : ConversationRetention := ⟨90, by decide⟩

end Sample

/-- A month of retention and a token of an hour. -/
theorem expiry_times_in_range_monthly :
    ((∃ u, retentionExpiresAt (retentionAfter {} Sample.monthly) Sample.now = .ok u) ∧
      (∃ u, conversationExpiresAt Sample.ninetyDays.defaultRetentionDays Sample.now = .ok u) ∧
      (∃ u, idempotencyExpiresAt Sample.now = .ok u) ∧
      (∃ u, tokenExpiresAt (some 3600) Sample.now = .ok u)) ↔
      WithinDates {} Sample.monthly Sample.ninetyDays (some 3600) Sample.now :=
  expiry_times_in_range_iff rfl (by decide)

/-- **An accepted retention that panics.** -/
theorem accepted_retention_panics :
    ¬∀ (row : ExecutionPolicyRow) (request : PolicyPutRequest) (conversations : ConversationRetention)
      (expiresIn : Option Int64) (now : DateTime),
      validatePolicyRequest request = .ok () → now.nanos ≤ endOfYear9999 →
      (∃ u, retentionExpiresAt (retentionAfter row request) now = .ok u) ∧
        (∃ u, conversationExpiresAt conversations.defaultRetentionDays now = .ok u) ∧
        (∃ u, idempotencyExpiresAt now = .ok u) ∧
        (∃ u, tokenExpiresAt expiresIn now = .ok u) := by
  intro hall
  obtain ⟨⟨u, hu⟩, -⟩ := hall {} Sample.endless Sample.ninetyDays none Sample.now rfl (by decide)
  have hpanic : retentionExpiresAt (retentionAfter {} Sample.endless) Sample.now =
      .error .durationOutOfBounds := by decide
  rw [hpanic] at hu
  cases hu

end Expiry

namespace Public

open Prog System Transition

/-! ## What one call does -/

inductive LifeGhost
  | before
  | reading (at_ : Nat)
  | inserted
  /-- Its insert has failed. -/
  | refused

def LifeGhost.next (g : LifeGhost) : (o : LifeOp) → o.Ans → LifeGhost
  | .now, time => .reading time
  | .insertStarted _, written => if written.result.isOk then .inserted else .refused
  | _, _ => g

def LifeMay (responseRetentionSeconds : Nat) (g : LifeGhost) : LifeOp → Prop
  | .now => g = .before
  | .insertStarted expiresAt => (g = .before ∧ expiresAt = none) ∨
      ∃ t, g = .reading t ∧ expiresAt = some (t + responseRetentionSeconds * 1000000)
  | .terminal _ => g = .inserted
  | _ => True

def lifeContract (responseRetentionSeconds : Nat) : Contract lifeSig LifeGhost where
  may := LifeMay responseRetentionSeconds
  answers _ _ _ := True
  next := LifeGhost.next

/-- The operations that are not about the row, and the terminal updates. -/
def leavesInsert : LifeOp → Prop
  | .newExecution | .executeStream | .request _ | .supervisor _ | .terminal _ => True
  | _ => False

def insertsRow : ResponseOp → Bool
  | .insertResponseStarted _ => true
  | _ => false

def writesRow : ResponseOp → Bool
  | .insertResponseStarted _ | .completeResponse _ | .failResponse _ => true
  | _ => false

theorem only_interpret {S T : Sig} {ε α : Type} {P : S.Op → Prop} {P' : T.Op → Prop}
    {h : (o : S.Op) → Prog T ε (S.Ans o)} {p : Prog S ε α} (hp : p.Only P) (hh : ∀ o, P o → (h o).Only P') :
    (p.interpret h).Only P' := by
  induction p with
  | ret a => trivial
  | fail e => trivial
  | op o k ih => exact only_bind (hh o hp.1) fun x => ih x (hp.2 x)

variable {g : LifeGhost}

section

variable {r : Nat} {ε α β : Type}

abbrev Lives (r : Nat) (p : Prog lifeSig ε α) (g : LifeGhost) (Q : LifeGhost → α → Prop) : Prop :=
  p.wp (lifeContract r) g Q (fun _ _ => True)

theorem lives_of_leavesInsert {p : Prog lifeSig ε α} {Q : LifeGhost → α → Prop} (hp : p.Only leavesInsert)
    (hQ : ∀ a, Q .inserted a) : Lives r p .inserted Q := by
  refine wp_of_only (R := fun _ => True) hp (returns_true p) (fun o ho => ?_) (fun o ho x => ?_)
    (fun a _ => hQ a) fun _ => trivial
  · cases o <;> first | exact ho.elim | exact rfl | exact trivial
  · cases o <;> first | exact ho.elim | rfl

theorem lives_insertResponseStarted : Lives r (insertResponseStarted (ε := ε) r) .before fun g' inserted =>
    ∀ record, inserted = .ok record → g' = .inserted := by
  have hinsert : ∀ (g : LifeGhost) (expiresAt : Option Nat), LifeMay r g (.insertStarted expiresAt) →
      Lives r (ask (S := lifeSig) (ε := ε) (.insertStarted expiresAt) >>= fun written => .ret written.result) g
        fun g' inserted => ∀ record, inserted = .ok record → g' = .inserted := by
    intro g expiresAt hmay
    refine ⟨hmay, fun written _ record hrecord => ?_⟩
    show LifeGhost.next g (.insertStarted expiresAt) written = .inserted
    have hrecord : written.result = .ok record := hrecord
    simp [LifeGhost.next, hrecord, Except.isOk, Except.toBool]
  unfold insertResponseStarted retentionExpiresAt
  split
  · exact hinsert .before none (.inl ⟨rfl, rfl⟩)
  · exact ⟨rfl, fun now _ => hinsert (.reading now) _ (.inr ⟨now, rfl, rfl⟩)⟩

/-! ### The supervisor -/

theorem only_performSupervisor (o : SupervisorOp) : (performSupervisor o).Only leavesInsert := by
  cases o <;> exact ⟨trivial, fun _ => trivial⟩

theorem only_any {S : Sig} (p : Prog S ε α) : p.Only fun _ => True := by
  induction p with
  | ret a => trivial
  | fail e => trivial
  | op o k ih => exact ⟨trivial, ih⟩

theorem lives_supervisor (ctx : StreamContext) (point : SupervisorPoint) :
    Lives r ((Supervisor.code ctx point).interpret performSupervisor) .inserted fun g' _ => g' = .inserted :=
  lives_of_leavesInsert (only_interpret (only_any _) fun o _ => only_performSupervisor o) fun _ => rfl

theorem lives_streamResponse : Lives r (streamResponse r) .before fun g' _ => g' = .inserted := by
  unfold streamResponse
  refine ⟨trivial, fun prepared _ => wp_ofExcept_bind (fun _ _ => ?_) fun _ _ => trivial⟩
  refine wp_bind_mono lives_insertResponseStarted fun g' inserted hinserted => ?_
  refine wp_ofExcept_bind (fun record hrecord => ?_) fun _ _ => trivial
  obtain rfl := hinserted record hrecord
  refine lives_of_leavesInsert ?_ fun _ => rfl
  rw [ask_bind]
  refine ⟨trivial, fun audited => only_bind (only_ofExcept audited) fun _ => ?_⟩
  rw [ask_bind]
  refine ⟨trivial, fun made => only_bind (only_ofExcept made) fun _ => ?_⟩
  refine ⟨trivial, fun started => ?_⟩
  cases started with
  | ok _ => trivial
  | error err => exact ⟨trivial, fun _ => trivial⟩

/-! ### The awaited call -/

theorem only_orFail {P : ResponseOp → Prop} {o : ResponseOp} {f : o.Ans → Except AppError α}
    {k : α → Create β} (ho : P o) (hk : ∀ a, (k a).Only P) :
    (Create.ask o >>= fun x => Create.orFail (f x) >>= k).Only P := by
  refine only_bind (only_ask.mpr ho) fun x => ?_
  exact only_bind (only_ofExcept (f x)) hk

section

variable {hasher : IdempotencyHasher} {codec : ResponseCodec} {input : CallInput}

theorem quiet_admission : admission.Only fun o => writesRow o = false := by
  unfold admission
  refine only_orFail (by rfl) fun applicationId => only_orFail (by rfl) fun policy => ?_
  split
  · trivial
  · exact only_orFail (by rfl) fun _ => only_orFail (by rfl) fun _ => trivial

theorem quiet_probe (positions : List Position) : (probe positions).Only fun o => writesRow o = false := by
  induction positions with
  | nil => trivial
  | cons p rest ih =>
    refine only_orFail (by rfl) fun found => ?_
    cases found with
    | some existing => trivial
    | none => exact ih

theorem quiet_claimRecord (record : IdempotencyRecord) :
    (claimRecord record).Only fun o => writesRow o = false := by
  unfold claimRecord
  refine only_orFail (by rfl) fun claimed => ?_
  split
  · trivial
  · refine only_orFail (by rfl) fun found => ?_
    cases found <;> trivial

theorem quiet_claimIdempotency : (claimIdempotency hasher input).Only fun o => writesRow o = false := by
  unfold claimIdempotency
  cases input.key with
  | none => trivial
  | some key =>
    refine only_bind ?_ fun _ => trivial
    unfold claimKey
    refine only_bind (quiet_probe _) fun found => ?_
    cases found with
    | some existing => exact only_ofExcept _
    | none =>
      refine only_bind (only_ask.mpr rfl) fun now => only_bind (quiet_claimRecord _) fun claimed => ?_
      cases claimed with
      | none => trivial
      | some existing => exact only_ofExcept _

theorem quiet_replayIdempotency (p : Position) :
    (replayIdempotency codec p).Only fun o => writesRow o = false := by
  unfold replayIdempotency
  refine only_orFail (by rfl) fun found => ?_
  cases found with
  | none => trivial
  | some record =>
    dsimp only
    cases record.responseBody with
    | none => trivial
    | some body => exact only_bind (only_ofExcept _) fun _ => trivial

theorem quiet_finish (state : Option Position) (status : Int) (body : Json) (resourceId : String) :
    (finish state status body resourceId).Only fun o => insertsRow o = false := by
  unfold finish
  cases state with
  | none => trivial
  | some p => exact ⟨rfl, fun written => only_ofExcept _⟩

variable {policy : ApplicationExecutionPolicy} {state : Option Position}

theorem quiet_respondSucceeded {link : Option ConversationLink} {outcome : ExecutionOutcome} :
    (respondSucceeded hasher codec policy state link outcome).Only fun o => insertsRow o = false := by
  unfold respondSucceeded
  refine only_orFail (by rfl) fun record => only_bind ?_ fun _ => only_orFail (by rfl) fun _ =>
    only_bind (quiet_finish _ _ _ _) fun _ => trivial
  unfold recordConversationAssistant
  cases link with
  | none => trivial
  | some link => exact ⟨rfl, fun recorded => only_ofExcept _⟩

theorem quiet_respondFailed {outcome : ExecutionOutcome} :
    (respondFailed hasher input policy state outcome).Only fun o => insertsRow o = false := by
  unfold respondFailed
  exact only_orFail (by rfl) fun record => only_orFail (by rfl) fun _ =>
    only_bind (quiet_finish _ _ _ _) fun _ => trivial

theorem only_performResponse {o : ResponseOp} (ho : insertsRow o = false) :
    (performResponse r o).Only leavesInsert := by
  cases o with
  | insertResponseStarted _ => cases ho
  | _ => exact ⟨trivial, fun _ => trivial⟩

theorem lives_of_quiet {p : Create α} {Q : LifeGhost → α → Prop} (hp : p.Only fun o => writesRow o = false)
    (hQ : ∀ a, Q g a) : Lives r (p.interpret (performResponse r)) g Q := by
  have hrequest : (p.interpret (performResponse r)).Only fun o : LifeOp => ∃ o', o = .request o' := by
    refine only_interpret hp fun o ho => ?_
    cases o with
    | insertResponseStarted _ => cases ho
    | completeResponse _ => cases ho
    | failResponse _ => cases ho
    | _ => exact ⟨⟨_, rfl⟩, fun _ => trivial⟩
  refine wp_of_only (R := fun _ => True) hrequest (returns_true _) ?_ ?_ (fun a _ => hQ a) fun _ => trivial
  · rintro _ ⟨o', rfl⟩
    trivial
  · rintro _ ⟨o', rfl⟩ x
    rfl

theorem lives_respond :
    Lives r ((respond hasher codec input policy state).interpret (performResponse r)) .before
      fun _ _ => True := by
  unfold respond
  refine ⟨trivial, fun service _ => ?_⟩
  cases service with
  | error err => trivial
  | ok _ =>
    refine ⟨trivial, fun link _ => ?_⟩
    cases link with
    | error err => trivial
    | ok link =>
      refine wp_bind_mono (p := insertResponseStarted r) lives_insertResponseStarted
        fun g' inserted hinserted => ?_
      cases inserted with
      | error err => trivial
      | ok record =>
        obtain rfl := hinserted record rfl
        refine lives_of_leavesInsert (only_interpret ?_ fun _ => only_performResponse) fun _ => trivial
        refine only_orFail (by rfl) fun _ => only_orFail (by rfl) fun _ => only_orFail (by rfl) fun outcome => ?_
        cases outcome.status with
        | succeeded => exact quiet_respondSucceeded
        | failed => exact quiet_respondFailed
        | cancelled => exact quiet_respondFailed

theorem lives_createResponse :
    Lives r ((createResponse hasher codec input).interpret (performResponse r)) .before fun _ _ => True := by
  unfold createResponse
  rw [interpret_bind]
  refine wp_bind_mono (P := fun g' _ => g' = .before) (lives_of_quiet quiet_admission fun _ => rfl)
    fun g' policy hg => ?_
  subst hg
  rw [interpret_bind]
  refine wp_bind_mono (P := fun g' _ => g' = .before) (lives_of_quiet quiet_claimIdempotency fun _ => rfl)
    fun g' state hg => ?_
  subst hg
  cases state with
  | none => exact lives_respond
  | some p =>
    unfold replayOrRespond
    dsimp only
    rw [interpret_bind]
    refine wp_bind_mono (P := fun g' _ => g' = .before) (lives_of_quiet (quiet_replayIdempotency p) fun _ => rfl)
      fun g' replay hg => ?_
    subst hg
    cases replay with
    | some response => trivial
    | none => exact lives_respond

end

theorem lives_start (call : ResponseCall) : Lives call.responseRetentionSeconds call.start .before
    fun g' next => ∀ point, next = some point → g' = .inserted := by
  unfold ResponseCall.start
  cases call.kind with
  | awaited hasher codec input =>
    refine wp_bind.mpr (wp_attempt.mpr ?_)
    exact wp_mono lives_createResponse (fun _ _ _ _ h => nomatch h) fun _ _ _ _ h => nomatch h
  | streamed ctx =>
    refine wp_bind.mpr (wp_attempt.mpr ?_)
    exact wp_mono lives_streamResponse (fun _ _ hg _ _ => hg) fun _ _ _ _ h => nomatch h

theorem lives_code (call : ResponseCall) (point : SupervisorPoint) :
    Lives call.responseRetentionSeconds (call.code point) .inserted fun g' _ => g' = .inserted := by
  unfold ResponseCall.code
  cases call.kind with
  | awaited hasher codec input => rfl
  | streamed ctx => exact lives_supervisor ctx point

end

/-! ## The table -/

variable {calls : Nat → ResponseCall}

/-- What an observer has written down of a call whose ghost state is `g`. -/
def PhaseOf (g : LifeGhost) (phase : ResponsePhase) : Prop :=
  match g with
  | .before => phase = .idle
  | .reading t => phase = .reading t
  | .inserted | .refused => phase = .over ∨ ∃ readAt, phase = .running readAt

/-- The expiry of a row, from what its call has read of the clock. -/
def expiryOf (calls : Nat → ResponseCall) (i : Nat) (readAt : Option Nat) : Option Nat :=
  readAt.map fun t => t + (calls i).responseRetentionSeconds * 1000000

structure RetentionInv (calls : Nat → ResponseCall) (w : RetentionWorld) : Prop where
  keys : (w.rows.map ResponseRow.id).Nodup
  row : ∀ row ∈ w.rows, row.live = true →
    ∃ readAt, w.phase row.id = .running readAt ∧ row.expiresAt = expiryOf calls row.id readAt
  running : ∀ i readAt, w.phase i = .running readAt → ∃ row ∈ w.rows, row.id = i ∧ row.live = true
  inserted : ∀ row ∈ w.rows, (∃ readAt, w.phase row.id = .running readAt) ∨ w.phase row.id = .over
  inTime : ∀ i t, (w.phase i).readAt = some t →
    w.now ≤ t + (calls i).responseRetentionSeconds * 1000000

section

variable {w w' : RetentionWorld} {i : Nat}

theorem not_expired_of_le {expiresAt now : Nat} (h : now ≤ expiresAt) :
    (some expiresAt).any (· < now) = false := by
  simpa using h

variable {row : ResponseRow}

theorem RetentionInv.not_expired (h : RetentionInv calls w) (hrow : row ∈ w.rows)
    (hlive : row.live = true) : row.expired w.now = false := by
  obtain ⟨readAt, hphase, hexpires⟩ := h.row row hrow hlive
  unfold ResponseRow.expired
  rw [hexpires]
  cases readAt with
  | none => rfl
  | some t =>
    exact not_expired_of_le (h.inTime row.id t (by rw [hphase]; rfl))

theorem expired_of_victims {limit : Nat} {locked : List Nat} (hid : i ∈ w.victims limit locked) :
    ∃ row ∈ w.rows, row.id = i ∧ row.expired w.now = true := by
  obtain ⟨row, hrow, rfl⟩ := List.mem_map.mp hid
  have hsorted := List.mem_of_mem_take hrow
  have hfilter := (List.perm_insertionSort _ _).mem_iff.mp hsorted
  obtain ⟨hmem, hexpired⟩ := List.mem_filter.mp hfilter
  exact ⟨row, hmem, rfl, (Bool.and_eq_true_iff.mp hexpired).1⟩

section

variable (h : RetentionInv calls w)
include h

theorem not_victim (hrow : row ∈ w.rows) (hlive : row.live = true) (limit : Nat)
    (locked : List Nat) : row.id ∉ w.victims limit locked := by
  intro hvictim
  obtain ⟨found, hfound, hid, hexpired⟩ := expired_of_victims hvictim
  obtain rfl := Rows.eq_of_key h.keys hfound hrow hid
  rw [h.not_expired hrow hlive] at hexpired
  cases hexpired

/-- **A batch** keeps the rows that are not over. -/
theorem kept_by_sweep (hrow : row ∈ w.rows) (hlive : row.live = true) (limit : Nat)
    (locked : List Nat) : row ∈ (w.deleteExpiredBatch limit locked).rows := by
  refine List.mem_filter.mpr ⟨hrow, ?_⟩
  simpa using not_victim h hrow hlive limit locked

theorem RetentionInv.sweep (limit : Nat) (locked : List Nat) :
    RetentionInv calls (w.deleteExpiredBatch limit locked) where
  keys := h.keys.sublist (List.Sublist.map _ List.filter_sublist)
  row row hrow := h.row row (List.mem_of_mem_filter hrow)
  running i readAt hphase := by
    obtain ⟨row, hrow, hid, hlive⟩ := h.running i readAt hphase
    exact ⟨row, kept_by_sweep h hrow hlive limit locked, hid, hlive⟩
  inserted row hrow := h.inserted row (List.mem_of_mem_filter hrow)
  inTime := h.inTime

theorem RetentionInv.setPhase {phase : ResponsePhase}
    (hbefore : ∀ readAt, w.phase i ≠ .running readAt) (hover : w.phase i ≠ .over)
    (hphase : ∀ readAt, phase ≠ .running readAt)
    (hnow : ∀ t, phase.readAt = some t → w.now ≤ t + (calls i).responseRetentionSeconds * 1000000) :
    RetentionInv calls (w.setPhase i phase) := by
  have hne : ∀ row ∈ w.rows, row.id ≠ i := by
    rintro row hrow rfl
    rcases h.inserted row hrow with ⟨readAt, hrunning⟩ | hdone
    · exact hbefore readAt hrunning
    · exact hover hdone
  refine ⟨h.keys, fun row hrow hlive => ?_, fun j readAt hj => ?_, fun row hrow => ?_, fun j t ht => ?_⟩
  · simpa [RetentionWorld.setPhase, hne row hrow] using h.row row hrow hlive
  · by_cases hji : j = i
    · subst hji
      simp only [RetentionWorld.setPhase, Function.update_self] at hj
      exact absurd hj (hphase readAt)
    · simp only [RetentionWorld.setPhase, Function.update_of_ne hji] at hj
      exact h.running j readAt hj
  · simpa [RetentionWorld.setPhase, hne row hrow] using h.inserted row hrow
  · by_cases hji : j = i
    · subst hji
      simp only [RetentionWorld.setPhase, Function.update_self] at ht
      exact hnow t ht
    · simp only [RetentionWorld.setPhase, Function.update_of_ne hji] at ht
      exact h.inTime j t ht

theorem RetentionInv.insert (hbefore : ∀ readAt, w.phase i ≠ .running readAt)
    (hover : w.phase i ≠ .over) :
    RetentionInv calls (w.inserted i (expiryOf calls i (w.phase i).readAt)) := by
  have hne : ∀ row ∈ w.rows, row.id ≠ i := by
    rintro row hrow rfl
    rcases h.inserted row hrow with ⟨readAt, hrunning⟩ | hdone
    · exact hbefore readAt hrunning
    · exact hover hdone
  have hkeys : ((w.rows ++ [({ id := i, expiresAt := expiryOf calls i (w.phase i).readAt } : ResponseRow)]).map
      ResponseRow.id).Nodup := by
    rw [List.map_append, List.nodup_append]
    refine ⟨h.keys, List.nodup_singleton _, ?_⟩
    rintro _ hid _ hnew rfl
    obtain ⟨row, hrow, rfl⟩ := List.mem_map.mp hid
    exact hne row hrow (List.mem_singleton.mp hnew)
  refine ⟨hkeys, fun row hrow hlive => ?_, fun j readAt hj => ?_, fun row hrow => ?_, fun j t ht => ?_⟩
  · rcases List.mem_append.mp hrow with hold | hnew
    · simpa [RetentionWorld.inserted, RetentionWorld.setPhase, hne row hold] using h.row row hold hlive
    · obtain rfl := List.mem_singleton.mp hnew
      exact ⟨(w.phase i).readAt, by simp [RetentionWorld.inserted, RetentionWorld.setPhase], rfl⟩
  · by_cases hji : j = i
    · subst hji
      exact ⟨_, List.mem_append_right w.rows (List.mem_singleton_self _), rfl, rfl⟩
    · simp only [RetentionWorld.inserted, RetentionWorld.setPhase, Function.update_of_ne hji] at hj
      obtain ⟨row, hrow, hid, hlive⟩ := h.running j readAt hj
      exact ⟨row, List.mem_append_left _ hrow, hid, hlive⟩
  · rcases List.mem_append.mp hrow with hold | hnew
    · simpa [RetentionWorld.inserted, RetentionWorld.setPhase, hne row hold] using h.inserted row hold
    · obtain rfl := List.mem_singleton.mp hnew
      exact .inl ⟨(w.phase i).readAt, by simp [RetentionWorld.inserted, RetentionWorld.setPhase]⟩
  · by_cases hji : j = i
    · subst hji
      refine h.inTime j t ?_
      simpa [RetentionWorld.inserted, RetentionWorld.setPhase, ResponsePhase.readAt] using ht
    · simp only [RetentionWorld.inserted, RetentionWorld.setPhase, Function.update_of_ne hji] at ht
      exact h.inTime j t ht

theorem RetentionInv.terminal (status : PublicResponseStatus) {readAt : Option Nat}
    (hphase : w.phase i = .running readAt) : RetentionInv calls (w.ended i status) := by
  have hother : ∀ j, j ≠ i → (w.ended i status).phase j = w.phase j :=
      fun j hj => Function.update_of_ne hj _ _
  have hself : (w.ended i status).phase i = if status = .inProgress then .running readAt else .over := by
    simp [RetentionWorld.ended, RetentionWorld.setPhase, hphase]
  have hexpiry : ∀ row ∈ w.rows, row.id = i → row.expiresAt = expiryOf calls i readAt := by
    obtain ⟨live, hmem, hid, hlive⟩ := h.running i readAt hphase
    intro row hrow hrowId
    obtain rfl := Rows.eq_of_key h.keys hrow hmem (hrowId.trans hid.symm)
    obtain ⟨found, hfound, hexpires⟩ := h.row row hrow hlive
    rw [hrowId, hphase] at hfound
    cases hfound
    rw [hexpires, hrowId]
  refine ⟨?_, fun row' hrow' hlive => ?_, fun j found hj => ?_, fun row' hrow' => ?_, fun j t ht => ?_⟩
  · show ((Rows.modify ResponseRow.id w.rows i _).map ResponseRow.id).Nodup
    have hids : (Rows.modify ResponseRow.id w.rows i fun row => { row with status := status }).map ResponseRow.id =
        w.rows.map ResponseRow.id := Rows.map_modify fun _ => rfl
    rw [hids]
    exact h.keys
  · obtain ⟨row, hrow, rfl⟩ := Rows.mem_modify.mp hrow'
    by_cases hid : row.id = i
    · rw [if_pos hid] at hlive ⊢
      have hstatus : status = .inProgress := of_decide_eq_true hlive
      refine ⟨readAt, ?_, (hexpiry row hrow hid).trans (by rw [hid])⟩
      show (w.ended i status).phase row.id = .running readAt
      rw [hid, hself, if_pos hstatus]
    · rw [if_neg hid] at hlive ⊢
      rw [hother _ hid]
      exact h.row row hrow hlive
  · by_cases hji : j = i
    · subst hji
      rw [hself] at hj
      split at hj
      · next hstatus =>
        obtain ⟨row, hrow, hid, -⟩ := h.running j readAt hphase
        refine ⟨_, Rows.mem_modify_of_eq hrow hid, hid, ?_⟩
        exact decide_eq_true hstatus
      · cases hj
    · rw [hother j hji] at hj
      obtain ⟨row, hrow, hid, hlive⟩ := h.running j found hj
      exact ⟨row, Rows.mem_modify_of_ne hrow (by rw [hid]; exact hji), hid, hlive⟩
  · obtain ⟨row, hrow, rfl⟩ := Rows.mem_modify.mp hrow'
    by_cases hid : row.id = i
    · rw [if_pos hid]
      show (∃ found, (w.ended i status).phase row.id = .running found) ∨
          (w.ended i status).phase row.id = .over
      rw [hid, hself]
      split
      · exact .inl ⟨readAt, rfl⟩
      · exact .inr rfl
    · rw [if_neg hid, hother _ hid]
      exact h.inserted row hrow
  · by_cases hji : j = i
    · subst hji
      refine h.inTime j t ?_
      rw [hself] at ht
      split at ht
      · rw [hphase]
        exact ht
      · cases ht
    · rw [hother j hji] at ht
      exact h.inTime j t ht

theorem findsLive_running (hlive : w.findsLive i = true) :
    ∃ readAt, w.phase i = .running readAt := by
  obtain ⟨row, hrow, hboth⟩ := List.any_eq_true.mp hlive
  obtain ⟨hid, hlive⟩ := Bool.and_eq_true_iff.mp hboth
  obtain ⟨readAt, hphase, -⟩ := h.row row hrow hlive
  exact ⟨readAt, of_decide_eq_true hid ▸ hphase⟩

end

/-- What a statement does to the table and to the notes. -/
inductive LifeEffect (i : Nat) (w : RetentionWorld) : (o : LifeOp) → o.Ans → RetentionWorld → Prop
  | read (time : Nat) (h : time = w.now) : LifeEffect i w .now time (w.setPhase i (.reading time))
  | inserted (expiresAt : Option Nat) (written : Written PublicResponseRecord) :
      LifeEffect i w (.insertStarted expiresAt) written (w.inserted i expiresAt)
  | refused (expiresAt : Option Nat) (written : Written PublicResponseRecord)
      (h : written.result.isOk = false) :
      LifeEffect i w (.insertStarted expiresAt) written (w.setPhase i .over)
  | ended (status : PublicResponseStatus) (written : Written PublicResponseRecord)
      (h : w.findsLive i = true) : LifeEffect i w (.terminal status) written (w.ended i status)
  | same (o : LifeOp) (x : o.Ans) (h : leavesInsert o ∨ o = .prepareStream) : LifeEffect i w o x w

variable {o : LifeOp}

variable {x : o.Ans}

theorem effect_of_grantLife (h : grantLife i w o x = some w') : LifeEffect i w o x w' := by
  cases o with
  | now =>
    simp only [grantLife] at h
    split at h
    · next htime =>
      cases h
      exact .read x htime
    · cases h
  | insertStarted expiresAt =>
    obtain ⟨result, committed⟩ := x
    cases result <;> cases committed <;> cases h
    · exact .refused expiresAt _ rfl
    · exact .inserted expiresAt _
    · exact .inserted expiresAt _
  | terminal status =>
    obtain ⟨result, committed⟩ := x
    cases result with
    | ok record =>
      cases committed with
      | false => cases h
      | true =>
        simp only [grantLife] at h
        split at h
        · next hlive =>
          cases h
          exact .ended status _ hlive
        · cases h
    | error err =>
      cases committed <;> simp only [grantLife] at h <;> split at h <;> cases h
      · exact .same _ _ (.inl trivial)
      · next hlive => exact .ended status _ hlive.1
  | prepareStream =>
    cases h
    exact .same _ _ (.inr rfl)
  | _ =>
    cases h
    exact .same _ _ (.inl trivial)

theorem LifeEffect.phase_of_ne (h : LifeEffect i w o x w') {j : Nat} (hj : j ≠ i) :
    w'.phase j = w.phase j := by
  cases h with
  | same _ _ _ => rfl
  | _ => exact Function.update_of_ne hj _ _

theorem LifeEffect.phaseOf (h : LifeEffect i w o x w') (hphase : PhaseOf g (w.phase i))
    (hmay : LifeMay (calls i).responseRetentionSeconds g o) :
    PhaseOf (g.next o x) (w'.phase i) := by
  cases h with
  | read time _ => exact Function.update_self ..
  | inserted expiresAt written =>
    have hrunning : (w.inserted i expiresAt).phase i = .running (w.phase i).readAt := Function.update_self ..
    simp only [LifeGhost.next]
    split <;> exact .inr ⟨_, hrunning⟩
  | refused expiresAt written hfailed =>
    have hdone : (w.setPhase i .over).phase i = .over := Function.update_self ..
    simp only [LifeGhost.next, hfailed]
    exact .inl hdone
  | ended status written _ =>
    obtain rfl : g = .inserted := hmay
    have hself : (w.ended i status).phase i = if status = .inProgress then w.phase i else .over :=
      Function.update_self ..
    show _ ∨ _
    rw [hself]
    split
    · exact hphase
    · exact .inl rfl
  | same _ _ hsame =>
    cases o with
    | now => simp [leavesInsert] at hsame
    | insertStarted _ => simp [leavesInsert] at hsame
    | _ => exact hphase

/-- **A statement** of a call that keeps its contract keeps the invariant. -/
theorem RetentionInv.effect (h : RetentionInv calls w) (heffect : LifeEffect i w o x w')
    (hphase : PhaseOf g (w.phase i)) (hmay : LifeMay (calls i).responseRetentionSeconds g o) :
    RetentionInv calls w' := by
  cases heffect with
  | read time htime =>
    obtain rfl : g = .before := hmay
    have hidle : w.phase i = .idle := hphase
    refine h.setPhase (by simp [hidle]) (by simp [hidle]) (fun _ => ResponsePhase.noConfusion) fun t ht => ?_
    obtain rfl : time = t := Option.some.inj ht
    rw [htime]
    exact Nat.le_add_right _ _
  | ended status written hlive =>
    obtain ⟨readAt, hrunning⟩ := findsLive_running h hlive
    exact h.terminal status hrunning
  | same _ _ _ => exact h
  | inserted expiresAt written =>
    rcases hmay with ⟨rfl, rfl⟩ | ⟨t, rfl, rfl⟩
    · have hidle : w.phase i = .idle := hphase
      have hinsert := h.insert (i := i) (by simp [hidle]) (by simp [hidle])
      rwa [hidle] at hinsert
    · have hreading : w.phase i = .reading t := hphase
      have hinsert := h.insert (i := i) (by simp [hreading]) (by simp [hreading])
      rwa [hreading] at hinsert
  | refused expiresAt written _ =>
    have hbefore : (∀ readAt, w.phase i ≠ .running readAt) ∧ w.phase i ≠ .over := by
      rcases hmay with ⟨rfl, rfl⟩ | ⟨t, rfl, rfl⟩
      · have hidle : w.phase i = .idle := hphase
        simp [hidle]
      · have hreading : w.phase i = .reading t := hphase
        simp [hreading]
    exact h.setPhase hbefore.1 hbefore.2 (fun _ => ResponsePhase.noConfusion) fun _ => nofun

end

/-! ## Runs -/

def lifeOutline (calls : Nat → ResponseCall) : Outline (retentionTraffic calls) where
  Ghost _ := LifeGhost
  contract i := lifeContract (calls i).responseRetentionSeconds
  at_ _ _ g := g = .inserted
  shared w γ := ∀ i, PhaseOf (γ i) (w.phase i)
  code_ok i point g hg := by
    subst hg
    exact wp_mono (lives_code (calls i) point) (fun _ _ hg _ _ => hg) fun _ _ h => h
  act_ok := by
    intro i w o x w' γ hshared _ hmay hgrant
    have heffect := effect_of_grantLife hgrant
    refine ⟨trivial, fun j => ?_⟩
    by_cases hj : j = i
    · subst hj
      rw [Function.update_self]
      exact heffect.phaseOf (hshared j) hmay
    · rw [Function.update_of_ne hj, heffect.phase_of_ne hj]
      exact hshared j
  nature_ok := by
    intro w e w' γ hshared hnature
    cases e <;> cases hnature <;> exact hshared

variable {s s' : (retentionTraffic calls).State}

def RetentionHolds (s : (retentionTraffic calls).State) : Prop :=
  (lifeOutline calls).Holds s ∧ RetentionInv calls s.world

theorem retentionHolds_step {m : (retentionTraffic calls).Move} (h : RetentionHolds s) (hm : InTime s m)
    (hstep : (retentionTraffic calls).step s m = some s') : RetentionHolds s' := by
  refine ⟨(lifeOutline calls).holds_step h.1 ?_ hstep, ?_⟩
  · cases m with
    | act i answer => cases hi : s.proc i <;> simp [Guarded, hi, lifeOutline]
    | jump i => trivial
    | nature e => trivial
  obtain ⟨⟨γ, hshared, hwp⟩, hinv⟩ := h
  cases m with
  | act i answer =>
    simp only [System.step] at hstep
    split at hstep
    · next o k hproc =>
      obtain ⟨w, hgrant, rfl⟩ := Option.map_eq_some_iff.mp hstep
      have hpre := hwp i
      rw [hproc] at hpre
      exact hinv.effect (effect_of_grantLife hgrant) (hshared i) hpre.1
    · cases hstep
  | jump i =>
    simp only [System.step] at hstep
    split at hstep
    · cases hstep
      exact hinv
    · cases hstep
  | nature e =>
    obtain ⟨w, hnature, rfl⟩ := Option.map_eq_some_iff.mp hstep
    cases e with
    | elapse micros =>
      cases hnature
      exact { hinv with inTime := hm }
    | sweep limit locked =>
      cases hnature
      exact hinv.sweep limit locked

theorem retentionHolds_atStart : RetentionHolds (retentionAtStart calls) := by
  refine ⟨⟨fun _ => .before, fun _ => rfl, fun i => ?_⟩, ?_⟩
  · exact wp_mono (lives_start (calls i)) (fun _ _ h l hl => h l hl) fun _ _ h => h
  · refine ⟨List.nodup_nil, nofun, fun i readAt h => ?_, nofun, fun i t h => ?_⟩
    · cases h
    · cases h

/-- The next statement of a call is a terminal update. -/
def nextIsTerminal (s : (retentionTraffic calls).State) (i : Nat) : Bool :=
  match s.proc i with
  | .op (.terminal _) _ => true
  | _ => false

/-- No batch deletes a row that is not over, and the terminal update of a call finds its row. -/
structure LiveKept (s : (retentionTraffic calls).State) : Prop where
  sweep : ∀ row ∈ s.world.rows, row.live = true →
    ∀ limit locked, row ∈ (s.world.deleteExpiredBatch limit locked).rows
  terminal : ∀ i, nextIsTerminal s i = true → s.world.phase i ≠ .over → s.world.findsLive i = true

theorem RetentionHolds.liveKept (h : RetentionHolds s) : LiveKept s := by
  obtain ⟨⟨γ, hshared, hwp⟩, hinv⟩ := h
  refine ⟨fun row hrow hlive limit locked => kept_by_sweep hinv hrow hlive limit locked,
    fun i hnext hphase => ?_⟩
  have hpre := hwp i
  unfold nextIsTerminal at hnext
  split at hnext
  · next status k hproc =>
    rw [hproc] at hpre
    have hinserted : γ i = .inserted := hpre.1
    have hnotes := hshared i
    rw [hinserted] at hnotes
    obtain ⟨readAt, hrunning⟩ := Or.resolve_left hnotes hphase
    obtain ⟨row, hrow, hid, hlive⟩ := hinv.running i readAt hrunning
    exact List.any_eq_true.mpr ⟨row, hrow, Bool.and_eq_true_iff.mpr ⟨decide_eq_true hid, hlive⟩⟩
  · cases hnext

/-- **Retention deletes no response that is not over**, in every run in which calls end in time. -/
theorem live_responses_kept {moves : List (retentionTraffic calls).Move}
    (hmeets : Meets (retentionTraffic calls).step InTime (retentionAtStart calls) moves)
    (hrun : runFrom (retentionTraffic calls).step (retentionAtStart calls) moves = some s) : LiveKept s :=
  (runFrom_guarded hrun hmeets retentionHolds_atStart fun _ _ _ => retentionHolds_step).liveKept

/-! ## A retention of one second -/

namespace Sample

def streamContext : StreamContext where
  settings :=
    { defaultExecutionTimeoutMs := 60000, maximumExecutionTimeoutMs := 600000
      maximumRetriesPerCandidate := 2, maximumProviderFallbackCandidates := 2
      maximumTotalUpstreamAttempts := 4, internalStreamQueueCapacity := 32, parseJson := fun _ => none }
  command :=
    { requestId := "r-1", executionId := 1
      identity := { actorType := "ConsumerKey", applicationId := none, scopes := [] }
      applicationId := none, messages := ["hello"], options := { stream := true } }
  streamed := rfl
  hasher :=
    { pepperVersion := "v1", mac := id, secretFingerprint := id, version_plain := defaultVersion_plain }
  persistenceMode := "metadata_only"
  hasConversation := false

def oneSecond : Nat → ResponseCall := fun _ =>
  { responseRetentionSeconds := 1, kind := .streamed streamContext }

def started : PublicResponseRecord where
  id := 0
  executionId := 1
  requestId := "r-1"
  createdAt := 0
  status := .inProgress

/-- The row is inserted, and the stream cannot be started. -/
def refusedAnswers (now : Nat) : (o : LifeOp) → o.Ans
  | .prepareStream | .newExecution => .ok ()
  | .now => now
  | .insertStarted _ => { result := .ok started, committed := true }
  | .executeStream => .error (.internal "no permit")
  | .terminal _ => { result := .ok started, committed := true }
  | .request (.audit _) => .ok ()
  | .request .authorize | .request (.executionPolicy _) | .request (.checkRateLimit _)
  | .request .prepareExecution | .request (.getIdempotencyRecord ..) | .request .newConversationService
  | .request .prepareResponseConversation | .request (.insertResponseStarted _)
  | .request .newExecutionService | .request .execute | .request (.completeResponse _)
  | .request (.recordAssistant ..) | .request (.failResponse _) => .error .sqlx
  | .request .now => now
  | .request (.claimInsert _) => { result := .error .sqlx, committed := false }
  | .request (.finishIdempotency ..) => { result := .error .sqlx, committed := false }
  | .supervisor (.sendPublic _) => true
  | .supervisor .nextEvent => .ended
  | .supervisor .cancel | .supervisor .dropAll => ()
  | .supervisor .drainEvent => false
  | .supervisor .awaitOutcome => none
  | .supervisor .isClosed => false
  | .supervisor (.persist ..) | .supervisor (.recordAssistant _) | .supervisor (.audit ..) => .ok ()

def refusedStream (now : Nat) : List (retentionTraffic oneSecond).Move :=
  List.replicate 6 (.act 0 (refusedAnswers now))

def second : Nat := 1000000

end Sample

open Sample in
/-- A stream that is refused five seconds after the start, and a sweep before its terminal update.
-/
theorem live_responses_kept_refused : ∃ s,
    runFrom (retentionTraffic oneSecond).step (retentionAtStart oneSecond)
      (.nature (.elapse (5 * second)) :: refusedStream (5 * second) ++ [.nature (.sweep 500 [])]) = some s ∧
    nextIsTerminal s 0 = true ∧ LiveKept s := by
  have hsome : ((runFrom (retentionTraffic oneSecond).step (retentionAtStart oneSecond)
      (.nature (.elapse (5 * second)) :: refusedStream (5 * second) ++ [.nature (.sweep 500 [])])).any fun s =>
        nextIsTerminal s 0) = true := by decide +kernel
  obtain ⟨s, hrun, hnext⟩ := (Option.any_eq_true _ _).mp hsome
  have hmeets : Meets (retentionTraffic oneSecond).step InTime (retentionAtStart oneSecond)
      (.nature (.elapse (5 * second)) :: (refusedStream (5 * second) ++ [.nature (.sweep 500 [])])) := by
    refine (meets_cons rfl).mpr ⟨fun i t h => (nomatch h), ?_⟩
    have hnever : ∀ m ∈ refusedStream (5 * second) ++ [.nature (.sweep 500 [])],
        ∀ micros, m ≠ .nature (.elapse micros) := by
      intro m hm micros heq
      rcases List.mem_append.mp hm with hact | hsweep
      · rw [List.eq_of_mem_replicate hact] at heq
        cases heq
      · rw [List.mem_singleton.mp hsweep] at heq
        cases heq
    refine (meets_of_forall hnever).mono fun s m hm => ?_
    cases m with
    | nature e =>
      cases e with
      | elapse micros => exact absurd rfl (hm micros)
      | sweep limit locked => trivial
    | _ => trivial
  exact ⟨s, hrun, hnext, live_responses_kept hmeets hrun⟩

open Sample in
/-- The row of a stream that takes two seconds to be refused is gone before its terminal update. -/
theorem live_response_swept : ∃ s,
    runFrom (retentionTraffic oneSecond).step (retentionAtStart oneSecond)
      (refusedStream 0 ++ [.nature (.elapse (2 * second)), .nature (.sweep 500 [])]) = some s ∧
    ¬LiveKept s := by
  have hsome : ((runFrom (retentionTraffic oneSecond).step (retentionAtStart oneSecond)
      (refusedStream 0 ++ [.nature (.elapse (2 * second)), .nature (.sweep 500 [])])).any fun s =>
        nextIsTerminal s 0 && s.world.phase 0 ≠ .over && !s.world.findsLive 0) = true := by decide +kernel
  obtain ⟨s, hrun, hboth⟩ := (Option.any_eq_true _ _).mp hsome
  simp only [Bool.and_eq_true, decide_eq_true_eq, Bool.not_eq_true'] at hboth
  refine ⟨s, hrun, fun hkept => ?_⟩
  have hfound := hkept.terminal 0 hboth.1.1 hboth.1.2
  rw [hboth.2] at hfound
  cases hfound

end Public

end Moira
