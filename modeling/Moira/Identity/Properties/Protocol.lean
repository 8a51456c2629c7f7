import Moira.Identity.System

/-!
# The protocol of an identity call

What a call has shown before it writes. Every statement is issued under a condition on what the call
has read (`Permits`, `OwnerShown`), and a call that has committed something answers an error only
when the database has not acknowledged the commit.
-/

namespace Moira.Identity

open Admin (AdminOp AdminPoint AdminCommandRunner AdminCommandMutation)
open Prog

/-! ## The contract -/

/-- The actor of a call that is reserved to the owner, with the issuer of its token. -/
def Call.ownedBy : Call → Option (Actor × Option String)
  | .setIdentityPrimary actor issuer .. => some (actor, issuer)
  | .revokeIdentity actor issuer _ => some (actor, issuer)
  | .createProvider actor issuer _ => some (actor, issuer)
  | .patchProvider actor issuer .. => some (actor, issuer)
  | .setProviderEnabled actor issuer .. => some (actor, issuer)
  | .deleteProvider actor issuer .. => some (actor, issuer)
  | _ => none

/-- A trusted-JWT actor has been found to hold the active primary grant. -/
def OwnerShown (call : Call) (seen : Seen) : Prop :=
  ∀ actor issuer, call.ownedBy = some (actor, issuer) → actor.actorType = .trustedJwt →
    ∃ iss sub, issuer = some iss ∧ actor.subject = some sub ∧ seen.owner = some (iss, sub)

/-- The policy that governs the issuer, in what the call has read: that of the provider bound to it,
or without one that of an unbound provider of its string. -/
def Governs (seen : Seen) (issuer : String) (id : Uuid) (policy : GoverningAuthPolicy) : Prop :=
  ∃ bound, seen.bound = some (id, bound) ∧ (singlePolicy bound = .ok (some policy) ∨
    (singlePolicy bound = .ok none ∧ ∃ unbound, seen.unbound = some (issuer, unbound) ∧
      singlePolicy unbound = .ok (some policy)))

/-- The redemption is admitted by the invite's own constraint and by the governing policy. -/
structure Admitted (seen : Seen) (identity : TrustedJwtIdentity) (id : Uuid)
    (body : AdminInviteRedeemRequest) (invite : AdminInviteRow) : Prop where
  read : seen.invite = some invite
  verified : body.emailVerified = true
  matched : evaluateInviteConstraint invite (trim body.email) = .ok ()
  allowed : ∃ policy, Governs seen identity.issuer id policy ∧
    evaluateClaimPolicy (trim body.email) body.emailVerified (some policy) = .ok ()

/-- What the call has shown when it inserts a grant. -/
def MayInsert (call : Call) (seen : Seen) (insert : AdminIdentityGrantInsert) : Prop :=
  seen.resolved = some insert.trustedJwtIssuerId ∧
    ((∃ actor body, call = .claim actor body ∧ insert.grantedByActorType = "system_key") ∨
      ∃ identity body invite, call = .redeemInvite identity body ∧
        insert.grantedByActorType = "admin_invite" ∧ insert.email = trim body.email ∧
        insert.emailVerified = body.emailVerified ∧
        Admitted seen identity insert.trustedJwtIssuerId body invite)

def Call.isRedeem : Call → Bool
  | .redeemInvite .. => true
  | _ => false

/-- What the call has shown when it issues a statement. -/
def Permits (call : Call) (seen : Seen) : Statement → Prop
  | .grant (.insertGrant insert) => seen.granted = none ∧ MayInsert call seen insert
  | .grant _ => call.isRedeem = false
  | .invite (.consumeInvite id _ _ adminIdentityId) =>
    seen.consumed = none ∧ seen.granted = some adminIdentityId ∧ ∃ identity body invite,
      call = .redeemInvite identity body ∧ seen.invite = some invite ∧ invite.id = id
  | .invite _ => call.isRedeem = false
  | .issuer (.setStatus id _ false) => seen.counted = some id ∧ seen.resolved = none
  | .issuer (.softDelete id _) => seen.counted = some id ∧ seen.resolved = none
  | _ => True

/-- A call that has neither committed nor answered. -/
structure Running (seen : Seen) : Prop where
  committed : seen.committed = false
  answered : seen.answered = none
  unsure : seen.unsure = false

/-- A redemption commits its grant together with its invite. -/
structure MayCommit (call : Call) (seen : Seen) : Prop extends Running seen where
  owner : seen.wrote = true → OwnerShown call seen
  consumes : ∀ identity body, call = .redeemInvite identity body → ∀ adminIdentityId,
    seen.granted = some adminIdentityId → ∃ id, seen.consumed = some (id, adminIdentityId)

/-- An error is answered when no commit was acknowledged, and for a commit whose outcome was not
reported it is the database's own. -/
structure Fails (seen : Seen) (err : AppError) : Prop where
  committed : seen.committed = false
  answered : seen.answered = none
  sqlx : seen.unsure = true → err = .sqlx

def May (call : Call) (seen : Seen) : IdentityOp → Prop
  | .fetch _ => seen.wrote = false
  | .statement s => OwnerShown call seen ∧ Permits call seen s
  | .command .begin => seen.granted = none ∧ seen.consumed = none
  | .command .commit => MayCommit call seen
  | .command (.reply (.error err)) => Fails seen err
  | _ => True

def Answers : (o : IdentityOp) → o.Ans → Prop
  | .command .commit, answer => ∀ err, answer.result = .error err → err = .sqlx
  | _, _ => True

/-- The contract of a call, with `Seen` as its ghost state. -/
def protocol (call : Call) : Contract identitySig Seen where
  may := May call
  answers _ := Answers
  next := Seen.record

/-! ## Reads -/

variable {lib : Libraries} {call : Call} {seen : Seen} {α : Type}

variable {Q : Seen → α → Prop} {E : Seen → AppError → Prop}

theorem wp_orFail {result : Except AppError α} (hok : ∀ a, result = .ok a → Q seen a)
    (herr : ∀ err, E seen err) : wp (protocol call) (Service.orFail result) seen Q E := by
  cases result with
  | ok a => exact hok a rfl
  | error err => exact herr err

variable {o : IdentityOp}

theorem wp_ask {f : o.Ans → Service α} (hmay : May call seen o)
    (hanswer : ∀ x, wp (protocol call) (f x) (seen.record o x) Q E) :
    wp (protocol call) (Service.ask o >>= f) seen Q E :=
  ⟨hmay, fun x _ => hanswer x⟩

theorem wp_fetch {q : Query} {Q : Seen → q.Row → Prop} (hwrote : seen.wrote = false)
    (hok : ∀ row, Q (seen.recordFetch q row) row) (herr : ∀ err, E seen err) :
    wp (protocol call) (servicePool.fetch q) seen Q E := by
  refine ⟨hwrote, fun answer _ => ?_⟩
  cases answer with
  | ok row => exact hok row
  | error err => exact herr err

/-- An operation of a check that leaves no trace in what the call has seen. -/
def Silent : IdentityOp → Prop
  | .fetch q => ∀ (seen : Seen) (row : q.Row), seen.recordFetch q row = seen
  | .rejectDeniedJwksUrl _ => True
  | _ => False

theorem wp_silent {p : Service α} (hp : p.Only Silent) (hwrote : seen.wrote = false)
    (hok : ∀ a, Q seen a) (herr : ∀ err, E seen err) : wp (protocol call) p seen Q E := by
  refine wp_of_only hp (returns_true p) (fun o ho => ?_) (fun o ho x => ?_) (fun a _ => hok a) herr
  · cases o with
    | fetch q => exact hwrote
    | rejectDeniedJwksUrl url => trivial
    | command _ | verify _ _ | generate | newId | statement _ | insertAudit _ => exact ho.elim
  · cases o with
    | fetch q =>
      cases x with
      | ok row => exact ho seen row
      | error err => rfl
    | rejectDeniedJwksUrl url => rfl
    | command _ | verify _ _ | generate | newId | statement _ | insertAudit _ => exact ho.elim

theorem only_fetch {q : Query} (hq : ∀ (seen : Seen) (row : q.Row), seen.recordFetch q row = seen) :
    (servicePool.fetch q).Only Silent :=
  ⟨hq, fun _ => only_ofExcept _⟩

theorem only_orFail (result : Except AppError α) : (servicePool.orFail result).Only Silent :=
  only_ofExcept result

theorem only_jwks (url : String) : (servicePool.rejectDeniedJwksUrl url).Only Silent :=
  ⟨trivial, fun _ => only_ofExcept _⟩

theorem only_selfAsserting (binding : Option Uuid) :
    (rejectSelfAssertingConsoleIssuer servicePool binding).Only Silent := by
  cases binding with
  | none => trivial
  | some id =>
    refine only_bind (only_fetch fun _ _ => rfl) fun row => ?_
    match row with
    | none => exact only_orFail _
    | some none => trivial
    | some (some _) => exact only_orFail _

theorem only_shadowing (issuer : Option String) (binding : Option Uuid) :
    (rejectIssuerShadowingATrustedIssuer servicePool issuer binding).Only Silent := by
  cases issuer with
  | none => trivial
  | some issuer => exact only_bind (only_fetch fun _ _ => rfl) fun _ => only_orFail _

theorem only_duplicate (binding : Option Uuid) (enabled : Bool) (exclude : Option Uuid) :
    (rejectDuplicateEnabledProvider servicePool binding enabled exclude).Only Silent := by
  unfold rejectDuplicateEnabledProvider
  split
  · trivial
  · cases binding with
    | none => trivial
    | some id => exact only_bind (only_fetch fun _ _ => rfl) fun _ => only_orFail _

theorem only_getProvider (id : Uuid) : (getProvider servicePool id).Only Silent := by
  refine only_bind (only_fetch fun _ _ => rfl) fun row => ?_
  cases row with
  | none => exact only_orFail _
  | some row => trivial

/-! ## Calls up to their transaction -/

/-- What a command has shown before it runs. -/
def Shown (call : Call) (seen : Seen) : Mutation → Prop
  | .claim insert => (∃ actor body, call = .claim actor body) ∧ MayInsert call seen insert
  | .redeemInvite insert inviteId => MayInsert call seen insert ∧ ∃ identity body invite,
      call = .redeemInvite identity body ∧ seen.invite = some invite ∧ invite.id = inviteId
  | _ => call.isRedeem = false

/-- A call that has not begun its transaction yet. -/
structure Idle (seen : Seen) : Prop extends Running seen where
  wrote : seen.wrote = false
  granted : seen.granted = none
  consumed : seen.consumed = none

structure Ready (call : Call) (m : Mutation) (seen : Seen) : Prop extends Idle seen where
  owner : OwnerShown call seen
  shown : Shown call seen m

theorem Running.fails (h : Running seen) (err : AppError) : Fails seen err :=
  ⟨h.committed, h.answered, fun hunsure => absurd hunsure (by rw [h.unsure]; decide)⟩

variable {actor : Actor} {issuer : Option String}

theorem wp_requirePrimaryActor {Q : Seen → Unit → Prop} (hwrote : seen.wrote = false)
    (hok : ∀ owner, (actor.actorType = .trustedJwt → ∃ iss sub, issuer = some iss ∧
      actor.subject = some sub ∧ owner = some (iss, sub)) → Q { seen with owner } ())
    (herr : ∀ owner err, E { seen with owner } err) :
    wp (protocol call) (requirePrimaryActor servicePool actor issuer) seen Q E := by
  unfold requirePrimaryActor
  cases htype : actor.actorType with
  | systemKey => exact hok seen.owner fun h => by rw [htype] at h; cases h
  | devAdmin => exact hok seen.owner fun h => by rw [htype] at h; cases h
  | anonymous => exact herr seen.owner _
  | consumerKey => exact herr seen.owner _
  | trustedJwt =>
    cases issuer with
    | none => exact herr seen.owner _
    | some iss =>
      cases hsubject : actor.subject with
      | none => exact herr seen.owner _
      | some sub =>
        rw [wp_bind]
        refine wp_fetch hwrote (fun grant => ?_) fun err => herr seen.owner err
        by_cases hprimary : grant.any (·.isPrimary) = true
        · simp only [Seen.recordFetch, hprimary, if_true]
          exact hok (some (iss, sub)) fun _ => ⟨iss, sub, rfl, hsubject, rfl⟩
        · simp only [Seen.recordFetch, hprimary]
          exact herr seen.owner _

theorem wp_ownerChecks {scope : String} {rest : Service α}
    (howned : call.ownedBy = some (actor, issuer)) (hrest : rest.Only Silent) (hidle : Idle seen)
    (hok : ∀ seen' a, Idle seen' → OwnerShown call seen' → Q seen' a) :
    wp (protocol call) (do
      servicePool.orFail (actor.require scope)
      requirePrimaryActor servicePool actor issuer
      rest) seen Q Fails := by
  rw [wp_bind]
  refine wp_orFail (fun _ _ => ?_) hidle.fails
  rw [wp_bind]
  have hrunning : ∀ owner, Running { seen with owner } :=
    fun _ => ⟨hidle.committed, hidle.answered, hidle.unsure⟩
  refine wp_requirePrimaryActor hidle.wrote (fun owner hshown => ?_) fun owner => (hrunning owner).fails
  refine wp_silent hrest hidle.wrote (fun a => hok _ a
    ⟨hrunning owner, hidle.wrote, hidle.granted, hidle.consumed⟩ ?_) (hrunning owner).fails
  intro actor' issuer' howned' htype
  obtain ⟨rfl, rfl⟩ : actor = actor' ∧ issuer = issuer' := by
    rw [howned] at howned'
    exact Prod.mk.inj (Option.some.inj howned')
  exact hshown htype

/-- A statement of which the call notes only that it has written. -/
def Plain (s : Statement) : Prop :=
  ∀ (seen : Seen) (row : s.Result), seen.recordStatement s row = { seen with wrote := true }

theorem mayCommit_of_granted (hrunning : Running seen)
    (howner : seen.wrote = true → OwnerShown call seen) (h : seen.granted = none) :
    MayCommit call seen := by
  refine ⟨hrunning, howner, fun identity body _ id hid => ?_⟩
  rw [h] at hid
  cases hid

variable {s : Statement} {action : String}

theorem wp_writeWithAudit (hidle : Idle seen) (howner : OwnerShown call seen)
    (hpermits : Permits call seen s) (hplain : Plain s) :
    wp (protocol call) (writeWithAudit s action) seen (fun _ _ => True) Fails := by
  have hrunning : Running { seen with wrote := true } :=
    ⟨hidle.committed, hidle.answered, hidle.unsure⟩
  refine ⟨⟨hidle.granted, hidle.consumed⟩, fun begun _ => ?_⟩
  cases begun with
  | error err => exact hidle.fails err
  | ok _ =>
    refine ⟨⟨howner, hpermits⟩, fun result _ => ?_⟩
    cases result with
    | error err => exact hidle.fails err
    | ok row =>
      show wp _ _ (seen.recordStatement s row) _ _
      rw [hplain]
      refine ⟨trivial, fun audited _ => ?_⟩
      cases audited with
      | error err => exact hrunning.fails err
      | ok _ =>
        refine ⟨mayCommit_of_granted hrunning (fun _ => howner) hidle.granted,
          fun committed hanswers => ?_⟩
        obtain ⟨result, effective⟩ := committed
        cases result with
        | ok _ => trivial
        | error err =>
          refine ⟨?_, hidle.answered, fun _ => hanswers err rfl⟩
          show (seen.committed || _) = false
          rw [hidle.committed]
          rfl

/-! ### Claims and redemptions -/

-- the rules below are applied to programs that must not be evaluated to find out what they are
seal trim isKnownScope normalizeScopes

theorem wp_resolveActiveIssuer {issuer : String} {Q : Seen → Uuid → Prop}
    (hwrote : seen.wrote = false) (hok : ∀ id, Q { seen with resolved := some id } id)
    (herr : ∀ err, E seen err) :
    wp (protocol call) (resolveActiveIssuer servicePool issuer) seen Q E := by
  unfold resolveActiveIssuer
  rw [wp_bind]
  refine wp_fetch hwrote (fun found => ?_) herr
  cases found with
  | some id => exact hok id
  | none => exact herr _

variable {id : Uuid}

theorem wp_admissionPolicy {issuer : String} {Q : Seen → Option GoverningAuthPolicy → Prop}
    (hwrote : seen.wrote = false)
    (hok : ∀ bound unbound policy,
      (∀ p, policy = some p → Governs { seen with bound, unbound } issuer id p) →
        Q { seen with bound, unbound } policy)
    (herr : ∀ bound unbound err, E { seen with bound, unbound } err) :
    wp (protocol call) (admissionPolicy servicePool issuer id) seen Q E := by
  unfold admissionPolicy
  rw [wp_bind]
  refine wp_fetch hwrote (fun bound => ?_) fun err => herr seen.bound seen.unbound err
  rw [wp_bind]
  refine wp_orFail (fun first hfirst => ?_) fun err => herr (some (id, bound)) seen.unbound err
  cases first with
  | some policy =>
    refine hok (some (id, bound)) seen.unbound (some policy) fun p hp => ⟨bound, rfl, .inl ?_⟩
    obtain rfl := Option.some.inj hp
    exact hfirst
  | none =>
    rw [wp_bind]
    refine wp_fetch hwrote (fun unbound => ?_) fun err => herr (some (id, bound)) seen.unbound err
    refine wp_orFail (fun policy hpolicy => ?_)
      fun err => herr (some (id, bound)) (some (issuer, unbound)) err
    refine hok (some (id, bound)) (some (issuer, unbound)) policy fun p hp =>
      ⟨bound, rfl, .inr ⟨hfirst, unbound, rfl, ?_⟩⟩
    rw [← hp]
    exact hpolicy

theorem wp_resolveInvite {token : String} {Q : Seen → AdminInviteRow → Prop}
    (hwrote : seen.wrote = false) (hok : ∀ invite, Q { seen with invite := some invite } invite)
    (herr : ∀ invite err, E { seen with invite } err) :
    wp (protocol call) (resolveInvite lib token) seen Q E := by
  unfold resolveInvite
  by_cases hempty : (trim token).isEmpty = true
  · rw [if_pos hempty]
    exact herr seen.invite _
  · rw [if_neg hempty, wp_bind]
    refine wp_fetch hwrote (fun found => ?_) fun err => herr seen.invite err
    cases found with
    | none => exact herr none _
    | some candidate =>
      refine wp_ask trivial fun verified => ?_
      cases verified with
      | error err => exact herr (some candidate) err
      | ok accepted =>
        cases accepted with
        | true => exact hok candidate
        | false => exact herr (some candidate) _

/-- What the start of a call ends with. -/
def StartsWith (call : Call) (seen : Seen) : Started → Prop
  | .command prepared => Ready call prepared.mutation seen
  | .done _ => True

theorem ownerShown_of_none (h : call.ownedBy = none) (seen : Seen) : OwnerShown call seen := by
  intro actor issuer howned
  rw [h] at howned
  cases howned

theorem verified_of_evaluateClaimPolicy {email : String} {verified : Bool}
    {policy : Option GoverningAuthPolicy} (h : evaluateClaimPolicy email verified policy = .ok ()) :
    verified = true ∧ ∃ p, policy = some p := by
  cases policy with
  | none => cases h
  | some p =>
    cases verified with
    | true => exact ⟨rfl, p, rfl⟩
    | false => cases h

variable {key : Option String}

theorem wp_claim {body : ClaimAdminIdentityRequest} :
    wp (protocol (.claim actor body)) (claim lib key actor body) {}
      (StartsWith (.claim actor body)) Fails := by
  unfold claim
  rw [wp_bind]
  refine wp_orFail (fun _ _ => ?_) (Running.fails ⟨rfl, rfl, rfl⟩)
  rw [wp_bind]
  refine wp_orFail (fun _ _ => ?_) (Running.fails ⟨rfl, rfl, rfl⟩)
  rw [wp_bind]
  refine wp_orFail (fun _ _ => ?_) (Running.fails ⟨rfl, rfl, rfl⟩)
  rw [wp_bind]
  refine wp_orFail (fun _ _ => ?_) (Running.fails ⟨rfl, rfl, rfl⟩)
  rw [wp_bind]
  refine wp_orFail (fun _ _ => ?_) (Running.fails ⟨rfl, rfl, rfl⟩)
  rw [wp_bind]
  refine wp_orFail (fun scopes _ => ?_) (Running.fails ⟨rfl, rfl, rfl⟩)
  rw [wp_bind]
  refine wp_resolveActiveIssuer rfl (fun issuerId => ?_) (Running.fails ⟨rfl, rfl, rfl⟩)
  rw [wp_bind]
  refine wp_admissionPolicy rfl (fun bound unbound policy _ => ?_) fun _ _ => Running.fails ⟨rfl, rfl, rfl⟩
  rw [wp_bind]
  refine wp_orFail (fun _ _ => ?_) (Running.fails ⟨rfl, rfl, rfl⟩)
  refine wp_ask trivial fun id => ?_
  exact ⟨⟨⟨rfl, rfl, rfl⟩, rfl, rfl, rfl⟩, ownerShown_of_none rfl _, ⟨actor, body, rfl⟩, rfl,
    .inl ⟨actor, body, rfl, rfl⟩⟩

theorem wp_redeemInvite {identity : TrustedJwtIdentity} {body : AdminInviteRedeemRequest} :
    wp (protocol (.redeemInvite identity body)) (redeemInvite lib key identity body) {}
      (StartsWith (.redeemInvite identity body)) Fails := by
  unfold redeemInvite
  rw [wp_bind]
  refine wp_resolveInvite rfl (fun invite => ?_) fun _ => Running.fails ⟨rfl, rfl, rfl⟩
  refine wp_ask trivial fun now => ?_
  rw [wp_bind]
  refine wp_orFail (fun _ _ => ?_) (Running.fails ⟨rfl, rfl, rfl⟩)
  rw [wp_bind]
  refine wp_orFail (fun _ hmatched => ?_) (Running.fails ⟨rfl, rfl, rfl⟩)
  rw [wp_bind]
  refine wp_resolveActiveIssuer rfl (fun issuerId => ?_) (Running.fails ⟨rfl, rfl, rfl⟩)
  rw [wp_bind]
  refine wp_admissionPolicy rfl (fun bound unbound policy hgoverns => ?_) fun _ _ => Running.fails ⟨rfl, rfl, rfl⟩
  rw [wp_bind]
  refine wp_orFail (fun _ hallowed => ?_) (Running.fails ⟨rfl, rfl, rfl⟩)
  refine wp_ask trivial fun id => ?_
  obtain ⟨hverified, p, rfl⟩ := verified_of_evaluateClaimPolicy hallowed
  have hadmitted : Admitted
      { resolved := some issuerId, invite := some invite, bound, unbound } identity issuerId body
        invite :=
    ⟨rfl, hverified, hmatched, p, hgoverns p rfl, hallowed⟩
  exact ⟨⟨⟨rfl, rfl, rfl⟩, rfl, rfl, rfl⟩, ownerShown_of_none rfl _,
    ⟨rfl, .inr ⟨identity, body, invite, rfl, rfl, rfl, rfl, hadmitted⟩⟩,
    identity, body, invite, rfl, rfl, rfl⟩

theorem wp_createInvite {body : AdminInviteCreateRequest} :
    wp (protocol (.createInvite actor body)) (createInvite lib key actor body) {}
      (StartsWith (.createInvite actor body)) Fails := by
  unfold createInvite
  rw [wp_bind]
  refine wp_orFail (fun _ _ => ?_) (Running.fails ⟨rfl, rfl, rfl⟩)
  rw [wp_bind]
  refine wp_orFail (fun value _ => ?_) (Running.fails ⟨rfl, rfl, rfl⟩)
  refine wp_ask trivial fun now => ?_
  rw [wp_bind]
  refine wp_orFail (fun lifetime _ => ?_) (Running.fails ⟨rfl, rfl, rfl⟩)
  refine wp_ask trivial fun generated => ?_
  rw [wp_bind]
  refine wp_orFail (fun token _ => ?_) (Running.fails ⟨rfl, rfl, rfl⟩)
  refine wp_ask trivial fun id => ?_
  rw [wp_bind]
  refine wp_orFail (fun actorType _ => ?_) (Running.fails ⟨rfl, rfl, rfl⟩)
  exact ⟨⟨⟨rfl, rfl, rfl⟩, rfl, rfl, rfl⟩, ownerShown_of_none rfl _, rfl⟩

/-! ### The other calls -/

theorem only_createProviderChecks {body : AuthProviderCreateRequest} :
    (do
      servicePool.orFail (requireNonEmpty "display_name" body.displayName)
      servicePool.orFail (validateMethodShape (methodShape body.method body.issuer body.discoveryUrl
        body.authorizationUrl body.tokenUrl body.jwksUrl body.clientId))
      servicePool.orFail (validateUrls lib
        (body.discoveryUrl.toList ++ body.authorizationUrl.toList ++ body.tokenUrl.toList ++
          body.userinfoUrl.toList ++ body.jwksUrl.toList) body.redirectUris)
      servicePool.orFail (validateEmailDomains body.allowedEmailDomains)
      rejectSelfAssertingConsoleIssuer servicePool body.trustedJwtIssuerId
      rejectIssuerShadowingATrustedIssuer servicePool body.issuer body.trustedJwtIssuerId
      rejectDuplicateEnabledProvider servicePool body.trustedJwtIssuerId body.enabled none :
        Service Unit).Only Silent := by
  refine only_bind (only_orFail _) fun _ => only_bind (only_orFail _) fun _ =>
    only_bind (only_orFail _) fun _ => only_bind (only_orFail _) fun _ => ?_
  exact only_bind (only_selfAsserting _) fun _ => only_bind (only_shadowing _ _) fun _ =>
    only_duplicate _ _ _

theorem wp_createProvider {body : AuthProviderCreateRequest} :
    wp (protocol (.createProvider actor issuer body))
      (start lib { call := .createProvider actor issuer body, idempotencyKey := key }) {}
      (StartsWith (.createProvider actor issuer body)) Fails := by
  show wp _ (createProviderChecks servicePool lib actor issuer body >>= _) _ _ _
  rw [wp_bind]
  refine wp_ownerChecks rfl only_createProviderChecks ⟨⟨rfl, rfl, rfl⟩, rfl, rfl, rfl⟩ fun seen _ hidle howner => ?_
  exact ⟨hidle, howner, rfl⟩

variable {version : Int}

theorem wp_patchProvider {body : AuthProviderPatchRequest} :
    wp (protocol (.patchProvider actor issuer id version body))
      (start lib { call := .patchProvider actor issuer id version body, idempotencyKey := key }) {}
      (StartsWith (.patchProvider actor issuer id version body)) Fails := by
  show wp _ (patchProviderChecks servicePool lib actor issuer id body >>= _) _ _ _
  rw [wp_bind]
  refine wp_ownerChecks rfl ?_ ⟨⟨rfl, rfl, rfl⟩, rfl, rfl, rfl⟩ fun seen _ hidle howner => ?_
  · refine only_bind (only_orFail _) fun _ => only_bind (only_orFail _) fun _ =>
      only_bind (only_orFail _) fun _ => only_bind (only_selfAsserting _) fun _ => ?_
    split
    · exact only_bind (only_getProvider id) fun _ => only_bind (only_shadowing _ _) fun _ =>
        only_duplicate _ _ _
    · trivial
  · rw [wp_bind]
    refine wp_mono (wp_writeWithAudit hidle howner trivial fun _ _ => rfl)
      (fun _ _ _ => trivial) fun _ _ h => h

theorem wp_setProviderEnabled {enabled : Bool} :
    wp (protocol (.setProviderEnabled actor issuer id version enabled))
      (start lib { call := .setProviderEnabled actor issuer id version enabled, idempotencyKey := key })
      {} (StartsWith (.setProviderEnabled actor issuer id version enabled)) Fails := by
  show wp _ (setProviderEnabledChecks servicePool actor issuer id enabled >>= _) _ _ _
  rw [wp_bind]
  refine wp_ownerChecks rfl ?_ ⟨⟨rfl, rfl, rfl⟩, rfl, rfl, rfl⟩ fun seen _ hidle howner => ?_
  · split
    · exact only_bind (only_getProvider id) fun _ => only_bind (only_orFail _) fun _ =>
        only_duplicate _ _ _
    · trivial
  · rw [wp_bind]
    refine wp_mono (wp_writeWithAudit hidle howner trivial fun _ _ => rfl)
      (fun _ _ _ => trivial) fun _ _ h => h

theorem wp_deleteProvider :
    wp (protocol (.deleteProvider actor issuer id version))
      (start lib { call := .deleteProvider actor issuer id version, idempotencyKey := key }) {}
      (StartsWith (.deleteProvider actor issuer id version)) Fails := by
  show wp _ (deleteProviderChecks servicePool actor issuer >>= _) _ _ _
  unfold deleteProviderChecks
  rw [wp_bind, wp_bind]
  refine wp_orFail (fun _ _ => ?_) (Running.fails ⟨rfl, rfl, rfl⟩)
  refine wp_requirePrimaryActor rfl (fun owner hshown => ?_) fun _ => Running.fails ⟨rfl, rfl, rfl⟩
  rw [wp_bind]
  have howner : OwnerShown (.deleteProvider actor issuer id version) { owner } := by
    intro actor' issuer' howned htype
    obtain ⟨rfl, rfl⟩ := Prod.mk.inj (Option.some.inj howned)
    exact hshown htype
  refine wp_mono (wp_writeWithAudit ⟨⟨rfl, rfl, rfl⟩, rfl, rfl, rfl⟩ howner trivial fun _ _ => rfl)
    (fun _ _ _ => trivial) fun _ _ h => h

theorem wp_rejectIfIssuerHasActiveGrants {Q : Seen → Unit → Prop} (hwrote : seen.wrote = false)
    (hok : Q { seen with counted := some id } ())
    (herr : ∀ counted err, E { seen with counted } err) :
    wp (protocol call) (rejectIfIssuerHasActiveGrants servicePool id) seen Q E := by
  unfold rejectIfIssuerHasActiveGrants
  rw [wp_bind]
  refine wp_fetch hwrote (fun count => ?_) fun err => herr seen.counted err
  by_cases hzero : count = 0
  · simp only [Seen.recordFetch, hzero, if_true]
    exact hok
  · simp only [Seen.recordFetch, hzero, if_false]
    exact herr seen.counted _

theorem wp_setIssuerEnabled {enabled : Bool} :
    wp (protocol (.setIssuerEnabled actor id version enabled))
      (start lib { call := .setIssuerEnabled actor id version enabled, idempotencyKey := key }) {}
      (StartsWith (.setIssuerEnabled actor id version enabled)) Fails := by
  show wp _ (setIssuerEnabledChecks servicePool actor id enabled >>= _) _ _ _
  unfold setIssuerEnabledChecks
  rw [wp_bind, wp_bind]
  refine wp_orFail (fun _ _ => ?_) (Running.fails ⟨rfl, rfl, rfl⟩)
  cases enabled with
  | true =>
    show wp _ (writeWithAudit _ _ >>= _) _ _ _
    rw [wp_bind]
    refine wp_mono (wp_writeWithAudit ⟨⟨rfl, rfl, rfl⟩, rfl, rfl, rfl⟩ (ownerShown_of_none rfl _) trivial
      fun _ _ => rfl) (fun _ _ _ => trivial) fun _ _ h => h
  | false =>
    refine wp_rejectIfIssuerHasActiveGrants rfl ?_ fun _ => Running.fails ⟨rfl, rfl, rfl⟩
    rw [wp_bind]
    refine wp_mono (wp_writeWithAudit ⟨⟨rfl, rfl, rfl⟩, rfl, rfl, rfl⟩ (ownerShown_of_none rfl _) ⟨rfl, rfl⟩
      fun _ _ => rfl) (fun _ _ _ => trivial) fun _ _ h => h

theorem wp_deleteIssuer :
    wp (protocol (.deleteIssuer actor id version))
      (start lib { call := .deleteIssuer actor id version, idempotencyKey := key }) {}
      (StartsWith (.deleteIssuer actor id version)) Fails := by
  show wp _ (deleteIssuerChecks servicePool actor id >>= _) _ _ _
  unfold deleteIssuerChecks
  rw [wp_bind, wp_bind]
  refine wp_orFail (fun _ _ => ?_) (Running.fails ⟨rfl, rfl, rfl⟩)
  refine wp_rejectIfIssuerHasActiveGrants rfl ?_ fun _ => Running.fails ⟨rfl, rfl, rfl⟩
  rw [wp_bind]
  refine wp_mono (wp_writeWithAudit ⟨⟨rfl, rfl, rfl⟩, rfl, rfl, rfl⟩ (ownerShown_of_none rfl _) ⟨rfl, rfl⟩
    fun _ _ => rfl) (fun _ _ _ => trivial) fun _ _ h => h

theorem wp_patchIssuer {body : TrustedJwtIssuerPatchRequest} :
    wp (protocol (.patchIssuer actor id version body))
      (start lib { call := .patchIssuer actor id version body, idempotencyKey := key }) {}
      (StartsWith (.patchIssuer actor id version body)) Fails := by
  have hchecks : (patchIssuerChecks servicePool actor body).Only Silent := by
    unfold patchIssuerChecks
    refine only_bind (only_orFail _) fun _ => ?_
    cases body.jwksUrl with
    | none => exact only_orFail _
    | some url => exact only_bind (only_jwks url) fun _ => only_orFail _
  show wp _ (patchIssuerChecks servicePool actor body >>= _) _ _ _
  rw [wp_bind]
  refine wp_silent hchecks rfl (fun _ => ?_) (Running.fails ⟨rfl, rfl, rfl⟩)
  rw [wp_bind]
  refine wp_mono (wp_writeWithAudit ⟨⟨rfl, rfl, rfl⟩, rfl, rfl, rfl⟩ (ownerShown_of_none rfl _) trivial
    fun _ _ => rfl) (fun _ _ _ => trivial) fun _ _ h => h

/-- **Every call shows what it has to before its transaction.** -/
theorem wp_start (request : Request) :
    wp (protocol request.call) (start lib request) {} (StartsWith request.call) Fails := by
  obtain ⟨call, key⟩ := request
  cases call with
  | claim actor body => exact wp_claim
  | createInvite actor body => exact wp_createInvite
  | redeemInvite identity body => exact wp_redeemInvite
  | createProvider actor issuer body => exact wp_createProvider
  | patchProvider actor issuer id version body => exact wp_patchProvider
  | setProviderEnabled actor issuer id version enabled => exact wp_setProviderEnabled
  | deleteProvider actor issuer id version => exact wp_deleteProvider
  | patchIssuer actor id version body => exact wp_patchIssuer
  | setIssuerEnabled actor id version enabled => exact wp_setIssuerEnabled
  | deleteIssuer actor id version => exact wp_deleteIssuer
  | revokeInvite actor id =>
    show wp _ (Service.orFail _ >>= _) _ _ _
    rw [wp_bind]
    refine wp_orFail (fun _ _ => ?_) (Running.fails ⟨rfl, rfl, rfl⟩)
    exact ⟨⟨⟨rfl, rfl, rfl⟩, rfl, rfl, rfl⟩, ownerShown_of_none rfl _, rfl⟩
  | createIssuer actor body =>
    show wp _ (createIssuerChecks servicePool actor body >>= _) _ _ _
    rw [wp_bind]
    refine wp_silent (only_bind (only_orFail _) fun _ => only_jwks _) rfl (fun _ => ?_)
      (Running.fails ⟨rfl, rfl, rfl⟩)
    exact ⟨⟨⟨rfl, rfl, rfl⟩, rfl, rfl, rfl⟩, ownerShown_of_none rfl _, rfl⟩
  | setIdentityPrimary actor issuer id version isPrimary =>
    show wp _ (requirePrimaryActor servicePool actor issuer >>= _) _ _ _
    rw [wp_bind]
    refine wp_requirePrimaryActor rfl (fun owner hshown => ?_) fun _ => Running.fails ⟨rfl, rfl, rfl⟩
    refine ⟨⟨⟨rfl, rfl, rfl⟩, rfl, rfl, rfl⟩, fun actor' issuer' howned htype => ?_, rfl⟩
    obtain ⟨rfl, rfl⟩ := Prod.mk.inj (Option.some.inj howned)
    exact hshown htype
  | revokeIdentity actor issuer id =>
    show wp _ (requirePrimaryActor servicePool actor issuer >>= _) _ _ _
    rw [wp_bind]
    refine wp_requirePrimaryActor rfl (fun owner hshown => ?_) fun _ => Running.fails ⟨rfl, rfl, rfl⟩
    refine ⟨⟨⟨rfl, rfl, rfl⟩, rfl, rfl, rfl⟩, fun actor' issuer' howned htype => ?_, rfl⟩
    obtain ⟨rfl, rfl⟩ := Prod.mk.inj (Option.some.inj howned)
    exact hshown htype

/-! ## Commands -/

theorem wp_statement {Q : Seen → s.Result → Prop} (howner : OwnerShown call seen)
    (hpermits : Permits call seen s) (hok : ∀ row, Q (seen.recordStatement s row) row)
    (herr : ∀ err, E seen err) : wp (protocol call) (statement s) seen Q E := by
  refine ⟨⟨howner, hpermits⟩, fun answer _ => ?_⟩
  cases answer with
  | ok row => exact hok row
  | error err => exact herr err

theorem wp_insertAudit {Q : Seen → Unit → Prop} (hok : Q seen ()) (herr : ∀ err, E seen err) :
    wp (protocol call) (insertAudit action) seen Q E := by
  refine ⟨trivial, fun answer _ => ?_⟩
  cases answer with
  | ok _ => exact hok
  | error err => exact herr err

variable {m : Mutation}

theorem wp_mutation_single {f : s.Result → Service (AdminCommandMutation Response)}
    (hready : Ready call m seen) (hpermits : Permits call seen s) (hplain : Plain s)
    (hf : ∀ row, ∃ result, f row = (do insertAudit action; pure result)) :
    wp (protocol call) (statement s >>= f) seen (fun seen _ => MayCommit call seen)
      (fun seen _ => Running seen) := by
  have hrunning : Running { seen with wrote := true } :=
    ⟨hready.committed, hready.answered, hready.unsure⟩
  rw [wp_bind]
  refine wp_statement hready.owner hpermits (fun row => ?_) fun _ => hready.toRunning
  obtain ⟨result, hresult⟩ := hf row
  rw [hresult, wp_bind, hplain]
  refine wp_insertAudit ?_ fun _ => hrunning
  exact mayCommit_of_granted hrunning (fun _ => hready.owner) hready.granted

theorem wp_claimMutation {insert : AdminIdentityGrantInsert} (hready : Ready call (.claim insert) seen) :
    wp (protocol call) (mutation lib (.claim insert)) seen (fun seen _ => MayCommit call seen)
      (fun seen _ => Running seen) := by
  obtain ⟨⟨actor, body, hcall⟩, hinsert⟩ := hready.shown
  have hrunning : ∀ granted, Running { seen with wrote := true, granted } :=
    fun _ => ⟨hready.committed, hready.answered, hready.unsure⟩
  simp only [mutation]
  rw [wp_bind]
  refine wp_statement hready.owner ⟨hready.granted, hinsert⟩ (fun row => ?_) fun _ => hready.toRunning
  rw [wp_bind]
  refine wp_statement hready.owner trivial (fun _ => ?_) fun _ => hrunning _
  rw [wp_bind]
  refine wp_insertAudit ⟨hrunning _, fun _ => hready.owner, fun identity body' hcall' => ?_⟩
    fun _ => hrunning _
  rw [hcall] at hcall'
  cases hcall'

theorem wp_redeemMutation {insert : AdminIdentityGrantInsert} {inviteId : Uuid}
    (hready : Ready call (.redeemInvite insert inviteId) seen) :
    wp (protocol call) (mutation lib (.redeemInvite insert inviteId)) seen
      (fun seen _ => MayCommit call seen) (fun seen _ => Running seen) := by
  obtain ⟨hinsert, hinvite⟩ := hready.shown
  have hrunning : ∀ granted consumed, Running { seen with wrote := true, granted, consumed } :=
    fun _ _ => ⟨hready.committed, hready.answered, hready.unsure⟩
  simp only [mutation]
  rw [wp_bind]
  refine wp_statement hready.owner ⟨hready.granted, hinsert⟩ (fun row => ?_) fun _ => hready.toRunning
  rw [wp_bind]
  refine wp_statement hready.owner ⟨hready.consumed, rfl, hinvite⟩ (fun _ => ?_) fun _ => hrunning _ _
  rw [wp_bind]
  refine wp_statement hready.owner trivial (fun _ => ?_) fun _ => hrunning _ _
  rw [wp_bind]
  refine wp_insertAudit
    ⟨hrunning _ _, fun _ => hready.owner, fun identity body _ id hid => ⟨inviteId, ?_⟩⟩
    fun _ => hrunning _ _
  obtain rfl : row.id = id := Option.some.inj hid
  rfl

theorem wp_mutation (hready : Ready call m seen) :
    wp (protocol call) (mutation lib m) seen (fun seen _ => MayCommit call seen)
      (fun seen _ => Running seen) := by
  cases m with
  | claim insert => exact wp_claimMutation hready
  | redeemInvite insert inviteId => exact wp_redeemMutation hready
  | setPrimary id version isPrimary =>
    exact wp_mutation_single hready hready.shown (fun _ _ => rfl) fun row => ⟨_, rfl⟩
  | revokeIdentity id =>
    exact wp_mutation_single hready hready.shown (fun _ _ => rfl) fun row => ⟨_, rfl⟩
  | createInvite insert secret =>
    exact wp_mutation_single hready hready.shown (fun _ _ => rfl) fun row => ⟨_, rfl⟩
  | revokeInvite id =>
    exact wp_mutation_single hready hready.shown (fun _ _ => rfl) fun row => ⟨_, rfl⟩
  | createProvider request =>
    refine wp_ask trivial fun id => ?_
    exact wp_mutation_single hready trivial (fun _ _ => rfl) fun row => ⟨_, rfl⟩
  | createIssuer request =>
    simp only [mutation]
    rw [wp_bind]
    refine wp_orFail (fun _ _ => ?_) fun _ => hready.toRunning
    rw [wp_bind]
    refine wp_orFail (fun _ _ => ?_) fun _ => hready.toRunning
    refine wp_ask trivial fun id => ?_
    exact wp_mutation_single hready trivial (fun _ _ => rfl) fun row => ⟨_, rfl⟩

/-! ### The runner -/

/-- What a part of the runner establishes with the mutation in place. -/
def Runs (lib : Libraries) (call : Call) (m : Mutation) (p : Admin.Command Response α) (seen : Seen)
    (Q : Seen → α → Prop) (E : Seen → AppError → Prop) : Prop :=
  wp (protocol call) (p.attempt.interpret (commandOp lib m)) seen
    (fun seen result =>
      match result with
      | .ok a => Q seen a
      | .error err => E seen err)
    (fun _ _ => True)

variable {β : Type} {p : Admin.Command Response α} {f : α → Admin.Command Response β}

theorem runs_bind {Q : Seen → β → Prop} :
    Runs lib call m (p >>= f) seen Q E ↔
      Runs lib call m p seen (fun seen a => Runs lib call m (f a) seen Q E) E := by
  induction p generalizing seen with
  | ret a => exact Iff.rfl
  | fail e => exact Iff.rfl
  | op o k ih =>
    show wp _ (commandOp lib m o >>= _) _ _ _ ↔ wp _ (commandOp lib m o >>= _) _ _ _
    rw [wp_bind, wp_bind]
    constructor
    · exact fun h => wp_mono h (fun _ x hx => (ih x).mp hx) fun _ _ he => he
    · exact fun h => wp_mono h (fun _ x hx => (ih x).mpr hx) fun _ _ he => he

theorem runs_mono {Q' : Seen → α → Prop} (h : Runs lib call m p seen Q E)
    (hQ : ∀ seen a, Q seen a → Q' seen a) : Runs lib call m p seen Q' E := by
  refine wp_mono h (fun seen result hresult => ?_) fun _ _ he => he
  cases result with
  | ok a => exact hQ seen a hresult
  | error err => exact hresult

/-- An operation of the runner that leaves no trace in what the call has seen. -/
def Quiet : AdminOp Response → Prop
  | .begin | .mutate | .rollbackSavepoint | .commit | .reply _ => False
  | _ => True

theorem runs_quiet {o : AdminOp Response} (ho : Quiet o) {k : o.Ans → Admin.Command Response α}
    (hk : ∀ x, Runs lib call m (k x) seen Q E) :
    Runs lib call m (Admin.Command.ask o >>= k) seen Q E := by
  cases o with
  | begin | mutate | rollbackSavepoint | commit | reply _ => exact ho.elim
  | utcNow | tryLock _ | pastDeadline | sleep | sweepExpired _ | load _ | insertClaim _
  | savepoint | releaseSavepoint | finalize _ _ _ | rollback | drop =>
    exact ⟨trivial, fun x _ => hk x⟩

theorem runs_of_only (hp : p.Only Quiet) (hok : ∀ a, Q seen a) (herr : ∀ err, E seen err) :
    Runs lib call m p seen Q E := by
  induction p with
  | ret a => exact hok a
  | fail e => exact herr e
  | op o k ih => exact runs_quiet hp.1 fun x => ih x (hp.2 x)

theorem runs_orFail {result : Except AppError α} (hok : ∀ a, result = .ok a → Q seen a)
    (herr : ∀ err, result = .error err → E seen err) :
    Runs lib call m (Admin.Command.orFail result) seen Q E := by
  cases result with
  | ok a => exact hok a rfl
  | error err => exact herr err rfl

theorem runs_commit {k : Admin.Command Response α} (h : MayCommit call seen)
    (hok : Runs lib call m k { seen with wrote := false, committed := seen.wrote } Q Fails) :
    Runs lib call m (do Admin.Command.orFail (← Admin.Command.ask .commit).result; k) seen Q
      Fails := by
  refine ⟨h, fun answer hanswers => ?_⟩
  obtain ⟨result, effective⟩ := answer
  cases result with
  | ok _ =>
    show Runs lib call m k
      { seen with
        wrote := false
        committed := seen.committed || (seen.wrote && true)
        unsure := seen.unsure || !true } Q Fails
    rw [h.committed, Bool.and_true, Bool.false_or, h.unsure]
    rw [h.unsure] at hok
    exact hok
  | error err =>
    refine ⟨?_, h.answered, fun _ => hanswers err rfl⟩
    show (seen.committed || (seen.wrote && false)) = false
    rw [h.committed, Bool.and_false, Bool.or_false]

theorem runs_commit_idle {k : Admin.Command Response α} (hidle : Idle seen)
    (hok : Runs lib call m k seen Q Fails) :
    Runs lib call m (do Admin.Command.orFail (← Admin.Command.ask .commit).result; k) seen Q
      Fails := by
  have hwrote : seen.wrote = true → OwnerShown call seen := by
    rw [hidle.wrote]
    exact fun h => (nomatch h)
  refine runs_commit (mayCommit_of_granted hidle.toRunning hwrote hidle.granted) ?_
  have hsame : { seen with wrote := false, committed := seen.wrote } = seen := by
    obtain ⟨⟨hcommitted, -, -⟩, hwrote, -, -⟩ := hidle
    cases seen
    simp_all only
  rwa [hsame]

theorem only_finalize (result : Except AppError (AdminCommandMutation Response)) :
    (Admin.finalize result).Only Quiet :=
  ⟨trivial, fun _ => only_ofExcept _⟩

theorem runs_runMutation {claimed : Bool} (hready : Ready call m seen) :
    Runs lib call m (Admin.runMutation claimed) seen (fun _ _ => True) Fails := by
  unfold Admin.runMutation
  refine runs_quiet (o := .savepoint) trivial fun begun => ?_
  rw [runs_bind]
  refine runs_orFail (fun _ _ => ?_) fun err _ => hready.fails err
  show wp _ (commandOp lib m .mutate >>= _) _ _ _
  rw [wp_bind]
  show wp _ (mutation lib m).attempt _ _ _
  rw [wp_attempt]
  refine wp_mono (wp_mutation hready) (fun seen' result hmutated => ?_) fun seen' err hrunning => ?_
  · -- the mutation succeeded: release, record, commit
    have hfails := hmutated.fails
    refine runs_quiet (o := .releaseSavepoint) trivial fun released => ?_
    rw [runs_bind]
    refine runs_orFail (fun _ _ => ?_) fun err _ => hfails err
    cases claimed with
    | false => exact runs_commit hmutated trivial
    | true =>
      rw [if_pos rfl, runs_bind]
      refine runs_of_only (only_finalize _) (fun _ => ?_) hfails
      exact runs_commit hmutated trivial
  · -- the mutation failed: only the record of the failure is committed, if anything
    show Runs lib call m (if _ then _ else _) _ _ _
    split
    · refine ⟨trivial, fun undone _ => ?_⟩
      cases undone with
      | error err' => exact hrunning.fails err'
      | ok _ =>
        have hundone : Idle { seen' with wrote := false, granted := none, consumed := none } :=
          ⟨⟨hrunning.committed, hrunning.answered, hrunning.unsure⟩, rfl, rfl, rfl⟩
        show Runs lib call m (Admin.finalize (.error err) >>= _)
          { seen' with wrote := false, granted := none, consumed := none } _ _
        rw [runs_bind]
        refine runs_of_only (only_finalize _) (fun _ => ?_) hundone.fails
        exact runs_commit_idle hundone (hundone.fails err)
    · refine runs_quiet (o := .rollback) trivial fun undone => ?_
      rw [runs_bind]
      exact runs_orFail (fun _ _ => hrunning.fails err) fun err' _ => hrunning.fails err'

theorem only_loadFirst (positions : List Position) :
    (Admin.loadFirst positions : Admin.Command Response _).Only Quiet := by
  induction positions with
  | nil => trivial
  | cons p rest ih =>
    refine only_bind (only_ask.mpr trivial) fun answer => only_bind (only_ofExcept _) fun found => ?_
    cases found with
    | none => exact ih
    | some record => trivial

theorem only_claimIdempotency (claim : Admin.AdminIdempotencyClaim) :
    (Admin.claimIdempotency claim : Admin.Command Response _).Only Quiet := by
  refine only_bind (only_ask.mpr trivial) fun answer => only_bind (only_ofExcept _) fun _ =>
    only_bind (only_loadFirst _) fun found => ?_
  cases found with
  | none =>
    exact only_bind (only_ask.mpr trivial) fun _ => only_bind (only_ofExcept _) fun _ => trivial
  | some record => trivial

variable {runner : AdminCommandRunner Response}

theorem runs_withLock {spec : Admin.AdminCommandSpec} {claim : Admin.AdminIdempotencyClaim}
    (hready : Ready call m seen) :
    Runs lib call m (Admin.withLock runner spec claim) seen (fun _ _ => True) Fails := by
  have hfails := hready.fails
  unfold Admin.withLock
  rw [runs_bind]
  refine runs_of_only (only_claimIdempotency claim) (fun found => ?_) hfails
  cases found with
  | none => exact runs_runMutation hready
  | some record =>
    show Runs lib call m (Admin.Command.orFail _ >>= _) _ _ _
    rw [runs_bind]
    refine runs_orFail (fun _ _ => ?_) fun err _ => hfails err
    exact runs_commit_idle hready.toIdle (runs_orFail (fun _ _ => trivial) fun err _ => hfails err)

theorem runs_execute {spec : Admin.AdminCommandSpec} (point : AdminPoint) (hready : Ready call m seen) :
    Runs lib call m (Admin.execute runner spec point) seen
      (fun seen next => ∀ point, next = .jump point → Ready call m seen) Fails := by
  have hfails := hready.fails
  cases point with
  | start =>
    refine ⟨⟨hready.granted, hready.consumed⟩, fun begun _ => ?_⟩
    show Runs lib call m (Admin.Command.orFail begun >>= _) _ _ _
    rw [runs_bind]
    refine runs_orFail (fun _ _ => ?_) fun err _ => hfails err
    cases spec.idempotency with
    | none =>
      show Runs lib call m (Admin.runMutation false >>= _) _ _ _
      rw [runs_bind]
      exact runs_mono (runs_runMutation hready) fun _ _ _ _ hjump => (nomatch hjump)
    | some idempotency => exact runs_quiet (o := .utcNow) trivial fun now => fun _ _ => hready
  | tryLock claim =>
    refine runs_quiet (o := .tryLock _) trivial fun locked => ?_
    rw [runs_bind]
    refine runs_orFail (fun acquired _ => ?_) fun err _ => hfails err
    cases acquired with
    | true =>
      show Runs lib call m (Admin.withLock runner spec claim >>= _) _ _ _
      rw [runs_bind]
      exact runs_mono (runs_withLock hready) fun _ _ _ _ hjump => (nomatch hjump)
    | false =>
      refine runs_quiet (o := .pastDeadline) trivial fun past => ?_
      cases past with
      | true => exact hfails Admin.idempotencyInProgress
      | false => exact runs_quiet (o := .sleep) trivial fun _ => fun _ _ => hready

/-! ## Whole calls -/

/-- What holds at a control point. -/
def AtPoint (call : Call) : Point → Seen → Prop
  | .start, seen => seen = {}
  | .command prepared _, seen => Ready call prepared.mutation seen

theorem wp_answer {result : Except AppError Response} {Q : Seen → Option Point → Prop}
    {E : Seen → Empty → Prop} (herr : ∀ err, result = .error err → Fails seen err)
    (hQ : ∀ seen, Q seen none) : wp (protocol call) (answer result) seen Q E := by
  refine ⟨trivial, fun _ _ => ⟨?_, fun _ _ => hQ _⟩⟩
  cases result with
  | ok response => trivial
  | error err => exact herr err rfl

/-- **Every call keeps the protocol**, from each of its control points. -/
theorem wp_code (request : Request) (point : Point) (h : AtPoint request.call point seen) :
    wp (protocol request.call) (code lib runner request point) seen
      (fun seen next => ∀ point, next = some point → AtPoint request.call point seen)
      (fun _ _ => True) := by
  cases point with
  | start =>
    subst h
    show wp _ ((start lib request).attempt >>= _) _ _ _
    rw [wp_bind, wp_attempt]
    refine wp_mono (wp_start request) (fun seen started hstarted => ?_) fun seen err hfails => ?_
    · cases started with
      | done response => exact wp_answer (fun _ herr => (nomatch herr)) fun _ _ hnone => (nomatch hnone)
      | command prepared =>
        rintro point hpoint
        cases hpoint
        exact hstarted
    · refine wp_answer (fun err' herr => ?_) fun _ _ hnone => (nomatch hnone)
      cases herr
      exact hfails
  | command prepared point =>
    show wp _ ((Admin.code runner prepared.spec point).interpret _ >>= _) _ _ _
    rw [wp_bind]
    unfold Admin.code
    rw [interpret_bind, wp_bind]
    refine wp_mono (runs_execute point h) (fun seen result hresult => ?_) fun _ _ _ => trivial
    cases result with
    | ok next =>
      cases next with
      | done outcome => exact ⟨trivial, fun _ _ => ⟨trivial, fun _ _ _ hnone => (nomatch hnone)⟩⟩
      | jump point =>
        rintro point' hpoint
        cases hpoint
        exact hresult point rfl
    | error err => exact ⟨trivial, fun _ _ => ⟨hresult, fun _ _ _ hnone => (nomatch hnone)⟩⟩

/-! ## What a statement does to the database -/

section Statements

variable {i : Nat}

theorem writeTable_cases {ρ : Type} [DecidableEq ρ] {key : ρ → Uuid}
    {pass : Store Nat Uuid ρ → Nat → ρ → Bool} {S S' : Store Nat Uuid ρ}
    {change : Except AppError (Change ρ)} {row : ρ} (h : writeTable key pass S i change row = some S') :
    ∃ c, change = .ok c ∧ c.result = row ∧ Store.putAll key pass i S c.rows = some S' := by
  unfold writeTable at h
  split at h
  · next c =>
    split at h
    · next hrow => exact ⟨c, rfl, hrow, h⟩
    · cases h
  · cases h

/-- What a statement does. -/
inductive Executes (db : Database) (i clock now : Nat) :
    (s : Statement) → Except AppError s.Result → Database → Prop
  | grant {s : GrantStatement} {row : AdminIdentityGrant} {grants : GrantStore}
      (hown : db.mayOwn i = true)
      (h : writeTable (·.id) passesGrantIndexes db.grants i
        (s.change (db.grants.visible (·.id) i) now) row = some grants) :
      Executes db i clock now (.grant s) (.ok row) { db with grants, ownership := some i }
  /-- The lock is taken before the statement is refused. -/
  | refused {s : GrantStatement} {err : AppError} (hown : db.mayOwn i = true) :
      Executes db i clock now (.grant s) (.error err) { db with ownership := some i }
  | claims {id : Uuid} (hfirst : (db.visibleSetup i).claimed = false) :
      Executes db i clock now (.markSetupClaimed id) (.ok ())
        { db with setupWrite := some (i, markSetupClaimed (db.visibleSetup i) id now) }
  | invite {s : InviteStatement} {row : AdminInviteRow} {invites : InviteStore}
      (h : writeTable (·.id) passesInviteIndexes db.invites i
        (s.change (db.invites.visible (·.id) i) clock now) row = some invites) :
      Executes db i clock now (.invite s) (.ok row) { db with invites }
  | provider {s : ProviderStatement} {row : AuthProviderRow} {providers : ProviderStore}
      (h : writeTable (·.id) passesProviderIndexes db.providers i
        (s.change (db.providers.visible (·.id) i) now) row = some providers) :
      Executes db i clock now (.provider s) (.ok row) { db with providers }
  | issuer {s : IssuerStatement} {row : TrustedJwtIssuerRow} {issuers : IssuerStore}
      (h : writeTable (·.id) passesIssuerIndexes db.issuers i
        (s.change (db.issuers.visible (·.id) i) now) row = some issuers) :
      Executes db i clock now (.issuer s) (.ok row) { db with issuers }
  | claimed {id : Uuid} : Executes db i clock now (.markSetupClaimed id) (.ok ()) db
  | failed {s : Statement} {err : AppError} : Executes db i clock now s (.error err) db

theorem executes_of_statement {db db' : Database} {clock now : Nat} {x : Except AppError s.Result}
    (h : db.statement i clock now s x = some db') : Executes db i clock now s x db' := by
  cases x with
  | ok row =>
    cases s with
    | grant s =>
      simp only [Database.statement] at h
      split at h
      · next hown =>
        obtain ⟨grants, hwrite, rfl⟩ := Option.map_eq_some_iff.mp h
        exact .grant hown hwrite
      · cases h
    | markSetupClaimed id =>
      simp only [Database.statement] at h
      split at h
      · cases h
        exact .claimed
      · next hfirst =>
        split at h
        · cases h
          exact .claims (by simpa using hfirst)
        · cases h
    | invite s =>
      obtain ⟨invites, hwrite, rfl⟩ := Option.map_eq_some_iff.mp h
      exact .invite hwrite
    | provider s =>
      obtain ⟨providers, hwrite, rfl⟩ := Option.map_eq_some_iff.mp h
      exact .provider hwrite
    | issuer s =>
      obtain ⟨issuers, hwrite, rfl⟩ := Option.map_eq_some_iff.mp h
      exact .issuer hwrite
  | error err =>
    cases s with
    | grant s =>
      simp only [Database.statement] at h
      split at h
      · cases h
        exact .failed
      · split at h
        · next hrefused =>
          cases h
          rw [Bool.and_eq_true] at hrefused
          exact .refused hrefused.1
        · cases h
    | markSetupClaimed _ | invite _ | provider _ | issuer _ =>
      simp only [Database.statement] at h
      split at h
      · cases h
        exact .failed
      · cases h

end Statements

/-! ## What an answer does to the world -/

/-- The operations that end the transaction or its savepoint without effect. -/
def Ends : (o : AdminOp Response) → o.Ans → Prop
  | .commit, answer => answer.committed = false
  | .rollbackSavepoint, answer => answer.isOk = true
  | .rollback, _ | .drop, _ => True
  | _, _ => False

/-- An operation of the runner that is no commit. -/
def IsCommit : AdminOp Response → Prop
  | .commit => True
  | _ => False

/-- What a granted answer does to the world. -/
inductive Responds (w : World) (i : Nat) : (o : IdentityOp) → o.Ans → World → Prop
  | read (q : Query) : Responds w i (.fetch q) (.ok (q.answer w.db.tables)) w
  | unread (q : Query) : Responds w i (.fetch q) (.error .sqlx) w
  | wrote {s : Statement} {x : Except AppError s.Result} {db : Database}
      (hopened : w.commands.opened i = true)
      (h : Executes w.db i w.commands.now (w.commands.startedAt i) s x db) :
      Responds w i (.statement s) x { w with db }
  | closed (s : Statement) : Responds w i (.statement s) (.error .sqlx) w
  | committed {answer : Admin.Committed} {commands : Admin.World Response}
      (hopened : w.commands.opened i = true)
      (h : Admin.grant i w.commands .commit answer = some commands) :
      Responds w i (.command .commit) answer
        { w with
          db := w.db.commit i, commits := w.commitOf i answer.result.isOk :: w.commits, commands }
  | ended {o : AdminOp Response} {x : o.Ans} {commands : Admin.World Response} (hends : Ends o x)
      (h : Admin.grant i w.commands o x = some commands) :
      Responds w i (.command o) x { w with db := w.db.rollback i, commands }
  | ran {o : AdminOp Response} {x : o.Ans} {commands : Admin.World Response} (hends : ¬ Ends o x)
      (hcommit : ¬ IsCommit o) (h : Admin.grant i w.commands o x = some commands) :
      Responds w i (.command o) x { w with commands }
  | other {o : IdentityOp} (x : o.Ans)
      (h : match o with
        | .insertAudit _ | .rejectDeniedJwksUrl _ | .verify .. | .generate | .newId => True
        | _ => False) : Responds w i o x w

variable {w w' : World} {i : Nat}

theorem responds_command {o : AdminOp Response} {x : o.Ans} {commands : Admin.World Response}
    (h : Admin.grant i w.commands o x = some commands) :
    Responds w i (.command o) x { w.settle i o x with commands } := by
  cases o with
  | commit =>
    obtain ⟨result, effective⟩ := x
    cases effective with
    | false => exact .ended rfl h
    | true =>
      refine .committed ?_ h
      -- a commit that takes effect finds its transaction open
      obtain ⟨commands', hrespond, -⟩ := Option.map_eq_some_iff.mp h
      cases result with
      | ok _ =>
        simp only [Admin.World.respond] at hrespond
        split at hrespond
        · next hopened => exact hopened.1
        · cases hrespond
      | error err =>
        simp only [Admin.World.respond, if_true] at hrespond
        split at hrespond
        · assumption
        · cases hrespond
  | rollbackSavepoint =>
    cases x with
    | ok _ => exact .ended rfl h
    | error err => exact .ran (fun hends => (nomatch hends)) (fun hcommit => hcommit) h
  | rollback => exact .ended trivial h
  | drop => exact .ended trivial h
  | begin | utcNow | tryLock _ | pastDeadline | sleep | sweepExpired _ | load _ | insertClaim _
  | savepoint | releaseSavepoint | mutate | finalize _ _ _ | reply _ =>
    exact .ran (fun hends => hends) (fun hcommit => hcommit) h

variable {x : o.Ans}

/-- **What a granted answer can be.** -/
theorem responds_of_respond (h : w.respond i o x = some w') : Responds w i o x w' := by
  cases o with
  | command o =>
    simp only [World.respond] at h
    split at h
    · obtain ⟨commands, hgrant, rfl⟩ := Option.map_eq_some_iff.mp h
      exact responds_command hgrant
    · cases h
  | fetch q =>
    cases x with
    | ok row =>
      simp only [World.respond] at h
      split at h
      · next hrow =>
        cases h
        subst hrow
        exact .read q
      · cases h
    | error err =>
      simp only [World.respond] at h
      split at h
      · next hsqlx =>
        cases h
        subst hsqlx
        exact .unread q
      · cases h
  | statement s =>
    simp only [World.respond] at h
    split at h
    · next hopened =>
      obtain ⟨db, hdb, rfl⟩ := Option.map_eq_some_iff.mp h
      exact .wrote hopened (executes_of_statement hdb)
    · cases x with
      | ok row => cases h
      | error err =>
        simp only at h
        split at h
        · next hsqlx =>
          cases h
          subst hsqlx
          exact .closed s
        · cases h
  | insertAudit action =>
    simp only [World.respond] at h
    split at h
    · cases h
      exact .other x trivial
    · cases h
  | rejectDeniedJwksUrl _ | verify _ _ | generate | newId =>
    cases h
    exact .other x trivial

theorem answers_of_respond (h : w.respond i o x = some w') : Answers o x := by
  unfold Answers
  split
  · intro err herr
    simp only [World.respond] at h
    split at h
    · next answer hfails =>
      simpa [failsWithSqlx, herr, isSqlx] using hfails
    · cases h
  · trivial

theorem seen_of_responds (h : Responds w i o x w') : w'.seen = w.seen := by
  cases h <;> rfl

/-! ## Runs -/

variable {requests : Nat → Request} {G : Nat → World → IdentityOp → Prop} {I : World → Prop}

/-- An assertion that the answers keep under the guard, and the world on its own. -/
structure Keeps (requests : Nat → Request) (G : Nat → World → IdentityOp → Prop) (I : World → Prop) :
    Prop where
  act : ∀ i w o x w', I w → G i w o → May (requests i).call (w.seen i) o → w.gone i = false →
    Responds w i o x w' → I (w'.see i o x)
  nature : ∀ w e w', I w → nature w e = some w' → I w'

def identityOutline (lib : Libraries) (runner : AdminCommandRunner Response)
    (h : Keeps requests G I) : System.Outline (identity lib runner requests) where
  Ghost _ := Seen
  contract i := protocol (requests i).call
  at_ i := AtPoint (requests i).call
  shared w γ := (∀ i, γ i = w.seen i) ∧ I w
  guard := G
  code_ok i l g hl := wp_code (requests i) l hl
  act_ok i w o x w' γ hshared hguard hmay hgrant := by
    obtain ⟨hγ, hI⟩ := hshared
    rw [hγ i] at hmay
    have hgrant : (if w.gone i then none else (w.respond i o x).map fun w' => w'.see i o x) = some w' :=
      hgrant
    split at hgrant
    · cases hgrant
    · next hgone =>
      obtain ⟨w₁, hrespond, rfl⟩ := Option.map_eq_some_iff.mp hgrant
      have hresponds := responds_of_respond hrespond
      refine ⟨answers_of_respond hrespond, fun j => ?_,
          h.act i w o x w₁ hI hguard hmay (by simpa using hgone) hresponds⟩
      show Function.update γ i ((γ i).record o x) j = Function.update w₁.seen i ((w₁.seen i).record o x) j
      rw [seen_of_responds hresponds, hγ i, funext hγ]
  nature_ok w e w' γ hshared hnature := by
    refine ⟨fun j => ?_, h.nature w e w' hshared.2 hnature⟩
    rw [hshared.1 j]
    cases e <;> cases hnature <;> rfl

/-- Every call follows the protocol from what it has seen so far. -/
def Conforms (s : (identity lib runner requests).State) : Prop :=
  ∀ i, (s.proc i).wp (protocol (requests i).call) (s.world.seen i)
    (fun seen next => ∀ point, next = some point → AtPoint (requests i).call point seen) fun _ _ => True

theorem conforms_initial (ledger : Ledger) (t : Tables) :
    Conforms (identityInitial lib runner requests ledger t) := by
  intro i
  show wp _ (code lib runner (requests i) .start) _ _ _
  exact wp_code (requests i) .start rfl

/-- **The proof rule**: what the answers and the world keep under the guard holds at the end of
every run that meets it. -/
theorem identity_run (h : Keeps requests G I) {s t : (identity lib runner requests).State}
    {moves : List (identity lib runner requests).Move} (hconforms : Conforms s) (hI : I s.world)
    (hmeets : Transition.Meets (identity lib runner requests).step (System.Guarded G) s moves)
    (hrun : Transition.runFrom (identity lib runner requests).step s moves = some t) :
    Conforms t ∧ I t.world := by
  have hholds : (identityOutline lib runner h).Holds s := ⟨s.world.seen, ⟨fun _ => rfl, hI⟩, hconforms⟩
  obtain ⟨γ, ⟨hγ, hI'⟩, hconforms'⟩ := (identityOutline lib runner h).guarded hholds hmeets hrun
  obtain rfl : γ = t.world.seen := funext hγ
  exact ⟨hconforms', hI'⟩

/-- **The proof rule**: what the grants and the moves of the world keep, under a guard and the
protocol, holds at the end of every run that meets the guard. -/
theorem identity_invariant (h : Keeps requests (fun _ _ _ => True) I)
    {s t : (identity lib runner requests).State} {moves : List (identity lib runner requests).Move}
    (hconforms : Conforms s) (hI : I s.world)
    (hrun : Transition.runFrom (identity lib runner requests).step s moves = some t) :
    Conforms t ∧ I t.world := by
  have hholds : (identityOutline lib runner h).Holds s := ⟨s.world.seen, ⟨fun _ => rfl, hI⟩, hconforms⟩
  obtain ⟨γ, ⟨hγ, hI'⟩, hconforms'⟩ :=
    (identityOutline lib runner h).invariant (fun _ _ _ => trivial) hholds hrun
  obtain rfl : γ = t.world.seen := funext hγ
  exact ⟨hconforms', hI'⟩

end Moira.Identity
