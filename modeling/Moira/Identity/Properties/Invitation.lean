import Moira.Identity.Properties.Ownership

/-!
# Invitations

A redemption inserts its grant and then consumes its invite, in one transaction; what admits it was
read before.

- **`invites_are_single_use`** — every committed redemption is such, no invite is consumed twice,
  and a call that fails has left invites and grants as they were, unless it was its commit that
  failed and had taken effect
-/

namespace Moira.Identity

open Admin (AdminOp AdminCommandRunner)

/-! ## Sessions -/

section Sessions

variable {commands commands' : Admin.World Response} {i j : Nat} {o : AdminOp Response} {x : o.Ans}

/-- The operations that end a transaction. -/
def Closes : AdminOp Response → Prop
  | .commit | .rollback | .drop => True
  | _ => False

/-- What an operation of the runner does to the sessions. -/
structure SessionStep (i : Nat) (o : AdminOp Response) (commands commands' : Admin.World Response) :
    Prop where
  now : commands'.now = commands.now
  others : ∀ j, j ≠ i → commands'.opened j = commands.opened j ∧
    commands'.startedAt j = commands.startedAt j
  closes : Closes o → commands'.opened i = false
  keeps : ¬Closes o → o ≠ .begin → commands'.opened i = commands.opened i
  started : commands'.startedAt i = commands.startedAt i ∨
      (o = .begin ∧ commands'.startedAt i = commands.now)

/-- The sessions and the clock are as they were. -/
def SameSessions (commands commands' : Admin.World Response) : Prop :=
  commands'.now = commands.now ∧ commands'.opened = commands.opened ∧
    commands'.startedAt = commands.startedAt

theorem sessionStep_same (hcloses : ¬Closes o) (h : SameSessions commands commands') :
    SessionStep i o commands commands' where
  now := h.1
  others _ _ := by rw [h.2.1, h.2.2]; exact ⟨rfl, rfl⟩
  closes h := absurd h hcloses
  keeps _ _ := by rw [h.2.1]
  started := .inl (by rw [h.2.2])

theorem sessionStep_close (hcloses : Closes o) (h : commands'.now = commands.now)
    (hopened : commands'.opened = Function.update commands.opened i false)
    (hstarted : commands'.startedAt = commands.startedAt) : SessionStep i o commands commands' where
  now := h
  others j hji := by
    rw [hopened, hstarted, Function.update_of_ne hji]
    exact ⟨rfl, rfl⟩
  closes _ := by rw [hopened, Function.update_self]
  keeps h := absurd hcloses h
  started := .inl (by rw [hstarted])

/-- An operation inside of a transaction. -/
def Inside : AdminOp Response → Prop
  | .begin | .commit | .rollback | .drop => False
  | _ => True

theorem sameSessions_of_respond (h : commands.respond i o x = some commands') (ho : Inside o) :
    SameSessions commands commands' := by
  have hsome : ∀ {c : Admin.World Response}, SameSessions commands c → some c = some commands' →
      SameSessions commands commands' := fun hc heq => Option.some.inj heq ▸ hc
  have hif : ∀ {p : Prop} [Decidable p] {c : Admin.World Response}, SameSessions commands c →
      (if p then some c else none) = some commands' → SameSessions commands commands' := by
    intro p _ c hc heq
    split at heq
    · exact hsome hc heq
    · cases heq
  have hrefl : SameSessions commands commands := ⟨rfl, rfl, rfl⟩
  cases o with
  | begin | commit | rollback | drop => exact ho.elim
  | utcNow => exact hif hrefl h
  | pastDeadline | sleep | reply _ => exact hsome hrefl h
  | tryLock key =>
    cases x with
    | error err => exact hsome hrefl h
    | ok acquired =>
      refine hif ?_ h
      cases acquired <;> exact ⟨rfl, rfl, rfl⟩
  | sweepExpired positions =>
    cases x with
    | error err => exact hsome hrefl h
    | ok _ =>
      refine hif ?_ h
      exact ⟨rfl, rfl, rfl⟩
  | insertClaim record =>
    cases x with
    | inserted =>
      refine hif ?_ h
      exact ⟨rfl, rfl, rfl⟩
    | duplicate => exact hif hrefl h
    | failed err => exact hsome hrefl h
  | load _ | savepoint | releaseSavepoint | rollbackSavepoint | mutate | finalize _ _ _ =>
    cases x with
    | error err => exact hsome hrefl h
    | ok _ => exact hif hrefl h

theorem sessionStep_of_grant (h : Admin.grant i commands o x = some commands') :
    SessionStep i o commands commands' := by
  obtain ⟨c, hrespond, rfl⟩ := Option.map_eq_some_iff.mp h
  cases o with
  | begin =>
    cases x with
    | ok _ =>
      cases hrespond
      exact
        { now := rfl
          others := fun j hji =>
            ⟨Function.update_of_ne hji .., Function.update_of_ne hji ..⟩
          closes := fun h => h.elim
          keeps := fun _ h => absurd rfl h
          started := .inr ⟨rfl, Function.update_self ..⟩ }
    | error err =>
      cases hrespond
      exact sessionStep_same (fun h => h) ⟨rfl, rfl, rfl⟩
  | commit =>
    obtain ⟨result, effective⟩ := x
    cases result with
    | ok _ =>
      simp only [Admin.World.respond] at hrespond
      split at hrespond
      · cases hrespond
        exact sessionStep_close trivial rfl rfl rfl
      · cases hrespond
    | error err =>
      simp only [Admin.World.respond] at hrespond
      split at hrespond
      · split at hrespond
        · cases hrespond
          exact sessionStep_close trivial rfl rfl rfl
        · cases hrespond
      · cases hrespond
        exact sessionStep_close trivial rfl rfl rfl
  | rollback =>
    cases hrespond
    exact sessionStep_close trivial rfl rfl rfl
  | drop =>
    cases hrespond
    exact sessionStep_close trivial rfl rfl rfl
  | utcNow | tryLock _ | pastDeadline | sleep | sweepExpired _ | load _ | insertClaim _ | savepoint
  | releaseSavepoint | rollbackSavepoint | mutate | finalize _ _ _ | reply _ =>
    have hsame := sameSessions_of_respond hrespond trivial
    exact sessionStep_same (fun h => h) ⟨hsame.1, hsame.2.1, hsame.2.2⟩

end Sessions

/-! ## The rows -/

/-- What an invite may become. -/
structure InviteSuccessor (r v : AdminInviteRow) : Prop where
  constraint : v.constraint = r.constraint
  value : v.value = r.value
  settled : r.status ≠ .pending → v.status = r.status

theorem InviteSuccessor.refl (r : AdminInviteRow) : InviteSuccessor r r :=
  ⟨rfl, rfl, fun _ => rfl⟩

theorem InviteSuccessor.trans (a b c : AdminInviteRow) (h : InviteSuccessor a b)
    (h' : InviteSuccessor b c) : InviteSuccessor a c where
  constraint := h'.constraint.trans h.constraint
  value := h'.value.trans h.value
  settled hsettled := by
    have hb := h.settled hsettled
    exact (h'.settled (by rwa [hb])).trans hb

theorem evaluateInviteConstraint_congr {invite r : AdminInviteRow}
    (hconstraint : r.constraint = invite.constraint)
    (hvalue : r.value = invite.value) (email : String) :
    evaluateInviteConstraint r email = evaluateInviteConstraint invite email := by
  unfold evaluateInviteConstraint
  rw [hconstraint, hvalue]

variable {invites : List AdminInviteRow} {change : Change AdminInviteRow} {clock now : Nat}

/-- The row that an invite statement consumes, with its new version. -/
structure Consumes (invites : List AdminInviteRow) (id adminIdentityId : Uuid) (clock : Nat)
    (r v : AdminInviteRow) : Prop where
  mem : r ∈ invites
  id_eq : r.id = id
  pending : r.status = .pending
  unexpired : r.isExpired clock = false
  same : v.id = r.id
  successor : InviteSuccessor r v
  consumed : v.status = .consumed
  consumedFor : v.consumedAdminIdentityId = some adminIdentityId

theorem requireRedeemable_cases {r : AdminInviteRow} (h : requireRedeemable r clock = .ok ()) :
    r.status = .pending ∧ r.isExpired clock = false := by
  unfold requireRedeemable at h
  cases hstatus : r.status with
  | consumed =>
    rw [hstatus] at h
    cases h
  | revoked =>
    rw [hstatus] at h
    cases h
  | pending =>
    rw [hstatus] at h
    simp only at h
    split at h
    · cases h
    · next hexpired => exact ⟨rfl, by simpa using hexpired⟩

theorem consumeInvite_cases {id adminIdentityId : Uuid} {issuer subject : String}
    (h : consumeInvite invites id issuer subject adminIdentityId clock now = .ok change) :
    ∃ r v, change.rows = [v] ∧ Consumes invites id adminIdentityId clock r v := by
  unfold consumeInvite at h
  split at h
  · cases h
  · next r hfound =>
    cases hredeemable : requireRedeemable r clock with
    | error err =>
      rw [hredeemable] at h
      cases h
    | ok _ =>
      rw [hredeemable] at h
      cases h
      obtain ⟨hpending, hunexpired⟩ := requireRedeemable_cases hredeemable
      refine ⟨r, _, rfl, List.mem_of_find?_eq_some hfound, by simpa using List.find?_some hfound,
        hpending, hunexpired, rfl, ⟨rfl, rfl, fun hsettled => absurd hpending hsettled⟩, rfl, rfl⟩

theorem invite_change_cases (s : InviteStatement) (h : s.change invites clock now = .ok change) :
    ∃ v, change.rows = [v] ∧ ((∀ r ∈ invites, r.id ≠ v.id) ∨
      ∃ r ∈ invites, r.id = v.id ∧ InviteSuccessor r v) ∧
      (v.status = .consumed → ∃ id issuer subject adminIdentityId,
        s = .consumeInvite id issuer subject adminIdentityId) := by
  cases s with
  | insertInvite insert =>
    obtain ⟨hnot, rfl⟩ := inserted_eq_ok h
    exact ⟨_, rfl, .inl fun r hr hid => hnot (List.mem_map.mpr ⟨r, hr, hid⟩),
      fun hconsumed => (nomatch hconsumed)⟩
  | revokeInvite id =>
    have h : revokeInvite invites id now = .ok change := h
    unfold revokeInvite at h
    split at h
    · cases h
    · next r hfound =>
      cases hstatus : r.status with
      | consumed =>
        rw [hstatus] at h
        cases h
      | revoked =>
        rw [hstatus] at h
        cases h
      | pending =>
        rw [hstatus] at h
        cases h
        refine ⟨_, rfl, .inr ⟨r, List.mem_of_find?_eq_some hfound, rfl, rfl, rfl, ?_⟩, ?_⟩
        · exact fun hsettled => absurd hstatus hsettled
        · exact fun hconsumed => (nomatch hconsumed)
  | consumeInvite id issuer subject adminIdentityId =>
    obtain ⟨r, v, hrows, hconsumes⟩ := consumeInvite_cases h
    exact ⟨v, hrows, .inr ⟨r, hconsumes.mem, hconsumes.same.symm, hconsumes.successor⟩,
      fun _ => ⟨id, issuer, subject, adminIdentityId, rfl⟩⟩

/-! ## The transaction of a redemption -/

/-- The grant that a redemption has written. -/
structure GrantHeld (seen : Seen) (identity : TrustedJwtIdentity) (body : AdminInviteRedeemRequest)
    (g : AdminIdentityGrant) : Prop where
  email : g.email = some (trim body.email)
  verified : g.emailVerified = true
  admitted : ∃ invite, Admitted seen identity g.trustedJwtIssuerId body invite

/-- The invite that a redemption has consumed. -/
structure InviteHeld (w : World) (i : Nat) (seen : Seen) (g : AdminIdentityGrant)
    (r v : AdminInviteRow) (clock : Nat) : Prop where
  consumes : Consumes w.db.invites.rows v.id g.id clock r v
  started : w.commands.startedAt i ≤ clock
  now : clock ≤ w.commands.now
  read : ∃ invite, seen.invite = some invite ∧ invite.id = v.id

/-- How far the transaction of a redemption has come. -/
inductive Redeeming (w : World) (i : Nat) (seen : Seen) (identity : TrustedJwtIdentity)
    (body : AdminInviteRedeemRequest) : Prop
  | closed (hclosed : w.commands.opened i = false) (hgrants : (w.db.grants.tx i).writes = [])
      (hinvites : (w.db.invites.tx i).writes = [])
  | begun (hgranted : seen.granted = none) (hconsumed : seen.consumed = none)
      (hgrants : (w.db.grants.tx i).writes = []) (hinvites : (w.db.invites.tx i).writes = [])
  | granted (g : AdminIdentityGrant) (hgranted : seen.granted = some g.id)
      (hconsumed : seen.consumed = none) (hgrants : (w.db.grants.tx i).writes = [g])
      (hinvites : (w.db.invites.tx i).writes = []) (hheld : GrantHeld seen identity body g)
  | consumed (g : AdminIdentityGrant) (r v : AdminInviteRow) (clock : Nat)
      (hgrants : (w.db.grants.tx i).writes = [g]) (hinvites : (w.db.invites.tx i).writes = [v])
      (hgranted : seen.granted = some g.id) (hconsumed : seen.consumed = some (v.id, g.id))
      (hheld : GrantHeld seen identity body g) (hinvite : InviteHeld w i seen g r v clock)

/-- What the transaction of a call holds of the invites. -/
structure PendingInvites (call : Call) (w : World) (i : Nat) (seen : Seen) : Prop where
  redeems : ∀ identity body, call = .redeemInvite identity body → Redeeming w i seen identity body
  others : call.isRedeem = false → ∀ v ∈ (w.db.invites.tx i).writes, v.status ≠ .consumed

/-! ### What does not concern it -/

variable {requests : Nat → Request} {call : Call} {w w' : World} {i k : Nat} {seen seen' : Seen}

/-- The call has read the same. -/
structure SameReads (seen seen' : Seen) : Prop where
  invite : seen'.invite = seen.invite
  bound : seen'.bound = seen.bound
  unbound : seen'.unbound = seen.unbound

/-- The call has the same to show for its grant. -/
structure SameEvidence (seen seen' : Seen) : Prop extends SameReads seen seen' where
  granted : seen'.granted = seen.granted
  consumed : seen'.consumed = seen.consumed

/-- The transaction, its session and the rows it has versions of are as they were. -/
structure Untouched (w w' : World) (k : Nat) : Prop where
  grants : (w'.db.grants.tx k).writes = (w.db.grants.tx k).writes
  invites : (w'.db.invites.tx k).writes = (w.db.invites.tx k).writes
  rows : ∀ v ∈ (w.db.invites.tx k).writes, ∀ r ∈ w.db.invites.rows, r.id = v.id → r ∈ w'.db.invites.rows
  opened : w'.commands.opened k = w.commands.opened k
  started : w'.commands.startedAt k = w.commands.startedAt k
  now : w.commands.now ≤ w'.commands.now

theorem Admitted.congr {identity : TrustedJwtIdentity} {id : Uuid} {body : AdminInviteRedeemRequest}
    {invite : AdminInviteRow} (h : Admitted seen identity id body invite) (hsame : SameReads seen seen') :
    Admitted seen' identity id body invite where
  read := hsame.invite.trans h.read
  verified := h.verified
  matched := h.matched
  allowed := by
    obtain ⟨policy, hgoverns, hpolicy⟩ := h.allowed
    refine ⟨policy, ?_, hpolicy⟩
    unfold Governs at hgoverns ⊢
    rwa [hsame.bound, hsame.unbound]

theorem GrantHeld.congr {identity : TrustedJwtIdentity} {body : AdminInviteRedeemRequest}
    {g : AdminIdentityGrant} (h : GrantHeld seen identity body g) (hsame : SameReads seen seen') :
    GrantHeld seen' identity body g where
  email := h.email
  verified := h.verified
  admitted := h.admitted.imp fun _ hadmitted => hadmitted.congr hsame

theorem redeeming_of_untouched {identity : TrustedJwtIdentity} {body : AdminInviteRedeemRequest}
    (huntouched : Untouched w w' k) (hsame : SameEvidence seen seen')
    (h : Redeeming w k seen identity body) : Redeeming w' k seen' identity body := by
  cases h with
  | closed hclosed hgrants hinvites =>
    exact .closed (huntouched.opened.trans hclosed) (huntouched.grants.trans hgrants)
      (huntouched.invites.trans hinvites)
  | begun hgranted hconsumed hgrants hinvites =>
    exact .begun (hsame.granted.trans hgranted) (hsame.consumed.trans hconsumed)
      (huntouched.grants.trans hgrants) (huntouched.invites.trans hinvites)
  | granted g hgranted hconsumed hgrants hinvites hheld =>
    exact .granted g (hsame.granted.trans hgranted) (hsame.consumed.trans hconsumed)
      (huntouched.grants.trans hgrants) (huntouched.invites.trans hinvites) (hheld.congr hsame.toSameReads)
  | consumed g r v clock hgrants hinvites hgranted hconsumed hheld hinvite =>
    refine .consumed g r v clock (huntouched.grants.trans hgrants) (huntouched.invites.trans hinvites)
      (hsame.granted.trans hgranted) (hsame.consumed.trans hconsumed) (hheld.congr hsame.toSameReads) ?_
    have hv : v ∈ (w.db.invites.tx k).writes := by
      rw [hinvites]
      exact List.mem_cons_self
    exact
      { consumes :=
          { hinvite.consumes with
            mem := huntouched.rows v hv r hinvite.consumes.mem hinvite.consumes.id_eq }
        started := by
          rw [huntouched.started]
          exact hinvite.started
        now := hinvite.now.trans huntouched.now
        read := by
          rw [hsame.invite]
          exact hinvite.read }

theorem pending_of_untouched (huntouched : Untouched w w' k) (hsame : SameEvidence seen seen')
    (h : PendingInvites call w k seen) : PendingInvites call w' k seen' where
  redeems identity body hcall := redeeming_of_untouched huntouched hsame (h.redeems identity body hcall)
  others hcall := by
    rw [huntouched.invites]
    exact h.others hcall

theorem pending_of_empty (hgrants : (w.db.grants.tx k).writes = [])
    (hinvites : (w.db.invites.tx k).writes = [])
    (h : w.commands.opened k = false ∨ (seen.granted = none ∧ seen.consumed = none)) :
    PendingInvites call w k seen where
  redeems identity body _ := by
    rcases h with hclosed | ⟨hgranted, hconsumed⟩
    · exact .closed hclosed hgrants hinvites
    · exact .begun hgranted hconsumed hgrants hinvites
  others _ v hv := by
    rw [hinvites] at hv
    exact absurd hv List.not_mem_nil

/-! ### Its own statements -/

variable {clock now : Nat} {db : Database}

theorem redeeming_insert {identity : TrustedJwtIdentity} {body : AdminInviteRedeemRequest}
    {insert : AdminIdentityGrantInsert} {row : AdminIdentityGrant} {grants : GrantStore}
    (h : Redeeming w i seen identity body) (hopened : w.commands.opened i = true)
    (hpermits : Permits (.redeemInvite identity body) seen (.grant (.insertGrant insert)))
    (hwrite : writeTable (·.id) passesGrantIndexes w.db.grants i
      (insertGrant (w.db.grants.visible (·.id) i) insert) row = some grants) :
    Redeeming { w with db := { w.db with grants, ownership := some i } } i
      { seen with wrote := true, granted := some row.id } identity body := by
  obtain ⟨hnone, hmay⟩ := hpermits
  obtain ⟨c, hchange, hrow, hput⟩ := writeTable_cases hwrite
  obtain ⟨-, rfl⟩ := inserted_eq_ok hchange
  have hheld : GrantHeld seen identity body row := by
    subst hrow
    rcases hmay.2 with ⟨actor, request, hcall, -⟩ | ⟨identity', body', invite, hcall, -, hemail,
      hverified, hadmitted⟩
    · cases hcall
    · cases hcall
      exact ⟨congrArg some hemail, hverified.trans hadmitted.verified, invite, hadmitted⟩
  cases h with
  | closed hclosed => rw [hclosed] at hopened; cases hopened
  | granted g hgranted => rw [hgranted] at hnone; cases hnone
  | consumed g r v clock _ _ hgranted => rw [hgranted] at hnone; cases hnone
  | begun hgranted hconsumed hgrants hinvites =>
    refine .granted row rfl hconsumed ?_ hinvites (hheld.congr ⟨rfl, rfl, rfl⟩)
    subst hrow
    exact Store.writes_putAll_singleton hput hgrants

theorem redeeming_consume {identity : TrustedJwtIdentity} {body : AdminInviteRedeemRequest}
    {id adminIdentityId : Uuid} {issuer subject : String} {row : AdminInviteRow} {invites : InviteStore}
    (h : Redeeming w i seen identity body) (hopened : w.commands.opened i = true)
    (hclock : w.commands.startedAt i ≤ w.commands.now)
    (hpermits : Permits (.redeemInvite identity body) seen
      (.invite (.consumeInvite id issuer subject adminIdentityId)))
    (hwrite : writeTable (·.id) passesInviteIndexes w.db.invites i
      (consumeInvite (w.db.invites.visible (·.id) i) id issuer subject adminIdentityId
        w.commands.now (w.commands.startedAt i)) row = some invites) :
    Redeeming { w with db := { w.db with invites } } i
      { seen with wrote := true, consumed := some (id, adminIdentityId) } identity body := by
  obtain ⟨hnone, hsome, identity', body', invite, hcall, hread, hid⟩ := hpermits
  obtain ⟨c, hchange, hrow, hput⟩ := writeTable_cases hwrite
  obtain ⟨r, v, hrows, hconsumes⟩ := consumeInvite_cases hchange
  rw [hrows] at hput
  cases h with
  | closed hclosed => rw [hclosed] at hopened; cases hopened
  | begun hgranted => rw [hgranted] at hsome; cases hsome
  | consumed g r v clock _ _ _ hconsumed => rw [hconsumed] at hnone; cases hnone
  | granted g hgranted hconsumed hgrants hinvites hheld =>
    rw [hgranted] at hsome
    obtain rfl := Option.some.inj hsome
    have hvid : v.id = id := hconsumes.same.trans hconsumes.id_eq
    -- the transaction has not touched the invites before, so what it sees is committed
    have hvisible : w.db.invites.visible (·.id) i = w.db.invites.rows := Store.visible_of_no_writes hinvites
    rw [hvisible] at hconsumes
    refine .consumed g r v w.commands.now hgrants (Store.writes_putAll_singleton hput hinvites) hgranted
      ?_ (hheld.congr ⟨rfl, rfl, rfl⟩) ⟨?_, hclock, le_rfl, invite, hread, hid.trans hvid.symm⟩
    · show some (id, g.id) = some (v.id, g.id)
      rw [hvid]
    · show Consumes invites.rows v.id g.id _ r v
      rw [Store.rows_putAll hput, hvid]
      exact hconsumes

theorem pending_executes_self {s : Statement} {x : Except AppError s.Result} {db' : Database}
    (h : PendingInvites call w i seen) (hopened : w.commands.opened i = true)
    (hclock : w.commands.startedAt i ≤ w.commands.now) (hpermits : Permits call seen s)
    (hexecutes : Executes w.db i w.commands.now (w.commands.startedAt i) s x db') :
    PendingInvites call { w with db := db' } i (seen.record (.statement s) x) := by
  have hkept : ∀ {db' : Database} {seen' : Seen}, (db'.grants.tx i).writes = (w.db.grants.tx i).writes →
      (db'.invites.tx i).writes = (w.db.invites.tx i).writes → db'.invites.rows = w.db.invites.rows →
      SameEvidence seen seen' → PendingInvites call { w with db := db' } i seen' := by
    intro db' seen' hgrants hinvites hrows hsame
    refine pending_of_untouched ⟨hgrants, hinvites, fun v _ r hr _ => ?_, rfl, rfl, le_rfl⟩ hsame h
    show r ∈ db'.invites.rows
    rwa [hrows]
  cases hexecutes with
  | @grant s row grants hown hwrite =>
    cases s with
    | insertGrant insert =>
      refine ⟨fun identity body hcall => ?_, h.others⟩
      subst hcall
      exact redeeming_insert (h.redeems identity body rfl) hopened hpermits hwrite
    | setPrimary id version isPrimary =>
      refine ⟨fun identity body hcall => ?_, h.others⟩
      subst hcall
      cases hpermits
    | revokeGrant id =>
      refine ⟨fun identity body hcall => ?_, h.others⟩
      subst hcall
      cases hpermits
  | @invite s row invites hwrite =>
    obtain ⟨c, hchange, -, hput⟩ := writeTable_cases hwrite
    obtain ⟨v, hrows, -, hconsumed⟩ := invite_change_cases s hchange
    refine ⟨fun identity body hcall => ?_, fun hcall u hu => ?_⟩
    · subst hcall
      cases s with
      | consumeInvite id issuer subject adminIdentityId =>
        exact redeeming_consume (h.redeems identity body rfl) hopened hclock hpermits hwrite
      | insertInvite insert => cases hpermits
      | revokeInvite id => cases hpermits
    · rw [hrows] at hput
      rcases Store.mem_writes_putAll hput hu with hu | hu
      · rw [List.mem_singleton] at hu
        subst hu
        intro hstatus
        obtain ⟨id, issuer, subject, adminIdentityId, rfl⟩ := hconsumed hstatus
        obtain ⟨-, -, identity, body, invite, rfl, -⟩ := hpermits
        cases hcall
      · exact h.others hcall u hu
  | provider hwrite => exact hkept rfl rfl rfl ⟨⟨rfl, rfl, rfl⟩, rfl, rfl⟩
  | issuer hwrite => exact hkept rfl rfl rfl ⟨⟨rfl, rfl, rfl⟩, rfl, rfl⟩
  | claims _ => exact hkept rfl rfl rfl ⟨⟨rfl, rfl, rfl⟩, rfl, rfl⟩
  | claimed => exact hkept rfl rfl rfl ⟨⟨rfl, rfl, rfl⟩, rfl, rfl⟩
  | refused _ => exact hkept rfl rfl rfl ⟨⟨rfl, rfl, rfl⟩, rfl, rfl⟩
  | failed => exact hkept rfl rfl rfl ⟨⟨rfl, rfl, rfl⟩, rfl, rfl⟩

/-! ### The other transactions -/

theorem rows_invites_executes {s : Statement} {x : Except AppError s.Result} {db' : Database}
    (hexecutes : Executes db i clock now s x db') : db'.invites.rows = db.invites.rows := by
  cases hexecutes with
  | invite hwrite =>
    obtain ⟨c, -, -, hput⟩ := writeTable_cases hwrite
    exact Store.rows_putAll hput
  | grant _ _ | refused _ | claims _ | provider _ | issuer _ | claimed | failed => rfl

theorem tx_invites_executes {s : Statement} {x : Except AppError s.Result} {db' : Database}
    (hexecutes : Executes db i clock now s x db') (hne : k ≠ i) :
    db'.invites.tx k = db.invites.tx k ∧ db'.grants.tx k = db.grants.tx k := by
  cases hexecutes with
  | invite hwrite => exact ⟨tx_writeTable_of_ne hwrite hne, rfl⟩
  | grant _ hwrite => exact ⟨rfl, tx_writeTable_of_ne hwrite hne⟩
  | refused _ | claims _ | provider _ | issuer _ | claimed | failed => exact ⟨rfl, rfl⟩

variable {o : IdentityOp} {x : o.Ans}

theorem untouched_of_responds (hs : w.db.invites.Sound (·.id)) (hresponds : Responds w i o x w')
    (hne : k ≠ i) : Untouched w w' k := by
  cases hresponds with
  | read | unread | closed | other => exact ⟨rfl, rfl, fun _ _ _ hr _ => hr, rfl, rfl, le_rfl⟩
  | wrote _ hexecutes =>
    obtain ⟨hinvites, hgrants⟩ := tx_invites_executes hexecutes hne
    refine ⟨congrArg Tx.writes hgrants, congrArg Tx.writes hinvites, fun v _ r hr _ => ?_, rfl, rfl,
      le_rfl⟩
    show r ∈ Store.rows _
    rwa [rows_invites_executes hexecutes]
  | committed _ hgrant =>
    have hsession := sessionStep_of_grant hgrant
    exact ⟨congrArg Tx.writes (Store.tx_rollback_of_ne hne), congrArg Tx.writes (Store.tx_rollback_of_ne hne),
      fun v hv r hr hid => Store.mem_commit_of_written hs hne hv hr hid, (hsession.others k hne).1,
      (hsession.others k hne).2, hsession.now.ge⟩
  | ended _ hgrant =>
    have hsession := sessionStep_of_grant hgrant
    exact ⟨congrArg Tx.writes (Store.tx_rollback_of_ne hne), congrArg Tx.writes (Store.tx_rollback_of_ne hne),
      fun _ _ _ hr _ => hr, (hsession.others k hne).1, (hsession.others k hne).2, hsession.now.ge⟩
  | ran _ _ hgrant =>
    have hsession := sessionStep_of_grant hgrant
    exact ⟨rfl, rfl, fun _ _ _ hr _ => hr, (hsession.others k hne).1, (hsession.others k hne).2,
      hsession.now.ge⟩

/-! ## The invariant -/

/-- A redemption that committed. -/
structure Redeemed (identity : TrustedJwtIdentity) (body : AdminInviteRedeemRequest) (c : Commit)
    (g : AdminIdentityGrant) (r v : AdminInviteRow) : Prop where
  grants : c.grants = [g]
  invites : c.invites = [v]
  /-- The invite is consumed for the grant. -/
  consumed : v.status = .consumed
  consumedFor : v.consumedAdminIdentityId = some g.id
  /-- It was pending, and not expired at a time between the start of the transaction and its commit.
  -/
  row : r ∈ c.before.invites ∧ r.id = v.id
  pending : r.status = .pending
  unexpired : ∃ clock, c.startedAt ≤ clock ∧ clock ≤ c.committedAt ∧ r.isExpired clock = false
  /-- The address is verified, and admitted by the invite and by the provider that governs the
  issuer. -/
  email : g.email = some (trim body.email)
  verified : g.emailVerified = true
  matched : evaluateInviteConstraint r (trim body.email) = .ok ()
  allowed : ∃ policy, Governs c.seen identity.issuer g.trustedJwtIssuerId policy ∧
    evaluateClaimPolicy (trim body.email) body.emailVerified (some policy) = .ok ()

/-- What the commits have done to the invites. -/
structure CommitsInvite (requests : Nat → Request) (commits : List Commit) : Prop where
  redeemed : ∀ c ∈ commits, ∀ identity body, (requests c.call).call = .redeemInvite identity body →
    (c.grants = [] ∧ c.invites = []) ∨ ∃ g r v, Redeemed identity body c g r v
  others : ∀ c ∈ commits, (requests c.call).call.isRedeem = false →
    ∀ v ∈ c.invites, v.status ≠ .consumed
  /-- No invite is consumed by two commits. -/
  single : commits.Pairwise fun c c' => ∀ v ∈ c.invites, v.status = .consumed →
    ∀ v' ∈ c'.invites, v'.status = .consumed → v.id ≠ v'.id

structure InvitesKept (requests : Nat → Request) (w : World) : Prop where
  accounted : Accounted w
  sound : w.db.invites.Sound (·.id)
  forward : w.db.invites.Forward (·.id) InviteSuccessor
  clock : ∀ i, w.commands.startedAt i ≤ w.commands.now
  read : ∀ i invite, (w.seen i).invite = some invite →
    ∃ r ∈ w.db.invites.rows, r.id = invite.id ∧ InviteSuccessor invite r
  pending : ∀ i, PendingInvites (requests i).call w i (w.seen i)
  settled : ∀ c ∈ w.commits, ∀ v ∈ c.invites, v.status = .consumed →
    ∃ row ∈ w.db.invites.rows, row.id = v.id ∧ row.status = .consumed
  commits : CommitsInvite requests w.commits

/-! ### The call that moves -/

theorem sameEvidence_ran {o : AdminOp Response} {x : o.Ans} (hends : ¬Ends o x) (hcommit : ¬IsCommit o)
    (seen : Seen) : SameEvidence seen (seen.record (.command o) x) := by
  cases o with
  | commit => exact absurd trivial hcommit
  | rollbackSavepoint =>
    cases x with
    | ok _ => exact absurd rfl hends
    | error err => exact ⟨⟨rfl, rfl, rfl⟩, rfl, rfl⟩
  | begin | utcNow | tryLock _ | pastDeadline | sleep | sweepExpired _ | load _ | insertClaim _
  | savepoint | releaseSavepoint | mutate | finalize _ _ _ | rollback | drop | reply _ =>
    exact ⟨⟨rfl, rfl, rfl⟩, rfl, rfl⟩

theorem pending_read (h : PendingInvites call w i seen) (hclean : w.db.Clean i) (q : Query)
    (row : q.Row) : PendingInvites call w i (seen.recordFetch q row) := by
  obtain ⟨_, _, _, _, _, _, heq⟩ := recordFetch_eq seen q row
  refine ⟨fun identity body hcall => ?_, h.others⟩
  cases h.redeems identity body hcall with
  | closed hclosed hgrants hinvites => exact .closed hclosed hgrants hinvites
  | begun hgranted hconsumed hgrants hinvites =>
    refine .begun ?_ ?_ hgrants hinvites
    · rw [heq]
      exact hgranted
    · rw [heq]
      exact hconsumed
  | granted g _ _ hgrants =>
    rw [hclean.grants] at hgrants
    cases hgrants
  | consumed g r v clock hgrants =>
    rw [hclean.grants] at hgrants
    cases hgrants

theorem pending_begin {commands : Admin.World Response} (h : PendingInvites call w i seen)
    (hmay : seen.granted = none ∧ seen.consumed = none) :
    PendingInvites call { w with commands } i seen := by
  refine ⟨fun identity body hcall => ?_, h.others⟩
  cases h.redeems identity body hcall with
  | closed _ hgrants hinvites => exact .begun hmay.1 hmay.2 hgrants hinvites
  | begun _ _ hgrants hinvites => exact .begun hmay.1 hmay.2 hgrants hinvites
  | granted g hgranted =>
    rw [hmay.1] at hgranted
    cases hgranted
  | consumed g r v clock _ _ hgranted =>
    rw [hmay.1] at hgranted
    cases hgranted

theorem pending_ran {o : AdminOp Response} {x : o.Ans} {commands : Admin.World Response}
    (h : PendingInvites call w i seen) (hmay : May call seen (.command o)) (hends : ¬Ends o x)
    (hcommit : ¬IsCommit o) (hgrant : Admin.grant i w.commands o x = some commands) :
    PendingInvites call { w with commands } i (seen.record (.command o) x) := by
  by_cases hbegin : o = .begin
  · subst hbegin
    exact pending_begin h hmay
  · have hsession := sessionStep_of_grant hgrant
    have hcloses : ¬Closes o := by
      cases o with
      | commit => exact absurd trivial hcommit
      | rollback | drop => exact absurd trivial hends
      | begin | utcNow | tryLock _ | pastDeadline | sleep | sweepExpired _ | load _ | insertClaim _
      | savepoint | releaseSavepoint | rollbackSavepoint | mutate | finalize _ _ _ | reply _ =>
        exact fun h => h
    have huntouched : Untouched w { w with commands } i :=
      ⟨rfl, rfl, fun _ _ _ hr _ => hr, hsession.keeps hcloses hbegin,
        hsession.started.resolve_right fun hstarted => hbegin hstarted.1, hsession.now.ge⟩
    exact pending_of_untouched huntouched (sameEvidence_ran hends hcommit seen) h

theorem pending_ended {o : AdminOp Response} {x : o.Ans} {commands : Admin.World Response}
    (hends : Ends o x) (hgrant : Admin.grant i w.commands o x = some commands) :
    PendingInvites call { w with db := w.db.rollback i, commands } i (seen.record (.command o) x) := by
  have hclean := clean_rollback_self w.db i
  have hsession := sessionStep_of_grant hgrant
  refine pending_of_empty hclean.grants hclean.invites ?_
  cases o with
  | commit | rollback | drop => exact .inl (hsession.closes trivial)
  | rollbackSavepoint =>
    cases x with
    | ok _ => exact .inr ⟨rfl, rfl⟩
    | error err => cases hends
  | begin | utcNow | tryLock _ | pastDeadline | sleep | sweepExpired _ | load _ | insertClaim _
  | savepoint | releaseSavepoint | mutate | finalize _ _ _ | reply _ => exact hends.elim

theorem pending_responds_self (h : PendingInvites call w i (w.seen i)) (haccounted : Accounted w)
    (hclock : w.commands.startedAt i ≤ w.commands.now) (hmay : May call (w.seen i) o)
    (hresponds : Responds w i o x w') : PendingInvites call w' i ((w.seen i).record o x) := by
  cases hresponds with
  | read q => exact pending_read h (clean_of_read haccounted hmay trivial) q _
  | unread | closed => exact h
  | wrote hopened hexecutes => exact pending_executes_self h hopened hclock hmay.2 hexecutes
  | committed hopened hgrant =>
    have hclean := clean_commit_self w.db i
    exact pending_of_empty hclean.grants hclean.invites
      (.inl ((sessionStep_of_grant hgrant).closes trivial))
  | ended hends hgrant => exact pending_ended hends hgrant
  | ran hends hcommit hgrant => exact pending_ran h hmay hends hcommit hgrant
  | other x ho =>
    cases o with
    | insertAudit _ | rejectDeniedJwksUrl _ | verify _ _ | generate | newId => exact h
    | command _ | fetch _ | statement _ => exact ho.elim

theorem pending_responds (h : InvitesKept requests w) (hmay : May (requests i).call (w.seen i) o)
    (hresponds : Responds w i o x w') (k : Nat) :
    PendingInvites (requests k).call (w'.see i o x) k ((w'.see i o x).seen k) := by
  -- the call writes down what it was answered; its transaction does not change by that
  have hsee : ∀ {seen : Seen}, PendingInvites (requests k).call w' k seen →
      PendingInvites (requests k).call (w'.see i o x) k seen :=
    pending_of_untouched ⟨rfl, rfl, fun _ _ _ hr _ => hr, rfl, rfl, le_rfl⟩ ⟨⟨rfl, rfl, rfl⟩, rfl, rfl⟩
  apply hsee
  by_cases hki : k = i
  · subst hki
    rw [see_seen_self, seen_of_responds hresponds]
    exact pending_responds_self (h.pending k) h.accounted (h.clock k) hmay hresponds
  · rw [see_seen_of_ne hki, seen_of_responds hresponds]
    exact pending_of_untouched (untouched_of_responds h.sound hresponds hki)
      ⟨⟨rfl, rfl, rfl⟩, rfl, rfl⟩ (h.pending k)

/-! ### The rows of the invites -/

/-- The rows of the invites are sound, and each follows what it was. -/
structure InviteRows (invites invites' : InviteStore) : Prop where
  sound : invites'.Sound (·.id)
  forward : invites'.Forward (·.id) InviteSuccessor
  later : Store.Later (·.id) InviteSuccessor invites.rows invites'.rows

theorem inviteRows_executes {s : Statement} {x : Except AppError s.Result} {db' : Database}
    (hsound : db.invites.Sound (·.id)) (hforward : db.invites.Forward (·.id) InviteSuccessor)
    (hexecutes : Executes db i clock now s x db') : InviteRows db.invites db'.invites := by
  have hlater : Store.Later (·.id) InviteSuccessor db.invites.rows db'.invites.rows := by
    rw [rows_invites_executes hexecutes]
    exact Store.later_refl InviteSuccessor.refl _
  cases hexecutes with
  | @invite s row invites hwrite =>
    obtain ⟨c, hchange, -, hput⟩ := writeTable_cases hwrite
    obtain ⟨v, hrows, hfollows, -⟩ := invite_change_cases s hchange
    refine ⟨Store.sound_putAll hsound hput, ?_, hlater⟩
    refine Store.forward_putAll hsound hforward InviteSuccessor.refl InviteSuccessor.trans ?_ hput ?_
    · rw [hrows]
      exact List.nodup_singleton _
    · rw [hrows]
      intro u hu r hr hid
      obtain rfl := List.mem_singleton.mp hu
      rcases hfollows with hnew | ⟨r', hr', hid', hsuccessor⟩
      · exact absurd hid (hnew r hr)
      · rwa [hsound.eq_of_visible hr hr' (hid.trans hid'.symm)]
  | grant _ _ | refused _ | claims _ | provider _ | issuer _ | claimed | failed =>
    exact ⟨hsound, hforward, hlater⟩

theorem inviteRows_responds (hsound : w.db.invites.Sound (·.id))
    (hforward : w.db.invites.Forward (·.id) InviteSuccessor) (hresponds : Responds w i o x w') :
    InviteRows w.db.invites w'.db.invites := by
  have hrefl : Store.Later AdminInviteRow.id InviteSuccessor w.db.invites.rows w.db.invites.rows :=
    Store.later_refl InviteSuccessor.refl _
  cases hresponds with
  | read | unread | closed | other | ran => exact ⟨hsound, hforward, hrefl⟩
  | wrote _ hexecutes => exact inviteRows_executes hsound hforward hexecutes
  | committed _ _ =>
    exact ⟨Store.sound_commit hsound, Store.forward_commit hsound hforward,
      Store.later_commit hsound hforward InviteSuccessor.refl⟩
  | ended _ _ => exact ⟨Store.sound_rollback hsound, Store.forward_rollback hforward, hrefl⟩

theorem recordFetch_invite (seen : Seen) (q : Query) (row : q.Row) :
    (∃ tokenPrefix, q = .findInviteByPrefix tokenPrefix) ∨
      (seen.recordFetch q row).invite = seen.invite := by
  cases q with
  | findInviteByPrefix tokenPrefix => exact .inl ⟨tokenPrefix, rfl⟩
  | findActiveGrant issuer subject =>
    right
    simp only [Seen.recordFetch]
    split <;> rfl
  | resolveActiveIssuer issuer =>
    right
    cases row <;> rfl
  | countActiveGrantsForTrustedIssuer id =>
    right
    simp only [Seen.recordFetch]
    split <;> rfl
  | policiesBoundTo _ | unboundPolicies _ | getProvider _ | trustedIssuerScopesClaim _
  | trustedIssuerIdsForIssuer _ _ | enabledProvidersOnTrustedIssuer _ _ => exact .inr rfl

theorem invite_record (hresponds : Responds w i o x w') {seen : Seen} {invite : AdminInviteRow}
    (h : (seen.record o x).invite = some invite) :
    seen.invite = some invite ∨ invite ∈ w.db.invites.rows := by
  have hcommand : ∀ (o : AdminOp Response) (x : o.Ans),
      (seen.record (.command o) x).invite = some invite → seen.invite = some invite := by
    intro o x h
    obtain ⟨_, _, _, _, _, _, heq⟩ := recordCommand_eq seen o x
    rwa [heq] at h
  cases hresponds with
  | read q =>
    rcases recordFetch_invite seen q (q.answer w.db.tables) with ⟨tokenPrefix, rfl⟩ | hsame
    · exact .inr (List.mem_of_find?_eq_some h)
    · exact .inl (hsame ▸ h)
  | unread | closed => exact .inl h
  | committed _ _ => exact .inl (hcommand _ _ h)
  | ended _ _ => exact .inl (hcommand _ _ h)
  | ran _ _ _ => exact .inl (hcommand _ _ h)
  | @wrote s answer db _ _ =>
    cases answer with
    | error err => exact .inl h
    | ok row =>
      obtain ⟨_, _, heq⟩ := recordStatement_eq seen s row
      have hrecord : seen.record (.statement s) (.ok row) = seen.recordStatement s row := rfl
      rw [hrecord, heq] at h
      exact .inl h
  | other x ho =>
    cases o with
    | insertAudit _ | rejectDeniedJwksUrl _ | verify _ _ | generate | newId => exact .inl h
    | command _ | fetch _ | statement _ => exact ho.elim

theorem read_responds (h : InvitesKept requests w) (hresponds : Responds w i o x w') (k : Nat)
    (invite : AdminInviteRow) (hinvite : ((w'.see i o x).seen k).invite = some invite) :
    ∃ r ∈ w'.db.invites.rows, r.id = invite.id ∧ InviteSuccessor invite r := by
  have hlater := (inviteRows_responds h.sound h.forward hresponds).later
  have hread : (w.seen k).invite = some invite ∨ invite ∈ w.db.invites.rows := by
    by_cases hki : k = i
    · subst hki
      rw [see_seen_self, seen_of_responds hresponds] at hinvite
      exact invite_record hresponds hinvite
    · rw [see_seen_of_ne hki, seen_of_responds hresponds] at hinvite
      exact .inl hinvite
  rcases hread with hread | hmem
  · obtain ⟨r, hr, hid, hsuccessor⟩ := h.read k invite hread
    obtain ⟨r', hr', hid', hsuccessor'⟩ := hlater r hr
    exact ⟨r', hr', hid'.trans hid, hsuccessor.trans _ _ _ hsuccessor'⟩
  · exact hlater invite hmem

/-! ### Commits -/

/-- **A redemption that commits has a grant and an invite**, or has done nothing. -/
theorem redeemed_commitOf (h : InvitesKept requests w) (hopened : w.commands.opened i = true)
    (hmay : MayCommit (requests i).call (w.seen i)) (acknowledged : Bool)
    {identity : TrustedJwtIdentity} {body : AdminInviteRedeemRequest}
    (hcall : (requests i).call = .redeemInvite identity body) :
    ((w.commitOf i acknowledged).grants = [] ∧ (w.commitOf i acknowledged).invites = []) ∨
      ∃ g r v, Redeemed identity body (w.commitOf i acknowledged) g r v := by
  cases (h.pending i).redeems identity body hcall with
  | closed hclosed =>
    rw [hopened] at hclosed
    cases hclosed
  | begun _ _ hgrants hinvites => exact .inl ⟨hgrants, hinvites⟩
  | granted g hgranted hconsumed =>
    -- the savepoint is released only after the invite is consumed
    obtain ⟨id, hsome⟩ := hmay.consumes identity body hcall g.id hgranted
    rw [hconsumed] at hsome
    cases hsome
  | consumed g r v clock hgrants hinvites _ _ hheld hinvite =>
    obtain ⟨invite, hadmitted⟩ := hheld.admitted
    obtain ⟨invite', hread, hid⟩ := hinvite.read
    rw [hadmitted.read] at hread
    obtain rfl := Option.some.inj hread
    -- what the call has read of the invite still stands in the row that it consumes
    obtain ⟨r', hr', hid', hsuccessor⟩ := h.read i invite hadmitted.read
    have hsame : r = r' := by
      refine List.inj_on_of_nodup_map h.sound.keys hinvite.consumes.mem hr' ?_
      rw [hinvite.consumes.id_eq, hid', hid]
    subst hsame
    refine .inr ⟨g, r, v, hgrants, hinvites, hinvite.consumes.consumed, hinvite.consumes.consumedFor,
      ⟨hr', hinvite.consumes.id_eq⟩, hinvite.consumes.pending,
      ⟨clock, hinvite.started, hinvite.now, hinvite.consumes.unexpired⟩, hheld.email, hheld.verified,
      ?_, hadmitted.allowed⟩
    rw [evaluateInviteConstraint_congr hsuccessor.constraint hsuccessor.value]
    exact hadmitted.matched

theorem commitsInvite_cons (h : InvitesKept requests w) (hopened : w.commands.opened i = true)
    (hmay : MayCommit (requests i).call (w.seen i)) (acknowledged : Bool) :
    CommitsInvite requests (w.commitOf i acknowledged :: w.commits) where
  redeemed c hc identity body hcall := by
    rcases List.mem_cons.mp hc with rfl | hc
    · exact redeemed_commitOf h hopened hmay acknowledged hcall
    · exact h.commits.redeemed c hc identity body hcall
  others c hc hcall := by
    rcases List.mem_cons.mp hc with rfl | hc
    · exact (h.pending i).others hcall
    · exact h.commits.others c hc hcall
  single := by
    refine List.pairwise_cons.mpr ⟨fun c hc v hv hconsumed v' hv' hconsumed' hid => ?_, h.commits.single⟩
    obtain ⟨row, hrow, hrowid, hstatus⟩ := h.settled c hc v' hv' hconsumed'
    cases hcall : (requests i).call with
    | redeemInvite identity body =>
      rcases redeemed_commitOf h hopened hmay acknowledged hcall with ⟨-, hnone⟩ | ⟨g, r, u, hredeemed⟩
      · rw [hnone] at hv
        exact absurd hv List.not_mem_nil
      · rw [hredeemed.invites] at hv
        obtain rfl := List.mem_singleton.mp hv
        obtain rfl : r = row := List.inj_on_of_nodup_map h.sound.keys hredeemed.row.1 hrow
          (hredeemed.row.2.trans (hid.trans hrowid.symm))
        rw [hredeemed.pending] at hstatus
        cases hstatus
    | claim _ _ | createInvite _ _ | revokeInvite _ _ | setIdentityPrimary _ _ _ _ _
    | revokeIdentity _ _ _ | createProvider _ _ _ | patchProvider _ _ _ _ _
    | setProviderEnabled _ _ _ _ _ | deleteProvider _ _ _ _ | createIssuer _ _ | patchIssuer _ _ _ _
    | setIssuerEnabled _ _ _ _ | deleteIssuer _ _ _ =>
      have hother : (requests i).call.isRedeem = false := by
        rw [hcall]
        rfl
      exact absurd hconsumed ((h.pending i).others hother v hv)

theorem settled_later {rows rows' : List AdminInviteRow}
    (hlater : Store.Later (·.id) InviteSuccessor rows rows') {v : AdminInviteRow}
    (h : ∃ row ∈ rows, row.id = v.id ∧ row.status = .consumed) :
    ∃ row ∈ rows', row.id = v.id ∧ row.status = .consumed := by
  obtain ⟨row, hrow, hid, hstatus⟩ := h
  obtain ⟨row', hrow', hid', hsuccessor⟩ := hlater row hrow
  refine ⟨row', hrow', hid'.trans hid, ?_⟩
  rw [hsuccessor.settled (by rw [hstatus]; decide), hstatus]

theorem clock_grant {commands : Admin.World Response} {o : AdminOp Response} {x : o.Ans}
    (h : ∀ k, w.commands.startedAt k ≤ w.commands.now)
    (hgrant : Admin.grant i w.commands o x = some commands) (k : Nat) :
    commands.startedAt k ≤ commands.now := by
  have hsession := sessionStep_of_grant hgrant
  rw [hsession.now]
  by_cases hki : k = i
  · subst hki
    rcases hsession.started with hstarted | ⟨-, hstarted⟩ <;> rw [hstarted]
    exact h k
  · rw [(hsession.others k hki).2]
    exact h k

theorem invitesKept_responds (h : InvitesKept requests w) (hmay : May (requests i).call (w.seen i) o)
    (hresponds : Responds w i o x w') : InvitesKept requests (w'.see i o x) := by
  have hrows := inviteRows_responds h.sound h.forward hresponds
  have hold : ∀ c ∈ w.commits, ∀ v ∈ c.invites, v.status = .consumed →
      ∃ row ∈ w'.db.invites.rows, row.id = v.id ∧ row.status = .consumed :=
    fun c hc v hv hconsumed => settled_later hrows.later (h.settled c hc v hv hconsumed)
  have hkept : (∀ i, w'.commands.startedAt i ≤ w'.commands.now) →
      (∀ c ∈ w'.commits, ∀ v ∈ c.invites, v.status = .consumed →
        ∃ row ∈ w'.db.invites.rows, row.id = v.id ∧ row.status = .consumed) →
      CommitsInvite requests w'.commits → InvitesKept requests (w'.see i o x) :=
    fun hclock hsettled hcommits =>
      ⟨accounted_responds h.accounted hmay hresponds, hrows.sound, hrows.forward, hclock,
        read_responds h hresponds, pending_responds h hmay hresponds, hsettled, hcommits⟩
  cases hresponds with
  | read | unread | closed | other => exact hkept h.clock hold h.commits
  | wrote _ _ => exact hkept h.clock hold h.commits
  | ended _ hgrant => exact hkept (clock_grant h.clock hgrant) hold h.commits
  | ran _ _ hgrant => exact hkept (clock_grant h.clock hgrant) hold h.commits
  | committed hopened hgrant =>
    refine hkept (clock_grant h.clock hgrant) (fun c hc v hv hconsumed => ?_)
      (commitsInvite_cons h hopened hmay _)
    rcases List.mem_cons.mp hc with rfl | hc
    · exact ⟨v, h.sound.mem_visible.mpr (.inl hv), rfl, hconsumed⟩
    · exact hold c hc v hv hconsumed

theorem invitesKept_close (h : InvitesKept requests w) (i : Nat) {gone : Nat → Bool}
    (haccounted : Accounted { w with commands := w.commands.close i, db := w.db.rollback i, gone }) :
    InvitesKept requests { w with commands := w.commands.close i, db := w.db.rollback i, gone } where
  accounted := haccounted
  sound := Store.sound_rollback h.sound
  forward := Store.forward_rollback h.forward
  clock := h.clock
  read := h.read
  pending k := by
    by_cases hki : k = i
    · subst hki
      have hclean := clean_rollback_self w.db k
      exact pending_of_empty hclean.grants hclean.invites (.inl (Function.update_self ..))
    · have huntouched : Untouched w
          { w with commands := w.commands.close i, db := w.db.rollback i, gone } k :=
        ⟨congrArg Tx.writes (Store.tx_rollback_of_ne hki), congrArg Tx.writes (Store.tx_rollback_of_ne hki),
          fun _ _ _ hr _ => hr, Function.update_of_ne hki .., rfl, le_rfl⟩
      exact pending_of_untouched huntouched ⟨⟨rfl, rfl, rfl⟩, rfl, rfl⟩ (h.pending k)
  settled := h.settled
  commits := h.commits

theorem invitesKept_quiet {commands : Admin.World Response} (h : InvitesKept requests w)
    (hopened : commands.opened = w.commands.opened) (hstarted : commands.startedAt = w.commands.startedAt)
    (hnow : w.commands.now ≤ commands.now) : InvitesKept requests { w with commands } where
  accounted := ⟨h.accounted.writes, h.accounted.commits, h.accounted.answers⟩
  sound := h.sound
  forward := h.forward
  clock k := by
    show commands.startedAt k ≤ commands.now
    rw [hstarted]
    exact (h.clock k).trans hnow
  read := h.read
  pending k := by
    have huntouched : Untouched w { w with commands } k :=
      ⟨rfl, rfl, fun _ _ _ hr _ => hr, congrFun hopened k, congrFun hstarted k, hnow⟩
    exact pending_of_untouched huntouched ⟨⟨rfl, rfl, rfl⟩, rfl, rfl⟩ (h.pending k)
  settled := h.settled
  commits := h.commits

theorem keeps_invites (requests : Nat → Request) :
    Keeps requests (fun _ _ _ => True) (InvitesKept requests) where
  act i w o x w' h _ hmay _ hresponds := invitesKept_responds h hmay hresponds
  nature w e w' h hnature := by
    have haccounted := (keeps_accounted requests).nature w e w' h.accounted hnature
    cases e with
    | wait seconds =>
      cases hnature
      exact invitesKept_quiet h rfl rfl (Nat.le_add_right _ _)
    | sweep p =>
      cases hnature
      exact invitesKept_quiet h rfl rfl le_rfl
    | disconnect i =>
      cases hnature
      exact invitesKept_close h i haccounted
    | cancel i =>
      cases hnature
      exact invitesKept_close h i haccounted

theorem invitesKept_initial (lib : Libraries) (runner : AdminCommandRunner Response)
    (requests : Nat → Request) (ledger : Ledger) {t₀ : Tables}
    (hkeys : (t₀.invites.map (·.id)).Nodup) :
    InvitesKept requests (identityInitial lib runner requests ledger t₀).world where
  accounted := accounted_initial lib runner requests ledger t₀
  sound := sound_closed hkeys
  forward _ _ hv := absurd hv List.not_mem_nil
  clock _ := le_rfl
  read _ _ hinvite := (nomatch hinvite)
  pending _ := pending_of_empty rfl rfl (.inl rfl)
  settled _ hc := absurd hc List.not_mem_nil
  commits := ⟨fun _ hc => absurd hc List.not_mem_nil, fun _ hc => absurd hc List.not_mem_nil, .nil⟩

/-! ## Runs -/

/-- The invites after the commits, newest first. -/
def replayInvites (invites : List AdminInviteRow) (commits : List Commit) : List AdminInviteRow :=
  commits.foldr (fun c rows => Store.overlay (·.id) c.invites rows) invites

/-- Nothing but commits has changed the grants and the invites. -/
structure Replayed (origin : Tables) (w : World) : Prop where
  grants : w.db.tables.grants = replayGrants origin.grants w.commits
  invites : w.db.tables.invites = replayInvites origin.invites w.commits

theorem keeps_replayed (requests : Nat → Request) (origin : Tables) :
    Keeps requests (fun _ _ _ => True) (Replayed origin) where
  act i w o x w' h _ _ _ hresponds := by
    cases hresponds with
    | read | unread | closed | other | ran | ended => exact ⟨h.grants, h.invites⟩
    | wrote _ hexecutes =>
      exact ⟨(rows_executes hexecutes).trans h.grants, (rows_invites_executes hexecutes).trans h.invites⟩
    | committed =>
      constructor
      · show Store.overlay _ _ w.db.tables.grants = Store.overlay _ _ (replayGrants _ _)
        rw [h.grants]
        rfl
      · show Store.overlay _ _ w.db.tables.invites = Store.overlay _ _ (replayInvites _ _)
        rw [h.invites]
        rfl
  nature w e w' h hnature := by
    cases e <;> cases hnature <;> exact ⟨h.grants, h.invites⟩

/-- What is said of the invites. -/
structure SingleUse (requests : Nat → Request) (origin : Tables) (w : World) : Prop
    extends CommitsInvite requests w.commits, Replayed origin w where
  /-- A call that fails has committed nothing, or its commit has failed and had taken effect. -/
  failed : ∀ i err, (w.seen i).answered = some (.error err) → ∀ c ∈ w.commits, c.call = i →
    (c.grants = [] ∧ c.invites = []) ∨ (c.acknowledged = false ∧ err = .sqlx)
  /-- A pending invite can be consumed until it expires. -/
  redeemable : ∀ r ∈ w.db.tables.invites, r.status = .pending → ∀ clock, r.isExpired clock = false →
    ∀ issuer subject adminIdentityId now, ∃ change,
      consumeInvite w.db.tables.invites r.id issuer subject adminIdentityId clock now = .ok change

theorem consumeInvite_pending {r : AdminInviteRow} (hkeys : (invites.map (·.id)).Nodup)
    (hr : r ∈ invites) (hpending : r.status = .pending) (hunexpired : r.isExpired clock = false)
    (issuer subject : String) (adminIdentityId : Uuid) (now : Nat) :
    ∃ change, consumeInvite invites r.id issuer subject adminIdentityId clock now = .ok change := by
  have hfound : invites.find? (fun row => row.id = r.id) = some r := by
    cases hfind : invites.find? fun row => row.id = r.id with
    | none =>
      have hnot := List.find?_eq_none.mp hfind r hr
      simp at hnot
    | some row =>
      have hid : row.id = r.id := by simpa using List.find?_some hfind
      rw [List.inj_on_of_nodup_map hkeys (List.mem_of_find?_eq_some hfind) hr hid]
  have hredeemable : requireRedeemable r clock = .ok () := by
    unfold requireRedeemable
    rw [hpending]
    exact if_neg (by rw [hunexpired]; decide)
  unfold consumeInvite
  rw [hfound]
  simp only [hredeemable]
  exact ⟨_, rfl⟩

variable {lib : Libraries} {runner : AdminCommandRunner Response}

/-- **Invitations are single-use and lossless**, in every order of the calls and with every way they
can fail. -/
theorem invites_are_single_use {ledger : Ledger} {t₀ : Tables} (hkeys : (t₀.invites.map (·.id)).Nodup)
    {s : (identity lib runner requests).State} {moves : List (identity lib runner requests).Move}
    (hrun : Transition.runFrom (identity lib runner requests).step
      (identityInitial lib runner requests ledger t₀) moves = some s) :
    SingleUse requests t₀ s.world := by
  obtain ⟨-, hkept⟩ := identity_invariant (keeps_invites requests) (conforms_initial ledger t₀)
    (invitesKept_initial lib runner requests ledger hkeys) hrun
  obtain ⟨-, hreplayed⟩ := identity_invariant (keeps_replayed requests t₀) (conforms_initial ledger t₀)
    ⟨rfl, rfl⟩ hrun
  refine ⟨hkept.commits, hreplayed, fun i err hanswered c hc hcall => ?_,
    fun r hr hpending clock hunexpired issuer subject adminIdentityId now => ?_⟩
  · exact (hkept.accounted.failed_call hanswered c hc hcall).imp_left
      fun hempty => ⟨hempty.grants, hempty.invites⟩
  · exact consumeInvite_pending hkept.sound.keys hr hpending hunexpired issuer subject adminIdentityId now

/-! ### Samples -/

namespace Sample

/-- An invitation for the members of the domain that the provider admits. -/
def invited : Tables :=
  { tables with
    invites :=
      [{ id := 7, tokenPrefix := "token", tokenHash := "token", constraint := .domain
         value := "example.com", expiresAt := 100, createdBySubject := some "alice"
         createdByActorType := "trusted_jwt" }] }

def redemption (subject : String) : Call :=
  .redeemInvite { issuer := "https://console", subject }
    { token := "token", email := subject ++ "@example.com", emailVerified := true }

/-- Two redemptions of the one invitation. -/
def redemptions : Nat → Call
  | 0 => redemption "bob"
  | _ => redemption "carol"

/-- The two calls take turns. -/
def alternately : List Nat :=
  (List.replicate 20 [0, 1]).flatten

/-- A commit takes effect and is not acknowledged. -/
def unacknowledged (w : World) (i : Nat) : (o : IdentityOp) → o.Ans
  | .command .commit => ⟨.error .sqlx, true⟩
  | o => databaseAnswer w i o

/-- The grants that the invitations were consumed for. -/
def consumedFor (t : Tables) : List (Option Uuid) :=
  t.invites.map (·.consumedAdminIdentityId)

end Sample

theorem answered_of_refusal {w : World} {i : Nat} {err : AppError}
    (h : Sample.refusal w i = some err) : ∃ err, (w.seen i).answered = some (.error err) := by
  unfold Sample.refusal at h
  split at h
  · next err' hanswered => exact ⟨err', hanswered⟩
  · cases h

open Sample in
theorem invites_are_single_use_alternately :
    ∃ s : (system redemptions).State, s.world.db.tables.grants.map (·.subject) = ["bob"] ∧
      consumedFor s.world.db.tables = [some 100] ∧
      refusal s.world 1 = some alreadyConsumed ∧
      SingleUse (fun i => { call := redemptions i }) invited s.world := by
  have hmoves : (Transition.runFrom (system redemptions).step (initial redemptions invited)
      (perform alternately (initial redemptions invited))).map
        (fun s => (s.world.db.tables.grants.map (·.subject), consumedFor s.world.db.tables,
          refusal s.world 1)) = some (["bob"], [some 100], some alreadyConsumed) := by
    decide +kernel
  obtain ⟨s, hrun, hworld⟩ := Option.map_eq_some_iff.mp hmoves
  simp only [Prod.mk.injEq] at hworld
  exact ⟨s, hworld.1, hworld.2.1, hworld.2.2, invites_are_single_use (by decide) hrun⟩

open Sample in
/-- The call is answered a database error, and its grant and its invite are committed. -/
theorem failed_redemption_can_commit :
    ¬∀ (moves : List (system redemptions).Move) (s : (system redemptions).State),
      Transition.runFrom (system redemptions).step (initial redemptions invited) moves = some s →
        ∀ i err, (s.world.seen i).answered = some (.error err) → ∀ c ∈ s.world.commits, c.call = i →
          c.grants = [] ∧ c.invites = [] := by
  intro hall
  have hmoves : (Transition.runFrom (system redemptions).step (initial redemptions invited)
      (performWith unacknowledged (List.replicate 20 0) (initial redemptions invited))).map
        (fun s => (refusal s.world 0, s.world.commits.map fun c => (c.call, c.grants.isEmpty))) =
      some (some .sqlx, [(0, false)]) := by
    decide +kernel
  obtain ⟨s, hrun, hworld⟩ := Option.map_eq_some_iff.mp hmoves
  simp only [Prod.mk.injEq] at hworld
  obtain ⟨hrefused, hcommits⟩ := hworld
  obtain ⟨err, hanswered⟩ := answered_of_refusal hrefused
  obtain ⟨c, hc, hcall⟩ : ∃ c ∈ s.world.commits, (c.call, c.grants.isEmpty) = (0, false) := by
    rw [← List.mem_map, hcommits]
    exact List.mem_singleton_self _
  simp only [Prod.mk.injEq] at hcall
  have hnone := (hall _ s hrun 0 err hanswered c hc hcall.1).1
  rw [hnone] at hcall
  cases hcall.2

end Moira.Identity
