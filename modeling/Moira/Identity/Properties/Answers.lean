import Moira.Identity.Properties.Protocol

/-!
# What a call that fails has committed

A call answers an error without having committed any row, or the database did not report the outcome
of its commit and the error is that one.
-/

namespace Moira.Identity

open Admin (AdminOp AdminCommandRunner)

/-- The transaction of the call has no row versions. -/
structure Database.Clean (db : Database) (i : Nat) : Prop where
  grants : (db.grants.tx i).writes = []
  invites : (db.invites.tx i).writes = []
  providers : (db.providers.tx i).writes = []
  issuers : (db.issuers.tx i).writes = []

/-- The commit has written no row. -/
structure Commit.Empty (c : Commit) : Prop where
  grants : c.grants = []
  invites : c.invites = []
  providers : c.providers = []
  issuers : c.issuers = []

/-- What is written and what is committed is known to the call. -/
structure Accounted (w : World) : Prop where
  writes : ∀ j, w.db.Clean j ∨ (w.seen j).wrote = true
  commits : ∀ c ∈ w.commits, c.Empty ∨
    (if c.acknowledged then (w.seen c.call).committed = true else (w.seen c.call).unsure = true)
  answers : ∀ j err, (w.seen j).answered = some (.error err) →
    (w.seen j).committed = false ∧ ((w.seen j).unsure = true → err = .sqlx)

variable {w w' : World} {db db' : Database} {i j : Nat}

/-! ## Transactions -/

theorem clean_rollback_self (db : Database) (i : Nat) : (db.rollback i).Clean i :=
  ⟨congrArg Tx.writes Store.tx_rollback_self, congrArg Tx.writes Store.tx_rollback_self,
    congrArg Tx.writes Store.tx_rollback_self, congrArg Tx.writes Store.tx_rollback_self⟩

theorem clean_rollback_of_ne (hne : j ≠ i) (h : db.Clean j) : (db.rollback i).Clean j where
  grants := (congrArg Tx.writes (Store.tx_rollback_of_ne hne)).trans h.grants
  invites := (congrArg Tx.writes (Store.tx_rollback_of_ne hne)).trans h.invites
  providers := (congrArg Tx.writes (Store.tx_rollback_of_ne hne)).trans h.providers
  issuers := (congrArg Tx.writes (Store.tx_rollback_of_ne hne)).trans h.issuers

theorem clean_rollback (h : db.Clean j) : (db.rollback i).Clean j := by
  by_cases hji : j = i
  · rw [hji]
    exact clean_rollback_self db i
  · exact clean_rollback_of_ne hji h

theorem clean_commit_self (db : Database) (i : Nat) : (db.commit i).Clean i :=
  ⟨(clean_rollback_self db i).grants, (clean_rollback_self db i).invites,
    (clean_rollback_self db i).providers, (clean_rollback_self db i).issuers⟩

theorem clean_commit (h : db.Clean j) : (db.commit i).Clean j :=
  have hrollback : (db.rollback i).Clean j := clean_rollback h
  ⟨hrollback.grants, hrollback.invites, hrollback.providers, hrollback.issuers⟩

theorem tx_writeTable_of_ne {ρ : Type} [DecidableEq ρ] {key : ρ → Uuid}
    {pass : Store Nat Uuid ρ → Nat → ρ → Bool} {S S' : Store Nat Uuid ρ}
    {change : Except AppError (Change ρ)} {row : ρ} (h : writeTable key pass S i change row = some S')
    (hne : j ≠ i) : S'.tx j = S.tx j := by
  obtain ⟨c, -, -, hput⟩ := writeTable_cases h
  exact Store.tx_putAll_of_ne hput hne

theorem clean_executes {clock now : Nat} {s : Statement} {x : Except AppError s.Result}
    (h : Executes db i clock now s x db') (hclean : db.Clean j) (hj : j ≠ i ∨ ∃ err, x = .error err) :
    db'.Clean j := by
  cases h with
  | grant hown hwrite =>
    obtain hne | ⟨err, herr⟩ := hj
    · exact ⟨by rw [tx_writeTable_of_ne hwrite hne]; exact hclean.grants, hclean.invites,
        hclean.providers, hclean.issuers⟩
    · cases herr
  | invite hwrite =>
    obtain hne | ⟨err, herr⟩ := hj
    · exact ⟨hclean.grants, by rw [tx_writeTable_of_ne hwrite hne]; exact hclean.invites,
        hclean.providers, hclean.issuers⟩
    · cases herr
  | provider hwrite =>
    obtain hne | ⟨err, herr⟩ := hj
    · exact ⟨hclean.grants, hclean.invites,
        by rw [tx_writeTable_of_ne hwrite hne]; exact hclean.providers, hclean.issuers⟩
    · cases herr
  | issuer hwrite =>
    obtain hne | ⟨err, herr⟩ := hj
    · exact ⟨hclean.grants, hclean.invites, hclean.providers,
        by rw [tx_writeTable_of_ne hwrite hne]; exact hclean.issuers⟩
    · cases herr
  | refused _ => exact ⟨hclean.grants, hclean.invites, hclean.providers, hclean.issuers⟩
  | claims _ => exact ⟨hclean.grants, hclean.invites, hclean.providers, hclean.issuers⟩
  | claimed => exact hclean
  | failed => exact hclean

/-! ## What a call writes down -/

variable (seen : Seen)

theorem recordFetch_eq (q : Query) (row : q.Row) :
    ∃ owner resolved counted invite bound unbound, seen.recordFetch q row =
      { seen with owner, resolved, counted, invite, bound, unbound } := by
  unfold Seen.recordFetch
  split
  · split <;> exact ⟨_, _, _, _, _, _, rfl⟩
  · exact ⟨_, _, _, _, _, _, rfl⟩
  · exact ⟨_, _, _, _, _, _, rfl⟩
  · exact ⟨_, _, _, _, _, _, rfl⟩
  · exact ⟨_, _, _, _, _, _, rfl⟩
  · split <;> exact ⟨_, _, _, _, _, _, rfl⟩
  · exact ⟨_, _, _, _, _, _, rfl⟩

theorem recordStatement_eq (s : Statement) (row : s.Result) :
    ∃ granted consumed, seen.recordStatement s row = { seen with wrote := true, granted, consumed } := by
  unfold Seen.recordStatement
  split <;> exact ⟨_, _, rfl⟩

theorem recordCommand_eq (o : AdminOp Response) (x : o.Ans) :
    ∃ wrote granted consumed committed unsure answered, seen.record (.command o) x =
      { seen with wrote, granted, consumed, committed, unsure, answered } := by
  cases o with
  | rollbackSavepoint => cases x <;> exact ⟨_, _, _, _, _, _, rfl⟩
  | begin | utcNow | tryLock _ | pastDeadline | sleep | sweepExpired _ | load _ | insertClaim _
  | savepoint | releaseSavepoint | mutate | finalize _ _ _ | commit | rollback | drop | reply _ =>
    exact ⟨_, _, _, _, _, _, rfl⟩

/-- An operation after which the call knows of no other commit and has given no other answer. -/
def Untold : IdentityOp → Prop
  | .command .commit | .command (.reply _) => False
  | _ => True

variable {o : IdentityOp}

theorem record_untold (ho : Untold o) (seen : Seen) (x : o.Ans) :
    (seen.record o x).committed = seen.committed ∧ (seen.record o x).unsure = seen.unsure ∧
      (seen.record o x).answered = seen.answered := by
  unfold Seen.record
  split
  · obtain ⟨_, _, _, _, _, _, heq⟩ := recordFetch_eq seen _ _
    rw [heq]
    exact ⟨rfl, rfl, rfl⟩
  · obtain ⟨_, _, heq⟩ := recordStatement_eq seen _ _
    rw [heq]
    exact ⟨rfl, rfl, rfl⟩
  · exact ⟨rfl, rfl, rfl⟩
  · exact ho.elim
  · exact ho.elim
  · exact ⟨rfl, rfl, rfl⟩

theorem record_committed_mono (o : IdentityOp) (x : o.Ans) :
    (seen.committed = true → (seen.record o x).committed = true) ∧
      (seen.unsure = true → (seen.record o x).unsure = true) := by
  by_cases ho : Untold o
  · obtain ⟨hcommitted, hunsure, -⟩ := record_untold ho seen x
    rw [hcommitted, hunsure]
    exact ⟨fun h => h, fun h => h⟩
  · cases o with
    | command o =>
      cases o with
      | commit =>
        constructor
        · intro h
          show (seen.committed || _) = true
          rw [h, Bool.true_or]
        · intro h
          show (seen.unsure || _) = true
          rw [h, Bool.true_or]
      | reply result => exact ⟨fun h => h, fun h => h⟩
      | begin | utcNow | tryLock _ | pastDeadline | sleep | sweepExpired _ | load _ | insertClaim _
      | savepoint | releaseSavepoint | rollbackSavepoint | mutate | finalize _ _ _ | rollback | drop =>
        exact absurd trivial ho
    | fetch _ | statement _ | insertAudit _ | rejectDeniedJwksUrl _ | verify _ _ | generate | newId =>
      exact absurd trivial ho

variable {x : o.Ans}

theorem record_answered {call : Call} {seen : Seen} (hmay : May call seen o) {err : AppError}
    (h : (seen.record o x).answered = some (.error err))
    (hbefore : seen.answered = some (.error err) →
      seen.committed = false ∧ (seen.unsure = true → err = .sqlx)) :
    (seen.record o x).committed = false ∧ ((seen.record o x).unsure = true → err = .sqlx) := by
  by_cases ho : Untold o
  · obtain ⟨hcommitted, hunsure, hanswered⟩ := record_untold ho seen x
    rw [hanswered] at h
    rw [hcommitted, hunsure]
    exact hbefore h
  · cases o with
    | command o =>
      cases o with
      | commit =>
        have hnone : seen.answered = none := (hmay : MayCommit call seen).answered
        have hsome : seen.answered = some (.error err) := h
        rw [hnone] at hsome
        cases hsome
      | reply result =>
        obtain rfl : result = .error err := Option.some.inj h
        have hfails : Fails seen err := hmay
        exact ⟨hfails.committed, hfails.sqlx⟩
      | begin | utcNow | tryLock _ | pastDeadline | sleep | sweepExpired _ | load _ | insertClaim _
      | savepoint | releaseSavepoint | rollbackSavepoint | mutate | finalize _ _ _ | rollback | drop =>
        exact absurd trivial ho
    | fetch _ | statement _ | insertAudit _ | rejectDeniedJwksUrl _ | verify _ _ | generate | newId =>
      exact absurd trivial ho

@[simp] theorem see_seen_self (w : World) (i : Nat) (o : IdentityOp) (x : o.Ans) :
    (w.see i o x).seen i = (w.seen i).record o x :=
  Function.update_self ..

theorem see_seen_of_ne (hne : j ≠ i) (o : IdentityOp) (x : o.Ans) :
    (w.see i o x).seen j = w.seen j :=
  Function.update_of_ne hne ..

/-- What the call is told of its commit. -/
def Told (seen : Seen) (acknowledged : Bool) : Prop :=
  if acknowledged then seen.committed = true else seen.unsure = true

theorem told_record {seen : Seen} {acknowledged : Bool} (o : IdentityOp) (x : o.Ans)
    (h : Told seen acknowledged) : Told (seen.record o x) acknowledged := by
  cases acknowledged with
  | true => exact (record_committed_mono seen o x).1 h
  | false => exact (record_committed_mono seen o x).2 h

theorem told_see {acknowledged : Bool} (h : Told (w.seen j) acknowledged) :
    Told ((w.see i o x).seen j) acknowledged := by
  by_cases hji : j = i
  · subst hji
    rw [see_seen_self]
    exact told_record o x h
  · rwa [see_seen_of_ne hji]

/-! ## The invariant -/

variable {call : Call}

theorem accounted_see (h : Accounted w) (hseen : w'.seen = w.seen) (hmay : May call (w.seen i) o)
    (hwrites : ∀ j, w'.db.Clean j ∨ ((w'.see i o x).seen j).wrote = true)
    (hcommits : ∀ c ∈ w'.commits, c ∈ w.commits ∨
      (c.call = i ∧ (c.Empty ∨ Told ((w.seen i).record o x) c.acknowledged))) :
    Accounted (w'.see i o x) where
  writes := hwrites
  commits c hc := by
    rcases hcommits c hc with hc | ⟨rfl, htold⟩
    · refine (h.commits c hc).imp_right fun htold => ?_
      rw [← hseen] at htold
      exact told_see htold
    · refine htold.imp_right fun htold => ?_
      show Told ((w'.see c.call o x).seen c.call) c.acknowledged
      rwa [see_seen_self, hseen]
  answers j err hj := by
    by_cases hji : j = i
    · subst hji
      rw [see_seen_self, hseen] at hj ⊢
      exact record_answered hmay hj (h.answers j err)
    · rw [see_seen_of_ne hji, hseen] at hj ⊢
      exact h.answers j err hj

theorem writes_see (h : Accounted w) (hseen : w'.seen = w.seen) (hclean : ∀ j, w.db.Clean j → w'.db.Clean j)
    (hwrote : w'.db.Clean i ∨ ((w.seen i).wrote = true → ((w.seen i).record o x).wrote = true)) (j : Nat) :
    w'.db.Clean j ∨ ((w'.see i o x).seen j).wrote = true := by
  by_cases hji : j = i
  · subst hji
    rw [see_seen_self, hseen]
    rcases hwrote with hwrote | hwrote
    · exact .inl hwrote
    · exact (h.writes j).imp (hclean j) hwrote
  · rw [see_seen_of_ne hji, hseen]
    exact (h.writes j).imp_left (hclean j)

theorem record_wrote {o : AdminOp Response} {x : o.Ans} (hends : ¬ Ends o x) (hcommit : ¬ IsCommit o)
    (seen : Seen) : (seen.record (.command o) x).wrote = seen.wrote := by
  cases o with
  | commit => exact absurd trivial hcommit
  | rollbackSavepoint =>
    cases x with
    | ok _ => exact absurd rfl hends
    | error err => rfl
  | begin | utcNow | tryLock _ | pastDeadline | sleep | sweepExpired _ | load _ | insertClaim _
  | savepoint | releaseSavepoint | mutate | finalize _ _ _ | rollback | drop | reply _ => rfl

theorem accounted_responds (h : Accounted w) (hmay : May call (w.seen i) o)
    (hresponds : Responds w i o x w') : Accounted (w'.see i o x) := by
  refine accounted_see h (seen_of_responds hresponds) hmay ?_ ?_
  · cases hresponds with
    | read q =>
      refine writes_see h rfl (fun _ hj => hj) (.inr fun hwrote => ?_)
      obtain ⟨_, _, _, _, _, _, heq⟩ := recordFetch_eq (w.seen i) q (q.answer w.db.tables)
      show ((w.seen i).recordFetch q _).wrote = true
      rwa [heq]
    | unread q => exact writes_see h rfl (fun _ hj => hj) (.inr fun hwrote => hwrote)
    | closed s => exact writes_see h rfl (fun _ hj => hj) (.inr fun hwrote => hwrote)
    | other x ho =>
      refine writes_see h rfl (fun _ hj => hj) (.inr fun hwrote => ?_)
      cases o with
      | insertAudit _ | rejectDeniedJwksUrl _ | verify _ _ | generate | newId => exact hwrote
      | command _ | fetch _ | statement _ => exact ho.elim
    | wrote hopened hexecutes =>
      intro j
      next s x db =>
      cases x with
      | error err =>
        have hclean : ∀ j, w.db.Clean j → db.Clean j :=
          fun j hj => clean_executes hexecutes hj (.inr ⟨err, rfl⟩)
        have hwrites : ∀ j, db.Clean j ∨
            ((({ w with db } : World).see i (.statement s) (.error err)).seen j).wrote = true :=
          writes_see h (show ({ w with db } : World).seen = w.seen from rfl) hclean
            (.inr fun hwrote => hwrote)
        exact hwrites j
      | ok row =>
        by_cases hji : j = i
        · subst hji
          right
          rw [see_seen_self]
          obtain ⟨_, _, heq⟩ := recordStatement_eq (w.seen j) s row
          show ((w.seen j).recordStatement s row).wrote = true
          rw [heq]
        · rw [see_seen_of_ne hji]
          exact (h.writes j).imp_left fun hj => clean_executes hexecutes hj (.inl hji)
    | committed hopened hgrant =>
      exact writes_see h rfl (fun _ hj => clean_commit hj) (.inl (clean_commit_self w.db i))
    | ended hends hgrant =>
      exact writes_see h rfl (fun _ hj => clean_rollback hj) (.inl (clean_rollback_self w.db i))
    | ran hends hcommit hgrant =>
      refine writes_see h rfl (fun _ hj => hj) (.inr fun hwrote => ?_)
      rw [record_wrote hends hcommit, hwrote]
  · cases hresponds with
    | committed hopened hgrant =>
      intro c hc
      rcases List.mem_cons.mp hc with rfl | hc
      · refine .inr ⟨rfl, ?_⟩
        -- a transaction with row versions is known to have written
        rcases h.writes i with hclean | hwrote
        · exact .inl ⟨hclean.grants, hclean.invites, hclean.providers, hclean.issuers⟩
        · right
          next answer commands =>
          obtain ⟨result, effective⟩ := answer
          cases result with
          | ok _ =>
            show ((w.seen i).committed || ((w.seen i).wrote && true)) = true
            rw [hwrote, Bool.true_and, Bool.or_true]
          | error err =>
            show ((w.seen i).unsure || true) = true
            rw [Bool.or_true]
      · exact .inl hc
    | read | unread | closed | other | wrote | ended | ran => exact fun c hc => .inl hc

def IsRead : IdentityOp → Prop
  | .fetch _ => True
  | _ => False

theorem clean_of_read (h : Accounted w) (hmay : May call (w.seen i) o) (hread : IsRead o) :
    w.db.Clean i := by
  have hwrote : (w.seen i).wrote = false := by
    cases o with
    | fetch q => exact hmay
    | command _ | rejectDeniedJwksUrl _ | verify _ _ | generate | newId | statement _
    | insertAudit _ => exact hread.elim
  refine (h.writes i).resolve_right ?_
  rw [hwrote]
  decide

/-- **What is committed and not reported is all that a failed call leaves.** -/
theorem keeps_accounted (requests : Nat → Request) :
    Keeps requests (fun _ _ _ => True) Accounted where
  act i w o x w' h _ hmay _ hresponds := accounted_responds h hmay hresponds
  nature w e w' h hnature := by
    cases e with
    | wait seconds =>
      cases hnature
      exact ⟨h.writes, h.commits, h.answers⟩
    | sweep p =>
      cases hnature
      exact ⟨h.writes, h.commits, h.answers⟩
    | disconnect i =>
      cases hnature
      exact ⟨fun j => (h.writes j).imp_left clean_rollback, h.commits, h.answers⟩
    | cancel i =>
      cases hnature
      exact ⟨fun j => (h.writes j).imp_left clean_rollback, h.commits, h.answers⟩

theorem accounted_initial (lib : Libraries) (runner : AdminCommandRunner Response)
    (requests : Nat → Request) (ledger : Ledger) (t : Tables) :
    Accounted (identityInitial lib runner requests ledger t).world where
  writes _ := .inl ⟨rfl, rfl, rfl, rfl⟩
  commits _ hc := absurd hc List.not_mem_nil
  answers _ _ hj := (nomatch hj)

/-- What a call that has answered an error has committed. -/
theorem Accounted.failed_call (h : Accounted w) {err : AppError}
    (hanswered : (w.seen i).answered = some (.error err)) :
    ∀ c ∈ w.commits, c.call = i → c.Empty ∨ (c.acknowledged = false ∧ err = .sqlx) := by
  rintro c hc rfl
  obtain ⟨hcommitted, hunsure⟩ := h.answers c.call err hanswered
  refine (h.commits c hc).imp_right fun htold => ?_
  cases hack : c.acknowledged with
  | true =>
    rw [hack, if_pos rfl, hcommitted] at htold
    cases htold
  | false =>
    rw [hack] at htold
    exact ⟨rfl, hunsure htold⟩

end Moira.Identity
