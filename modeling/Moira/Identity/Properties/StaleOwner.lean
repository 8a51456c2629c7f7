import Moira.Identity.Properties.Ownership

/-!
# Who acts as owner

The owner's check is a read before the transaction; the transaction does not repeat it.

- **`owners_commit`** — the first holds in every run that meets the second
-/

namespace Moira.Identity

open Transition (runFrom)
open Admin (AdminOp AdminCommandRunner)

/-- The identity holds the active primary grant. -/
def HoldsOwnership (t : Tables) (issuer subject : String) : Prop :=
  ∃ g ∈ t.grants, g.issuer = issuer ∧ g.subject = subject ∧ g.isActivePrimary = true

/-- The trusted-JWT actor of a call that is reserved to the owner is the owner. -/
def ActsAsOwner (call : Call) (t : Tables) : Prop :=
  ∀ actor issuer, call.ownedBy = some (actor, issuer) → actor.actorType = .trustedJwt →
    ∃ iss sub, issuer = some iss ∧ actor.subject = some sub ∧ HoldsOwnership t iss sub

/-- A call that is reserved to the owner commits on tables in which its actor holds the active
primary grant. -/
def OnlyOwnersCommit (requests : Nat → Request) (w : World) : Prop :=
  ∀ c ∈ w.commits, c.Empty ∨ ActsAsOwner (requests c.call).call c.before

/-- The call has not come to its commit yet. -/
def World.inFlight (w : World) (i : Nat) : Bool :=
  !w.gone i && !(w.seen i).committed && !(w.seen i).unsure && (w.seen i).answered.isNone

/-- The transaction leaves the identity without the flag. -/
def Database.takesFlag (db : Database) (j : Nat) (owner : String × String) : Bool :=
  (db.grants.tx j).writes.any fun v =>
    v.issuer = owner.1 && v.subject = owner.2 && !v.isActivePrimary

/-- A condition on the world in which a transaction commits. -/
def AtCommit (P : Nat → World → Bool) (j : Nat) (w : World) : IdentityOp → Prop
  | .command .commit => P j w = true
  | _ => True

instance instDecidableAtCommit (P : Nat → World → Bool) : ∀ j w o, Decidable (AtCommit P j w o)
  | j, w, .command .commit => inferInstanceAs (Decidable (P j w = true))
  | _, _, .command .begin | _, _, .command .utcNow | _, _, .command (.tryLock _)
  | _, _, .command .pastDeadline | _, _, .command .sleep | _, _, .command (.sweepExpired _)
  | _, _, .command (.load _) | _, _, .command (.insertClaim _) | _, _, .command .savepoint
  | _, _, .command .releaseSavepoint | _, _, .command .rollbackSavepoint | _, _, .command .mutate
  | _, _, .command (.finalize ..) | _, _, .command .rollback | _, _, .command .drop
  | _, _, .command (.reply _) | _, _, .fetch _ | _, _, .rejectDeniedJwksUrl _ | _, _, .verify ..
  | _, _, .generate | _, _, .newId | _, _, .statement _ | _, _, .insertAudit _ => isTrue trivial

/-- The other calls that have not come to their commit. -/
def World.others (w : World) (j : Nat) : List Nat :=
  w.started.filter fun i => i ≠ j && w.inFlight i

/-- No flag is taken from under a check. -/
def noStaleCheck (j : Nat) (w : World) : Bool :=
  (w.others j).all fun i => (w.seen i).owner.all fun owner => !w.db.takesFlag j owner

/-! ## Checks and commits -/

variable {requests : Nat → Request} {w w' : World} {db : Database} {i j : Nat}

theorem inFlight_iff : w.inFlight i = true ↔ w.gone i = false ∧ Running (w.seen i) := by
  unfold World.inFlight
  simp only [Bool.and_eq_true, Bool.not_eq_true', Option.isNone_iff_eq_none]
  constructor
  · rintro ⟨⟨⟨hgone, hcommitted⟩, hunsure⟩, hanswered⟩
    exact ⟨hgone, hcommitted, hanswered, hunsure⟩
  · rintro ⟨hgone, hcommitted, hanswered, hunsure⟩
    exact ⟨⟨⟨hgone, hcommitted⟩, hunsure⟩, hanswered⟩

theorem mem_others : i ∈ w.others j ↔ i ∈ w.started ∧ i ≠ j ∧ w.inFlight i = true := by
  simp [World.others]

variable {owner : String × String}

theorem holdsOwnership_commit (h : Owns db) (hkeeps : db.takesFlag j owner = false)
    (hholds : HoldsOwnership db.tables owner.1 owner.2) :
    HoldsOwnership (db.commit j).tables owner.1 owner.2 := by
  obtain ⟨g, hg, hissuer, hsubject, hactive⟩ := hholds
  obtain ⟨g', hg', hid, hsuccessor⟩ :=
    Store.later_commit (i := j) h.sound h.forward Successor.refl g hg
  refine ⟨g', hg', hsuccessor.issuer.trans hissuer, hsuccessor.subject.trans hsubject, ?_⟩
  rcases h.sound.mem_visible.mp hg' with hwritten | ⟨hkept, -⟩
  · have hv := List.any_eq_false.mp hkeeps g' hwritten
    rw [hsuccessor.issuer.trans hissuer, hsuccessor.subject.trans hsubject] at hv
    simpa using hv
  · rwa [List.inj_on_of_nodup_map h.sound.keys hkept hg hid]

theorem holdsOwnership_of_fetch {t : Tables} {issuer subject : String}
    (h : ((Query.findActiveGrant issuer subject).answer t).any (·.isPrimary) = true) :
    HoldsOwnership t issuer subject := by
  have hfound : (t.grants.find? fun row =>
      row.issuer = issuer && row.subject = subject && row.isActive).any (·.isPrimary) = true := h
  obtain ⟨g, hg, hprimary⟩ : ∃ g, t.grants.find? (fun row =>
      row.issuer = issuer && row.subject = subject && row.isActive) = some g ∧ g.isPrimary = true := by
    cases hg : t.grants.find? fun row =>
        row.issuer = issuer && row.subject = subject && row.isActive with
    | none =>
      rw [hg] at hfound
      cases hfound
    | some g =>
      rw [hg] at hfound
      exact ⟨g, rfl, hfound⟩
  have hmatches := List.find?_some hg
  simp only [Bool.and_eq_true, decide_eq_true_eq] at hmatches
  refine ⟨g, List.mem_of_find?_eq_some hg, hmatches.1.1, hmatches.1.2, ?_⟩
  rw [AdminIdentityGrant.isActivePrimary, hmatches.2, hprimary]
  rfl

theorem recordFetch_cases (t : Tables) (seen : Seen) (q : Query) :
    (∃ issuer subject, HoldsOwnership t issuer subject ∧
      seen.recordFetch q (q.answer t) = { seen with owner := some (issuer, subject) }) ∨
    (∃ row ∈ t.issuers, row.isActive = true ∧
      seen.recordFetch q (q.answer t) = { seen with resolved := some row.id }) ∨
    (∃ id, (∀ g ∈ t.grants, g.isActive = true → g.trustedJwtIssuerId ≠ id) ∧
      seen.recordFetch q (q.answer t) = { seen with counted := some id }) ∨
    ∃ invite bound unbound, seen.recordFetch q (q.answer t) = { seen with invite, bound, unbound } := by
  have hsame : seen = { seen with invite := seen.invite, bound := seen.bound, unbound := seen.unbound } :=
    rfl
  cases q with
  | findActiveGrant issuer subject =>
    by_cases hprimary : ((Query.findActiveGrant issuer subject).answer t).any (·.isPrimary) = true
    · exact .inl ⟨issuer, subject, holdsOwnership_of_fetch hprimary, if_pos hprimary⟩
    · exact .inr (.inr (.inr ⟨_, _, _, (if_neg hprimary).trans hsame⟩))
  | resolveActiveIssuer issuer =>
    cases hfound : t.issuers.find? fun row => row.issuer = issuer && row.isActive with
    | none =>
      refine .inr (.inr (.inr ⟨seen.invite, seen.bound, seen.unbound, ?_⟩))
      show seen.recordFetch (.resolveActiveIssuer issuer) (Option.map _ (List.find? _ _)) = _
      rw [hfound]
      rfl
    | some row =>
      have hmatches := List.find?_some hfound
      rw [Bool.and_eq_true] at hmatches
      refine .inr (.inl ⟨row, List.mem_of_find?_eq_some hfound, hmatches.2, ?_⟩)
      show seen.recordFetch (.resolveActiveIssuer issuer) (Option.map _ (List.find? _ _)) = _
      rw [hfound]
      rfl
  | countActiveGrantsForTrustedIssuer id =>
    by_cases hzero : (Query.countActiveGrantsForTrustedIssuer id).answer t = 0
    · refine .inr (.inr (.inl ⟨id, fun g hg hactive hid => ?_, if_pos hzero⟩))
      have hnone := List.filter_eq_nil_iff.mp (List.eq_nil_of_length_eq_zero hzero) g hg
      simp [hid, hactive] at hnone
    · exact .inr (.inr (.inr ⟨_, _, _, (if_neg hzero).trans hsame⟩))
  | policiesBoundTo _ | unboundPolicies _ | findInviteByPrefix _ =>
    exact .inr (.inr (.inr ⟨_, _, _, rfl⟩))
  | getProvider _ | trustedIssuerScopesClaim _ | trustedIssuerIdsForIssuer _ _
  | enabledProvidersOnTrustedIssuer _ _ => exact .inr (.inr (.inr ⟨_, _, _, hsame⟩))

variable {o : IdentityOp} {x : o.Ans}

variable {seen : Seen}

theorem running_of_record (h : Running (seen.record o x)) : Running seen := by
  have hmono := record_committed_mono seen o x
  refine ⟨?_, ?_, ?_⟩
  · exact Bool.eq_false_iff.mpr fun hcommitted => by
      have hafter := hmono.1 hcommitted
      rw [h.committed] at hafter
      cases hafter
  · by_cases ho : Untold o
    · rw [← (record_untold ho seen x).2.2]
      exact h.answered
    · unfold Untold at ho
      split at ho
      · exact h.answered
      · exact absurd h.answered (Option.some_ne_none _)
      · exact absurd trivial ho
  · exact Bool.eq_false_iff.mpr fun hunsure => by
      have hafter := hmono.2 hunsure
      rw [h.unsure] at hafter
      cases hafter

variable {answer : Admin.Committed}

theorem wrote_of_running (h : Running (seen.record (.command .commit) answer)) :
    seen.wrote = false := by
  have hcommitted : (seen.committed || (seen.wrote && answer.result.isOk)) = false := h.committed
  have hunsure : (seen.unsure || !answer.result.isOk) = false := h.unsure
  simp only [Bool.or_eq_false_iff, Bool.and_eq_false_iff, Bool.not_eq_false'] at hcommitted hunsure
  exact hcommitted.2.resolve_right (by rw [hunsure.2]; decide)

theorem record_cases (hresponds : Responds w i o x w') (seen : Seen) :
    (IsRead o ∧ ∃ q, seen.record o x = seen.recordFetch q (q.answer w.db.tables)) ∨
      ((seen.record o x).owner = seen.owner ∧ (seen.record o x).resolved = seen.resolved ∧
        (seen.record o x).counted = seen.counted) := by
  have hcommand : ∀ (o : AdminOp Response) (x : o.Ans),
      (seen.record (.command o) x).owner = seen.owner ∧
        (seen.record (.command o) x).resolved = seen.resolved ∧
          (seen.record (.command o) x).counted = seen.counted := by
    intro o x
    obtain ⟨_, _, _, _, _, _, heq⟩ := recordCommand_eq seen o x
    rw [heq]
    exact ⟨rfl, rfl, rfl⟩
  cases hresponds with
  | read q => exact .inl ⟨trivial, q, rfl⟩
  | unread | closed => exact .inr ⟨rfl, rfl, rfl⟩
  | committed _ _ => exact .inr (hcommand _ _)
  | ended _ _ => exact .inr (hcommand _ _)
  | ran _ _ _ => exact .inr (hcommand _ _)
  | @wrote s answer db _ _ =>
    right
    cases answer with
    | error err => exact ⟨rfl, rfl, rfl⟩
    | ok row =>
      obtain ⟨_, _, heq⟩ := recordStatement_eq seen s row
      have hrecord : seen.record (.statement s) (.ok row) = seen.recordStatement s row := rfl
      rw [hrecord, heq]
      exact ⟨rfl, rfl, rfl⟩
  | other x ho =>
    cases o with
    | insertAudit _ | rejectDeniedJwksUrl _ | verify _ _ | generate | newId => exact .inr ⟨rfl, rfl, rfl⟩
    | command _ | fetch _ | statement _ => exact ho.elim

theorem owner_record (hresponds : Responds w i o x w') (h : (seen.record o x).owner = some owner) :
    seen.owner = some owner ∨ HoldsOwnership w.db.tables owner.1 owner.2 := by
  rcases record_cases hresponds seen with ⟨-, q, heq⟩ | ⟨howner, -, -⟩
  · rw [heq] at h
    rcases recordFetch_cases w.db.tables seen q with ⟨issuer, subject, hholds, hrecord⟩ |
      ⟨_, _, _, hrecord⟩ | ⟨_, _, hrecord⟩ | ⟨_, _, _, hrecord⟩ <;> rw [hrecord] at h
    · cases h
      exact .inr hholds
    · exact .inl h
    · exact .inl h
    · exact .inl h
  · exact .inl (howner ▸ h)

/-! ## The invariant -/

structure OwnersAct (requests : Nat → Request) (w : World) : Prop where
  owns : Owns w.db
  accounted : Accounted w
  started : ∀ i, i ∉ w.started → w.seen i = {}
  /-- What a check has shown is still true while the call is in flight. -/
  fresh : ∀ i, w.inFlight i = true → ∀ owner, (w.seen i).owner = some owner →
    HoldsOwnership w.db.tables owner.1 owner.2
  commits : OnlyOwnersCommit requests w

variable {k : Nat}

theorem inFlight_of_see (hresponds : Responds w i o x w')
    (hflight : (w'.see i o x).inFlight k = true) : w.inFlight k = true := by
  have hgone : (w'.see i o x).gone = w.gone := by cases hresponds <;> rfl
  obtain ⟨hpresent, hrunning⟩ := inFlight_iff.mp hflight
  rw [hgone] at hpresent
  refine inFlight_iff.mpr ⟨hpresent, ?_⟩
  by_cases hki : k = i
  · subst hki
    rw [see_seen_self, seen_of_responds hresponds] at hrunning
    exact running_of_record hrunning
  · rwa [see_seen_of_ne hki, seen_of_responds hresponds] at hrunning

theorem inFlight_of_cancel {db : Database} {commands : Admin.World Response}
    (hflight : ({ w with commands, db, gone := Function.update w.gone i true } : World).inFlight k = true) :
    w.inFlight k = true := by
  obtain ⟨hpresent, hrunning⟩ := inFlight_iff.mp hflight
  refine inFlight_iff.mpr ⟨?_, hrunning⟩
  by_cases hki : k = i
  · have hgone : Function.update w.gone i true k = false := hpresent
    rw [hki, Function.update_self] at hgone
    cases hgone
  · exact (Function.update_of_ne hki ..).symm.trans hpresent

theorem clean_of_inFlight (h : Accounted w)
    (hresponds : Responds w i (.command .commit) answer w')
    (hflight : (w'.see i (.command .commit) answer).inFlight i = true) : w.db.Clean i := by
  have hrunning := (inFlight_iff.mp hflight).2
  rw [see_seen_self, seen_of_responds hresponds] at hrunning
  refine (h.writes i).resolve_right ?_
  rw [wrote_of_running hrunning]
  decide

theorem checked_see (h : OwnersAct requests w) (hresponds : Responds w i o x w')
    (hflight : (w'.see i o x).inFlight k = true)
    (howner : ((w'.see i o x).seen k).owner = some owner) :
    w.inFlight k = true ∧ HoldsOwnership w.db.tables owner.1 owner.2 := by
  have hbefore := inFlight_of_see hresponds hflight
  refine ⟨hbefore, ?_⟩
  by_cases hki : k = i
  · subst hki
    rw [see_seen_self, seen_of_responds hresponds] at howner
    exact (owner_record hresponds howner).elim (h.fresh k hbefore owner) fun hholds => hholds
  · rw [see_seen_of_ne hki, seen_of_responds hresponds] at howner
    exact h.fresh k hbefore owner howner

theorem fresh_commit (h : OwnersAct requests w) (hguard : noStaleCheck i w = true)
    {commands : Admin.World Response} {w' : World}
    (hw' : w' = { w with
      db := w.db.commit i, commits := w.commitOf i answer.result.isOk :: w.commits, commands })
    (hresponds : Responds w i (.command .commit) answer w') (k : Nat)
    (hflight : (w'.see i (.command .commit) answer).inFlight k = true) (owner : String × String)
    (howner : ((w'.see i (.command .commit) answer).seen k).owner = some owner) :
    HoldsOwnership (w.db.commit i).tables owner.1 owner.2 := by
  obtain ⟨hbefore, hholds⟩ := checked_see h hresponds hflight howner
  refine holdsOwnership_commit h.owns ?_ hholds
  by_cases hki : k = i
  · subst hki
    unfold Database.takesFlag
    rw [(clean_of_inFlight h.accounted hresponds hflight).grants]
    rfl
  · rw [see_seen_of_ne hki, seen_of_responds hresponds] at howner
    have hstarted : k ∈ w.started := by
      by_contra hnot
      rw [h.started k hnot] at howner
      cases howner
    have hall := List.all_eq_true.mp hguard k (mem_others.mpr ⟨hstarted, hki, hbefore⟩)
    rw [howner] at hall
    simpa using hall

theorem actsAsOwner_commit (h : OwnersAct requests w) (hgone : w.gone i = false)
    (hmay : MayCommit (requests i).call (w.seen i)) (acknowledged : Bool) :
    (w.commitOf i acknowledged).Empty ∨ ActsAsOwner (requests i).call w.db.tables := by
  rcases h.accounted.writes i with hclean | hwrote
  · exact .inl ⟨hclean.grants, hclean.invites, hclean.providers, hclean.issuers⟩
  · refine .inr fun actor issuer howned htype => ?_
    obtain ⟨iss, sub, hissuer, hsubject, howner⟩ := hmay.owner hwrote actor issuer howned htype
    refine ⟨iss, sub, hissuer, hsubject, ?_⟩
    exact h.fresh i (inFlight_iff.mpr ⟨hgone, hmay.toRunning⟩) (iss, sub) howner

theorem started_see (h : ∀ i, i ∉ w.started → w.seen i = {}) (hseen : w'.seen = w.seen)
    (hstarted : w'.started = w.started) (k : Nat) (hk : k ∉ (w'.see i o x).started) :
    (w'.see i o x).seen k = {} := by
  have hnot : k ≠ i ∧ k ∉ w.started := by
    simp only [World.see, hstarted] at hk
    split at hk
    · next hi => exact ⟨fun heq => hk (heq ▸ hi), hk⟩
    · exact ⟨fun heq => hk (heq ▸ List.mem_cons_self), fun hmem => hk (List.mem_cons_of_mem _ hmem)⟩
  rw [see_seen_of_ne hnot.1, hseen]
  exact h k hnot.2

theorem ownersAct_responds (h : OwnersAct requests w) (hguard : AtCommit noStaleCheck i w o)
    (hmay : May (requests i).call (w.seen i) o) (hgone : w.gone i = false)
    (hresponds : Responds w i o x w') : OwnersAct requests (w'.see i o x) := by
  have haccounted := accounted_responds h.accounted hmay hresponds
  have hstarted : ∀ k, k ∉ (w'.see i o x).started → (w'.see i o x).seen k = {} :=
    started_see h.started (seen_of_responds hresponds) (by cases hresponds <;> rfl)
  have hfresh : w'.db.tables.grants = w.db.tables.grants → ∀ k, (w'.see i o x).inFlight k = true →
      ∀ owner, ((w'.see i o x).seen k).owner = some owner →
        HoldsOwnership w'.db.tables owner.1 owner.2 := by
    intro hrows k hflight owner howner
    unfold HoldsOwnership
    rw [hrows]
    exact (checked_see h hresponds hflight howner).2
  cases hresponds with
  | read | unread | closed | other | ran =>
    exact ⟨h.owns, haccounted, hstarted, hfresh rfl, h.commits⟩
  | wrote _ hexecutes =>
    exact ⟨owns_executes h.owns hexecutes, haccounted, hstarted, hfresh (rows_executes hexecutes),
      h.commits⟩
  | ended => exact ⟨owns_rollback h.owns, haccounted, hstarted, hfresh rfl, h.commits⟩
  | @committed answer commands hopened hgrant =>
    refine ⟨owns_commit h.owns, haccounted, hstarted, ?_, fun c hc => ?_⟩
    · exact fresh_commit h hguard rfl (.committed hopened hgrant)
    · rcases List.mem_cons.mp hc with rfl | hc
      · exact actsAsOwner_commit h hgone hmay _
      · exact h.commits c hc

theorem keeps_ownersAct (requests : Nat → Request) :
    Keeps requests (AtCommit noStaleCheck) (OwnersAct requests) where
  act i w o x w' h hguard hmay hgone hresponds := ownersAct_responds h hguard hmay hgone hresponds
  nature w e w' h hnature := by
    have haccounted := (keeps_accounted requests).nature w e w' h.accounted hnature
    cases e with
    | wait seconds | sweep p =>
      cases hnature
      exact ⟨h.owns, haccounted, h.started, h.fresh, h.commits⟩
    | disconnect i =>
      cases hnature
      exact ⟨owns_rollback h.owns, haccounted, h.started, h.fresh, h.commits⟩
    | cancel i =>
      cases hnature
      exact ⟨owns_rollback h.owns, haccounted, h.started,
        fun k hflight => h.fresh k (inFlight_of_cancel hflight), h.commits⟩

variable {lib : Libraries} {runner : AdminCommandRunner Response}

/-- **Only owners act as owners**, in every run in which no flag is taken from under a check. -/
theorem owners_commit {ledger : Ledger} {t₀ : Tables} (howned : WellOwned t₀.grants)
    {s : (identity lib runner requests).State} {moves : List (identity lib runner requests).Move}
    (hrun : runFrom (identity lib runner requests).step
      (identityInitial lib runner requests ledger t₀) moves = some s)
    (hmeets : Transition.Meets (identity lib runner requests).step (System.Guarded (AtCommit noStaleCheck))
      (identityInitial lib runner requests ledger t₀) moves) :
    OnlyOwnersCommit requests s.world := by
  have hinitial : OwnersAct requests (identityInitial lib runner requests ledger t₀).world :=
    ⟨owns_ofTables howned, accounted_initial lib runner requests ledger t₀, fun _ _ => rfl,
      fun _ _ _ howner => (nomatch howner), fun _ hc => absurd hc List.not_mem_nil⟩
  exact (identity_run (keeps_ownersAct requests) (conforms_initial ledger t₀) hinitial hmeets hrun).2.commits

/-! ### Samples -/

namespace Sample

/-- Two claims, a transfer from the first admin to the second, and a write of the first one to the
provider settings. -/
def handover : Nat → Call
  | 0 => claimOf "alice"
  | 1 => claimOf "bob"
  | 2 => .setIdentityPrimary (admin "alice") (some "https://console") 101 1 true
  | _ => .setProviderEnabled (admin "alice") (some "https://console") 2 1 false

/-- The write comes before the transfer. -/
def writeFirst : List Nat :=
  [0, 1, 3, 2].flatMap fun i => List.replicate 16 i

/-- The write is checked before the transfer and made after it. -/
def writeAcross : List Nat :=
  List.replicate 16 0 ++ List.replicate 16 1 ++ [3] ++ List.replicate 16 2 ++ List.replicate 16 3

def handoverMoves (schedule : List Nat) : List (system handover).Move :=
  perform schedule (initial handover tables)

instance instDecidableCommitMove (calls : Nat → Call) (P : Nat → World → Bool)
    (s : (system calls).State) (m : (system calls).Move) :
    Decidable (System.Guarded (M := system calls) (AtCommit P) s m) :=
  @System.instDecidableGuarded _ (system calls) (AtCommit P) (instDecidableAtCommit P) s m

/-- The provider was written by a call on tables in which its actor is not the owner. -/
def writtenByFormerOwner (w : World) : Bool :=
  w.commits.any fun c => c.call = 3 && !c.providers.isEmpty &&
    !c.before.grants.any fun g =>
      g.issuer = "https://console" && g.subject = "alice" && g.isActivePrimary

end Sample

open Sample in
theorem owners_commit_writeFirst :
    ∃ s : (system handover).State,
      runFrom (system handover).step (initial handover tables) (handoverMoves writeFirst) =
        some s ∧
      (s.world.commits.map (·.call)) = [2, 3, 1, 0] ∧
      OnlyOwnersCommit (fun i => { call := handover i }) s.world := by
  have hmeets : Transition.Meets (system handover).step (System.Guarded (AtCommit noStaleCheck))
      (initial handover tables) (handoverMoves writeFirst) := by
    decide +kernel
  have hmoves : (runFrom (system handover).step (initial handover tables)
      (handoverMoves writeFirst)).map (fun s => s.world.commits.map (·.call)) =
        some [2, 3, 1, 0] := by
    decide +kernel
  obtain ⟨s, hrun, hcalls⟩ := Option.map_eq_some_iff.mp hmoves
  exact ⟨s, hrun, hcalls, owners_commit wellOwned_nil hrun hmeets⟩

theorem not_onlyOwnersCommit {w : World} (h : Sample.writtenByFormerOwner w = true) :
    ¬OnlyOwnersCommit (fun i => { call := Sample.handover i }) w := by
  intro hall
  obtain ⟨c, hc, hwritten⟩ := List.any_eq_true.mp h
  simp only [Bool.and_eq_true, decide_eq_true_eq, Bool.not_eq_true'] at hwritten
  obtain ⟨⟨hcall, hproviders⟩, hformer⟩ := hwritten
  rcases hall c hc with hempty | howner
  · rw [hempty.providers] at hproviders
    cases hproviders
  · rw [hcall] at howner
    obtain ⟨iss, sub, hiss, hsub, g, hg, hissuer, hsubject, hactive⟩ := howner _ _ rfl rfl
    have hnot := List.any_eq_false.mp hformer g hg
    obtain rfl : "https://console" = iss := Option.some.inj hiss
    obtain rfl : "alice" = sub := Option.some.inj hsub
    simp [hissuer, hsubject, hactive] at hnot

open Sample in
/-- The former owner's write is checked before the transfer commits, and commits after it. -/
theorem former_owner_can_commit :
    ¬∀ (moves : List (system handover).Move) (s : (system handover).State),
      runFrom (system handover).step (initial handover tables) moves = some s →
        OnlyOwnersCommit (fun i => { call := handover i }) s.world := by
  intro hall
  have hmoves : (runFrom (system handover).step (initial handover tables)
      (handoverMoves writeAcross)).map (fun s => writtenByFormerOwner s.world) = some true := by
    decide +kernel
  obtain ⟨s, hrun, hwritten⟩ := Option.map_eq_some_iff.mp hmoves
  exact not_onlyOwnersCommit hwritten (hall _ s hrun)

end Moira.Identity
