import Moira.Admin.Keys

/-!
# What key administration reveals

**`secrets_grantable_iff`**: every secret the actor is given is of a key it may grant, exactly when
every rotation it reaches is. A create checks the scopes it is asked for; a rotation takes them from
the row.
-/

namespace Moira.Admin

open Transition

/-- The secret of the answer, if there is one, is of a key whose scopes the actor may grant. -/
def Grantable (actor : Actor) (response : ApiKeySecretResponse) : Prop :=
  response.secret.isSome → actor.canGrant response.resource.scopes

/-- The call is authorized, is not a replay, gets a key to store, and commits. -/
structure Reached (actor : Actor) (s : KeyAdmin) (call : KeyCall) : Prop where
  authorized : actor.require call.command.requiredScope = .ok ()
  fresh : s.replay call = none
  generated : ∃ generated, call.generated = .ok generated
  committed : call.fate = .committed

/-- A rotation that is reached finds a key all of whose scopes the actor may grant. -/
def RotatesWithin (actor : Actor) (s : KeyAdmin) : KeyMove → Prop
  | .call call => ∀ table id request row, call.command = .rotateKey table id request →
    Reached actor s call → s.findKey table id = some row → actor.canGrant row.record.scopes
  | _ => True

/-- Replays never carry a secret. -/
def Sanitized (s : KeyAdmin) : Prop :=
  ∀ entry ∈ s.ledger, ∀ response, entry.answer = .ok response → response.secret = none

section

variable {actor : Actor} {s s' t : KeyAdmin} {call : KeyCall} {m : KeyMove}

/-! ## The commands -/

theorem canGrant_of_validate {displayName : String} {scopes normalized : List String}
    (h : validateKeyRequest actor displayName scopes = .ok normalized) : actor.canGrant normalized := by
  simp only [validateKeyRequest, bind, Except.bind] at h
  split at h
  · cases h
  · split at h
    · cases h
    · split at h
      · cases h
      · split at h
        · cases h
        · next hgrant =>
          cases h
          simpa using hgrant

theorem mutate_cases {response : ApiKeySecretResponse}
    (h : mutate actor call.generated call.newId s call.command = .ok (response, s')) :
    s'.ledger = s.ledger ∧ s'.answers = s.answers ∧ response.secret.isSome ∧
    ((∀ table id request, call.command ≠ .rotateKey table id request) ∧
        actor.canGrant response.resource.scopes ∨
      ∃ table id request row generated, call.command = .rotateKey table id request ∧
        call.generated = .ok generated ∧ s.findKey table id = some row ∧
        response.resource.scopes = row.record.scopes) := by
  cases hcommand : call.command with
  | createSystemKey request =>
    rw [hcommand] at h
    simp only [mutate, bind, Except.bind] at h
    split at h
    · cases h
    · next hvalid =>
      split at h
      · cases h
      · cases h
        exact ⟨rfl, rfl, rfl, .inl ⟨fun _ _ _ => nofun, canGrant_of_validate hvalid⟩⟩
  | createConsumerKey request =>
    rw [hcommand] at h
    simp only [mutate, bind, Except.bind] at h
    split at h
    · cases h
    · next hvalid =>
      split at h
      · cases h
      · split at h
        · cases h
        · cases h
          exact ⟨rfl, rfl, rfl, .inl ⟨fun _ _ _ => nofun, canGrant_of_validate hvalid⟩⟩
  | rotateKey table id request =>
    rw [hcommand] at h
    simp only [mutate, bind, Except.bind] at h
    split at h
    · cases h
    · next generated hgenerated =>
      split at h
      · cases h
      · next row hrow =>
        cases h
        refine ⟨?_, ?_, rfl, .inr ⟨table, id, request, row, generated, rfl, hgenerated, hrow, rfl⟩⟩
        · cases table <;> rfl
        · cases table <;> rfl

/-! ## A call -/

theorem sanitized_finalized {answer : Except AppError ApiKeySecretResponse} (h : Sanitized s)
    (hanswer : ∀ response, answer = .ok response → response.secret = none) :
    Sanitized (s.finalized call answer) := by
  unfold KeyAdmin.finalized
  split
  · exact h
  · intro entry hentry
    rcases List.mem_cons.mp hentry with rfl | hentry
    · exact hanswer
    · exact h entry hentry

theorem answers_finalized {answer : Except AppError ApiKeySecretResponse} :
    (s.finalized call answer).answers = s.answers := by
  unfold KeyAdmin.finalized
  split <;> rfl

theorem executeKey_frame (actor : Actor) (call : KeyCall) (h : Sanitized s) :
    Sanitized (executeKey actor s call).2 ∧ (executeKey actor s call).2.answers = s.answers := by
  unfold executeKey
  split
  · exact ⟨h, rfl⟩
  split
  · exact ⟨h, rfl⟩
  split
  · exact ⟨h, rfl⟩
  split
  · split
    · refine ⟨sanitized_finalized h ?_, answers_finalized⟩
      intro response hok
      cases hok
    · exact ⟨h, rfl⟩
  · next response mutated hmutate =>
    obtain ⟨hledger, hanswers, -⟩ := mutate_cases hmutate
    have hmutated : Sanitized mutated := by
      unfold Sanitized
      rw [hledger]
      exact h
    refine ⟨sanitized_finalized hmutated ?_, answers_finalized.trans hanswers⟩
    intro answer hanswer
    cases hanswer
    rfl

theorem replay_mem {entry : KeyReplay} (h : s.replay call = some entry) : entry ∈ s.ledger := by
  obtain ⟨key, -, hfind⟩ := Option.bind_eq_some_iff.mp h
  exact List.mem_of_find?_eq_some hfind

theorem executeKey_rotate {table : ApiKeyTable} {id : Uuid} {request : ApiKeyRotateRequest} {row : StoredKey}
    (hcommand : call.command = .rotateKey table id request) (h : Reached actor s call)
    (hrow : s.findKey table id = some row) :
    ∃ response, (executeKey actor s call).1 = .ok response ∧ response.secret.isSome ∧
      response.resource.scopes = row.record.scopes := by
  obtain ⟨generated, hgenerated⟩ := h.generated
  refine ⟨{ resource := (rotatedKey s.now generated row).record, secret := some generated.rawKey
            secretRetrievable := true }, ?_, rfl, rfl⟩
  have hauthorized := h.authorized
  have hfresh := h.fresh
  rw [hcommand] at hauthorized
  simp only [executeKey, hcommand, hauthorized, hfresh, h.committed, reduceCtorEq, if_false, if_true,
    mutate, hgenerated, hrow, bind, Except.bind, pure, Except.pure]

/-- **A call, exactly**: it reveals only keys the actor may grant, if a rotation it reaches is of
one. -/
theorem executeKey_grantable_iff (h : Sanitized s) : RotatesWithin actor s (.call call) ↔
    ∀ response, (executeKey actor s call).1 = .ok response → Grantable actor response := by
  constructor
  · intro hrotates response hok hsecret
    unfold executeKey at hok
    split at hok
    · cases hok
    next hauthorized =>
    split at hok
    · -- a replay has no secret
      next entry hreplay =>
      simp only at hok
      split at hok
      · rw [h entry (replay_mem hreplay) response hok] at hsecret
        cases hsecret
      · cases hok
    next hfresh =>
    split at hok
    · cases hok
    split at hok
    · cases hok
    next answered mutated hmutate =>
    simp only at hok
    split at hok
    · next hcommitted =>
      cases hok
      obtain ⟨-, -, -, ⟨-, hgrant⟩ |
          ⟨table, id, request, row, generated, hcommand, hgenerated, hrow, hscopes⟩⟩ :=
        mutate_cases hmutate
      · exact hgrant
      · rw [hscopes]
        exact hrotates table id request row hcommand
          ⟨hauthorized, hfresh, ⟨generated, hgenerated⟩, hcommitted⟩ hrow
    · cases hok
  · intro hgrantable table id request row hcommand hreached hrow
    obtain ⟨response, hok, hsecret, hscopes⟩ := executeKey_rotate hcommand hreached hrow
    rw [← hscopes]
    exact hgrantable response hok hsecret

/-! ## Runs -/

theorem sanitized_step (h : Sanitized s) (hstep : keyStep actor s m = some s') : Sanitized s' := by
  cases m with
  | call call =>
    have hframe := executeKey_frame actor call h
    simp only [keyStep] at hstep
    split at hstep
    · next heq =>
      cases hstep
      rw [heq] at hframe
      exact hframe.1
    · next heq =>
      cases hstep
      rw [heq] at hframe
      exact hframe.1
  | others =>
    cases hstep
    exact h
  | expire operation key =>
    cases hstep
    exact fun entry hentry => h entry (List.mem_of_mem_filter hentry)
  | elapse =>
    cases hstep
    exact h

/-- A step keeps the answers grantable exactly when it rotates within. -/
theorem grantable_step (h : Sanitized s) (hstep : keyStep actor s m = some s') :
    (∀ response ∈ s'.answers, Grantable actor response) ↔
      RotatesWithin actor s m ∧ ∀ response ∈ s.answers, Grantable actor response := by
  cases m with
  | call call =>
    have hframe := (executeKey_frame actor call h).2
    rw [executeKey_grantable_iff h]
    simp only [keyStep] at hstep
    split at hstep
    · next response after heq =>
      cases hstep
      rw [heq] at hframe
      simp only at hframe
      rw [heq, ← hframe]
      simp
    · next error after heq =>
      cases hstep
      rw [heq] at hframe
      simp only at hframe
      rw [heq, hframe]
      simp
  | others | expire | elapse =>
    cases hstep
    simp [RotatesWithin]

theorem grantable_run {moves : List KeyMove} (h : Sanitized s)
    (hrun : runFrom (keyStep actor) s moves = some t) :
    (∀ response ∈ t.answers, Grantable actor response) ↔
      Meets (keyStep actor) (RotatesWithin actor) s moves ∧
        ∀ response ∈ s.answers, Grantable actor response := by
  induction moves generalizing s with
  | nil =>
    cases hrun
    exact (and_iff_right trivial).symm
  | cons m moves ih =>
    obtain ⟨s', hstep, hrest⟩ := runFrom_cons.mp hrun
    rw [ih (sanitized_step h hstep) hrest, grantable_step h hstep, meets_cons hstep]
    constructor
    · rintro ⟨hmeets, hrotates, hanswers⟩
      exact ⟨⟨hrotates, hmeets⟩, hanswers⟩
    · rintro ⟨⟨hrotates, hmeets⟩, hanswers⟩
      exact ⟨hmeets, hrotates, hanswers⟩

end

/--
**No privilege gained, exactly**: over any sequence of calls of an actor, between any changes the
others make, every secret it is answered with is of a key whose scopes it may grant if and only if
every rotation it reaches is of such a key.
-/
theorem secrets_grantable_iff (actor : Actor) {s t : KeyAdmin} {moves : List KeyMove}
    (hledger : s.ledger = []) (hanswers : s.answers = [])
    (hrun : runFrom (keyStep actor) s moves = some t) :
    (∀ response ∈ t.answers, Grantable actor response) ↔
      Meets (keyStep actor) (RotatesWithin actor) s moves := by
  have hsanitized : Sanitized s := by
    intro entry hentry
    rw [hledger] at hentry
    cases hentry
  rw [grantable_run hsanitized hrun, hanswers]
  simp only [List.not_mem_nil, false_implies, implies_true, and_true]

namespace Sample

/-- A system key that may rotate system keys, and nothing else. -/
def rotator : Actor where
  actorType := .systemKey
  scopes := ["moira:system-keys:rotate"]

def storedKey (id : Uuid) (scopes : List String) : StoredKey where
  record :=
    { id, applicationId := none, displayName := "key", keyPrefix := "moira_sys_0", fingerprint := "f0"
      pepperVersion := "v1", scopes, expiresAt := none, createdAt := 0, updatedAt := 0 }
  keyHash := "hash-0"

/-- Made by others: the root key, and one like the rotator's own. -/
def twoKeys : KeyAdmin where
  systemKeys := [storedKey 1 ["moira:admin"], storedKey 2 ["moira:system-keys:rotate"]]

def rotation (id : Uuid) : KeyMove :=
  .call
    { command := .rotateKey .system id { revokePreviousImmediately := true, expiresAt := none }
      generated := .ok
        { rawKey := "moira_sys_1.secret", keyPrefix := "moira_sys_1", keyHash := "hash-1"
          fingerprint := "f1", pepperVersion := "v1" }
      newId := 9 }

end Sample

open Sample in
/-- The rotator is given a working secret of the root key. -/
theorem rotation_reveals_the_root_key : ∃ t,
    runFrom (keyStep rotator) twoKeys [rotation 1] = some t ∧
    ∃ response ∈ t.answers, response.secret = some "moira_sys_1.secret" ∧
      response.resource.scopes = ["moira:admin"] ∧ rotator.canGrant response.resource.scopes = false := by
  refine ⟨_, rfl, _, List.mem_cons_self, rfl, rfl, by decide +kernel⟩

open Sample in
theorem secrets_grantable_iff_ownKey : ∃ t,
    runFrom (keyStep rotator) twoKeys [rotation 2] = some t ∧
    ∀ response ∈ t.answers, Grantable rotator response := by
  have hrun : runFrom (keyStep rotator) twoKeys [rotation 2] = some _ := rfl
  refine ⟨_, hrun, (secrets_grantable_iff rotator rfl rfl hrun).mpr ⟨?_, fun _ _ => trivial⟩⟩
  rintro table id request row hcommand - hrow
  cases hcommand
  cases hrow
  decide +kernel

end Moira.Admin
