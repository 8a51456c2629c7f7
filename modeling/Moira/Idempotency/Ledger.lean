import Mathlib.Logic.Function.Basic
import Moira.Security.Authz

/-!
# The idempotency ledger

`IdempotencyHasher` and the statements on the table `idempotency_records`. The unique index on
(key hash, actor fingerprint, operation) makes the table a partial function of the position.

The actor half of a position in the ledger.

The last three are only looked for.

- `get` reads only rows that have not expired
- `insert` does nothing on a position that is taken, by an expired row too
- `finish` writes the answer, whoever claimed the row
- `sweep` is retention, which deletes a row once it has expired
-/

namespace Moira

/-! ## Hashing -/

/--
`IdempotencyHasher`. The digests are given as the text they are stored as; two texts of the strict
base64 decoder agree when the digests do. The settings reject a version with a colon.
-/
structure IdempotencyHasher where
  pepperVersion : String
  mac : String → String
  secretFingerprint : String → String
  version_plain : ':' ∉ pepperVersion.toList

theorem defaultVersion_plain : ':' ∉ "v1".toList := by
  decide

/-- `str::split_once`. -/
def splitOnce (separator : Char) (s : String) : Option (String × String) :=
  match s.toList.dropWhile (· ≠ separator) with
  | [] => none
  | _ :: rest =>
    some (String.ofList (s.toList.takeWhile (· ≠ separator)), String.ofList rest)

namespace IdempotencyHasher

variable (hasher : IdempotencyHasher)

def hash (bytes : String) : String :=
  hasher.pepperVersion ++ ":" ++ hasher.mac bytes

def legacyHash (bytes : String) : String :=
  hasher.secretFingerprint bytes

/-- A stored value of the active pepper, or of the unkeyed hash before it. -/
def verify (bytes stored : String) : Bool :=
  match splitOnce ':' stored with
  | some (version, digest) => version = hasher.pepperVersion && digest = hasher.mac bytes
  | none => hasher.secretFingerprint bytes = stored

theorem splitOnce_hash (bytes : String) :
    splitOnce ':' (hasher.hash bytes) = some (hasher.pepperVersion, hasher.mac bytes) := by
  have hlist : (hasher.hash bytes).toList =
      hasher.pepperVersion.toList ++ ':' :: (hasher.mac bytes).toList := by
    simp [hash]
  have hplain : ∀ c ∈ hasher.pepperVersion.toList, (decide (c ≠ ':')) = true := by
    intro c hc
    have hne : c ≠ ':' := fun heq => hasher.version_plain (heq ▸ hc)
    simpa using hne
  unfold splitOnce
  rw [hlist, List.dropWhile_append_of_pos hplain, List.takeWhile_append_of_pos hplain]
  simp

theorem verify_hash (bytes : String) : hasher.verify bytes (hasher.hash bytes) = true := by
  simp [verify, splitOnce_hash]

theorem verify_hash_iff (bytes bytes' : String) :
    hasher.verify bytes (hasher.hash bytes') = true ↔ hasher.mac bytes' = hasher.mac bytes := by
  simp [verify, splitOnce_hash]

end IdempotencyHasher

/-! ## The table -/

/-- Where a row sits in the unique index. -/
structure Position where
  keyHash : String
  actorFingerprint : String
  operation : String
  deriving DecidableEq

structure IdempotencyRecord where
  position : Position
  requestHash : String
  responseStatus : Option Int := none
  responseBody : Option Json := none
  resourceId : Option String := none
  expiresAt : Nat
  deriving DecidableEq

abbrev Ledger := Position → Option IdempotencyRecord

namespace Ledger

variable {l : Ledger} {now : Nat} {p q : Position}

/-- The row at a position, unless it has expired. -/
def get (l : Ledger) (now : Nat) (p : Position) : Option IdempotencyRecord :=
  (l p).filter fun row => now < row.expiresAt

/-- `insert ... on conflict do nothing`: whether a row was inserted, and the table. -/
def insert (l : Ledger) (row : IdempotencyRecord) : Bool × Ledger :=
  match l row.position with
  | some _ => (false, l)
  | none => (true, Function.update l row.position (some row))

/-- `update ... set response_status, response_body, resource_id`. -/
def finish (l : Ledger) (p : Position) (status : Int) (body : Json) (resourceId : Option String) :
    Ledger :=
  Function.update l p ((l p).map fun row =>
    { row with responseStatus := some status, responseBody := some body, resourceId })

/-- Retention reaches the row at `p`. -/
def sweep (l : Ledger) (now : Nat) (p : Position) : Ledger :=
  Function.update l p ((l p).filter fun row => now ≤ row.expiresAt)

variable {row : IdempotencyRecord}

theorem get_eq_some : l.get now p = some row ↔ l p = some row ∧ now < row.expiresAt := by
  simp [get]

theorem get_eq_none : l.get now p = none ↔ ∀ row, l p = some row → row.expiresAt ≤ now := by
  simp [get]

theorem get_none_mono {later : Nat} (h : l.get now p = none) (hle : now ≤ later) :
    l.get later p = none := by
  rw [get_eq_none] at h ⊢
  intro row hrow
  exact Nat.le_trans (h row hrow) hle

theorem insert_true {l' : Ledger} :
    l.insert row = (true, l') ↔
      l row.position = none ∧ l' = Function.update l row.position (some row) := by
  unfold insert
  split
  · next hrow => simp [hrow]
  · next hrow => simp [hrow, eq_comm]

theorem insert_false {l' : Ledger} :
    l.insert row = (false, l') ↔ l row.position ≠ none ∧ l' = l := by
  unfold insert
  split
  · next hrow => simp [hrow, eq_comm]
  · next hrow => simp [hrow]

theorem finish_of_ne {status : Int} {body : Json} {resourceId : Option String} (h : q ≠ p) :
    l.finish p status body resourceId q = l q := by
  simp [finish, h]

theorem sweep_of_ne (h : q ≠ p) : l.sweep now p q = l q := by
  simp [sweep, h]

theorem sweep_eq (h : l q = some row) (hlive : now ≤ row.expiresAt) :
    l.sweep now p q = some row := by
  by_cases hq : q = p
  · subst hq
    simp [sweep, h, hlive]
  · rw [sweep_of_ne hq, h]

/-! ### What a statement leaves in place -/

/-- Every row sits at its own position. -/
def Placed (l : Ledger) : Prop :=
  ∀ p row, l p = some row → row.position = p

/-- A row that has not expired keeps its place, its expiry and the answer it has. -/
def Persists (now : Nat) (l l' : Ledger) : Prop :=
  ∀ p row, l p = some row → now ≤ row.expiresAt →
    ∃ row', l' p = some row' ∧ row'.expiresAt = row.expiresAt ∧
      (row.responseBody.isSome = true → row'.responseBody.isSome = true)

theorem placed_insert (h : l.Placed) (row : IdempotencyRecord) : (l.insert row).2.Placed := by
  intro p found hfound
  unfold insert at hfound
  split at hfound
  · exact h p found hfound
  · by_cases hp : p = row.position
    · subst hp
      simp only [Function.update_self, Option.some.injEq] at hfound
      rw [hfound]
    · simp only [Function.update_of_ne hp] at hfound
      exact h p found hfound

theorem persists_insert (now : Nat) (l : Ledger) (row : IdempotencyRecord) :
    Persists now l (l.insert row).2 := by
  intro p found hfound _
  refine ⟨found, ?_, rfl, id⟩
  unfold insert
  split
  · exact hfound
  · next hfree =>
    have hp : p ≠ row.position := by
      rintro rfl
      rw [hfree] at hfound
      cases hfound
    simp [Function.update_of_ne hp, hfound]

section

variable {status : Int} {body : Json} {resourceId : Option String}

theorem placed_finish (h : l.Placed) (p : Position) : (l.finish p status body resourceId).Placed := by
  intro q row hrow
  by_cases hq : q = p
  · subst hq
    simp only [finish, Function.update_self, Option.map_eq_some_iff] at hrow
    obtain ⟨old, hold, rfl⟩ := hrow
    exact h q old hold
  · rw [finish_of_ne hq] at hrow
    exact h q row hrow

theorem persists_finish (now : Nat) (l : Ledger) (p : Position) :
    Persists now l (l.finish p status body resourceId) := by
  intro q row hrow _
  by_cases hq : q = p
  · subst hq
    simp [finish, hrow]
  · exact ⟨row, by rw [finish_of_ne hq, hrow], rfl, id⟩

end

theorem placed_sweep (h : l.Placed) (now : Nat) (p : Position) : (l.sweep now p).Placed := by
  intro q row hrow
  by_cases hq : q = p
  · subst hq
    simp only [sweep, Function.update_self, Option.filter_eq_some_iff] at hrow
    exact h q row hrow.1
  · rw [sweep_of_ne hq] at hrow
    exact h q row hrow

theorem persists_sweep (now : Nat) (l : Ledger) (p : Position) : Persists now l (l.sweep now p) :=
  fun _ row hrow hlive => ⟨row, sweep_eq hrow hlive, rfl, id⟩

end Ledger

/-- The texts of libraries: `serde_json::to_vec` of a value, and a UUID as it is printed. -/
structure Renderer where
  json : Json → String
  uuid : Uuid → String

namespace ActorType

/-- As `serde` writes it. -/
def text : ActorType → String
  | anonymous => "anonymous"
  | devAdmin => "dev_admin"
  | systemKey => "system_key"
  | consumerKey => "consumer_key"
  | trustedJwt => "trusted_jwt"

/-- As `{:?}` writes it. -/
def debug : ActorType → String
  | anonymous => "Anonymous"
  | devAdmin => "DevAdmin"
  | systemKey => "SystemKey"
  | consumerKey => "ConsumerKey"
  | trustedJwt => "TrustedJwt"

end ActorType

namespace Renderer

variable (render : Renderer)

def optionalText (s : Option String) : Json :=
  (s.map Json.str).getD .null

def optionalUuid (id : Option Uuid) : Json :=
  (id.map fun id => Json.str (render.uuid id)).getD .null

/-- The ten fields of `actor_identity_bytes`. -/
def actorIdentity (actor : Actor) : Json :=
  .arr [.str actor.actorType.text, optionalText actor.subject, render.optionalUuid actor.apiKeyId,
    render.optionalUuid actor.trustedJwtIssuerId, render.optionalUuid actor.internalApplicationId,
    optionalText actor.applicationId, optionalText actor.tenantId, optionalText actor.externalUserId,
    optionalText actor.externalTenantId, optionalText actor.delegatedSubject]

def actorIdentityBytes (actor : Actor) : String :=
  render.json (render.actorIdentity actor)

end Renderer

namespace IdempotencyHasher

variable (hasher : IdempotencyHasher) (render : Renderer) (actor : Actor)

/-- The fingerprint that is written: ten fields, under the pepper. -/
def actorFingerprint : String :=
  hasher.hash (render.actorIdentityBytes actor)

/-- The same fields without the pepper. -/
def unkeyedActorFingerprint : String :=
  hasher.secretFingerprint (render.actorIdentityBytes actor)

/-- The three fields of the runtime operations. -/
def legacyActorFingerprint : String :=
  hasher.secretFingerprint (actor.actorType.debug ++ ":" ++ actor.subject.getD "" ++ ":" ++
    (actor.apiKeyId.map render.uuid).getD "")

/-- The spellings of a key that the runtime operations look for, the one that is written first. -/
def runtimePositions (key operation : String) : List Position :=
  [hasher.actorFingerprint render actor, hasher.unkeyedActorFingerprint render actor,
    hasher.legacyActorFingerprint render actor].flatMap fun actorFingerprint =>
      [hasher.hash key, hasher.legacyHash key].map fun keyHash =>
        { keyHash, actorFingerprint, operation }

/-- The position that is written. -/
def writtenPosition (key operation : String) : Position where
  keyHash := hasher.hash key
  actorFingerprint := hasher.actorFingerprint render actor
  operation

theorem runtimePositions_eq (key operation : String) : ∃ older,
    hasher.runtimePositions render actor key operation =
      hasher.writtenPosition render actor key operation :: older :=
  ⟨_, rfl⟩

end IdempotencyHasher

end Moira
