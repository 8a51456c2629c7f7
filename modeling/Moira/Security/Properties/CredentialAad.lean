import Moira.Keyring.Properties.Envelope
import Moira.Security.CredentialAad

/-!
# What a credential is bound to

The ids of the tenant and of the user are free text around the id of the application: a text in
which they meet can be cut in more than one place.
-/

namespace Moira.Credential

open Separator
open Keyring (RawUuid Aead AeadCall DataKey)

/-! ## Characters of the fields -/

theorem hexText_free (bs : Bytes) : ';' ∉ Bytes.hexText bs := by
  induction bs with
  | nil => exact List.not_mem_nil
  | cons b bs ih =>
    have hdigit : ∀ n < 16, Bytes.hexDigit n ≠ ';' := by decide
    have hb : b.toNat < 256 := b.toNat_lt
    intro h
    rcases List.mem_cons.mp h with h | h
    · exact hdigit _ (by omega) h.symm
    · rcases List.mem_cons.mp h with h | h
      · exact hdigit _ (by omega) h.symm
      · exact ih h

theorem uuidText_free (id : RawUuid) : ';' ∉ uuidText id := by
  simp [uuidText, Bytes.uuidText, hexText_free]

theorem uuidText_injective : Function.Injective uuidText := by
  intro a b h
  obtain ⟨as, ha⟩ := a
  obtain ⟨bs, hb⟩ := b
  obtain rfl := Bytes.uuidText_inj ha hb h
  rfl

theorem length_uuidText (id : RawUuid) : (uuidText id).length = 36 :=
  Bytes.length_uuidText id.length_bytes

theorem natRepr_free (n : Nat) : ';' ∉ n.repr.toList := by
  rw [Nat.repr, String.toList_ofList]
  intro h
  have hdigit : (';').isDigit = true := Nat.isDigit_of_mem_toDigits (by decide) (by decide) h
  exact absurd hdigit (by decide)

theorem version_free (n : Int) : ';' ∉ (toString n).toList := by
  cases n with
  | ofNat n => exact natRepr_free n
  | negSucc n =>
    show ';' ∉ ("-" ++ (n + 1).repr).toList
    rw [String.toList_append, List.mem_append]
    rintro (h | h)
    · exact absurd h (by decide)
    · exact natRepr_free _ h

theorem version_injective {m n : Int} (h : (toString m).toList = (toString n).toList) : m = n :=
  Int.repr_injective (String.toList_injective h)

theorem credentialType_free (credentialType : CredentialType) : ';' ∉ credentialType.toDb.toList := by
  cases credentialType <;> decide

theorem scopeType_free (scopeType : ScopeType) : ';' ∉ scopeType.toDb.toList := by
  cases scopeType <;> decide

/-! ## The ids in the middle -/

def appText (app : Option RawUuid) : List Char :=
  "application_id=".toList ++ (app.map uuidText).getD []

/-- What stands between the two ids. -/
def cut (app : Option RawUuid) : List Char :=
  separator ';' appText "external_user_id=".toList app

theorem appText_injective : Function.Injective appText := by
  intro a b h
  have h := List.append_cancel_left h
  cases a with
  | none =>
    cases b with
    | none => rfl
    | some b =>
      have hlength := congrArg List.length h
      have := length_uuidText b
      simp only [Option.map_none, Option.map_some, Option.getD_none, Option.getD_some, List.length_nil] at hlength
      omega
  | some a =>
    cases b with
    | none =>
      have hlength := congrArg List.length h
      have := length_uuidText a
      simp only [Option.map_none, Option.map_some, Option.getD_none, Option.getD_some, List.length_nil] at hlength
      omega
    | some b => rw [uuidText_injective h]

theorem distinct_cut : Distinct ';' appText "external_user_id=".toList where
  front_free app := by
    unfold appText
    rw [List.mem_append]
    rintro (h | h)
    · exact absurd h (by decide)
    · cases app with
      | none => exact absurd h List.not_mem_nil
      | some app => exact uuidText_free app h
  back_free := by decide
  start app a h := by
    obtain rfl : a = 'a' := (Option.some.inj h).symm
    decide
  front_nonempty app := List.append_ne_nil_of_left_ne_nil (by decide) _
  back_nonempty := by decide

/-- The ids as they stand in the text. -/
def middle (parts : CredentialAadParts) : List Char :=
  parts.externalTenantId.getD [] ++ (cut parts.applicationId ++ parts.externalUserId.getD [])

theorem credentialAad_eq (parts : CredentialAadParts) : credentialAad parts =
    "credential_id=".toList ++ (uuidText parts.credentialId ++ (";provider_id=".toList ++
      (uuidText parts.providerId ++ (";credential_type=".toList ++ (parts.credentialType ++
        (';' :: ("scope_type=".toList ++ (parts.scopeType ++ (';' :: ("external_tenant_id=".toList ++
          (middle parts ++ ';' :: ("encryption_version=".toList ++
            (toString parts.encryptionVersion).toList))))))))))))  := by
  unfold credentialAad middle cut separator appText
  simp only [List.append_assoc, List.cons_append]
  rfl

/-! ## Equal texts -/

/-- The names of the types are names of the tables, and the ids are accepted. -/
structure Accepted (parts : CredentialAadParts) : Prop where
  credentialType : ∃ credentialType : CredentialType, parts.credentialType = credentialType.toDb.toList
  scopeType : ∃ scopeType : ScopeType, parts.scopeType = scopeType.toDb.toList
  tenant : ∀ tenant, parts.externalTenantId = some tenant → ExternalTenantId.parse tenant = .ok ()
  user : ∀ user, parts.externalUserId = some user → ExternalUserId.parse user = .ok ()

variable {p q : CredentialAadParts}

theorem Accepted.credentialType_free (h : Accepted p) : ';' ∉ p.credentialType := by
  obtain ⟨credentialType, heq⟩ := h.credentialType
  rw [heq]
  exact Credential.credentialType_free credentialType

theorem Accepted.scopeType_free (h : Accepted p) : ';' ∉ p.scopeType := by
  obtain ⟨scopeType, heq⟩ := h.scopeType
  rw [heq]
  exact Credential.scopeType_free scopeType

theorem label_version_free (n : Int) : ';' ∉ "encryption_version=".toList ++ (toString n).toList := by
  rw [List.mem_append]
  rintro (h | h)
  · exact absurd h (by decide)
  · exact version_free n h

theorem credentialAad_eq_iff (hp : Accepted p) (hq : Accepted q) : credentialAad p = credentialAad q ↔
    p.credentialId = q.credentialId ∧ p.providerId = q.providerId ∧ p.credentialType = q.credentialType ∧
      p.scopeType = q.scopeType ∧ middle p = middle q ∧ p.encryptionVersion = q.encryptionVersion := by
  constructor
  · intro h
    rw [credentialAad_eq, credentialAad_eq] at h
    obtain ⟨hcredential, h⟩ := List.append_inj (List.append_cancel_left h)
      ((length_uuidText _).trans (length_uuidText _).symm)
    obtain ⟨hprovider, h⟩ := List.append_inj (List.append_cancel_left h)
      ((length_uuidText _).trans (length_uuidText _).symm)
    obtain ⟨htype, h⟩ := cut_first hp.credentialType_free hq.credentialType_free (List.append_cancel_left h)
    obtain ⟨hscope, h⟩ := cut_first hp.scopeType_free hq.scopeType_free (List.append_cancel_left h)
    obtain ⟨hmiddle, h⟩ := cut_last (label_version_free _) (label_version_free _) (List.append_cancel_left h)
    exact ⟨uuidText_injective hcredential, uuidText_injective hprovider, htype, hscope, hmiddle,
      version_injective (List.append_cancel_left h)⟩
  · rintro ⟨hcredential, hprovider, htype, hscope, hmiddle, hversion⟩
    rw [credentialAad_eq, credentialAad_eq, hcredential, hprovider, htype, hscope, hmiddle, hversion]

variable {label : String}

theorem parse_eq_ok {value : List Char} : validateOpaqueId label value = .ok () ↔
    value ≠ [] ∧ Text.byteLen value ≤ maxExternalIdLen ∧ ∀ c ∈ value, isControl c = false := by
  unfold validateOpaqueId
  by_cases hempty : value = []
  · subst hempty
    simp
  · rw [if_neg (by simpa using hempty)]
    by_cases hlong : Text.byteLen value > maxExternalIdLen
    · rw [if_pos hlong]
      exact iff_of_false (by simp) fun h => absurd h.2.1 (Nat.not_le_of_gt hlong)
    · rw [if_neg hlong]
      by_cases hcontrol : value.any isControl = true
      · rw [if_pos hcontrol]
        obtain ⟨c, hc, hcontrol⟩ := List.any_eq_true.mp hcontrol
        refine iff_of_false (by simp) fun h => ?_
        rw [h.2.2 c hc] at hcontrol
        cases hcontrol
      · rw [if_neg hcontrol]
        refine iff_of_true rfl ⟨hempty, Nat.le_of_not_gt hlong, fun c hc => ?_⟩
        by_contra hne
        exact hcontrol (List.any_eq_true.mpr ⟨c, hc, by simpa using hne⟩)

/-- An id that is accepted where it is present, and absent where there is no text. -/
def idOf (value : List Char) : Option (List Char) :=
  if value = [] then none else some value

theorem idOf_getD (value : List Char) : (idOf value).getD [] = value := by
  unfold idOf
  split
  · next h => rw [h, Option.getD_none]
  · rw [Option.getD_some]

theorem eq_idOf {id : Option (List Char)}
    (h : ∀ value, id = some value → validateOpaqueId label value = .ok ()) :
    id = idOf (id.getD []) := by
  cases id with
  | none => rfl
  | some value =>
    unfold idOf
    rw [Option.getD_some, if_neg (parse_eq_ok.mp (h value rfl)).1]

theorem parse_idOf {value : List Char} (hlength : Text.byteLen value ≤ maxExternalIdLen)
    (hcontrol : ∀ c ∈ value, isControl c = false) :
    ∀ id, idOf value = some id → validateOpaqueId label id = .ok () := by
  intro id hid
  unfold idOf at hid
  split at hid
  · cases hid
  · next hne =>
    obtain rfl := Option.some.inj hid
    exact parse_eq_ok.mpr ⟨hne, hlength, hcontrol⟩

/-! ## Cuts -/

/-- Neither id holds a separator at which the ids could be cut again: one of the parts would be too
long. -/
structure CutOnce (p : CredentialAadParts) : Prop where
  tenant : ∀ app left right, p.externalTenantId.getD [] = left ++ (cut app ++ right) →
    maxExternalIdLen < Text.byteLen (right ++ (cut p.applicationId ++ p.externalUserId.getD []))
  user : ∀ app left right, p.externalUserId.getD [] = left ++ (cut app ++ right) →
    maxExternalIdLen < Text.byteLen (p.externalTenantId.getD [] ++ (cut p.applicationId ++ left))

/-- A credential decrypts for its own parts only. -/
structure Bound (p : CredentialAadParts) : Prop where
  injective : ∀ q, Accepted q → credentialAad q = credentialAad p → q = p
  /-- Nonces are not reused. -/
  decrypts : ∀ (A : Aead) (made : AeadCall → Prop), A.IdealFor made → ∀ key nonce plaintext,
    (∀ call, made call → call.key = key → call.nonce = nonce →
      call = { key, nonce, aad := aadBytes p, plaintext }) →
    ∀ q, Accepted q → ∀ opened, decrypt A key (encrypt A key nonce plaintext p) q = some opened →
      q = p ∧ opened = plaintext

theorem getD_bounds {id : Option (List Char)}
    (h : ∀ value, id = some value → validateOpaqueId label value = .ok ()) :
    Text.byteLen (id.getD []) ≤ maxExternalIdLen ∧ ∀ c ∈ id.getD [], isControl c = false := by
  cases id with
  | none => exact ⟨Nat.zero_le _, fun c hc => absurd hc List.not_mem_nil⟩
  | some value => exact (parse_eq_ok.mp (h value rfl)).2

theorem hexText_printable {bs : Bytes} : ∀ c ∈ Bytes.hexText bs, isControl c = false := by
  have hdigit : ∀ n < 16, isControl (Bytes.hexDigit n) = false := by decide
  induction bs with
  | nil => exact fun c hc => absurd hc List.not_mem_nil
  | cons b bs ih =>
    have hb : b.toNat < 256 := b.toNat_lt
    intro c hc
    rcases List.mem_cons.mp hc with rfl | hc
    · exact hdigit _ (by omega)
    · rcases List.mem_cons.mp hc with rfl | hc
      · exact hdigit _ (by omega)
      · exact ih c hc

theorem uuidText_printable {id : RawUuid} : ∀ c ∈ uuidText id, isControl c = false := by
  have hdash : isControl '-' = false := by decide
  intro c hc
  simp only [uuidText, Bytes.uuidText, List.mem_append, List.mem_cons] at hc
  have hhex (bs : Bytes) (h : c ∈ Bytes.hexText bs) : isControl c = false := hexText_printable c h
  rcases hc with (((hc | rfl | hc) | rfl | hc) | rfl | hc) | rfl | hc
  all_goals first | exact hdash | exact hhex _ hc

variable {app : Option RawUuid}

theorem cut_printable : ∀ c ∈ cut app, isControl c = false := by
  intro c hc
  unfold cut separator appText at hc
  simp only [List.mem_cons, List.mem_append] at hc
  have hlabel : ∀ c ∈ "application_id=".toList, isControl c = false := by simp [isControl]
  have hlabel' : ∀ c ∈ "external_user_id=".toList, isControl c = false := by simp [isControl]
  rcases hc with rfl | (hc | hc) | rfl | hc
  · decide
  · exact hlabel c hc
  · cases app with
    | none => exact absurd hc List.not_mem_nil
    | some app => exact uuidText_printable c hc
  · decide
  · exact hlabel' c hc

/-- The parts with other ids in the middle. -/
def recut (p : CredentialAadParts) (tenant : List Char) (app : Option RawUuid) (user : List Char) :
    CredentialAadParts :=
  { p with externalTenantId := idOf tenant, applicationId := app, externalUserId := idOf user }

theorem eq_of_recut (hp : Accepted p)
    (hbound : ∀ q, Accepted q → credentialAad q = credentialAad p → q = p)
    {tenant user : List Char} (hmiddle : tenant ++ (cut app ++ user) = middle p)
    (htenant : Text.byteLen tenant ≤ maxExternalIdLen)
    (huser : Text.byteLen user ≤ maxExternalIdLen) : tenant = p.externalTenantId.getD [] := by
  have hprintable : ∀ c ∈ middle p, isControl c = false := by
    intro c hc
    rcases List.mem_append.mp hc with hc | hc
    · exact (getD_bounds hp.tenant).2 c hc
    · rcases List.mem_append.mp hc with hc | hc
      · exact cut_printable c hc
      · exact (getD_bounds hp.user).2 c hc
  have hq : Accepted (recut p tenant app user) :=
    { credentialType := hp.credentialType
      scopeType := hp.scopeType
      tenant := parse_idOf htenant fun c hc => hprintable c (hmiddle ▸ List.mem_append_left _ hc)
      user := parse_idOf huser fun c hc =>
        hprintable c (hmiddle ▸ List.mem_append_right _ (List.mem_append_right _ hc)) }
  have hread : middle (recut p tenant app user) = middle p := by
    rw [← hmiddle]
    unfold middle recut
    rw [idOf_getD, idOf_getD]
  have heq := hbound _ hq ((credentialAad_eq_iff hq hp).mpr ⟨rfl, rfl, rfl, rfl, hread, rfl⟩)
  rw [← heq]
  exact (idOf_getD tenant).symm

theorem cut_ne_nil : cut app ≠ [] := List.cons_ne_nil _ _

theorem cutOnce_of_injective (hp : Accepted p)
    (hbound : ∀ q, Accepted q → credentialAad q = credentialAad p → q = p) : CutOnce p where
  tenant app left right htenant := by
    by_contra hlong
    have hleft : Text.byteLen left ≤ maxExternalIdLen := by
      have hle := (getD_bounds hp.tenant).1
      rw [htenant, Text.byteLen_append] at hle
      omega
    have hmiddle : left ++ (cut app ++ (right ++ (cut p.applicationId ++ p.externalUserId.getD []))) =
        middle p := by
      rw [middle, htenant]
      simp only [List.append_assoc]
    have hsame := eq_of_recut hp hbound hmiddle hleft (by omega)
    rw [htenant, List.self_eq_append_right] at hsame
    exact cut_ne_nil (List.append_eq_nil_iff.mp hsame).1
  user app left right huser := by
    by_contra hlong
    have hright : Text.byteLen right ≤ maxExternalIdLen := by
      have hle := (getD_bounds hp.user).1
      rw [huser, Text.byteLen_append, Text.byteLen_append] at hle
      omega
    have hmiddle : p.externalTenantId.getD [] ++ (cut p.applicationId ++ left) ++ (cut app ++ right) =
        middle p := by
      rw [middle, huser]
      simp only [List.append_assoc]
    have hsame := eq_of_recut hp hbound hmiddle (by omega) hright
    rw [List.append_right_eq_self] at hsame
    exact cut_ne_nil (List.append_eq_nil_iff.mp hsame).1

theorem injective_of_cutOnce (hp : Accepted p) (h : CutOnce p) :
    ∀ q, Accepted q → credentialAad q = credentialAad p → q = p := by
  intro q hq haad
  obtain ⟨hcredential, hprovider, htype, hscope, hmiddle, hversion⟩ := (credentialAad_eq_iff hq hp).mp haad
  rcases cut_cases distinct_cut hmiddle with ⟨htenant, happ, huser⟩ | ⟨y, htenant, huser⟩ |
      ⟨y, htenant, huser⟩
  · have htenant : q.externalTenantId = p.externalTenantId := by
      rw [eq_idOf hq.tenant, htenant, ← eq_idOf hp.tenant]
    have huser : q.externalUserId = p.externalUserId := by
      rw [eq_idOf hq.user, huser, ← eq_idOf hp.user]
    exact CredentialAadParts.ext hcredential hprovider htype hscope htenant (appText_injective happ) huser hversion
  · have hlong := h.tenant q.applicationId _ y htenant
    have hle := (getD_bounds hq.user).1
    rw [huser] at hle
    exact absurd hle (Nat.not_le_of_gt hlong)
  · have hlong := h.user q.applicationId y _ huser
    have hle := (getD_bounds hq.tenant).1
    rw [htenant] at hle
    exact absurd hle (Nat.not_le_of_gt hlong)

theorem aadBytes_injective (h : aadBytes q = aadBytes p) : credentialAad q = credentialAad p :=
  String.ofList_injective (Keyring.utf8_inj h)

/-- **A credential is bound to its parts** exactly when its ids can be cut nowhere else. -/
theorem bound_iff (hp : Accepted p) : Bound p ↔ CutOnce p := by
  constructor
  · intro h
    exact cutOnce_of_injective hp h.injective
  · intro h
    refine ⟨injective_of_cutOnce hp h, ?_⟩
    intro A made hideal key nonce plaintext honce q hq opened hopen
    unfold decrypt at hopen
    rw [if_neg (by simp [encrypt])] at hopen
    obtain ⟨hmade, -⟩ := (hideal.decrypt_eq_some_iff _ _ _ _ _).mp hopen
    obtain ⟨-, -, haad, hplaintext⟩ := AeadCall.mk.inj (honce _ hmade rfl rfl)
    exact ⟨injective_of_cutOnce hp h q hq (aadBytes_injective haad), hplaintext⟩

theorem cutOnce_of_free (htenant : ';' ∉ p.externalTenantId.getD [])
    (huser : ';' ∉ p.externalUserId.getD []) :
    CutOnce p where
  tenant app left right h := by
    rw [h] at htenant
    exact absurd (List.mem_append_right _ (List.mem_append_left _ List.mem_cons_self)) htenant
  user app left right h := by
    rw [h] at huser
    exact absurd (List.mem_append_right _ (List.mem_append_left _ List.mem_cons_self)) huser

namespace Sample

def someId : RawUuid where
  bytes := List.replicate 16 0xab
  length_bytes := by decide

def userCredential (tenant user : String) : CredentialAadParts where
  credentialId := someId
  providerId := someId
  credentialType := CredentialType.apiKey.toDb.toList
  scopeType := ScopeType.user.toDb.toList
  externalTenantId := some tenant.toList
  applicationId := none
  externalUserId := some user.toList
  encryptionVersion := envelopeVersionV1

theorem accepted_userCredential {tenant user : String}
    (htenant : ExternalTenantId.parse tenant.toList = .ok ())
    (huser : ExternalUserId.parse user.toList = .ok ()) : Accepted (userCredential tenant user) where
  credentialType := ⟨.apiKey, rfl⟩
  scopeType := ⟨.user, rfl⟩
  tenant id hid := by
    cases hid
    exact htenant
  user id hid := by
    cases hid
    exact huser

end Sample

open Sample in
theorem bound_userCredential : Bound (userCredential "acme" "ada") :=
  (bound_iff (accepted_userCredential rfl rfl)).mpr (cutOnce_of_free (by decide) (by decide))

open Sample in
/-- The user `b;…c` of the tenant `a`, and the user `c` of the tenant `a;…b`. -/
theorem not_bound_cutTwice :
    Accepted (userCredential "a" "b;application_id=;external_user_id=c") ∧
      ¬ Bound (userCredential "a" "b;application_id=;external_user_id=c") := by
  have hp : Accepted (userCredential "a" "b;application_id=;external_user_id=c") :=
    accepted_userCredential rfl rfl
  have hq : Accepted (userCredential "a;application_id=;external_user_id=b" "c") :=
    accepted_userCredential rfl rfl
  refine ⟨hp, fun h => ?_⟩
  have hmiddle : middle (userCredential "a;application_id=;external_user_id=b" "c") =
      middle (userCredential "a" "b;application_id=;external_user_id=c") := rfl
  have heq := h.injective _ hq ((credentialAad_eq_iff hq hp).mpr ⟨rfl, rfl, rfl, rfl, hmiddle, rfl⟩)
  have huser := congrArg (fun parts => (parts.externalUserId.getD []).length) heq
  exact absurd huser (by decide)

end Moira.Credential
