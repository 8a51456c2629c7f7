import Moira.Identity.Checks
import Moira.Lib.Fallible

/-!
# Invariants of the console's configuration

Two rules tie a provider row to the trusted issuers: an issuer that a provider is bound to must not
map a scopes claim, and a provider must not carry the issuer string of an active issuer it is not
bound to. Only the provider side checks them.

- `consoleStep_cases` — what a call that succeeds has written, and what it has checked
- **`consoleIssuers_do_not_assert_scopes`** — the first rule, in every sequence in which no patch
  maps a scopes claim on an issuer that a live provider is bound to
- **`providers_do_not_shadow`** — the second rule, in every sequence in which no issuer becomes
  active while a live provider that is not bound to it carries its string
-/

namespace Moira.Identity

open Transition (runFrom Meets)

variable {lib : Libraries} {t t' : Tables} {move : ConsoleMove} {request : ConsoleRequest}

/-! ## Writes -/

variable {ρ : Type}

variable {key : ρ → Uuid}

theorem inserted_eq_ok {violation : AppError} {rows : List ρ} {row : ρ} {c : Change ρ}
    (h : inserted key violation rows row = .ok c) :
    key row ∉ rows.map key ∧ c = { rows := [row], result := row } := by
  unfold inserted at h
  split at h
  · cases h
  · next hnew =>
    refine ⟨?_, (Except.ok.inj h).symm⟩
    simpa using hnew

variable {row : AuthProviderRow}

theorem checkedProvider_eq_ok {c : Change AuthProviderRow} (h : checkedProvider row = .ok c) :
    c = { rows := [row], result := row } := by
  unfold checkedProvider at h
  split at h
  · exact (Except.ok.inj h).symm
  · cases h

variable {rows : List AuthProviderRow} {id : Uuid}

theorem lockProvider_eq_ok {version : Int} {current : AuthProviderRow}
    (h : lockProvider rows id version = .ok current) :
    rows.find? (fun row => row.id = id && row.isLive) = some current := by
  unfold lockProvider at h
  split at h
  · cases h
  · next row hfound =>
    split at h
    · cases h
    · exact Except.ok.inj h ▸ hfound

theorem lockIssuer_eq_ok {rows : List TrustedJwtIssuerRow} {version : Int}
    {current : TrustedJwtIssuerRow} (h : lockIssuer rows id version = .ok current) :
    current ∈ rows ∧ current.id = id ∧ current.isLive = true := by
  unfold lockIssuer at h
  split at h
  · cases h
  · next row hfound =>
    split at h
    · cases h
    · obtain rfl := Except.ok.inj h
      have hspec := List.find?_some hfound
      simp only [Bool.and_eq_true, decide_eq_true_eq] at hspec
      exact ⟨List.mem_of_find?_eq_some hfound, hspec⟩

/-- The rows with one version put in the place of its row, or added. -/
structure Upserted {ρ : Type} (key : ρ → Uuid) (rows rows' : List ρ) (v : ρ) : Prop where
  keys : (rows'.map key).Nodup
  mem : ∀ u, u ∈ rows' ↔ u = v ∨ (u ∈ rows ∧ key u ≠ key v)

theorem sound_closed {rows : List ρ} (hkeys : (rows.map key).Nodup) :
    Store.Sound key ({ rows } : Store Nat Uuid ρ) where
  keys := hkeys
  support _ _ := rfl
  exclusive _ _ _ hk _ := absurd hk List.not_mem_nil
  locked _ _ hv _ := absurd hv List.not_mem_nil
  distinct _ := List.nodup_nil
  disjoint _ _ _ _ hv := absurd hv List.not_mem_nil

theorem writeRows_single {pass : Store Nat Uuid ρ → Nat → ρ → Bool} {rows rows' : List ρ} {v : ρ}
    (hkeys : (rows.map key).Nodup)
    (h : writeRows key pass rows (.ok { rows := [v], result := v }) = some rows') :
    Upserted key rows rows' v := by
  obtain ⟨S, hput, rfl⟩ := Option.map_eq_some_iff.mp h
  have hsound := sound_closed hkeys
  refine ⟨(Store.sound_putAll hsound hput).nodup_visible 0, fun u => ?_⟩
  rw [Store.mem_visible_putAll hsound (by simp) hput, Store.visible_of_no_writes rfl]
  simp

theorem writeProviders_eq_some {change : Except AppError (Change AuthProviderRow)}
    (h : t.writeProviders change = some t') :
    ∃ c rows, change = .ok c ∧ t' = { t with providers := rows } ∧
      writeRows (·.id) passesProviderIndexes t.providers (.ok c) = some rows := by
  obtain ⟨rows, hrows, rfl⟩ := Option.map_eq_some_iff.mp h
  cases change with
  | error err => cases hrows
  | ok c => exact ⟨c, rows, rfl, rfl, hrows⟩

theorem writeIssuers_eq_some {change : Except AppError (Change TrustedJwtIssuerRow)}
    (h : t.writeIssuers change = some t') :
    ∃ c rows, change = .ok c ∧ t' = { t with issuers := rows } ∧
      writeRows (·.id) passesIssuerIndexes t.issuers (.ok c) = some rows := by
  obtain ⟨rows, hrows, rfl⟩ := Option.map_eq_some_iff.mp h
  cases change with
  | error err => cases hrows
  | ok c => exact ⟨c, rows, rfl, rfl, hrows⟩

/-! ## Checks -/

/-- The trusted issuer is registered and maps no scopes claim. -/
def AssertsNoScopes (t : Tables) (id : Uuid) : Prop :=
  (∃ row ∈ t.issuers, row.id = id) ∧ ∀ row ∈ t.issuers, row.id = id → row.scopesClaim = none

/-- No active issuer has this string, but the one that is bound. -/
def Unshadowing (t : Tables) (issuer : Option String) (binding : Option Uuid) : Prop :=
  ∀ row ∈ t.issuers, row.isActive = true → issuer = some row.issuer → binding = some row.id

/-- Primary keys. -/
structure Keyed (t : Tables) : Prop where
  issuers : (t.issuers.map (·.id)).Nodup
  providers : (t.providers.map (·.id)).Nodup

variable {jwks : String → Except AppError Unit}

theorem rejectSelfAsserting_eq_ok (hkeys : Keyed t) {binding : Option Uuid}
    (h : rejectSelfAssertingConsoleIssuer (tablesPool t jwks) binding = .ok ())
    (hid : binding = some id) : AssertsNoScopes t id := by
  subst hid
  simp only [rejectSelfAssertingConsoleIssuer] at h
  obtain ⟨claim, hclaim, h⟩ := Fallible.bind_eq_ok.mp h
  have hclaim : claim = (t.issuers.find? fun row => row.id = id && row.isActive).map (·.scopesClaim) :=
    (Except.ok.inj hclaim).symm
  cases hfound : t.issuers.find? fun row => row.id = id && row.isActive with
  | none =>
    rw [hfound] at hclaim
    subst hclaim
    cases h
  | some row =>
    rw [hfound] at hclaim
    subst hclaim
    have hmem := List.mem_of_find?_eq_some hfound
    have hrow : row.id = id := by
      have hspec := List.find?_some hfound
      simp only [Bool.and_eq_true, decide_eq_true_eq] at hspec
      exact hspec.1
    refine ⟨⟨row, hmem, hrow⟩, fun other hother hkey => ?_⟩
    obtain rfl : other = row :=
      List.inj_on_of_nodup_map hkeys.issuers hother hmem (hkey.trans hrow.symm)
    cases hscopes : other.scopesClaim with
    | none => rfl
    | some scopes =>
      simp only [hscopes, Option.map_some] at h
      cases h

variable {issuer : Option String}

theorem rejectShadowing_eq_ok {binding : Option Uuid}
    (h : rejectIssuerShadowingATrustedIssuer (tablesPool t jwks) issuer binding = .ok ()) :
    Unshadowing t issuer binding := by
  intro row hrow hactive hissuer
  subst hissuer
  simp only [rejectIssuerShadowingATrustedIssuer] at h
  obtain ⟨colliding, hcolliding, h⟩ := Fallible.bind_eq_ok.mp h
  have hnone : colliding = [] := by
    by_contra hne
    rw [if_neg (by simpa using hne)] at h
    cases h
  have hempty : (t.issuers.filter fun other =>
      other.issuer = row.issuer && other.isActive && Query.notExcluded binding other.id) = [] := by
    have hmap := (Except.ok.inj hcolliding).trans hnone
    exact List.map_eq_nil_iff.mp hmap
  -- the row itself is not among the colliding ones, so it is the one that was excluded
  have hexcluded := (List.filter_eq_nil_iff.mp hempty) row hrow
  cases binding with
  | none => simp [hactive, Query.notExcluded] at hexcluded
  | some id =>
    simp only [decide_true, hactive, Query.notExcluded, Option.all_some, Bool.true_and,
      decide_eq_true_eq, ne_eq, not_not] at hexcluded
    rw [hexcluded]

theorem mem_of_singlePolicy {policies : List GoverningAuthPolicy} {policy : GoverningAuthPolicy}
    (h : singlePolicy policies = .ok (some policy)) : policy ∈ policies := by
  match policies, h with
  | [only], h =>
    obtain rfl : only = policy := Option.some.inj (Except.ok.inj h)
    exact List.mem_cons_self

theorem getProvider_eq_ok (h : getProvider (tablesPool t jwks) id = .ok row) :
    t.providers.find? (fun row => row.id = id && row.isLive) = some row := by
  unfold getProvider at h
  obtain ⟨found, hfound, h⟩ := Fallible.bind_eq_ok.mp h
  have hfound : found = t.providers.find? fun row => row.id = id && row.isLive :=
    (Except.ok.inj hfound).symm
  cases found with
  | none => cases h
  | some other =>
    obtain rfl : other = row := Except.ok.inj h
    exact hfound.symm

variable {actor : Actor}

theorem createProviderChecks_eq_ok {body : AuthProviderCreateRequest}
    (h : createProviderChecks (tablesPool t jwks) lib actor issuer body = .ok ()) :
    rejectSelfAssertingConsoleIssuer (tablesPool t jwks) body.trustedJwtIssuerId = .ok () ∧
      rejectIssuerShadowingATrustedIssuer (tablesPool t jwks) body.issuer body.trustedJwtIssuerId =
        .ok () := by
  simp only [createProviderChecks, Fallible.bind_eq_ok] at h
  obtain ⟨-, -, -, -, -, -, -, -, -, -, -, -, ⟨⟩, hself, ⟨⟩, hshadow, -⟩ := h
  exact ⟨hself, hshadow⟩

theorem patchProviderChecks_eq_ok {body : AuthProviderPatchRequest}
    (h : patchProviderChecks (tablesPool t jwks) lib actor issuer id body = .ok ()) :
    rejectSelfAssertingConsoleIssuer (tablesPool t jwks) body.trustedJwtIssuerId = .ok () ∧
      ((body.issuer = none ∧ body.trustedJwtIssuerId = none) ∨
        ∃ current, t.providers.find? (fun row => row.id = id && row.isLive) = some current ∧
          Unshadowing t (body.issuer <|> current.issuer)
            (body.trustedJwtIssuerId <|> current.trustedJwtIssuerId)) := by
  simp only [patchProviderChecks, Fallible.bind_eq_ok] at h
  obtain ⟨-, -, -, -, -, -, -, -, -, -, ⟨⟩, hself, h⟩ := h
  refine ⟨hself, ?_⟩
  by_cases htouches : body.issuer.isSome || body.trustedJwtIssuerId.isSome ||
      decide (body.enabled = some true)
  · rw [if_pos htouches] at h
    obtain ⟨current, hcurrent, h⟩ := Fallible.bind_eq_ok.mp h
    obtain ⟨⟨⟩, hshadow, -⟩ := Fallible.bind_eq_ok.mp h
    exact .inr ⟨current, getProvider_eq_ok hcurrent, rejectShadowing_eq_ok hshadow⟩
  · left
    simp only [Bool.or_eq_true, not_or, Option.not_isSome_iff_eq_none] at htouches
    exact htouches.1

/-! ## What a call does -/

/-- A provider version is checked, or it keeps what a live row had. -/
structure ProviderWritten (t : Tables) (v : AuthProviderRow) : Prop where
  binding : v.isLive = true → (∀ id, v.trustedJwtIssuerId = some id → AssertsNoScopes t id) ∨
    ∃ row ∈ t.providers, row.isLive = true ∧ row.trustedJwtIssuerId = v.trustedJwtIssuerId
  issuer : v.isLive = true → Unshadowing t v.issuer v.trustedJwtIssuerId ∨
    ∃ row ∈ t.providers, row.isLive = true ∧ row.issuer = v.issuer ∧
      row.trustedJwtIssuerId = v.trustedJwtIssuerId

/-- An issuer version, and the call that has written it. -/
inductive IssuerWritten (t : Tables) : ConsoleCall → TrustedJwtIssuerRow → Prop
  | created {actor : Actor} {id : Uuid} {body : TrustedJwtIssuerCreateRequest}
      {row : TrustedJwtIssuerRow} (hid : row.id = id) (hissuer : row.issuer = body.issuer)
      (hnew : id ∉ t.issuers.map (·.id)) : IssuerWritten t (.createIssuer actor id body) row
  | patched {actor : Actor} {version : Int} {body : TrustedJwtIssuerPatchRequest}
      {current : TrustedJwtIssuerRow} (hmem : current ∈ t.issuers) :
      IssuerWritten t (.patchIssuer actor current.id version body) (body.applyTo current)
  | status {actor : Actor} {version : Int} {enabled : Bool} {current : TrustedJwtIssuerRow}
      (hmem : current ∈ t.issuers) :
      IssuerWritten t (.setIssuerEnabled actor current.id version enabled)
        { current with
          status := if enabled then .active else .disabled, version := current.version + 1 }
  | deleted {actor : Actor} {version : Int} {now : Nat} {current : TrustedJwtIssuerRow}
      (hmem : current ∈ t.issuers) :
      IssuerWritten t (.deleteIssuer actor current.id version)
        { current with status := .deleted, deletedAt := some now, version := current.version + 1 }

theorem mem_of_find (h : rows.find? (fun row => row.id = id && row.isLive) = some row) :
    row ∈ rows ∧ row.isLive = true := by
  have hspec := List.find?_some h
  simp only [Bool.and_eq_true, decide_eq_true_eq] at hspec
  exact ⟨List.mem_of_find?_eq_some h, hspec.2⟩

theorem providerWritten_of_same {v : AuthProviderRow} (hmem : row ∈ t.providers)
    (hlive : row.isLive = true) (hissuer : row.issuer = v.issuer)
    (hbinding : row.trustedJwtIssuerId = v.trustedJwtIssuerId) : ProviderWritten t v where
  binding _ := .inr ⟨row, hmem, hlive, hbinding⟩
  issuer _ := .inr ⟨row, hmem, hlive, hissuer, hbinding⟩

theorem createProvider_eq_ok {body : AuthProviderCreateRequest} {c : Change AuthProviderRow}
    (h : createProvider rows id body = .ok c) :
    c.rows = [c.result] ∧ c.result.issuer = body.issuer ∧
      c.result.trustedJwtIssuerId = body.trustedJwtIssuerId := by
  obtain ⟨checked, hchecked, hinserted⟩ := Fallible.bind_eq_ok.mp h
  obtain rfl := checkedProvider_eq_ok hchecked
  obtain ⟨-, rfl⟩ := inserted_eq_ok hinserted
  exact ⟨rfl, rfl, rfl⟩

theorem patchProviderChecks_written (hkeys : Keyed t) {body : AuthProviderPatchRequest}
    {current : AuthProviderRow}
    (h : patchProviderChecks (tablesPool t jwks) lib actor issuer id body = .ok ())
    (hcurrent : t.providers.find? (fun row => row.id = id && row.isLive) = some current) :
    ProviderWritten t (body.applyTo current) := by
  obtain ⟨hself, hshadow⟩ := patchProviderChecks_eq_ok h
  obtain ⟨hmem, hlive⟩ := mem_of_find hcurrent
  constructor
  · intro _
    cases hbody : body.trustedJwtIssuerId with
    | none =>
      right
      exact ⟨current, hmem, hlive, by simp [AuthProviderPatchRequest.applyTo, hbody]⟩
    | some id =>
      left
      intro id' hid'
      obtain rfl : id = id' := by simpa [AuthProviderPatchRequest.applyTo, hbody] using hid'
      exact rejectSelfAsserting_eq_ok hkeys hself hbody
  · intro _
    rcases hshadow with ⟨hissuer, hbinding⟩ | ⟨row, hrow, hshadow⟩
    · right
      exact ⟨current, hmem, hlive, by simp [AuthProviderPatchRequest.applyTo, hissuer],
        by simp [AuthProviderPatchRequest.applyTo, hbinding]⟩
    · left
      obtain rfl : current = row := Option.some.inj (hcurrent.symm.trans hrow)
      exact hshadow

theorem write_provider (hkeys : Keyed t) {change : Except AppError (Change AuthProviderRow)}
    (h : t.writeProviders change = some t')
    (hchange : ∀ c, change = .ok c → c.rows = [c.result] ∧ ProviderWritten t c.result) :
    ∃ v, t'.issuers = t.issuers ∧ Upserted (·.id) t.providers t'.providers v ∧
      ProviderWritten t v := by
  obtain ⟨c, rows, hc, rfl, hrows⟩ := writeProviders_eq_some h
  obtain ⟨hsingle, hwritten⟩ := hchange c hc
  obtain ⟨versions, result⟩ := c
  obtain rfl : versions = [result] := hsingle
  exact ⟨result, rfl, writeRows_single hkeys.providers hrows, hwritten⟩

theorem write_issuer (hkeys : Keyed t) {change : Except AppError (Change TrustedJwtIssuerRow)}
    {call : ConsoleCall} (h : t.writeIssuers change = some t')
    (hchange : ∀ c, change = .ok c → c.rows = [c.result] ∧ IssuerWritten t call c.result) :
    ∃ v, t'.providers = t.providers ∧ Upserted (·.id) t.issuers t'.issuers v ∧
      IssuerWritten t call v := by
  obtain ⟨c, rows, hc, rfl, hrows⟩ := writeIssuers_eq_some h
  obtain ⟨hsingle, hwritten⟩ := hchange c hc
  obtain ⟨versions, result⟩ := c
  obtain rfl : versions = [result] := hsingle
  exact ⟨result, rfl, writeRows_single hkeys.issuers hrows, hwritten⟩

/-- **What a call has written.** -/
theorem run_cases (hkeys : Keyed t) (h : request.run lib t = some t') :
    (∃ v, t'.issuers = t.issuers ∧ Upserted (·.id) t.providers t'.providers v ∧
      ProviderWritten t v) ∨
    (∃ v, t'.providers = t.providers ∧ Upserted (·.id) t.issuers t'.issuers v ∧
      IssuerWritten t request.call v) := by
  unfold ConsoleRequest.run at h
  split at h
  · cases h
  next hchecks =>
  obtain ⟨call, now, jwks⟩ := request
  unfold ConsoleRequest.checks at hchecks
  unfold ConsoleRequest.write at h
  cases call with
  | createProvider actor issuer id body =>
    left
    refine write_provider hkeys h fun c hc => ?_
    obtain ⟨hself, hshadow⟩ := createProviderChecks_eq_ok hchecks
    obtain ⟨hsingle, hissuer, hbinding⟩ := createProvider_eq_ok hc
    refine ⟨hsingle, fun _ => .inl fun id hid => ?_, fun _ => .inl ?_⟩
    · exact rejectSelfAsserting_eq_ok hkeys hself (hbinding.symm.trans hid)
    · rw [hissuer, hbinding]
      exact rejectShadowing_eq_ok hshadow
  | patchProvider actor issuer id version body =>
    left
    refine write_provider hkeys h fun c hc => ?_
    obtain ⟨current, hcurrent, hc⟩ := Fallible.bind_eq_ok.mp hc
    obtain rfl := checkedProvider_eq_ok hc
    exact ⟨rfl, patchProviderChecks_written hkeys hchecks (lockProvider_eq_ok hcurrent)⟩
  | setProviderEnabled actor issuer id version enabled =>
    left
    refine write_provider hkeys h fun c hc => ?_
    obtain ⟨current, hcurrent, hc⟩ := Fallible.bind_eq_ok.mp hc
    obtain rfl := checkedProvider_eq_ok hc
    obtain ⟨hmem, hlive⟩ := mem_of_find (lockProvider_eq_ok hcurrent)
    exact ⟨rfl, providerWritten_of_same hmem hlive rfl rfl⟩
  | deleteProvider actor issuer id version =>
    left
    refine write_provider hkeys h fun c hc => ?_
    obtain ⟨current, hcurrent, hc⟩ := Fallible.bind_eq_ok.mp hc
    obtain rfl := checkedProvider_eq_ok hc
    obtain ⟨hmem, hlive⟩ := mem_of_find (lockProvider_eq_ok hcurrent)
    exact ⟨rfl, providerWritten_of_same hmem hlive rfl rfl⟩
  | createIssuer actor id body =>
    right
    refine write_issuer hkeys h fun c hc => ?_
    obtain ⟨hnew, rfl⟩ := inserted_eq_ok hc
    exact ⟨rfl, .created rfl rfl hnew⟩
  | patchIssuer actor id version body =>
    right
    refine write_issuer hkeys h fun c hc => ?_
    obtain ⟨current, hcurrent, hchange⟩ := Fallible.bind_eq_ok.mp hc
    obtain ⟨hmem, rfl, -⟩ := lockIssuer_eq_ok hcurrent
    obtain rfl := Except.ok.inj hchange
    exact ⟨rfl, .patched hmem⟩
  | setIssuerEnabled actor id version enabled =>
    right
    refine write_issuer hkeys h fun c hc => ?_
    obtain ⟨current, hcurrent, hchange⟩ := Fallible.bind_eq_ok.mp hc
    obtain ⟨hmem, rfl, -⟩ := lockIssuer_eq_ok hcurrent
    obtain rfl := Except.ok.inj hchange
    exact ⟨rfl, .status hmem⟩
  | deleteIssuer actor id version =>
    right
    refine write_issuer hkeys h fun c hc => ?_
    obtain ⟨current, hcurrent, hchange⟩ := Fallible.bind_eq_ok.mp hc
    obtain ⟨hmem, rfl, -⟩ := lockIssuer_eq_ok hcurrent
    obtain rfl := Except.ok.inj hchange
    exact ⟨rfl, .deleted hmem⟩

theorem keyed_run (hkeys : Keyed t) (h : request.run lib t = some t') : Keyed t' := by
  rcases run_cases hkeys h with ⟨v, hissuers, hup, -⟩ | ⟨v, hproviders, hup, -⟩
  · exact ⟨hissuers ▸ hkeys.issuers, hup.keys⟩
  · exact ⟨hup.keys, hproviders ▸ hkeys.providers⟩

/-! ## Scopes -/

/-- Every live provider that is bound is bound to an issuer that maps no scopes claim. -/
def ConsoleIssuersAssertNoScopes (t : Tables) : Prop :=
  ∀ row ∈ t.providers, row.isLive = true → ∀ id, row.trustedJwtIssuerId = some id →
    AssertsNoScopes t id

/-- The issuer on which the call maps a scopes claim. -/
def ConsoleCall.mapsScopesOn : ConsoleCall → Option Uuid
  | .patchIssuer _ id _ body => if body.scopesClaim.isSome then some id else none
  | _ => none

def ConsoleMove.mapsScopesOn : ConsoleMove → Option Uuid
  | .call request => request.call.mapsScopesOn
  | .grants _ => none

/-- The move does not map a scopes claim on an issuer that a live provider is bound to. -/
def MapsNoConsoleScopes (t : Tables) (move : ConsoleMove) : Prop :=
  ∀ id ∈ move.mapsScopesOn, ∀ row ∈ t.providers, row.isLive = true →
    row.trustedJwtIssuerId ≠ some id

instance (t : Tables) (move : ConsoleMove) : Decidable (MapsNoConsoleScopes t move) :=
  inferInstanceAs (Decidable (∀ id ∈ move.mapsScopesOn, ∀ row ∈ t.providers, _))

theorem assertsNoScopes_upsert {v : TrustedJwtIssuerRow}
    (hup : Upserted (·.id) t.issuers t'.issuers v) (h : AssertsNoScopes t id)
    (hv : v.id = id → v.scopesClaim = none) : AssertsNoScopes t' id := by
  obtain ⟨⟨row, hrow, hid⟩, hall⟩ := h
  constructor
  · by_cases hsame : row.id = v.id
    · exact ⟨v, (hup.mem v).mpr (.inl rfl), hsame.symm.trans hid⟩
    · exact ⟨row, (hup.mem row).mpr (.inr ⟨hrow, hsame⟩), hid⟩
  · intro other hother hkey
    rcases (hup.mem other).mp hother with rfl | ⟨hother, -⟩
    · exact hv hkey
    · exact hall other hother hkey

theorem assertsNoScopes_run (hkeys : Keyed t) (h : ConsoleIssuersAssertNoScopes t)
    (hguard : MapsNoConsoleScopes t (.call request)) (hrun : request.run lib t = some t') :
    ConsoleIssuersAssertNoScopes t' := by
  intro row hrow hlive id hid
  rcases run_cases hkeys hrun with ⟨v, hissuers, hup, hwritten⟩ | ⟨v, hproviders, hup, hwritten⟩
  · -- the issuers are as they were; the new row is checked or keeps a binding
    suffices AssertsNoScopes t id by
      unfold AssertsNoScopes at this ⊢
      rwa [hissuers]
    rcases (hup.mem row).mp hrow with rfl | ⟨hrow, -⟩
    · rcases hwritten.binding hlive with hchecked | ⟨old, hold, holdLive, hsame⟩
      · exact hchecked id hid
      · exact h old hold holdLive id (hsame.trans hid)
    · exact h row hrow hlive id hid
  · rw [hproviders] at hrow
    have hbefore := h row hrow hlive id hid
    refine assertsNoScopes_upsert hup hbefore fun hv => ?_
    obtain ⟨call, now, jwks⟩ := request
    cases hwritten with
    | created hnewId _ hnew =>
      obtain ⟨other, hother, hotherId⟩ := hbefore.1
      exact absurd (List.mem_map.mpr ⟨other, hother, hotherId.trans (hv.symm.trans hnewId)⟩) hnew
    | @patched actor version body current hmem =>
      have hcurrent : current.scopesClaim = none := hbefore.2 current hmem hv
      have hbody : body.scopesClaim = none := by
        by_contra hsome
        have hmaps : current.id ∈ ConsoleMove.mapsScopesOn
            (.call ⟨.patchIssuer actor current.id version body, now, jwks⟩) := by
          simp [ConsoleMove.mapsScopesOn, ConsoleCall.mapsScopesOn,
            Option.isSome_iff_ne_none.mpr hsome]
        refine hguard current.id hmaps row hrow hlive ?_
        rw [hid]
        exact congrArg some hv.symm
      simp [TrustedJwtIssuerPatchRequest.applyTo, hcurrent, hbody]
    | @status actor version enabled current hmem => exact hbefore.2 current hmem hv
    | @deleted actor version now current hmem => exact hbefore.2 current hmem hv

/-! ## Shadowing -/

/-- No live provider carries the string of an active issuer that it is not bound to. -/
def ProvidersDoNotShadow (t : Tables) : Prop :=
  ∀ row ∈ t.providers, row.isLive = true → Unshadowing t row.issuer row.trustedJwtIssuerId

/-- The issuers that the call makes active, with their strings. -/
def ConsoleCall.activates (t : Tables) : ConsoleCall → List (Uuid × String)
  | .createIssuer _ id body => [(id, body.issuer)]
  | .setIssuerEnabled _ id _ true =>
    (t.issuers.filter fun row => row.id = id).map fun row => (row.id, row.issuer)
  | _ => []

def ConsoleMove.activates (t : Tables) : ConsoleMove → List (Uuid × String)
  | .call request => request.call.activates t
  | .grants _ => []

/-- No issuer becomes active whose string a live provider carries that is not bound to it. -/
def ActivatesNoShadowed (t : Tables) (move : ConsoleMove) : Prop :=
  ∀ issuer ∈ move.activates t, ∀ row ∈ t.providers, row.isLive = true →
    row.issuer = some issuer.2 → row.trustedJwtIssuerId = some issuer.1

instance (t : Tables) (move : ConsoleMove) : Decidable (ActivatesNoShadowed t move) :=
  inferInstanceAs (Decidable (∀ issuer ∈ move.activates t, ∀ row ∈ t.providers, _))

theorem doNotShadow_run (hkeys : Keyed t) (h : ProvidersDoNotShadow t)
    (hguard : ActivatesNoShadowed t (.call request)) (hrun : request.run lib t = some t') :
    ProvidersDoNotShadow t' := by
  intro row hrow hlive
  rcases run_cases hkeys hrun with ⟨v, hissuers, hup, hwritten⟩ | ⟨v, hproviders, hup, hwritten⟩
  · suffices Unshadowing t row.issuer row.trustedJwtIssuerId by
      unfold Unshadowing at this ⊢
      rwa [hissuers]
    rcases (hup.mem row).mp hrow with rfl | ⟨hrow, -⟩
    · rcases hwritten.issuer hlive with hchecked | ⟨old, hold, holdLive, hissuer, hbinding⟩
      · exact hchecked
      · rw [← hissuer, ← hbinding]
        exact h old hold holdLive
    · exact h row hrow hlive
  · rw [hproviders] at hrow
    intro issuer hissuer hactive hstring
    rcases (hup.mem issuer).mp hissuer with rfl | ⟨hissuer, -⟩
    · obtain ⟨call, now, jwks⟩ := request
      cases hwritten with
      | @created actor id body issuer hid hbody _ =>
        rw [hid]
        exact hguard (id, body.issuer) List.mem_cons_self row hrow hlive (hbody ▸ hstring)
      | @patched actor version body current hmem =>
        exact h row hrow hlive current hmem hactive hstring
      | @status actor version enabled current hmem =>
        cases enabled with
        | true =>
          refine hguard (current.id, current.issuer) ?_ row hrow hlive hstring
          exact List.mem_map.mpr ⟨current, List.mem_filter.mpr ⟨hmem, by simp⟩, rfl⟩
        | false => simp [TrustedJwtIssuerRow.isActive] at hactive
      | deleted hmem => simp [TrustedJwtIssuerRow.isActive] at hactive
    · exact h row hrow hlive issuer hissuer hactive hstring

theorem bound_of_admissionPolicy (h : ProvidersDoNotShadow t) {issuer : TrustedJwtIssuerRow}
    (hissuer : issuer ∈ t.issuers) (hactive : issuer.isActive = true) {policy : GoverningAuthPolicy}
    (hpolicy : admissionPolicy (tablesPool t jwks) issuer.issuer issuer.id = .ok (some policy)) :
    ∃ row ∈ t.providers, row.isEnabled = true ∧ row.trustedJwtIssuerId = some issuer.id ∧
      row.policy = policy := by
  unfold admissionPolicy at hpolicy
  obtain ⟨bound, hbound, hpolicy⟩ := Fallible.bind_eq_ok.mp hpolicy
  obtain ⟨found, hfound, hpolicy⟩ := Fallible.bind_eq_ok.mp hpolicy
  obtain rfl := Except.ok.inj hbound
  cases found with
  | some first =>
    obtain rfl : first = policy := Option.some.inj (Except.ok.inj hpolicy)
    have hmem : first ∈ (t.providers.filter fun row =>
        row.isEnabled && row.trustedJwtIssuerId = some issuer.id).map (·.policy) := by
      exact mem_of_singlePolicy hfound
    obtain ⟨row, hrow, rfl⟩ := List.mem_map.mp hmem
    simp only [List.mem_filter, Bool.and_eq_true, decide_eq_true_eq] at hrow
    exact ⟨row, hrow.1, hrow.2.1, hrow.2.2, rfl⟩
  | none =>
    -- a second-stage row would carry the string of an issuer that it is not bound to
    obtain ⟨unbound, hunbound, hpolicy⟩ := Fallible.bind_eq_ok.mp hpolicy
    obtain rfl := Except.ok.inj hunbound
    have hmem := mem_of_singlePolicy hpolicy
    obtain ⟨row, hrow, rfl⟩ := List.mem_map.mp hmem
    simp only [List.mem_filter, Bool.and_eq_true, decide_eq_true_eq] at hrow
    obtain ⟨hrow, ⟨henabled, hstring⟩, hnone⟩ := hrow
    have hlive : row.isLive = true := by
      simp only [AuthProviderRow.isEnabled, Bool.and_eq_true] at henabled
      exact henabled.1.1
    have hbinding := h row hrow hlive issuer hissuer hactive hstring
    rw [hbinding] at hnone
    cases hnone

/-! ## Runs -/

theorem keyed_empty : Keyed {} :=
  ⟨List.nodup_nil, List.nodup_nil⟩

theorem scopes_step (h : Keyed t ∧ ConsoleIssuersAssertNoScopes t)
    (hguard : MapsNoConsoleScopes t move) (hstep : consoleStep lib t move = some t') :
    Keyed t' ∧ ConsoleIssuersAssertNoScopes t' := by
  cases move with
  | call request => exact ⟨keyed_run h.1 hstep, assertsNoScopes_run h.1 h.2 hguard hstep⟩
  | grants grants =>
    obtain rfl := Option.some.inj hstep
    exact ⟨⟨h.1.issuers, h.1.providers⟩, h.2⟩

theorem shadow_step (h : Keyed t ∧ ProvidersDoNotShadow t) (hguard : ActivatesNoShadowed t move)
    (hstep : consoleStep lib t move = some t') : Keyed t' ∧ ProvidersDoNotShadow t' := by
  cases move with
  | call request => exact ⟨keyed_run h.1 hstep, doNotShadow_run h.1 h.2 hguard hstep⟩
  | grants grants =>
    obtain rfl := Option.some.inj hstep
    exact ⟨⟨h.1.issuers, h.1.providers⟩, h.2⟩

/--
**Console issuers assert no scopes**, in every sequence of calls in which no patch maps a scopes
claim on an issuer that a live provider is bound to.
-/
theorem consoleIssuers_do_not_assert_scopes {moves : List ConsoleMove}
    (hrun : runFrom (consoleStep lib) {} moves = some t)
    (hmeets : Meets (consoleStep lib) MapsNoConsoleScopes {} moves) :
    ConsoleIssuersAssertNoScopes t := by
  have hend := Transition.runFrom_guarded (I := fun t => Keyed t ∧ ConsoleIssuersAssertNoScopes t)
    hrun hmeets ⟨keyed_empty, fun row hrow => absurd hrow List.not_mem_nil⟩
    fun _ _ _ h hguard hstep => scopes_step h hguard hstep
  exact hend.2

/--
**No provider shadows a trusted issuer**, in every sequence of calls in which no issuer becomes
active while a live provider that is not bound to it carries its string. The policy that governs an
active issuer is then that of a provider bound to it.
-/
theorem providers_do_not_shadow {moves : List ConsoleMove}
    (hrun : runFrom (consoleStep lib) {} moves = some t)
    (hmeets : Meets (consoleStep lib) ActivatesNoShadowed {} moves) :
    ProvidersDoNotShadow t ∧
      ∀ issuer ∈ t.issuers, issuer.isActive = true → ∀ jwks policy,
        admissionPolicy (tablesPool t jwks) issuer.issuer issuer.id = .ok (some policy) →
        ∃ row ∈ t.providers, row.isEnabled = true ∧ row.trustedJwtIssuerId = some issuer.id ∧
          row.policy = policy := by
  have hend := Transition.runFrom_guarded (I := fun t => Keyed t ∧ ProvidersDoNotShadow t)
    hrun hmeets ⟨keyed_empty, fun row hrow => absurd hrow List.not_mem_nil⟩
    fun _ _ _ h hguard hstep => shadow_step h hguard hstep
  refine ⟨hend.2, fun issuer hissuer hactive jwks policy hpolicy => ?_⟩
  exact bound_of_admissionPolicy hend.2 hissuer hactive hpolicy

/-! ### Samples -/

def consoleLibraries : Libraries where
  isHttpsUrl _ := true
  keyPrefix token := token
  requestJson _ _ := .null
  actorIdentity _ := "operator"
  responseJson _ _ := .null

def operator : Actor where
  actorType := .systemKey
  scopes := ["moira:admin"]

def consoleCall (call : ConsoleCall) : ConsoleMove :=
  .call { call }

/-- An issuer is registered, a provider is bound to it, and the issuer is patched. -/
def patchedIssuer (scopesClaim : Option String) : List ConsoleMove :=
  [consoleCall (.createIssuer operator 1 { issuer := "https://console", jwksUrl := "https://c/jwks" }),
    consoleCall (.createProvider operator none 2
      { method := .googleOauth, displayName := "Google", enabled := true
        issuer := some "https://accounts.google.com", clientId := some "client"
        allowedEmailDomains := ["example.com"], trustedJwtIssuerId := some 1 }),
    consoleCall (.patchIssuer operator 1 1 { subjectClaim := some "oid", scopesClaim })]

/-- The bindings of the providers, and the claims that the issuers map. -/
def boundClaims (t : Tables) : List (Option Uuid) × List (Uuid × Option String) :=
  (t.providers.map (·.trustedJwtIssuerId), t.issuers.map fun row => (row.id, row.scopesClaim))

/-- The patch leaves the claim alone: the run meets the condition. -/
theorem consoleIssuers_do_not_assert_scopes_sample :
    ∃ t, runFrom (consoleStep consoleLibraries) {} (patchedIssuer none) = some t ∧
      boundClaims t = ([some 1], [(1, none)]) ∧ ConsoleIssuersAssertNoScopes t := by
  have hmeets : Meets (consoleStep consoleLibraries) MapsNoConsoleScopes {} (patchedIssuer none) := by
    decide +kernel
  have hrun : (runFrom (consoleStep consoleLibraries) {} (patchedIssuer none)).map boundClaims =
      some ([some 1], [(1, none)]) := by
    decide +kernel
  obtain ⟨t, ht, hbound⟩ := Option.map_eq_some_iff.mp hrun
  exact ⟨t, ht, hbound, consoleIssuers_do_not_assert_scopes ht hmeets⟩

/-- Some live provider is bound to an issuer that maps a scopes claim. -/
def boundToScopes (t : Tables) : Bool :=
  t.providers.any fun row => row.isLive && t.issuers.any fun issuer =>
    row.trustedJwtIssuerId = some issuer.id && issuer.scopesClaim.isSome

theorem not_assertNoScopes_of_bound (h : boundToScopes t = true) :
    ¬ConsoleIssuersAssertNoScopes t := by
  intro hall
  simp only [boundToScopes, List.any_eq_true, Bool.and_eq_true, decide_eq_true_eq] at h
  obtain ⟨row, hrow, hlive, issuer, hissuer, hbound, hscopes⟩ := h
  have hnone := (hall row hrow hlive issuer.id hbound).2 issuer hissuer rfl
  rw [hnone] at hscopes
  cases hscopes

/-- A patch maps a scopes claim on the issuer that the provider is bound to. -/
theorem consoleIssuers_can_assert_scopes :
    ¬∀ moves t, runFrom (consoleStep consoleLibraries) {} moves = some t →
      ConsoleIssuersAssertNoScopes t := by
  intro hall
  have hrun : (runFrom (consoleStep consoleLibraries) {} (patchedIssuer (some "scope"))).map
      boundToScopes = some true := by
    decide +kernel
  obtain ⟨t, ht, hbound⟩ := Option.map_eq_some_iff.mp hrun
  exact not_assertNoScopes_of_bound hbound (hall _ t ht)

/-- A provider that carries the console's string, bound to its issuer. -/
def ownProvider (binding : Option Uuid) : ConsoleMove :=
  consoleCall (.createProvider operator none 2
    { method := .jwks, displayName := "Own keys", enabled := true, issuer := some "https://console"
      jwksUrl := some "https://c/jwks", allowedEmailDomains := ["example.com"]
      trustedJwtIssuerId := binding })

def consoleIssuer : ConsoleMove :=
  consoleCall (.createIssuer operator 1 { issuer := "https://console", jwksUrl := "https://c/jwks" })

/-- The issuer is disabled and enabled again under the provider that is bound to it. -/
def reenabledIssuer : List ConsoleMove :=
  [consoleIssuer, ownProvider (some 1), consoleCall (.setIssuerEnabled operator 1 1 false),
    consoleCall (.setIssuerEnabled operator 1 2 true)]

/-- The policy the console's issuer is governed by. -/
def consolePolicy (t : Tables) : Option GoverningAuthPolicy :=
  match admissionPolicy (tablesPool t fun _ => .ok ()) "https://console" 1 with
  | .ok policy => policy
  | .error _ => none

theorem providers_do_not_shadow_sample :
    ∃ t, runFrom (consoleStep consoleLibraries) {} reenabledIssuer = some t ∧
      consolePolicy t = some { id := 2, allowedEmailDomains := ["example.com"] } ∧
      ProvidersDoNotShadow t := by
  have hmeets : Meets (consoleStep consoleLibraries) ActivatesNoShadowed {} reenabledIssuer := by
    decide +kernel
  have hrun : (runFrom (consoleStep consoleLibraries) {} reenabledIssuer).map consolePolicy =
      some (some { id := 2, allowedEmailDomains := ["example.com"] }) := by
    decide +kernel
  obtain ⟨t, ht, hpolicy⟩ := Option.map_eq_some_iff.mp hrun
  exact ⟨t, ht, hpolicy, (providers_do_not_shadow ht hmeets).1⟩

/-- Some live provider carries the string of an active issuer that it is not bound to. -/
def shadows (t : Tables) : Bool :=
  t.providers.any fun row => row.isLive && t.issuers.any fun issuer =>
    issuer.isActive && row.issuer = some issuer.issuer && row.trustedJwtIssuerId ≠ some issuer.id

theorem not_doNotShadow_of_shadows (h : shadows t = true) : ¬ProvidersDoNotShadow t := by
  intro hall
  simp only [shadows, List.any_eq_true, Bool.and_eq_true, decide_eq_true_eq] at h
  obtain ⟨row, hrow, hlive, issuer, hissuer, ⟨hactive, hstring⟩, hunbound⟩ := h
  exact hunbound (hall row hrow hlive issuer hissuer hactive hstring)

/-- The provider is there before the issuer is registered, and its policy governs the issuer. -/
theorem providers_can_shadow :
    ¬∀ moves t, runFrom (consoleStep consoleLibraries) {} moves = some t →
      ProvidersDoNotShadow t := by
  intro hall
  have hrun : (runFrom (consoleStep consoleLibraries) {} [ownProvider none, consoleIssuer]).map
      (fun t => (shadows t, consolePolicy t)) =
        some (true, some { id := 2, allowedEmailDomains := ["example.com"] }) := by
    decide +kernel
  obtain ⟨t, ht, hshadows⟩ := Option.map_eq_some_iff.mp hrun
  exact not_doNotShadow_of_shadows (congrArg Prod.fst hshadows) (hall _ t ht)

end Moira.Identity
