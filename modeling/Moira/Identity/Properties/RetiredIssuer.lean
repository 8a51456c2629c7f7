import Moira.Identity.Properties.StaleOwner

/-!
# Retired issuers

A claim or a redemption looks for an active issuer before its transaction, a retirement counts the
active grants before its own; neither transaction looks again.

- **`retiring_strands_no_admin`** — the first holds in every run that meets the second
-/

namespace Moira.Identity

open Transition (runFrom)
open Admin (AdminOp AdminCommandRunner)

/-- No active grant is on a trusted issuer that is disabled or deleted. -/
def NoStrandedAdmin (t : Tables) : Prop :=
  ∀ g ∈ t.grants, g.isActive = true → ∀ row ∈ t.issuers, row.id = g.trustedJwtIssuerId →
    row.isActive = true

/-- The transaction has an active grant on the issuer. -/
def Database.grantsOn (db : Database) (j : Nat) (id : Uuid) : Bool :=
  (db.grants.tx j).writes.any fun v => v.isActive && v.trustedJwtIssuerId = id

/-- The transaction has a version of the issuer that is not active. -/
def Database.retires (db : Database) (j : Nat) (id : Uuid) : Bool :=
  (db.issuers.tx j).writes.any fun v => v.id = id && !v.isActive

/-- No grant on an issuer is committed while a call that has counted the issuer's grants is in
flight, and no issuer is retired while a call that has resolved it is. -/
def noOverlap (j : Nat) (w : World) : Bool :=
  (w.others j).all fun i =>
    (w.seen i).counted.all (fun id => !w.db.grantsOn j id) &&
      (w.seen i).resolved.all fun id => !w.db.retires j id

/-! ## Statements on the issuers -/

variable {issuers : List TrustedJwtIssuerRow} {change : Change TrustedJwtIssuerRow}

variable {now : Nat}

theorem issuer_change_cases (s : IssuerStatement) (h : s.change issuers now = .ok change) :
    ∃ v, change.rows = [v] ∧ (v.isActive = true ∨
      (∃ expectedVersion, s = .setStatus v.id expectedVersion false) ∨
      (∃ expectedVersion, s = .softDelete v.id expectedVersion) ∨
      ∃ r ∈ issuers, r.id = v.id ∧ r.isActive = v.isActive) := by
  cases s with
  | create id request =>
    obtain ⟨-, rfl⟩ := inserted_eq_ok h
    exact ⟨_, rfl, .inl rfl⟩
  | patch id expectedVersion request =>
    obtain ⟨current, hlock, hrow⟩ := Fallible.bind_eq_ok.mp h
    obtain ⟨hmem, hid, -⟩ := lockIssuer_eq_ok hlock
    cases hrow
    exact ⟨_, rfl, .inr (.inr (.inr ⟨current, hmem, rfl, rfl⟩))⟩
  | setStatus id expectedVersion enabled =>
    obtain ⟨current, hlock, hrow⟩ := Fallible.bind_eq_ok.mp h
    obtain ⟨-, hid, hlive⟩ := lockIssuer_eq_ok hlock
    cases hrow
    refine ⟨_, rfl, ?_⟩
    cases enabled with
    | true =>
      left
      show (decide (ResourceStatus.active = .active) && current.isLive) = true
      rw [hlive]
      rfl
    | false => exact .inr (.inl ⟨expectedVersion, by rw [hid]⟩)
  | softDelete id expectedVersion =>
    obtain ⟨current, hlock, hrow⟩ := Fallible.bind_eq_ok.mp h
    obtain ⟨-, hid, -⟩ := lockIssuer_eq_ok hlock
    cases hrow
    exact ⟨_, rfl, .inr (.inr (.inl ⟨expectedVersion, by rw [hid]⟩))⟩

/-! ## What justifies a pending version -/

/-- A call that writes an active grant has resolved its issuer, and one that retires an issuer has
counted its grants; or the row was so before. -/
structure Justified (db : Database) (i : Nat) (seen : Seen) : Prop where
  granting : ∀ v ∈ (db.grants.tx i).writes, v.isActive = true →
    seen.resolved = some v.trustedJwtIssuerId ∨ ∃ r ∈ db.grants.rows, r.id = v.id ∧
      r.isActive = true ∧ r.trustedJwtIssuerId = v.trustedJwtIssuerId
  retiring : ∀ v ∈ (db.issuers.tx i).writes, v.isActive = false →
    (seen.counted = some v.id ∧ seen.resolved = none) ∨
      ∃ r ∈ db.issuers.rows, r.id = v.id ∧ r.isActive = false

variable {db db' : Database} {i j : Nat} {seen : Seen}

theorem justified_of_clean (h : db.Clean i) (seen : Seen) : Justified db i seen where
  granting v hv := by
    rw [h.grants] at hv
    exact absurd hv List.not_mem_nil
  retiring v hv := by
    rw [h.issuers] at hv
    exact absurd hv List.not_mem_nil

theorem Justified.congr {seen' : Seen} (h : Justified db i seen) (hresolved : seen'.resolved = seen.resolved)
    (hcounted : seen'.counted = seen.counted) : Justified db i seen' where
  granting := by
    rw [hresolved]
    exact h.granting
  retiring := by
    rw [hresolved, hcounted]
    exact h.retiring

theorem Justified.visible_grant (h : Justified db i seen) (hs : db.grants.Sound (·.id))
    {g : AdminIdentityGrant} (hg : g ∈ db.grants.visible (·.id) i) (hactive : g.isActive = true) :
    seen.resolved = some g.trustedJwtIssuerId ∨ ∃ r ∈ db.grants.rows, r.id = g.id ∧
      r.isActive = true ∧ r.trustedJwtIssuerId = g.trustedJwtIssuerId := by
  rcases hs.mem_visible.mp hg with hg | ⟨hg, -⟩
  · exact h.granting g hg hactive
  · exact .inr ⟨g, hg, rfl, hactive, rfl⟩

theorem Justified.visible_issuer (h : Justified db i seen) (hs : db.issuers.Sound (·.id))
    {row : TrustedJwtIssuerRow} (hrow : row ∈ db.issuers.visible (·.id) i)
    (hretired : row.isActive = false) :
    (seen.counted = some row.id ∧ seen.resolved = none) ∨
      ∃ r ∈ db.issuers.rows, r.id = row.id ∧ r.isActive = false := by
  rcases hs.mem_visible.mp hrow with hrow | ⟨hrow, -⟩
  · exact h.retiring row hrow hretired
  · exact .inr ⟨row, hrow, rfl, hretired⟩

theorem grant_change_cases {grants : List AdminIdentityGrant} {c : Change AdminIdentityGrant}
    (s : GrantStatement) (h : s.change grants now = .ok c) {v : AdminIdentityGrant}
    (hv : v ∈ c.rows) (hactive : v.isActive = true) :
    (∃ insert, s = .insertGrant insert ∧ v.trustedJwtIssuerId = insert.trustedJwtIssuerId) ∨
      ∃ r ∈ grants, r.id = v.id ∧ r.isActive = true ∧ r.trustedJwtIssuerId = v.trustedJwtIssuerId := by
  cases s with
  | insertGrant insert =>
    obtain ⟨-, rfl⟩ := inserted_eq_ok h
    rw [List.mem_singleton] at hv
    subst hv
    exact .inl ⟨insert, rfl, rfl⟩
  | setPrimary id expectedVersion isPrimary =>
    right
    obtain ⟨current, hlocked, hrows⟩ := setPrimary_cases h
    rw [hrows] at hv
    rcases List.mem_append.mp hv with hv | hv
    · split at hv
      · obtain ⟨r, hr, hstatus, -, rfl⟩ := mem_demote hv
        exact ⟨r, hr, rfl, decide_eq_true hstatus, rfl⟩
      · exact absurd hv List.not_mem_nil
    · rw [List.mem_singleton] at hv
      subst hv
      exact ⟨current, hlocked.mem, rfl, decide_eq_true hlocked.active, rfl⟩
  | revokeGrant id =>
    obtain ⟨current, hlocked, hrows⟩ := revokeGrant_cases h
    rw [hrows, List.mem_singleton] at hv
    subst hv
    cases hactive

variable {call : Call} {clock : Nat} {s : Statement} {x : Except AppError s.Result}

theorem justified_executes_self (h : Justified db i seen) (hgrants : db.grants.Sound (·.id))
    (hissuers : db.issuers.Sound (·.id)) (hpermits : Permits call seen s)
    (hexecutes : Executes db i clock now s x db') : Justified db' i seen := by
  cases hexecutes with
  | @grant s row grants hown hwrite =>
    obtain ⟨c, hchange, -, hput⟩ := writeTable_cases hwrite
    refine ⟨fun v hv hactive => ?_, h.retiring⟩
    show seen.resolved = _ ∨ ∃ r ∈ grants.rows, _
    rw [Store.rows_putAll hput]
    rcases Store.mem_writes_putAll hput hv with hv | hv
    · rcases grant_change_cases s hchange hv hactive with ⟨insert, rfl, hid⟩ | ⟨r, hr, hid, hactive', hsame⟩
      · have hmay : MayInsert call seen insert := hpermits.2
        exact .inl (hmay.1.trans (congrArg some hid.symm))
      · refine (h.visible_grant hgrants hr hactive').imp (fun hresolved => ?_) ?_
        · rw [hresolved, hsame]
        · rintro ⟨r', hr', hid', hactive'', hsame'⟩
          exact ⟨r', hr', hid'.trans hid, hactive'', hsame'.trans hsame⟩
    · exact h.granting v hv hactive
  | @issuer s row issuers hwrite =>
    obtain ⟨c, hchange, -, hput⟩ := writeTable_cases hwrite
    refine ⟨h.granting, fun v hv hretired => ?_⟩
    show _ ∨ ∃ r ∈ issuers.rows, _
    rw [Store.rows_putAll hput]
    obtain ⟨v', hrows, hcases⟩ := issuer_change_cases s hchange
    rw [hrows] at hput
    rcases Store.mem_writes_putAll hput hv with hv | hv
    · rw [List.mem_singleton] at hv
      subst hv
      rcases hcases with hactive | ⟨version, rfl⟩ | ⟨version, rfl⟩ | ⟨r, hr, hid, hsame⟩
      · rw [hactive] at hretired
        cases hretired
      · exact .inl hpermits
      · exact .inl hpermits
      · refine (h.visible_issuer hissuers hr (hsame.trans hretired)).imp (fun hcounted => ?_) ?_
        · rwa [hid] at hcounted
        · rintro ⟨r', hr', hid', hretired'⟩
          exact ⟨r', hr', hid'.trans hid, hretired'⟩
    · exact h.retiring v hv hretired
  | refused _ | claims _ | invite _ | provider _ => exact ⟨h.granting, h.retiring⟩
  | claimed => exact h
  | failed => exact h

theorem justified_executes_of_ne (h : Justified db j seen) (hne : j ≠ i)
    (hexecutes : Executes db i clock now s x db') : Justified db' j seen := by
  cases hexecutes with
  | @grant s row grants hown hwrite =>
    obtain ⟨c, -, -, hput⟩ := writeTable_cases hwrite
    refine ⟨?_, h.retiring⟩
    show ∀ v ∈ (grants.tx j).writes, _ → _ ∨ ∃ r ∈ grants.rows, _
    rw [Store.tx_putAll_of_ne hput hne, Store.rows_putAll hput]
    exact h.granting
  | @issuer s row issuers hwrite =>
    obtain ⟨c, -, -, hput⟩ := writeTable_cases hwrite
    refine ⟨h.granting, ?_⟩
    show ∀ v ∈ (issuers.tx j).writes, _ → _ ∨ ∃ r ∈ issuers.rows, _
    rw [Store.tx_putAll_of_ne hput hne, Store.rows_putAll hput]
    exact h.retiring
  | refused _ | claims _ | invite _ | provider _ => exact ⟨h.granting, h.retiring⟩
  | claimed => exact h
  | failed => exact h

theorem justified_rollback (h : Justified db j seen) : Justified (db.rollback i) j seen := by
  by_cases hji : j = i
  · subst hji
    exact justified_of_clean (clean_rollback_self db j) seen
  · refine ⟨?_, ?_⟩
    · show ∀ v ∈ ((db.grants.rollback i).tx j).writes, _ → _
      rw [Store.tx_rollback_of_ne hji]
      exact h.granting
    · show ∀ v ∈ ((db.issuers.rollback i).tx j).writes, _ → _
      rw [Store.tx_rollback_of_ne hji]
      exact h.retiring

theorem justified_commit (h : Justified db j seen) (hgrants : db.grants.Sound (·.id))
    (hissuers : db.issuers.Sound (·.id)) : Justified (db.commit i) j seen := by
  by_cases hji : j = i
  · subst hji
    exact justified_of_clean (clean_commit_self db j) seen
  · refine ⟨fun v hv hactive => ?_, fun v hv hretired => ?_⟩
    · have hv' : v ∈ ((db.grants.rollback i).tx j).writes := hv
      rw [Store.tx_rollback_of_ne hji] at hv'
      refine (h.granting v hv' hactive).imp_right ?_
      rintro ⟨r, hr, hid, hrest⟩
      exact ⟨r, Store.mem_commit_of_written hgrants hji hv' hr hid, hid, hrest⟩
    · have hv' : v ∈ ((db.issuers.rollback i).tx j).writes := hv
      rw [Store.tx_rollback_of_ne hji] at hv'
      refine (h.retiring v hv' hretired).imp_right ?_
      rintro ⟨r, hr, hid, hrest⟩
      exact ⟨r, Store.mem_commit_of_written hissuers hji hv' hr hid, hid, hrest⟩

/-! ## Commits -/

/-- The issuer is active in what is committed. -/
def ActiveIssuer (db : Database) (id : Uuid) : Prop :=
  ∀ row ∈ db.issuers.rows, row.id = id → row.isActive = true

/-- No active grant on the issuer is committed. -/
def UnusedIssuer (db : Database) (id : Uuid) : Prop :=
  ∀ g ∈ db.grants.rows, g.isActive = true → g.trustedJwtIssuerId ≠ id

/-- What a call has shown is still true. -/
structure Shows (db : Database) (seen : Seen) : Prop where
  resolved : ∀ id, seen.resolved = some id → ActiveIssuer db id
  counted : ∀ id, seen.counted = some id → UnusedIssuer db id

/-- **A commit strands no admin** when what its call has shown is still true. -/
theorem noStrandedAdmin_commit (h : NoStrandedAdmin db.tables) (hgrants : db.grants.Sound (·.id))
    (hissuers : db.issuers.Sound (·.id)) (hjustified : Justified db i seen) (hshows : Shows db seen) :
    NoStrandedAdmin (db.commit i).tables := by
  intro g hg hactive row hrow hid
  by_contra hnot
  have hretired : row.isActive = false := Bool.eq_false_iff.mpr hnot
  rcases hjustified.visible_grant hgrants hg hactive with hresolved | ⟨r, hr, -, hactive', hsame⟩ <;>
    rcases hjustified.visible_issuer hissuers hrow hretired with ⟨hcounted, hnone⟩ |
      ⟨r', hr', hid', hretired'⟩
  · -- a call that grants has resolved an issuer, a call that retires has not
    rw [hresolved] at hnone
    cases hnone
  · have hactive'' := hshows.resolved _ hresolved r' hr' (hid'.trans hid)
    rw [hretired'] at hactive''
    cases hactive''
  · exact hshows.counted _ hcounted r hr hactive' (hsame.trans hid.symm)
  · have hactive'' := h r hr hactive' r' hr' (hid'.trans (hid.trans hsame.symm))
    rw [hretired'] at hactive''
    cases hactive''

theorem shows_commit (h : Shows db seen) (hgrants : db.grants.Sound (·.id))
    (hissuers : db.issuers.Sound (·.id))
    (hcounted : ∀ id, seen.counted = some id → db.grantsOn i id = false)
    (hresolved : ∀ id, seen.resolved = some id → db.retires i id = false) :
    Shows (db.commit i) seen where
  resolved id hid row hrow hrowid := by
    rcases hissuers.mem_visible.mp hrow with hrow | ⟨hrow, -⟩
    · have hv := List.any_eq_false.mp (hresolved id hid) row hrow
      simpa [hrowid] using hv
    · exact h.resolved id hid row hrow hrowid
  counted id hid g hg hactive hgid := by
    rcases hgrants.mem_visible.mp hg with hg | ⟨hg, -⟩
    · have hv := List.any_eq_false.mp (hcounted id hid) g hg
      simp [hactive, hgid] at hv
    · exact h.counted id hid g hg hactive hgid

/-! ## The invariant -/

variable {w w' : World} {o : IdentityOp} {y : o.Ans}

theorem shows_record (hresponds : Responds w i o y w') (hissuers : w.db.issuers.Sound (·.id))
    (h : Shows w.db seen) : Shows w.db (seen.record o y) := by
  rcases record_cases hresponds seen with ⟨-, q, heq⟩ | ⟨-, hresolved, hcounted⟩
  · rw [heq]
    rcases recordFetch_cases w.db.tables seen q with ⟨_, _, _, hrecord⟩ |
      ⟨row, hrow, hactive, hrecord⟩ | ⟨id, hunused, hrecord⟩ | ⟨_, _, _, hrecord⟩ <;> rw [hrecord]
    · exact ⟨h.resolved, h.counted⟩
    · refine ⟨fun id hid row' hrow' hid' => ?_, h.counted⟩
      obtain rfl : row.id = id := Option.some.inj hid
      rwa [List.inj_on_of_nodup_map hissuers.keys hrow' hrow hid']
    · refine ⟨h.resolved, fun id' hid => ?_⟩
      obtain rfl : id = id' := Option.some.inj hid
      exact hunused
    · exact ⟨h.resolved, h.counted⟩
  · exact ⟨by rw [hresolved]; exact h.resolved, by rw [hcounted]; exact h.counted⟩

theorem justified_record (hresponds : Responds w i o y w') (hread : IsRead o → db.Clean i)
    (h : Justified db i seen) : Justified db i (seen.record o y) := by
  rcases record_cases hresponds seen with ⟨hisRead, -⟩ | ⟨-, hresolved, hcounted⟩
  · exact justified_of_clean (hread hisRead) _
  · exact h.congr hresolved hcounted

structure IssuersServe (w : World) : Prop where
  owns : Owns w.db
  issuers : w.db.issuers.Sound (·.id)
  accounted : Accounted w
  started : ∀ i, i ∉ w.started → w.seen i = {}
  justified : ∀ i, Justified w.db i (w.seen i)
  /-- What a call has shown is true while it is in flight. -/
  shows : ∀ i, w.inFlight i = true → Shows w.db (w.seen i)
  served : NoStrandedAdmin w.db.tables

theorem shows_see (h : IssuersServe w) (hresponds : Responds w i o y w') {k : Nat}
    (hflight : (w'.see i o y).inFlight k = true) : Shows w.db ((w'.see i o y).seen k) := by
  have hbefore := h.shows k (inFlight_of_see hresponds hflight)
  by_cases hki : k = i
  · subst hki
    rw [see_seen_self, seen_of_responds hresponds]
    exact shows_record hresponds h.issuers hbefore
  · rwa [see_seen_of_ne hki, seen_of_responds hresponds]

theorem justified_see (hresponds : Responds w i o y w') (hread : IsRead o → w'.db.Clean i)
    (h : ∀ k, Justified w'.db k (w.seen k)) (k : Nat) :
    Justified (w'.see i o y).db k ((w'.see i o y).seen k) := by
  show Justified w'.db k _
  by_cases hki : k = i
  · subst hki
    rw [see_seen_self, seen_of_responds hresponds]
    exact justified_record hresponds hread (h k)
  · rw [see_seen_of_ne hki, seen_of_responds hresponds]
    exact h k

theorem shows_see_commit (h : IssuersServe w) (hguard : noOverlap i w = true)
    {answer : Admin.Committed} (hresponds : Responds w i (.command .commit) answer w') (k : Nat)
    (hflight : (w'.see i (.command .commit) answer).inFlight k = true) :
    Shows (w.db.commit i) ((w'.see i (.command .commit) answer).seen k) := by
  have hshows := shows_see h hresponds hflight
  by_cases hki : k = i
  · subst hki
    have hclean := clean_of_inFlight h.accounted hresponds hflight
    refine shows_commit hshows h.owns.sound h.issuers (fun id _ => ?_) fun id _ => ?_
    · unfold Database.grantsOn
      rw [hclean.grants]
      rfl
    · unfold Database.retires
      rw [hclean.issuers]
      rfl
  · have hbefore := inFlight_of_see hresponds hflight
    rw [see_seen_of_ne hki, seen_of_responds hresponds] at hshows ⊢
    by_cases hstarted : k ∈ w.started
    · have hall := List.all_eq_true.mp hguard k (mem_others.mpr ⟨hstarted, hki, hbefore⟩)
      rw [Bool.and_eq_true] at hall
      refine shows_commit hshows h.owns.sound h.issuers (fun id hid => ?_) fun id hid => ?_
      · have hcounted := hall.1
        rw [hid] at hcounted
        simpa using hcounted
      · have hresolved := hall.2
        rw [hid] at hresolved
        simpa using hresolved
    · rw [h.started k hstarted]
      exact ⟨fun _ hid => (nomatch hid), fun _ hid => (nomatch hid)⟩

theorem sound_issuers_executes (h : db.issuers.Sound (·.id)) (hexecutes : Executes db i clock now s x db') :
    db'.issuers.Sound (·.id) := by
  cases hexecutes with
  | issuer hwrite =>
    obtain ⟨c, -, -, hput⟩ := writeTable_cases hwrite
    exact Store.sound_putAll h hput
  | grant _ _ | refused _ | claims _ | invite _ | provider _ | claimed | failed => exact h

theorem rows_issuers_executes (hexecutes : Executes db i clock now s x db') :
    db'.issuers.rows = db.issuers.rows := by
  cases hexecutes with
  | issuer hwrite =>
    obtain ⟨c, -, -, hput⟩ := writeTable_cases hwrite
    exact Store.rows_putAll hput
  | grant _ _ | refused _ | claims _ | invite _ | provider _ | claimed | failed => rfl

theorem Shows.congr (h : Shows db seen) (hgrants : db'.grants.rows = db.grants.rows)
    (hissuers : db'.issuers.rows = db.issuers.rows) : Shows db' seen where
  resolved := by
    unfold ActiveIssuer
    rw [hissuers]
    exact h.resolved
  counted := by
    unfold UnusedIssuer
    rw [hgrants]
    exact h.counted

theorem noStrandedAdmin_congr {t t' : Tables} (h : NoStrandedAdmin t) (hgrants : t'.grants = t.grants)
    (hissuers : t'.issuers = t.issuers) : NoStrandedAdmin t' := by
  unfold NoStrandedAdmin
  rw [hgrants, hissuers]
  exact h

theorem justified_executes (h : IssuersServe w) (hpermits : Permits call (w.seen i) s)
    (hexecutes : Executes w.db i clock now s x db') (k : Nat) : Justified db' k (w.seen k) := by
  by_cases hki : k = i
  · subst hki
    exact justified_executes_self (h.justified k) h.owns.sound h.issuers hpermits hexecutes
  · exact justified_executes_of_ne (h.justified k) hki hexecutes

theorem issuersServe_responds (h : IssuersServe w) (hguard : AtCommit noOverlap i w o)
    (hmay : May call (w.seen i) o) (hgone : w.gone i = false) (hresponds : Responds w i o y w') :
    IssuersServe (w'.see i o y) := by
  have haccounted := accounted_responds h.accounted hmay hresponds
  have hstarted : ∀ k, k ∉ (w'.see i o y).started → (w'.see i o y).seen k = {} :=
    started_see h.started (seen_of_responds hresponds) (by cases hresponds <;> rfl)
  have hshows := fun k (hflight : (w'.see i o y).inFlight k = true) => shows_see h hresponds hflight
  have hjustified := justified_see hresponds
  have hread : IsRead o → w.db.Clean i := clean_of_read h.accounted hmay
  cases hresponds with
  | read | unread | closed | other | ran =>
    exact ⟨h.owns, h.issuers, haccounted, hstarted, hjustified hread h.justified, hshows, h.served⟩
  | wrote _ hexecutes =>
    exact ⟨owns_executes h.owns hexecutes, sound_issuers_executes h.issuers hexecutes, haccounted, hstarted,
      hjustified (fun hisRead => hisRead.elim) (justified_executes h hmay.2 hexecutes),
      fun k hflight => (hshows k hflight).congr (rows_executes hexecutes) (rows_issuers_executes hexecutes),
      noStrandedAdmin_congr h.served (rows_executes hexecutes) (rows_issuers_executes hexecutes)⟩
  | ended =>
    exact ⟨owns_rollback h.owns, Store.sound_rollback h.issuers, haccounted, hstarted,
      hjustified (fun hisRead => hisRead.elim) fun k => justified_rollback (h.justified k),
      fun k hflight => (hshows k hflight).congr rfl rfl, h.served⟩
  | @committed answer commands hopened hgrant =>
    have hmayCommit : MayCommit call (w.seen i) := hmay
    refine ⟨owns_commit h.owns, Store.sound_commit h.issuers, haccounted, hstarted,
      hjustified (fun hisRead => hisRead.elim) fun k => justified_commit (h.justified k) h.owns.sound h.issuers,
      shows_see_commit h hguard (.committed hopened hgrant), ?_⟩
    exact noStrandedAdmin_commit h.served h.owns.sound h.issuers (h.justified i)
      (h.shows i (inFlight_iff.mpr ⟨hgone, hmayCommit.toRunning⟩))

theorem keeps_issuersServe (requests : Nat → Request) :
    Keeps requests (AtCommit noOverlap) IssuersServe where
  act i w o x w' h hguard hmay hgone hresponds := issuersServe_responds h hguard hmay hgone hresponds
  nature w e w' h hnature := by
    have haccounted := (keeps_accounted requests).nature w e w' h.accounted hnature
    cases e with
    | wait seconds | sweep p =>
      cases hnature
      exact ⟨h.owns, h.issuers, haccounted, h.started, h.justified, h.shows, h.served⟩
    | disconnect i =>
      cases hnature
      exact ⟨owns_rollback h.owns, Store.sound_rollback h.issuers, haccounted, h.started,
        fun k => justified_rollback (h.justified k), fun k hflight => (h.shows k hflight).congr rfl rfl,
        h.served⟩
    | cancel i =>
      cases hnature
      refine ⟨owns_rollback h.owns, Store.sound_rollback h.issuers, haccounted, h.started,
        fun k => justified_rollback (h.justified k), fun k hflight => ?_, h.served⟩
      exact (h.shows k (inFlight_of_cancel hflight)).congr rfl rfl

variable {lib : Libraries} {runner : AdminCommandRunner Response} {requests : Nat → Request}

/-- **Retiring an issuer strands no admin**, in every run in which no claim and no retirement of one
issuer overlap. -/
theorem retiring_strands_no_admin {ledger : Ledger} {t₀ : Tables} (howned : WellOwned t₀.grants)
    (hkeys : (t₀.issuers.map (·.id)).Nodup) (hserved : NoStrandedAdmin t₀)
    {s : (identity lib runner requests).State} {moves : List (identity lib runner requests).Move}
    (hrun : runFrom (identity lib runner requests).step
      (identityInitial lib runner requests ledger t₀) moves = some s)
    (hmeets : Transition.Meets (identity lib runner requests).step
      (System.Guarded (AtCommit noOverlap)) (identityInitial lib runner requests ledger t₀) moves) :
    NoStrandedAdmin s.world.db.tables := by
  have hinitial : IssuersServe (identityInitial lib runner requests ledger t₀).world :=
    { owns := owns_ofTables howned
      issuers := sound_closed hkeys
      accounted := accounted_initial lib runner requests ledger t₀
      started := fun _ _ => rfl
      justified := fun i => justified_of_clean ⟨rfl, rfl, rfl, rfl⟩ _
      shows := fun _ _ => ⟨fun _ hid => (nomatch hid), fun _ hid => (nomatch hid)⟩
      served := hserved }
  exact (identity_run (keeps_issuersServe requests) (conforms_initial ledger t₀) hinitial hmeets hrun).2.served

/-! ### Samples -/

namespace Sample

/-- A claim on the issuer, and the issuer's retirement. -/
def retirement : Nat → Call
  | 0 => claimOf "alice"
  | _ => .setIssuerEnabled operator 1 1 false

def retirementMoves (schedule : List Nat) : List (system retirement).Move :=
  perform schedule (initial retirement tables)

/-- The grants are counted before the claim, and the issuer is retired after it. -/
def countedFirst : List Nat :=
  [1] ++ List.replicate 16 0 ++ List.replicate 16 1

/-- The grants by issuer, and the issuers by status. -/
def issuersInUse (t : Tables) : List (Uuid × Bool) × List (Uuid × ResourceStatus) :=
  (t.grants.map fun g => (g.trustedJwtIssuerId, g.isActive), t.issuers.map fun row => (row.id, row.status))

def stranded (t : Tables) : Bool :=
  t.grants.any fun g => g.isActive && t.issuers.any fun row =>
    row.id = g.trustedJwtIssuerId && !row.isActive

end Sample

open Sample in
/-- The retirement comes after the claim, and is refused. -/
theorem retiring_strands_no_admin_inTurn :
    ∃ s : (system retirement).State,
      runFrom (system retirement).step (initial retirement tables)
        (retirementMoves (inTurn 2)) = some s ∧
      issuersInUse s.world.db.tables = ([(1, true)], [(1, .active)]) ∧
      NoStrandedAdmin s.world.db.tables := by
  have hmeets : Transition.Meets (system retirement).step (System.Guarded (AtCommit noOverlap))
      (initial retirement tables) (retirementMoves (inTurn 2)) := by
    decide +kernel
  have hmoves : (runFrom (system retirement).step (initial retirement tables)
      (retirementMoves (inTurn 2))).map (fun s => issuersInUse s.world.db.tables) =
        some ([(1, true)], [(1, .active)]) := by
    decide +kernel
  obtain ⟨s, hrun, huse⟩ := Option.map_eq_some_iff.mp hmoves
  exact ⟨s, hrun, huse, retiring_strands_no_admin wellOwned_nil (by decide)
    (fun _ hg => absurd hg List.not_mem_nil) hrun hmeets⟩

theorem not_noStrandedAdmin {t : Tables} (h : Sample.stranded t = true) : ¬NoStrandedAdmin t := by
  intro hall
  simp only [Sample.stranded, List.any_eq_true, Bool.and_eq_true, decide_eq_true_eq,
    Bool.not_eq_true'] at h
  obtain ⟨g, hg, hactive, row, hrow, hid, hretired⟩ := h
  rw [hall g hg hactive row hrow hid] at hretired
  cases hretired

open Sample in
/-- The issuer is retired on the count that was made before the claim. -/
theorem retiring_can_strand_an_admin :
    ¬∀ (moves : List (system retirement).Move) (s : (system retirement).State),
      runFrom (system retirement).step (initial retirement tables) moves = some s →
        NoStrandedAdmin s.world.db.tables := by
  intro hall
  have hmoves : (runFrom (system retirement).step (initial retirement tables)
      (retirementMoves countedFirst)).map (fun s => stranded s.world.db.tables) = some true := by
    decide +kernel
  obtain ⟨s, hrun, hstranded⟩ := Option.map_eq_some_iff.mp hmoves
  exact not_noStrandedAdmin hstranded (hall _ s hrun)

end Moira.Identity
