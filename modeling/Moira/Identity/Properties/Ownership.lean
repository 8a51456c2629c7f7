import Moira.Identity.Properties.Answers
import Moira.Identity.Properties.Console

/-!
# One owner

The grants under every order of claims, redemptions, transfers and revocations.

- the ownership lock leaves one writer, so what the writer sees is what is committed (`Owns`)
- **`single_owner`** — there is at most one active primary grant, exactly one from the first grant
  on; revoked grants stay revoked, `setup_state.claimed` stays set, and a call that is refused has
  committed no grant
-/

namespace Moira.Identity

open Admin (AdminOp AdminCommandRunner)

/-! ## The rows -/

/-- What the grants of one deployment are like. -/
structure Owned (grants : List AdminIdentityGrant) : Prop where
  owner : ∀ g ∈ grants, ∃ p ∈ grants, p.isActivePrimary = true
  revoked : ∀ g ∈ grants, g.status = .revoked → g.isPrimary = false

/-- What a grant may become. -/
structure Successor (r v : AdminIdentityGrant) : Prop where
  issuer : v.issuer = r.issuer
  subject : v.subject = r.subject
  trustedJwtIssuerId : v.trustedJwtIssuerId = r.trustedJwtIssuerId
  revoked : r.status = .revoked → v.status = .revoked

theorem Successor.refl (r : AdminIdentityGrant) : Successor r r :=
  ⟨rfl, rfl, rfl, fun h => h⟩

theorem Successor.trans (a b c : AdminIdentityGrant) (h : Successor a b) (h' : Successor b c) :
    Successor a c where
  issuer := h'.issuer.trans h.issuer
  subject := h'.subject.trans h.subject
  trustedJwtIssuerId := h'.trustedJwtIssuerId.trans h.trustedJwtIssuerId
  revoked hrevoked := h'.revoked (h.revoked hrevoked)

/-- The rows with some of them replaced. -/
def Replaced (grants vs rows : List AdminIdentityGrant) : Prop :=
  ∀ u, u ∈ rows ↔ u ∈ vs ∨ (u ∈ grants ∧ u.id ∉ vs.map (·.id))

/-- What a statement does to the grants it sees. -/
structure Transfers (grants vs : List AdminIdentityGrant) : Prop where
  distinct : (vs.map (·.id)).Nodup
  follows : ∀ v ∈ vs, ∀ r ∈ grants, r.id = v.id → Successor r v
  owned : ∀ rows, Replaced grants vs rows → Owned rows

variable {grants vs rows : List AdminIdentityGrant} {change : Change AdminIdentityGrant} {id : Uuid}

variable {g : AdminIdentityGrant}

theorem isActivePrimary_iff :
    g.isActivePrimary = true ↔ g.status = .active ∧ g.isPrimary = true := by
  simp [AdminIdentityGrant.isActivePrimary, AdminIdentityGrant.isActive]

theorem owned_of_replaced (h : Owned grants) (hreplaced : Replaced grants vs rows)
    (howner : ∃ p ∈ rows, p.isActivePrimary = true)
    (hrevoked : ∀ v ∈ vs, v.status = .revoked → v.isPrimary = false) : Owned rows where
  owner _ _ := howner
  revoked g hg hstatus := by
    rcases (hreplaced g).mp hg with hg | ⟨hg, -⟩
    · exact hrevoked g hg hstatus
    · exact h.revoked g hg hstatus

theorem transfers_insertGrant (h : Owned grants) {insert : AdminIdentityGrantInsert}
    (hchange : insertGrant grants insert = .ok change) : Transfers grants change.rows := by
  obtain ⟨hnot, rfl⟩ := inserted_eq_ok hchange
  have hnew : ∀ g ∈ grants, g.id ≠ insert.id :=
    fun g hg hid => hnot (List.mem_map.mpr ⟨g, hg, hid⟩)
  refine ⟨List.nodup_singleton _, fun v hv r hr hid => ?_, fun rows hreplaced => ?_⟩
  · rw [List.mem_singleton] at hv
    subst hv
    exact absurd hid (hnew r hr)
  · refine owned_of_replaced h hreplaced ?_ fun v hv hstatus => ?_
    · -- the new grant is primary exactly when there is no primary yet
      cases hany : grants.any (·.isActivePrimary) with
      | false =>
        refine ⟨_, (hreplaced _).mpr (.inl List.mem_cons_self), isActivePrimary_iff.mpr ⟨rfl, ?_⟩⟩
        show (!grants.any (·.isActivePrimary)) = true
        rw [hany]
        rfl
      | true =>
        obtain ⟨p, hp, hprimary⟩ := List.any_eq_true.mp hany
        refine ⟨p, (hreplaced p).mpr (.inr ⟨hp, fun hmem => ?_⟩), hprimary⟩
        rw [List.map_singleton, List.mem_singleton] at hmem
        exact hnew p hp hmem
    · rw [List.mem_singleton] at hv
      subst hv
      cases hstatus

theorem lockGrant_cases (h : lockGrant grants id = .ok g) : g ∈ grants ∧ g.id = id := by
  unfold lockGrant at h
  split at h
  · next grant hfound =>
    obtain rfl : grant = g := Except.ok.inj h
    exact ⟨List.mem_of_find?_eq_some hfound, by simpa using List.find?_some hfound⟩
  · cases h

theorem requireAnother_cases (h : requireAnotherActivePrimary grants id = .ok ()) :
    ∃ p ∈ grants, p.isActivePrimary = true ∧ p.id ≠ id := by
  unfold requireAnotherActivePrimary at h
  split at h
  · next hany =>
    obtain ⟨p, hp, hboth⟩ := List.any_eq_true.mp hany
    rw [Bool.and_eq_true] at hboth
    exact ⟨p, hp, hboth.1, by simpa using hboth.2⟩
  · cases h

/-- The row that `setPrimary` and `revokeGrant` work on. -/
structure Locked (grants : List AdminIdentityGrant) (id : Uuid) (keep : Bool)
    (current : AdminIdentityGrant) : Prop where
  mem : current ∈ grants
  id_eq : current.id = id
  active : current.status = .active
  /-- A primary that gives up its flag is not the last one. -/
  another : current.isPrimary = true → keep = false →
    ∃ p ∈ grants, p.isActivePrimary = true ∧ p.id ≠ id

theorem setPrimary_cases {expectedVersion : Int} {isPrimary : Bool}
    (h : setPrimary grants id expectedVersion isPrimary = .ok change) :
    ∃ current, Locked grants id isPrimary current ∧
      change.rows = (if isPrimary && !current.isPrimary then demoteActivePrimariesOtherThan grants id
        else []) ++ [{ current.bumped with isPrimary }] := by
  unfold setPrimary at h
  cases hlock : lockGrant grants id with
  | error err =>
    rw [hlock] at h
    cases h
  | ok current =>
    obtain ⟨hmem, hid⟩ := lockGrant_cases hlock
    rw [hlock] at h
    simp only [bind, Except.bind, pure, Except.pure, throw, throwThe, MonadExceptOf.throw] at h
    split at h
    · cases h
    next hactive =>
    split at h
    · cases h
    split at h
    · next hclears =>
      split at h
      · cases h
      next hanother =>
      cases h
      exact ⟨current, ⟨hmem, hid, not_not.mp hactive, fun _ _ => requireAnother_cases hanother⟩, rfl⟩
    · next hkeeps =>
      cases h
      refine ⟨current, ⟨hmem, hid, not_not.mp hactive, fun hprimary hfalse => ?_⟩, rfl⟩
      exact absurd (by rw [hprimary, hfalse]; rfl) hkeeps

variable {now : Nat}

theorem revokeGrant_cases (h : revokeGrant grants id now = .ok change) :
    ∃ current, Locked grants id false current ∧ change.rows =
      [{ current.bumped with status := .revoked, revokedAt := some now, isPrimary := false }] := by
  unfold revokeGrant at h
  cases hlock : lockGrant grants id with
  | error err =>
    rw [hlock] at h
    cases h
  | ok current =>
    obtain ⟨hmem, hid⟩ := lockGrant_cases hlock
    rw [hlock] at h
    simp only [bind, Except.bind, pure, Except.pure, throw, throwThe, MonadExceptOf.throw] at h
    split at h
    · cases h
    next hactive =>
    split at h
    · next hprimary =>
      split at h
      · cases h
      next hanother =>
      cases h
      exact ⟨current, ⟨hmem, hid, not_not.mp hactive, fun _ _ => requireAnother_cases hanother⟩, rfl⟩
    · next hprimary =>
      cases h
      exact ⟨current, ⟨hmem, hid, not_not.mp hactive, fun h _ => absurd h hprimary⟩, rfl⟩

theorem eq_of_id (hnodup : (grants.map (·.id)).Nodup) {g' : AdminIdentityGrant} (hg : g ∈ grants)
    (hg' : g' ∈ grants) (hid : g.id = g'.id) : g = g' :=
  List.inj_on_of_nodup_map hnodup hg hg' hid

variable {current : AdminIdentityGrant}

theorem Locked.other_owner (hnodup : (grants.map (·.id)).Nodup) (h : Owned grants)
    (hlocked : Locked grants id false current) :
    ∃ p ∈ grants, p.isActivePrimary = true ∧ p.id ≠ id := by
  cases hprimary : current.isPrimary with
  | true => exact hlocked.another hprimary rfl
  | false =>
    obtain ⟨p, hp, hactive⟩ := h.owner current hlocked.mem
    refine ⟨p, hp, hactive, fun hid => ?_⟩
    obtain rfl := eq_of_id hnodup hp hlocked.mem (hid.trans hlocked.id_eq.symm)
    rw [(isActivePrimary_iff.mp hactive).2] at hprimary
    cases hprimary

theorem transfers_single (hnodup : (grants.map (·.id)).Nodup) (h : Owned grants) {keep : Bool}
    {v : AdminIdentityGrant} (hlocked : Locked grants id keep current) (hid : v.id = current.id)
    (hfollows : Successor current v) (hrevoked : v.status = .revoked → v.isPrimary = false)
    (howner : v.isActivePrimary = true ∨ ∃ p ∈ grants, p.isActivePrimary = true ∧ p.id ≠ id) :
    Transfers grants [v] := by
  refine ⟨List.nodup_singleton _, fun w hw r hr hrw => ?_, fun rows hreplaced => ?_⟩
  · rw [List.mem_singleton] at hw
    subst hw
    rwa [eq_of_id hnodup hr hlocked.mem (hrw.trans hid)]
  · refine owned_of_replaced h hreplaced ?_ fun w hw => ?_
    · rcases howner with hv | ⟨p, hp, hprimary, hne⟩
      · exact ⟨v, (hreplaced v).mpr (.inl List.mem_cons_self), hv⟩
      · refine ⟨p, (hreplaced p).mpr (.inr ⟨hp, fun hmem => hne ?_⟩), hprimary⟩
        rw [List.map_singleton, List.mem_singleton] at hmem
        exact hmem.trans (hid.trans hlocked.id_eq)
    · rw [List.mem_singleton] at hw
      subst hw
      exact hrevoked

theorem transfers_revokeGrant (hnodup : (grants.map (·.id)).Nodup) (h : Owned grants)
    (hchange : revokeGrant grants id now = .ok change) : Transfers grants change.rows := by
  obtain ⟨current, hlocked, hrows⟩ := revokeGrant_cases hchange
  rw [hrows]
  exact transfers_single hnodup h hlocked rfl ⟨rfl, rfl, rfl, fun _ => rfl⟩ (fun _ => rfl)
    (.inr (hlocked.other_owner hnodup h))

theorem mem_demote {w : AdminIdentityGrant} (h : w ∈ demoteActivePrimariesOtherThan grants id) :
    ∃ r ∈ grants, r.status = .active ∧ r.id ≠ id ∧ w = { r.bumped with isPrimary := false } := by
  obtain ⟨r, hr, rfl⟩ := List.mem_map.mp h
  obtain ⟨hmem, hboth⟩ := List.mem_filter.mp hr
  rw [Bool.and_eq_true] at hboth
  exact ⟨r, hmem, (isActivePrimary_iff.mp hboth.1).1, by simpa using hboth.2, rfl⟩

section

variable (hnodup : (grants.map (·.id)).Nodup)
include hnodup

theorem nodup_demote : ((demoteActivePrimariesOtherThan grants id).map (·.id)).Nodup := by
  unfold demoteActivePrimariesOtherThan
  rw [List.map_map]
  exact hnodup.sublist (List.filter_sublist.map AdminIdentityGrant.id)

theorem transfers_move (h : Owned grants) (hlocked : Locked grants id true current) :
    Transfers grants
      (demoteActivePrimariesOtherThan grants id ++ [{ current.bumped with isPrimary := true }]) := by
  refine ⟨?_, fun w hw r hr hrw => ?_, fun rows hreplaced => ?_⟩
  · rw [List.map_append, List.nodup_append]
    refine ⟨nodup_demote hnodup, List.nodup_singleton _, fun a ha b hb => ?_⟩
    obtain ⟨w, hw, rfl⟩ := List.mem_map.mp ha
    obtain ⟨r, -, -, hne, rfl⟩ := mem_demote hw
    rw [List.map_singleton, List.mem_singleton] at hb
    rw [hb]
    exact fun heq => hne (heq.trans hlocked.id_eq)
  · rcases List.mem_append.mp hw with hw | hw
    · obtain ⟨r', hr', -, -, rfl⟩ := mem_demote hw
      obtain rfl := eq_of_id hnodup hr hr' hrw
      exact ⟨rfl, rfl, rfl, fun h => h⟩
    · rw [List.mem_singleton] at hw
      subst hw
      obtain rfl := eq_of_id hnodup hr hlocked.mem hrw
      exact ⟨rfl, rfl, rfl, fun h => h⟩
  · refine owned_of_replaced h hreplaced ⟨{ current.bumped with isPrimary := true }, ?_, ?_⟩ ?_
    · exact (hreplaced _).mpr (.inl (List.mem_append_right _ List.mem_cons_self))
    · exact isActivePrimary_iff.mpr ⟨hlocked.active, rfl⟩
    · intro w hw hstatus
      rcases List.mem_append.mp hw with hw | hw
      · obtain ⟨r, -, hactive, -, rfl⟩ := mem_demote hw
        rfl
      · rw [List.mem_singleton] at hw
        subst hw
        exact absurd (hlocked.active.symm.trans hstatus) (by decide)

theorem transfers_setPrimary (h : Owned grants) {expectedVersion : Int} {isPrimary : Bool}
    (hchange : setPrimary grants id expectedVersion isPrimary = .ok change) :
    Transfers grants change.rows := by
  obtain ⟨current, hlocked, hrows⟩ := setPrimary_cases hchange
  rw [hrows]
  have hrevoked : { current.bumped with isPrimary }.status = .revoked → isPrimary = false :=
    fun hstatus => absurd (hlocked.active.symm.trans hstatus) (by decide)
  cases isPrimary with
  | false =>
    exact transfers_single hnodup h hlocked rfl ⟨rfl, rfl, rfl, fun h => h⟩ hrevoked
      (.inr (hlocked.other_owner hnodup h))
  | true =>
    cases hprimary : current.isPrimary with
    | false => exact transfers_move hnodup h hlocked
    | true =>
      exact transfers_single hnodup h hlocked rfl ⟨rfl, rfl, rfl, fun h => h⟩ hrevoked
        (.inl (isActivePrimary_iff.mpr ⟨hlocked.active, rfl⟩))

/-- **Every statement on the grants keeps the owner.** -/
theorem transfers_change (h : Owned grants) (s : GrantStatement)
    (hchange : s.change grants now = .ok change) : Transfers grants change.rows := by
  cases s with
  | insertGrant insert => exact transfers_insertGrant h hchange
  | setPrimary id expectedVersion isPrimary => exact transfers_setPrimary hnodup h hchange
  | revokeGrant id => exact transfers_revokeGrant hnodup h hchange

/-! ## The database -/

end

/-- What the ownership lock, the indexes and the statements keep together. -/
structure Owns (db : Database) : Prop where
  sound : db.grants.Sound (·.id)
  subjects : db.grants.Unique (·.id) (·.issuerSubject)
  primaries : db.grants.Unique (·.id) (·.primarySlot)
  forward : db.grants.Forward (·.id) Successor
  owned : db.grants.Everywhere (·.id) Owned
  lock : ∀ j, (db.grants.tx j).writes ≠ [] → db.ownership = some j
  setup : ∀ j state, db.setupWrite = some (j, state) → state.claimed = true

variable {db db' : Database} {i : Nat}

theorem Owns.oneWriter (h : Owns db) : db.grants.OneWriter :=
  fun i j hi hj => Option.some.inj ((h.lock i hi).symm.trans (h.lock j hj))

theorem filter_ownership {j : Nat} (hne : j ≠ i) (h : db.ownership = some j) :
    db.ownership.filter (· ≠ i) = some j := by
  rw [h]
  simp [hne]

theorem owns_rollback (h : Owns db) : Owns (db.rollback i) where
  sound := Store.sound_rollback h.sound
  subjects := Store.unique_rollback h.subjects
  primaries := Store.unique_rollback h.primaries
  forward := Store.forward_rollback h.forward
  owned := Store.everywhere_rollback h.owned
  lock j hj := by
    rcases Store.tx_rollback_cases (S := db.grants) (i := i) (j := j) with heq | ⟨hji, heq⟩
    · exact absurd (congrArg Tx.writes heq) hj
    · have hwrites : ((db.grants.rollback i).tx j).writes ≠ [] := hj
      rw [heq] at hwrites
      exact filter_ownership hji (h.lock j hwrites)
  setup j state hwrite := h.setup j state (Option.filter_eq_some_iff.mp hwrite).1

theorem owns_commit (h : Owns db) : Owns (db.commit i) where
  sound := Store.sound_commit h.sound
  subjects := Store.unique_commit h.sound h.subjects
  primaries := Store.unique_commit h.sound h.primaries
  forward := Store.forward_commit h.sound h.forward
  owned := Store.everywhere_commit h.oneWriter h.owned
  lock := (owns_rollback (i := i) h).lock
  setup := (owns_rollback (i := i) h).setup

theorem mayOwn_iff : db.mayOwn i = true ↔ ∀ j, db.ownership = some j → j = i := by
  unfold Database.mayOwn
  cases db.ownership <;> simp

theorem owns_grants (h : Owns db) {s : GrantStatement} {row : AdminIdentityGrant}
    {grants : GrantStore} (hown : db.mayOwn i = true)
    (hwrite : writeTable (·.id) passesGrantIndexes db.grants i
      (s.change (db.grants.visible (·.id) i) now) row = some grants) :
    Owns { db with grants, ownership := some i } := by
  obtain ⟨change, hchange, -, hput⟩ := writeTable_cases hwrite
  have htransfers := transfers_change (h.sound.nodup_visible i) (h.owned.seen i) s hchange
  have hpass : ∀ (S : GrantStore) v, passesGrantIndexes S i v = true →
      S.clear (·.id) (·.issuerSubject) i v = true ∧ S.clear (·.id) (·.primarySlot) i v = true :=
    fun S v hv => by rwa [passesGrantIndexes, Bool.and_eq_true] at hv
  exact
    { sound := Store.sound_putAll h.sound hput
      subjects := Store.unique_putAll h.sound h.subjects hput fun S v hv => (hpass S v hv).1
      primaries := Store.unique_putAll h.sound h.primaries hput fun S v hv => (hpass S v hv).2
      forward := Store.forward_putAll h.sound h.forward Successor.refl Successor.trans
        htransfers.distinct hput htransfers.follows
      owned := Store.everywhere_putAll h.owned hput
        (htransfers.owned _ fun _ => Store.mem_visible_putAll h.sound htransfers.distinct hput)
      lock := fun j hj => by
        by_cases hji : j = i
        · rw [hji]
        · have hwrites : (grants.tx j).writes ≠ [] := hj
          rw [Store.tx_putAll_of_ne hput hji] at hwrites
          exact absurd (mayOwn_iff.mp hown j (h.lock j hwrites)) hji
      setup := h.setup }

variable {clock : Nat} {s : Statement}

variable {x : Except AppError s.Result}

theorem owns_executes (h : Owns db) (hexecutes : Executes db i clock now s x db') : Owns db' := by
  have hkept : ∀ (ownership : Option Nat) (setupWrite : Option (Nat × SetupState)),
      (∀ j, (db.grants.tx j).writes ≠ [] → ownership = some j) →
      (∀ j state, setupWrite = some (j, state) → state.claimed = true) →
      Owns { db with ownership, setupWrite } :=
    fun _ _ hlock hsetup => ⟨h.sound, h.subjects, h.primaries, h.forward, h.owned, hlock, hsetup⟩
  cases hexecutes with
  | grant hown hwrite => exact owns_grants h hown hwrite
  | refused hown =>
    refine hkept _ _ (fun j hj => ?_) h.setup
    rw [mayOwn_iff.mp hown j (h.lock j hj)]
  | claims hfirst =>
    refine hkept _ _ h.lock fun j state hwrite => ?_
    obtain ⟨-, rfl⟩ := Prod.mk.inj (Option.some.inj hwrite)
    unfold markSetupClaimed
    rw [if_neg (by rw [hfirst]; decide)]
  | invite _ | provider _ | issuer _ =>
    exact ⟨h.sound, h.subjects, h.primaries, h.forward, h.owned, h.lock, h.setup⟩
  | claimed => exact h
  | failed => exact h

/-- What is committed moves on from an earlier state of the tables. -/
structure Onward (base : Tables) (db : Database) : Prop where
  grants : Store.Later (·.id) Successor base.grants db.grants.rows
  claimed : base.setup.claimed = true → db.setup.claimed = true

theorem Onward.refl (db : Database) : Onward db.tables db :=
  ⟨Store.later_refl Successor.refl _, fun h => h⟩

theorem claimed_visibleSetup (h : Owns db) (hclaimed : db.setup.claimed = true) :
    (db.visibleSetup i).claimed = true := by
  unfold Database.visibleSetup
  cases hwrite : db.setupWrite.filter (·.1 = i) with
  | none => exact hclaimed
  | some write => exact h.setup write.1 write.2 (Option.filter_eq_some_iff.mp hwrite).1

variable {base : Tables}

theorem onward_commit (h : Owns db) (honward : Onward base db) :
    Onward base (db.commit i) where
  grants := honward.grants.trans Successor.trans
    (Store.later_commit h.sound h.forward Successor.refl)
  claimed hclaimed := claimed_visibleSetup h (honward.claimed hclaimed)

theorem rows_executes (hexecutes : Executes db i clock now s x db') :
    db'.grants.rows = db.grants.rows := by
  cases hexecutes with
  | grant hown hwrite =>
    obtain ⟨change, -, -, hput⟩ := writeTable_cases hwrite
    exact Store.rows_putAll hput
  | refused _ | claims _ | invite _ | provider _ | issuer _ | claimed | failed => rfl

theorem onward_executes (honward : Onward base db) (hexecutes : Executes db i clock now s x db') :
    Onward base db' := by
  have hsetup : db'.setup = db.setup := by cases hexecutes <;> rfl
  refine ⟨?_, fun hclaimed => ?_⟩
  · rw [rows_executes hexecutes]
    exact honward.grants
  · rw [hsetup]
    exact honward.claimed hclaimed

/-! ## Runs -/

/-- The grants after the commits, newest first. -/
def replayGrants (grants : List AdminIdentityGrant) (commits : List Commit) :
    List AdminIdentityGrant :=
  commits.foldr (fun c rows => Store.overlay (·.id) c.grants rows) grants

/-- What holds of the world that started from `origin`, after its tables were `base`. -/
structure OwnedWorld (origin base : Tables) (w : World) : Prop where
  owns : Owns w.db
  onward : Onward base w.db
  accounted : Accounted w
  history : w.db.tables.grants = replayGrants origin.grants w.commits

theorem keeps_owned (requests : Nat → Request) (origin base : Tables) :
    Keeps requests (fun _ _ _ => True) (OwnedWorld origin base) where
  act i w o x w' h _ hmay _ hresponds := by
    have haccounted := accounted_responds h.accounted hmay hresponds
    cases hresponds with
    | read | unread | closed | other | ran => exact ⟨h.owns, h.onward, haccounted, h.history⟩
    | wrote _ hexecutes =>
      refine ⟨owns_executes h.owns hexecutes, onward_executes h.onward hexecutes, haccounted, ?_⟩
      exact (rows_executes hexecutes).trans h.history
    | committed =>
      refine ⟨owns_commit h.owns, onward_commit h.owns h.onward, haccounted, ?_⟩
      show Store.overlay _ _ w.db.tables.grants = Store.overlay _ _ (replayGrants _ _)
      rw [h.history]
      rfl
    | ended =>
      exact ⟨owns_rollback h.owns, ⟨h.onward.grants, h.onward.claimed⟩, haccounted, h.history⟩
  nature w e w' h hnature := by
    have haccounted := (keeps_accounted requests).nature w e w' h.accounted hnature
    cases e with
    | wait seconds | sweep p =>
      cases hnature
      exact ⟨h.owns, h.onward, haccounted, h.history⟩
    | disconnect i | cancel i =>
      cases hnature
      exact ⟨owns_rollback h.owns, ⟨h.onward.grants, h.onward.claimed⟩, haccounted, h.history⟩

/-- Grants that the indexes and the statements leave behind. -/
structure WellOwned (grants : List AdminIdentityGrant) : Prop extends Owned grants where
  keys : (grants.map (·.id)).Nodup
  subjects : Store.UniqueOn (·.issuerSubject) grants
  primaries : Store.UniqueOn (·.primarySlot) grants

theorem wellOwned_nil : WellOwned [] where
  owner _ hg := absurd hg List.not_mem_nil
  revoked _ hg := absurd hg List.not_mem_nil
  keys := List.nodup_nil
  subjects _ hu := absurd hu List.not_mem_nil
  primaries _ hu := absurd hu List.not_mem_nil

theorem owns_ofTables {t : Tables} (h : WellOwned t.grants) : Owns (.ofTables t) where
  sound := sound_closed h.keys
  subjects := Store.unique_of_closed h.subjects fun _ => rfl
  primaries := Store.unique_of_closed h.primaries fun _ => rfl
  forward _ _ hv := absurd hv List.not_mem_nil
  owned := Store.everywhere_of_closed h.toOwned fun _ => rfl
  lock _ hj := absurd rfl hj
  setup _ _ hwrite := (nomatch hwrite)

variable {lib : Libraries} {runner : AdminCommandRunner Response} {requests : Nat → Request}

/-- What is said of the grants in every committed state. -/
structure SingleOwner (grants : List AdminIdentityGrant) : Prop where
  atMostOne : ∀ g ∈ grants, ∀ g' ∈ grants, g.isActivePrimary = true → g'.isActivePrimary = true → g = g'
  exactlyOne : grants ≠ [] → ∃ g ∈ grants, g.isActivePrimary = true

/-- What is said of every later state. -/
structure OwnershipKept (earlier later : Tables) : Prop where
  /-- A revoked grant is revoked and not primary, and it is the only one of its identity. -/
  revoked : ∀ g ∈ earlier.grants, g.status = .revoked → ∃ g' ∈ later.grants, g'.id = g.id ∧
    g'.status = .revoked ∧ g'.isPrimary = false ∧
    ∀ other ∈ later.grants, other.issuer = g.issuer → other.subject = g.subject → other = g'
  nonempty : earlier.grants ≠ [] → later.grants ≠ []
  claimed : earlier.setup.claimed = true → later.setup.claimed = true

theorem Owns.singleOwner (h : Owns db) : SingleOwner db.tables.grants where
  atMostOne g hg g' hg' hactive hactive' := by
    have hslot : ∀ g : AdminIdentityGrant, g.isActivePrimary = true → g.primarySlot = some () :=
      fun g hactive => by rw [AdminIdentityGrant.primarySlot, if_pos hactive]
    refine h.primaries.committed g hg g' hg' ?_ ?_
    · rw [hslot g hactive]
      exact Option.some_ne_none ()
    · rw [hslot g hactive, hslot g' hactive']
  exactlyOne hne := by
    obtain ⟨g, hg⟩ := List.exists_mem_of_ne_nil _ hne
    exact h.owned.committed.owner g hg

theorem ownershipKept_of (h : Owns db) (honward : Onward base db) :
    OwnershipKept base db.tables where
  revoked g hg hrevoked := by
    obtain ⟨g', hg', hid, hsuccessor⟩ := honward.grants g hg
    have hrevoked' := hsuccessor.revoked hrevoked
    refine ⟨g', hg', hid, hrevoked', h.owned.committed.revoked g' hg' hrevoked', ?_⟩
    intro other hother hissuer hsubject
    refine h.subjects.committed other hother g' hg' (Option.some_ne_none _) ?_
    show some (other.issuer, other.subject) = some (g'.issuer, g'.subject)
    rw [hissuer, hsubject, hsuccessor.issuer, hsuccessor.subject]
  nonempty hne := by
    obtain ⟨g, hg⟩ := List.exists_mem_of_ne_nil _ hne
    obtain ⟨g', hg', -⟩ := honward.grants g hg
    exact List.ne_nil_of_mem hg'
  claimed := honward.claimed

/-- A call that was answered an error has changed no grant. When the database did not report the
outcome of its commit the error is that one, and the grants may have changed. -/
def RefusedUnchanged (w : World) : Prop :=
  ∀ i err, (w.seen i).answered = some (.error err) → ∀ c ∈ w.commits, c.call = i →
    c.grants = [] ∨ (c.acknowledged = false ∧ err = .sqlx)

/-- **There is one owner**, in every order of the calls and with every way they can fail. -/
theorem single_owner {ledger : Ledger} {t₀ : Tables} (hempty : t₀.grants = [])
    {s : (identity lib runner requests).State} {moves : List (identity lib runner requests).Move}
    (hrun : Transition.runFrom (identity lib runner requests).step
      (identityInitial lib runner requests ledger t₀) moves = some s) :
    SingleOwner s.world.db.tables.grants ∧
    s.world.db.tables.grants = replayGrants [] s.world.commits ∧ RefusedUnchanged s.world ∧
    ∀ t more, Transition.runFrom (identity lib runner requests).step s more = some t →
      OwnershipKept s.world.db.tables t.world.db.tables := by
  have hinitial : OwnedWorld t₀ t₀ (identityInitial lib runner requests ledger t₀).world :=
    ⟨owns_ofTables (by rw [hempty]; exact wellOwned_nil), Onward.refl (.ofTables t₀),
        accounted_initial lib runner requests ledger t₀,
      rfl⟩
  obtain ⟨hconforms, howned⟩ :=
    identity_invariant (keeps_owned requests t₀ t₀) (conforms_initial ledger t₀) hinitial hrun
  refine ⟨howned.owns.singleOwner, ?_, fun i err hanswered c hc hcall => ?_, fun t more hmore => ?_⟩
  · rw [howned.history, hempty]
  · exact (howned.accounted.failed_call hanswered c hc hcall).imp_left Commit.Empty.grants
  · have hbase : OwnedWorld t₀ s.world.db.tables s.world :=
      ⟨howned.owns, Onward.refl s.world.db, howned.accounted, howned.history⟩
    obtain ⟨-, hlater⟩ := identity_invariant (keeps_owned requests t₀ _) hconforms hbase hmore
    exact ownershipKept_of hlater.owns hlater.onward

/-! ### Samples -/

namespace Sample

def libraries : Libraries where
  isHttpsUrl _ := true
  keyPrefix token := token
  requestJson _ _ := .null
  actorIdentity _ := "operator"
  responseJson _ _ := .null

/-- The calls of the samples carry no idempotency key, so nothing here is asked for. -/
def commandRunner : AdminCommandRunner Response where
  hasher :=
    { pepperVersion := "v1", mac := fun _ => "", secretFingerprint := fun _ => ""
      version_plain := defaultVersion_plain }
  acceptLegacyHashes := false
  render _ := ""
  decode _ := .error "not asked for"
  advisoryLockKey _ := 0

/-- One trusted issuer, and a provider that admits the members of one domain. -/
def tables : Tables where
  issuers := [{ id := 1, issuer := "https://console", jwksUrl := "https://c/jwks" }]
  providers :=
    [{ id := 2, method := .jwks, displayName := "Console", enabled := true
       jwksUrl := some "https://c/jwks", allowedEmailDomains := ["example.com"]
       trustedJwtIssuerId := some 1 }]

def operator : Actor where
  actorType := .systemKey
  scopes := ["moira:admin"]

def admin (subject : String) : Actor where
  actorType := .trustedJwt
  subject := some subject
  scopes := ["moira:admin"]

def claimOf (subject : String) : Call :=
  .claim operator
    { issuer := "https://console", subject, email := subject ++ "@example.com", emailVerified := true
      scopes := ["moira:admin"] }

abbrev system (calls : Nat → Call) : System Nat :=
  identity libraries commandRunner fun i => { call := calls i }

abbrev initial (calls : Nat → Call) (t : Tables) : (system calls).State :=
  identityInitial libraries commandRunner (fun i => { call := calls i }) (fun _ => none) t

def resultOf {ρ : Type} (violation : ρ → Option AppError) :
    Except AppError (Change ρ) → Except AppError ρ
  | .ok change =>
    match change.rows.findSome? violation with
    | some err => .error err
    | none => .ok change.result
  | .error err => .error err

/-- A database that works. The new id of a call is 100 more than its number. -/
def databaseAnswer (w : World) (i : Nat) : (o : IdentityOp) → o.Ans
  | .command .begin => .ok ()
  | .command .utcNow => w.commands.now
  | .command (.tryLock _) => .ok true
  | .command .pastDeadline => true
  | .command .sleep => ()
  | .command (.sweepExpired _) => .ok ()
  | .command (.load _) => .ok none
  | .command (.insertClaim _) => .inserted
  | .command .savepoint => .ok ()
  | .command .releaseSavepoint => .ok ()
  | .command .rollbackSavepoint => .ok ()
  | .command .mutate => .error .sqlx
  | .command (.finalize ..) => .ok ()
  | .command .commit => ⟨.ok (), true⟩
  | .command .rollback => .ok ()
  | .command .drop => ()
  | .command (.reply _) => ()
  | .fetch q => .ok (q.answer w.db.tables)
  | .rejectDeniedJwksUrl _ => .ok ()
  | .verify token hash => .ok (token = hash)
  | .generate => .ok { rawKey := "token", keyPrefix := "token", keyHash := "token" }
  | .newId => 100 + i
  | .statement (.grant s) =>
    resultOf (grantViolation w.db.grants i)
      (s.change (w.db.grants.visible (·.id) i) (w.commands.startedAt i))
  | .statement (.markSetupClaimed _) => .ok ()
  | .statement (.invite s) =>
    resultOf (fun _ => none)
      (s.change (w.db.invites.visible (·.id) i) w.commands.now (w.commands.startedAt i))
  | .statement (.provider s) =>
    resultOf (providerViolation w.db.providers i)
      (s.change (w.db.providers.visible (·.id) i) (w.commands.startedAt i))
  | .statement (.issuer s) =>
    resultOf (issuerViolation w.db.issuers i)
      (s.change (w.db.issuers.visible (·.id) i) (w.commands.startedAt i))
  | .insertAudit _ => .ok ()

variable {calls : Nat → Call}

/-- The next move of a call. -/
def moveOf (answer : World → Nat → (o : IdentityOp) → o.Ans) (s : (system calls).State) (i : Nat) :
    (system calls).Move :=
  match s.proc i with
  | .ret _ => .jump i
  | _ => .act i (answer s.world i)

/-- The calls move in the order of the schedule; a call that waits or is over is passed by. -/
def performWith (answer : World → Nat → (o : IdentityOp) → o.Ans) :
    List Nat → (system calls).State → List (system calls).Move
  | [], _ => []
  | i :: rest, s =>
    match (system calls).step s (moveOf answer s i) with
    | some s' => moveOf answer s i :: performWith answer rest s'
    | none => performWith answer rest s

def perform (schedule : List Nat) (s : (system calls).State) : List (system calls).Move :=
  performWith databaseAnswer schedule s

/-- Call after call, each from its start to its answer. -/
def inTurn (count : Nat) : List Nat :=
  (List.range count).flatMap fun i => List.replicate 16 i

/-- Who holds which grant. -/
def holders (t : Tables) : List (Uuid × String × Bool × AdminIdentityStatus) :=
  t.grants.map fun g => (g.id, g.subject, g.isPrimary, g.status)

def refusal (w : World) (i : Nat) : Option AppError :=
  match (w.seen i).answered with
  | some (.error err) => some err
  | _ => none

/-- Two claims, a transfer to the second grant, and the new owner revokes the first one, who then
claims again. -/
def transferred : Nat → Call
  | 0 => claimOf "alice"
  | 1 => claimOf "bob"
  | 2 => .setIdentityPrimary (admin "alice") (some "https://console") 101 1 true
  | 3 => .revokeIdentity (admin "bob") (some "https://console") 100
  | _ => claimOf "alice"

end Sample

open Sample in
theorem single_owner_transferred :
    ∃ s : (system transferred).State, holders s.world.db.tables =
        [(100, "alice", false, .revoked), (101, "bob", true, .active)] ∧
      refusal s.world 4 = some alreadyClaimed ∧ SingleOwner s.world.db.tables.grants := by
  have hmoves : (Transition.runFrom (system transferred).step (initial transferred tables)
      (perform (inTurn 5) (initial transferred tables))).map
        (fun s => (holders s.world.db.tables, refusal s.world 4)) =
      some ([(100, "alice", false, .revoked), (101, "bob", true, .active)], some alreadyClaimed) := by
    decide +kernel
  obtain ⟨s, hrun, hworld⟩ := Option.map_eq_some_iff.mp hmoves
  simp only [Prod.mk.injEq] at hworld
  exact ⟨s, hworld.1, hworld.2, (single_owner rfl hrun).1⟩

end Moira.Identity
