import Moira.Keyring.Properties.ResealTables
import Moira.Keyring.Refresh

/-!
# The discipline of refreshes

Every load runs under the one permit, so the snapshot that a refresh finds is the one that stays
installed until it installs its own, and the numbers of the loads are the order of the installs.

- **`keyring_refresh_discipline`**

The floor between two loads of misses is kept on the clock the keyring reads, which counts whole
milliseconds: `misses_load_within_a_second` are two loads that are a little closer than that.
-/

namespace Moira.Keyring

open Transition (runFrom)

/-! ## What a party knows -/

structure RefreshGhost where
  permit : Bool := false
  /-- The newest generation it has seen. -/
  floor : Nat := 0
  seen : List KeyringSnapshot := []
  /-- The time of the last load that a miss started, as it read it under the permit. -/
  last : Option Nat := none
  /-- It has stored a new time, and may load. -/
  ready : Bool := false
  /-- The number of the load it is at. -/
  number : Option Nat := none
  loaded : Bool := false

/-- `onDemand` is whether the party is a miss. -/
def refreshContract (minRefreshSeconds : Nat) (onDemand : Bool) :
    Contract refreshSig RefreshGhost where
  may g o :=
    match o with
    | .snapshot | .elapsed | .fetchRows => True
    | .acquire => g.permit = false
    | .release => g.permit = true ∧ g.number = none
    | .lastOnDemandMs => g.permit = true
    | .setLastOnDemandMs ms => g.permit = true ∧ ms < never ∧ ∃ last, g.last = some last ∧
      (last = never ∨ minRefreshMs minRefreshSeconds ≤ ms - last)
    | .fetchAddGeneration => g.permit = true ∧ g.number = none ∧
      (onDemand = true → g.ready = true ∧ g.loaded = false)
    | .assemble _ generation => g.number = some generation
    | .install snapshot => g.number = some snapshot.generation
  answers g o x :=
    match o, x with
    | .snapshot, snapshot => g.floor ≤ KeyringSnapshot.generation snapshot
    | .elapsed, elapsed => asMillis elapsed < never
    | .fetchAddGeneration, previous => g.floor ≤ (show Nat from previous)
    | .assemble _ generation, .ok snapshot => snapshot.generation = generation
    | _, _ => True
  next g o x :=
    match o, x with
    | .snapshot, snapshot =>
      { g with floor := KeyringSnapshot.generation snapshot, seen := snapshot :: g.seen }
    | .acquire, _ => { g with permit := true }
    | .release, _ => { g with permit := false, last := none, ready := false }
    | .lastOnDemandMs, last => { g with last := some last }
    | .setLastOnDemandMs ms, _ => { g with last := some ms, ready := true }
    | .fetchAddGeneration, previous =>
      { g with number := some ((show Nat from previous) + 1), ready := false, loaded := true }
    | .fetchRows, .error _ => { g with number := none }
    | .assemble .., .error _ => { g with number := none }
    | .install snapshot, _ =>
      { g with number := none, floor := snapshot.generation, seen := snapshot :: g.seen }
    | _, _ => g

variable {g : RefreshGhost}

section Code

variable {minRefreshSeconds : Nat} {onDemand : Bool}

/-- Under the permit, with no load going on. -/
structure Calm (before after : RefreshGhost) : Prop where
  permit : after.permit = true
  number : after.number = none
  floor : before.floor ≤ after.floor
  seen : before.seen ⊆ after.seen

theorem wp_refresh (hpermit : g.permit = true) (hnumber : g.number = none)
    (hready : onDemand = true → g.ready = true ∧ g.loaded = false) :
    refresh.wp (refreshContract minRefreshSeconds onDemand) g
      (fun g' snapshot => Calm g g' ∧ g.floor < snapshot.generation ∧ snapshot ∈ g'.seen)
      (fun g' _ => Calm g g') := by
  refine ⟨⟨hpermit, hnumber, hready⟩, fun previous hprevious => ⟨trivial, fun fetched _ => ?_⟩⟩
  show Prog.wp _ (Prog.ofExcept fetched >>= _) _ _ _
  cases fetched with
  | error e => exact ⟨hpermit, rfl, le_rfl, fun _ h => h⟩
  | ok rows =>
    refine ⟨rfl, fun assembled hassembled => ?_⟩
    show Prog.wp _ (Prog.ofExcept assembled >>= _) _ _ _
    cases assembled with
    | error e => exact ⟨hpermit, rfl, le_rfl, fun _ h => h⟩
    | ok snapshot =>
      have hgeneration : snapshot.generation = (show Nat from previous) + 1 := hassembled
      have hfloor : g.floor < snapshot.generation := by
        rw [hgeneration]
        exact Nat.lt_succ_of_le hprevious
      refine ⟨congrArg some hgeneration.symm, fun _ _ => ⟨?_, hfloor, List.mem_cons_self⟩⟩
      exact ⟨hpermit, rfl, hfloor.le, fun _ h => List.mem_cons_of_mem _ h⟩

theorem wp_refreshOrServeOn (hpermit : g.permit = true) (hnumber : g.number = none)
    (hready : onDemand = true → g.ready = true ∧ g.loaded = false) :
    refreshOrServeOn.wp (refreshContract minRefreshSeconds onDemand) g
      (fun g' snapshot => Calm g g' ∧ g.floor ≤ snapshot.generation ∧ snapshot ∈ g'.seen)
      (fun _ _ => True) := by
  unfold refreshOrServeOn
  rw [Prog.wp_bind, Prog.wp_attempt]
  refine Prog.wp_mono (wp_refresh hpermit hnumber hready) ?_ ?_
  · rintro g' snapshot ⟨hcalm, hfloor, hseen⟩
    exact ⟨hcalm, hfloor.le, hseen⟩
  · rintro g' error hcalm
    refine ⟨trivial, fun snapshot hsnapshot => ?_⟩
    have hfloor : g.floor ≤ snapshot.generation := hcalm.floor.trans hsnapshot
    exact ⟨⟨hcalm.permit, hcalm.number, hfloor, fun s h => List.mem_cons_of_mem _ (hcalm.seen h)⟩,
      hfloor, List.mem_cons_self⟩

/-- Between two ticks nothing is held. -/
def Idle (g : RefreshGhost) : Prop :=
  g.permit = false ∧ g.number = none

theorem wp_refreshGated (hidle : Idle g) :
    refreshGated.wp (refreshContract minRefreshSeconds false) g (fun g' _ => Idle g')
      (fun _ _ => True) := by
  refine ⟨hidle.1, fun _ _ => ?_⟩
  show Prog.wp _ (refreshOrServeOn >>= _) _ _ _
  refine Prog.wp_bind_mono (wp_refreshOrServeOn rfl hidle.2 nofun) ?_
  rintro g' snapshot ⟨hcalm, -, -⟩
  exact ⟨⟨hcalm.permit, hcalm.number⟩, fun _ _ => ⟨rfl, hcalm.number⟩⟩

theorem wp_refreshForMiss (hidle : Idle g) (hloaded : g.loaded = false) :
    (refreshForMiss minRefreshSeconds g.floor).wp (refreshContract minRefreshSeconds true) g
      (fun g' snapshot => g.floor ≤ snapshot.generation ∧ snapshot ∈ g'.seen ∧ g.seen ⊆ g'.seen)
      (fun _ _ => True) := by
  refine ⟨hidle.1, fun _ _ => ⟨trivial, fun current hcurrent => ?_⟩⟩
  have hfloor : g.floor ≤ current.generation := hcurrent
  show Prog.wp _ (ite _ _ _) _ _ _
  split
  · -- another load has been installed since the miss
    exact ⟨⟨rfl, hidle.2⟩, fun _ _ => ⟨hfloor, List.mem_cons_self, fun _ h =>
      List.mem_cons_of_mem _ h⟩⟩
  · refine ⟨trivial, fun (elapsed : Nat) helapsed => ⟨rfl, fun (last : Nat) _ => ?_⟩⟩
    show Prog.wp _ (ite _ _ _) _ _ _
    split
    · exact ⟨⟨rfl, hidle.2⟩, fun _ _ => ⟨hfloor, List.mem_cons_self, fun _ h =>
        List.mem_cons_of_mem _ h⟩⟩
    · rename_i hpassed
      refine ⟨⟨rfl, helapsed, last, rfl, ?_⟩, fun _ _ => ?_⟩
      · by_cases hnever : last = never
        · exact .inl hnever
        · right
          by_contra hsoon
          exact hpassed ⟨hnever, Nat.lt_of_not_le hsoon⟩
      · show Prog.wp _ (refreshOrServeOn >>= _) _ _ _
        refine Prog.wp_bind_mono (wp_refreshOrServeOn rfl hidle.2 fun _ => ⟨rfl, hloaded⟩) ?_
        rintro g' snapshot ⟨hcalm, hnewer, hseen⟩
        refine ⟨⟨hcalm.permit, hcalm.number⟩, fun _ _ => ⟨hfloor.trans hnewer, hseen, fun s h => ?_⟩⟩
        exact hcalm.seen (List.mem_cons_of_mem _ h)

/-- What is known of an answer. -/
structure Answered (dataKeyId : RawUuid) (answer : CipherAnswer) (g : RefreshGhost) : Prop where
  observed : answer.observed ∈ g.seen
  served : answer.served ∈ g.seen
  newer : answer.observed.generation ≤ answer.served.generation
  result : answer.result =
    (answer.served.resolve dataKeyId).getD (.error (.unknownDataKey dataKeyId))

theorem wp_keyringCipherFor (dataKeyId : RawUuid) :
    (keyringCipherFor minRefreshSeconds dataKeyId).wp (refreshContract minRefreshSeconds true) {}
      (fun g answer => Answered dataKeyId answer g) (fun _ _ => True) := by
  unfold keyringCipherFor
  refine ⟨trivial, fun snapshot _ => ?_⟩
  dsimp only [Prog.bind]
  split
  · rename_i resolved hresolved
    exact ⟨List.mem_cons_self, List.mem_cons_self, le_rfl, by rw [hresolved]; rfl⟩
  · refine Prog.wp_bind_mono (wp_refreshForMiss ⟨rfl, rfl⟩ rfl) ?_
    rintro g' refreshed ⟨hnewer, hserved, hseen⟩
    exact ⟨hseen List.mem_cons_self, hserved, hnewer, rfl⟩

end Code

/-! ## The state of the keyring -/

/-- What holds of the state on its own. -/
structure SoundState (minRefreshSeconds : Nat) (w : RefreshWorld) : Prop where
  counter : w.snapshot.generation ≤ w.generation
  head : w.installed.head? = some w.snapshot
  order : w.installed.Pairwise fun newer older => older.generation < newer.generation
  refreshing : ∀ before, w.refreshing = some before → before = w.snapshot
  records : ∀ r ∈ w.refreshes,
    if r.succeeded then r.before.generation < r.after.generation else r.after = r.before
  never : w.lastOnDemandMs = Keyring.never → w.loads = []
  paced : ∀ load ∈ w.loads, load.reading ≤ w.lastOnDemandMs
  spaced : w.loads.Pairwise fun later earlier =>
    earlier.reading + minRefreshMs minRefreshSeconds ≤ later.reading
  once : (w.loads.map OnDemandLoad.caller).Nodup
  uptime : w.elapsed / 1000000 < Keyring.never

/-- The party can still move. -/
def RefreshWorld.Alive (w : RefreshWorld) : RefreshParty → Prop
  | .ticker => True
  | .caller n => n ∉ w.dropped

/-- What a party knows of the state. -/
structure Knows (minRefreshSeconds : Nat) (w : RefreshWorld) (i : RefreshParty)
    (g : RefreshGhost) : Prop where
  holder : g.permit = true → w.permit = some i
  floor : g.floor ≤ w.snapshot.generation
  number : ∀ k, g.number = some k →
    g.permit = true ∧ k = w.generation ∧ w.snapshot.generation < k
  last : g.permit = true → ∀ last, g.last = some last → w.lastOnDemandMs = last
  ready : g.permit = true → g.ready = true → w.lastOnDemandMs < never ∧
    ∀ load ∈ w.loads, load.reading + minRefreshMs minRefreshSeconds ≤ w.lastOnDemandMs
  loaded : ∀ n, i = .caller n → g.loaded = false → n ∉ w.loads.map OnDemandLoad.caller
  idle : g.permit = false → g.last = none ∧ g.ready = false

/-- **The invariant.** -/
structure Disciplined (minRefreshSeconds : Nat) (w : RefreshWorld)
    (γ : RefreshParty → RefreshGhost) : Prop where
  state : SoundState minRefreshSeconds w
  knows : ∀ i, w.Alive i → Knows minRefreshSeconds w i (γ i)
  seen : ∀ i, ∀ snapshot ∈ (γ i).seen, snapshot ∈ w.installed

variable {snapshot : KeyringSnapshot}

variable {w : RefreshWorld}

variable {w' : RefreshWorld}

section Steps

variable {minRefreshSeconds : Nat} {i j : RefreshParty}

section

variable (h : SoundState minRefreshSeconds w)
include h

theorem mem_installed : w.snapshot ∈ w.installed :=
  List.mem_of_mem_head? h.head

theorem generation_le_of_mem (hmem : snapshot ∈ w.installed) :
    snapshot.generation ≤ w.snapshot.generation := by
  cases hinstalled : w.installed with
  | nil =>
    rw [hinstalled] at hmem
    cases hmem
  | cons newest rest =>
    have hhead := h.head
    have horder := h.order
    rw [hinstalled] at hmem hhead horder
    obtain rfl := Option.some.inj hhead
    rcases List.mem_cons.mp hmem with rfl | hmem
    · exact le_rfl
    · exact ((List.pairwise_cons.mp horder).1 snapshot hmem).le

theorem soundState_permit (permit : Option RefreshParty) :
    SoundState minRefreshSeconds { w with permit } :=
  ⟨h.counter, h.head, h.order, h.refreshing, h.records, h.never, h.paced, h.spaced, h.once, h.uptime⟩

theorem soundState_endRefresh :
    SoundState minRefreshSeconds (w.endRefresh false) where
  counter := h.counter
  head := h.head
  order := h.order
  refreshing := nofun
  records := by
    intro r hr
    unfold RefreshWorld.endRefresh at hr
    simp only at hr
    split at hr
    · rename_i before hbefore
      rcases List.mem_cons.mp hr with rfl | hr
      · exact (h.refreshing before hbefore).symm
      · exact h.records r hr
    · exact h.records r hr
  never := h.never
  paced := h.paced
  spaced := h.spaced
  once := h.once
  uptime := h.uptime

theorem soundState_install (hnewer : w.snapshot.generation < snapshot.generation)
    (hcounter : snapshot.generation ≤ w.generation) :
    SoundState minRefreshSeconds ((w.install snapshot).endRefresh true) where
  counter := hcounter
  head := rfl
  order := by
    refine List.pairwise_cons.mpr ⟨fun older holder => ?_, h.order⟩
    exact Nat.lt_of_le_of_lt (generation_le_of_mem h holder) hnewer
  refreshing := nofun
  records := by
    intro r hr
    unfold RefreshWorld.endRefresh RefreshWorld.install at hr
    simp only at hr
    split at hr
    · rename_i before hbefore
      rcases List.mem_cons.mp hr with rfl | hr
      · simpa [h.refreshing before hbefore] using hnewer
      · exact h.records r hr
    · exact h.records r hr
  never := h.never
  paced := h.paced
  spaced := h.spaced
  once := h.once
  uptime := h.uptime

theorem soundState_setLast {ms : Nat} (hms : ms < never)
    (hfar : ∀ load ∈ w.loads, load.reading + minRefreshMs minRefreshSeconds ≤ ms) :
    SoundState minRefreshSeconds { w with lastOnDemandMs := ms } where
  counter := h.counter
  head := h.head
  order := h.order
  refreshing := h.refreshing
  records := h.records
  never heq := absurd heq (Nat.ne_of_lt hms)
  paced load hload := (Nat.le_add_right _ _).trans (hfar load hload)
  spaced := h.spaced
  once := h.once
  uptime := h.uptime

theorem far_of_passed {ms : Nat}
    (hpassed : w.lastOnDemandMs = never ∨ minRefreshMs minRefreshSeconds ≤ ms - w.lastOnDemandMs) :
    ∀ load ∈ w.loads, load.reading + minRefreshMs minRefreshSeconds ≤ ms := by
  intro load hload
  rcases hpassed with hnever | hpassed
  · rw [h.never hnever] at hload
    cases hload
  · have hpaced := h.paced load hload
    have hpos : 0 < minRefreshMs minRefreshSeconds := by
      unfold minRefreshMs
      omega
    omega

theorem soundState_startRefresh
    (hready : ∀ n, i = .caller n → w.lastOnDemandMs < never ∧
      (∀ load ∈ w.loads, load.reading + minRefreshMs minRefreshSeconds ≤ w.lastOnDemandMs) ∧
      n ∉ w.loads.map OnDemandLoad.caller) : SoundState minRefreshSeconds (w.startRefresh i) := by
  have hstate : SoundState minRefreshSeconds (w.startRefresh .ticker) :=
    { h with
      counter := h.counter.trans (Nat.le_succ _)
      refreshing := fun before hbefore => (Option.some.inj hbefore).symm }
  cases i with
  | ticker => exact hstate
  | caller n =>
    obtain ⟨hlast, hfar, hfresh⟩ := hready n rfl
    refine { hstate with never := ?_, paced := ?_, spaced := ?_, once := ?_ }
    · exact fun heq => absurd heq (Nat.ne_of_lt hlast)
    · intro load hload
      rcases List.mem_cons.mp hload with rfl | hload
      · exact le_rfl
      · exact h.paced load hload
    · exact List.pairwise_cons.mpr ⟨hfar, h.spaced⟩
    · exact List.nodup_cons.mpr ⟨hfresh, h.once⟩

end

theorem Knows.of_permit_false (h : Knows minRefreshSeconds w j g) (hpermit : g.permit = false)
    (hnewer : w.snapshot.generation ≤ w'.snapshot.generation)
    (hloads : ∀ n, j = .caller n → n ∉ w.loads.map OnDemandLoad.caller →
      n ∉ w'.loads.map OnDemandLoad.caller) : Knows minRefreshSeconds w' j g where
  holder htrue := by
    rw [hpermit] at htrue
    cases htrue
  floor := h.floor.trans hnewer
  number k hk := by
    obtain ⟨htrue, -⟩ := h.number k hk
    rw [hpermit] at htrue
    cases htrue
  last htrue := by
    rw [hpermit] at htrue
    cases htrue
  ready htrue := by
    rw [hpermit] at htrue
    cases htrue
  loaded n hn hloaded := hloads n hn (h.loaded n hn hloaded)
  idle := h.idle

theorem permit_false_of_holder (hi : w.permit = some i) (hj : Knows minRefreshSeconds w j g)
    (hne : j ≠ i) : g.permit = false := by
  by_contra htrue
  have hholder := hj.holder (by simpa using htrue)
  rw [hi] at hholder
  exact hne (Option.some.inj hholder).symm

end Steps

def RefreshParty.onDemand : RefreshParty → Bool
  | ticker => false
  | caller _ => true

section Grant

variable {minRefreshSeconds : Nat} {i : RefreshParty} {γ : RefreshParty → RefreshGhost} {A : Aead}
  {keyCheckValue : DataKey → FixedBytes 8} {custody : EnvironmentMasterKeyCustody}

theorem Disciplined.update (h : Disciplined minRefreshSeconds w γ)
    (hstate : SoundState minRefreshSeconds w') (hdropped : w'.dropped = w.dropped)
    (hinstalled : ∀ snapshot ∈ w.installed, snapshot ∈ w'.installed)
    (hown : Knows minRefreshSeconds w' i g) (hseen : ∀ snapshot ∈ g.seen, snapshot ∈ w'.installed)
    (hothers : ∀ j, j ≠ i → Knows minRefreshSeconds w j (γ j) →
      Knows minRefreshSeconds w' j (γ j)) :
    Disciplined minRefreshSeconds w' (Function.update γ i g) where
  state := hstate
  knows j hj := by
    by_cases heq : j = i
    · subst heq
      rwa [Function.update_self]
    · rw [Function.update_of_ne heq]
      refine hothers j heq (h.knows j ?_)
      cases j with
      | ticker => trivial
      | caller n => rwa [RefreshWorld.Alive, ← hdropped]
  seen j := by
    by_cases heq : j = i
    · subst heq
      rwa [Function.update_self]
    · rw [Function.update_of_ne heq]
      exact fun snapshot hmem => hinstalled snapshot (h.seen j snapshot hmem)

theorem Disciplined.read (h : Disciplined minRefreshSeconds w γ) (halive : w.Alive i)
    (hown : Knows minRefreshSeconds w i (γ i) → Knows minRefreshSeconds w i g)
    (hseen : ∀ snapshot ∈ g.seen, snapshot ∈ w.installed) :
    Disciplined minRefreshSeconds w (Function.update γ i g) :=
  h.update h.state rfl (fun _ hmem => hmem) (hown (h.knows i halive)) hseen fun _ _ hj => hj

theorem whenEq_eq_some {α : Type} [DecidableEq α] {answer value : α} {next : RefreshWorld}
    (h : whenEq answer value next = some w') : answer = value ∧ next = w' := by
  unfold whenEq at h
  split at h
  · exact ⟨‹_›, Option.some.inj h⟩
  · cases h

theorem Disciplined.fail (h : Disciplined minRefreshSeconds w γ) (halive : w.Alive i) :
    Disciplined minRefreshSeconds (w.endRefresh false)
      (Function.update γ i { γ i with number := none }) := by
  have hi := h.knows i halive
  refine h.update (soundState_endRefresh h.state) rfl (fun _ hmem => hmem) ?_ (h.seen i) ?_
  · exact ⟨hi.holder, hi.floor, nofun, hi.last, hi.ready, hi.loaded, hi.idle⟩
  · intro j _ hj
    exact ⟨hj.holder, hj.floor, hj.number, hj.last, hj.ready, hj.loaded, hj.idle⟩

theorem generation_of_assemble {rows : List KeyringRow} {generation : Nat}
    (h : assemble A keyCheckValue custody rows generation = .ok snapshot) :
    snapshot.generation = generation := by
  obtain ⟨acc, -, hresult⟩ := Fallible.bind_eq_ok.mp h
  split at hresult
  · cases hresult
  · cases hresult
    rfl

/-- **One operation of a party** keeps the invariant, and is answered as the contract expects. -/
theorem disciplined_grant (h : Disciplined minRefreshSeconds w γ) (halive : w.Alive i)
    {o : RefreshOp} {x : refreshSig.Ans o}
    (hmay : (refreshContract minRefreshSeconds i.onDemand).may (γ i) o)
    (hgrant : grantRefresh A keyCheckValue custody i w o x = some w') :
    (refreshContract minRefreshSeconds i.onDemand).answers (γ i) o x ∧
      Disciplined minRefreshSeconds w' (Function.update γ i
        ((refreshContract minRefreshSeconds i.onDemand).next (γ i) o x)) := by
  have hi := h.knows i halive
  cases o with
  | snapshot =>
    obtain ⟨rfl, rfl⟩ := whenEq_eq_some (α := KeyringSnapshot) hgrant
    refine ⟨hi.floor, h.read halive ?_ ?_⟩
    · exact fun hi => ⟨hi.holder, le_rfl, hi.number, hi.last, hi.ready, hi.loaded, hi.idle⟩
    · intro snapshot hmem
      rcases List.mem_cons.mp hmem with rfl | hmem
      · exact mem_installed h.state
      · exact h.seen i snapshot hmem
  | acquire =>
    simp only [grantRefresh] at hgrant
    split at hgrant
    · rename_i hfree
      cases hgrant
      refine ⟨trivial, h.update (soundState_permit h.state (some i)) rfl (fun _ hmem => hmem) ?_
        (h.seen i) ?_⟩
      · obtain ⟨hlast, hready⟩ := hi.idle hmay
        refine ⟨fun _ => rfl, hi.floor, fun k hk => ⟨rfl, (hi.number k hk).2⟩, ?_, ?_, hi.loaded,
          nofun⟩
        · intro _ last hsome
          rw [show (γ i).last = some last from hsome] at hlast
          cases hlast
        · intro _ htrue
          rw [show (γ i).ready = true from htrue] at hready
          cases hready
      · intro j hne hj
        refine hj.of_permit_false ?_ le_rfl fun _ _ hn => hn
        by_contra htrue
        rw [hj.holder (by simpa using htrue)] at hfree
        cases hfree
    · cases hgrant
  | release =>
    cases hgrant
    have hholder := hi.holder hmay.1
    refine ⟨trivial, h.update (soundState_permit h.state none) rfl (fun _ hmem => hmem) ?_
      (h.seen i) ?_⟩
    · refine ⟨nofun, hi.floor, fun k hk => ?_, nofun, nofun, hi.loaded, fun _ => ⟨rfl, rfl⟩⟩
      have hnone : (γ i).number = some k := hk
      rw [hmay.2] at hnone
      cases hnone
    · intro j hne hj
      exact hj.of_permit_false (permit_false_of_holder hholder hj hne) le_rfl fun _ _ hn => hn
  | elapsed =>
    obtain ⟨rfl, rfl⟩ := whenEq_eq_some (α := Nat) hgrant
    refine ⟨?_, h.read halive (fun hi => hi) (h.seen i)⟩
    exact Nat.lt_of_le_of_lt (Nat.min_le_left _ _) h.state.uptime
  | lastOnDemandMs =>
    obtain ⟨rfl, rfl⟩ := whenEq_eq_some (α := Nat) hgrant
    refine ⟨trivial, h.read halive (fun hi => ?_) (h.seen i)⟩
    exact ⟨hi.holder, hi.floor, hi.number, fun _ last hlast => Option.some.inj hlast, hi.ready,
      hi.loaded, absurd hmay ∘ Bool.eq_false_iff.mp⟩
  | setLastOnDemandMs ms =>
    cases hgrant
    obtain ⟨hpermit, hms, last, hlast, hpassed⟩ := hmay
    have hholder := hi.holder hpermit
    have hfar : ∀ load ∈ w.loads, load.reading + minRefreshMs minRefreshSeconds ≤ ms := by
      apply far_of_passed h.state
      rwa [hi.last hpermit last hlast]
    refine ⟨trivial, h.update (soundState_setLast h.state hms hfar) rfl (fun _ hmem => hmem) ?_
      (h.seen i) ?_⟩
    · exact ⟨hi.holder, hi.floor, hi.number, fun _ last hlast => Option.some.inj hlast,
        fun _ _ => ⟨hms, hfar⟩, hi.loaded, absurd hpermit ∘ Bool.eq_false_iff.mp⟩
    · intro j hne hj
      exact hj.of_permit_false (permit_false_of_holder hholder hj hne) le_rfl fun _ _ hn => hn
  | fetchAddGeneration =>
    obtain ⟨rfl, rfl⟩ := whenEq_eq_some (α := Nat) hgrant
    obtain ⟨hpermit, hnumber, hready⟩ := hmay
    have hholder := hi.holder hpermit
    have hstart : ∀ n, i = .caller n → w.lastOnDemandMs < never ∧
        (∀ load ∈ w.loads, load.reading + minRefreshMs minRefreshSeconds ≤ w.lastOnDemandMs) ∧
        n ∉ w.loads.map OnDemandLoad.caller := by
      rintro n rfl
      obtain ⟨hstored, hloaded⟩ := hready rfl
      obtain ⟨hlast, hfar⟩ := hi.ready hpermit hstored
      exact ⟨hlast, hfar, hi.loaded n rfl hloaded⟩
    refine ⟨hi.floor.trans h.state.counter, h.update (soundState_startRefresh h.state hstart) rfl
      (fun _ hmem => hmem) ?_ (h.seen i) ?_⟩
    · refine ⟨hi.holder, hi.floor, fun k hk => ?_, hi.last, nofun, nofun,
        absurd hpermit ∘ Bool.eq_false_iff.mp⟩
      obtain rfl : w.generation + 1 = k := Option.some.inj hk
      exact ⟨hpermit, rfl, Nat.lt_succ_of_le h.state.counter⟩
    · intro j hne hj
      refine hj.of_permit_false (permit_false_of_holder hholder hj hne) le_rfl fun n hn hfresh => ?_
      cases i with
      | ticker => exact hfresh
      | caller m =>
        have hnm : n ≠ m := fun heq => hne (hn.trans (congrArg _ heq))
        exact fun hmem => (List.mem_cons.mp hmem).elim hnm hfresh
  | fetchRows =>
    cases x with
    | ok rows =>
      cases hgrant
      exact ⟨trivial, h.read halive (fun hi => hi) (h.seen i)⟩
    | error e =>
      cases hgrant
      exact ⟨trivial, h.fail halive⟩
  | assemble rows generation =>
    cases x with
    | ok snapshot =>
      simp only [grantRefresh] at hgrant
      split at hgrant
      · rename_i hassembled
        cases hgrant
        refine ⟨?_, h.read halive (fun hi => hi) (h.seen i)⟩
        cases hcase : assemble A keyCheckValue custody rows generation with
        | error e =>
          rw [hcase] at hassembled
          cases hassembled
        | ok found =>
          rw [hcase] at hassembled
          obtain rfl : found = snapshot := Option.some.inj hassembled
          exact generation_of_assemble hcase
      · cases hgrant
    | error e =>
      cases hgrant
      exact ⟨trivial, h.fail halive⟩
  | install snapshot =>
    cases hgrant
    have hnumber : (γ i).number = some snapshot.generation := hmay
    obtain ⟨hpermit, hcounter, hnewer⟩ := hi.number _ hnumber
    have hholder := hi.holder hpermit
    refine ⟨trivial, h.update (soundState_install h.state hnewer hcounter.le) rfl
      (fun _ hmem => List.mem_cons_of_mem _ hmem) ?_ ?_ ?_⟩
    · exact ⟨hi.holder, le_rfl, nofun, hi.last, hi.ready, hi.loaded, hi.idle⟩
    · intro s hmem
      rcases List.mem_cons.mp hmem with rfl | hmem
      · exact List.mem_cons_self
      · exact List.mem_cons_of_mem _ (h.seen i s hmem)
    · intro j hne hj
      exact hj.of_permit_false (permit_false_of_holder hholder hj hne) hnewer.le fun _ _ hn => hn

end Grant

/-! ## The outline -/

section Outline

variable (A : Aead) (keyCheckValue : DataKey → FixedBytes 8) (custody : EnvironmentMasterKeyCustody)
  (minRefreshSeconds : Nat) (ids : Nat → RawUuid)

/-- What is known where a call of `cipher_for` starts and where it has answered. -/
def callerAt (dataKeyId : RawUuid) : CallerPoint → RefreshGhost → Prop
  | .start, g => g = {}
  | .answered answer, g => Answered dataKeyId answer g

def refreshPoints : (i : RefreshParty) →
    (refreshSystem A keyCheckValue custody minRefreshSeconds ids).Point i → RefreshGhost → Prop
  | .ticker => fun _ g => Idle g
  | .caller n => callerAt (ids n)

theorem wp_ticker (hidle : Idle g) :
    Prog.wp (ε := Empty) (refreshContract minRefreshSeconds false)
      (refreshGated >>= fun _ => pure (some ())) g
      (fun g' r => ∀ l : Unit, r = some l → Idle g') (fun _ _ => True) := by
  refine Prog.wp_bind_mono (wp_refreshGated hidle) ?_
  rintro g' snapshot hidle' l -
  exact hidle'

theorem wp_caller (dataKeyId : RawUuid) :
    Prog.wp (ε := Empty) (refreshContract minRefreshSeconds true)
      (keyringCipherFor minRefreshSeconds dataKeyId >>= fun answer =>
        pure (some (CallerPoint.answered answer))) {}
      (fun g r => ∀ l, r = some l → callerAt dataKeyId l g) (fun _ _ => True) := by
  refine Prog.wp_bind_mono (wp_keyringCipherFor dataKeyId) ?_
  rintro g answer hanswered l ⟨⟩
  exact hanswered

theorem disciplined_drop {minRefreshSeconds : Nat} {γ : RefreshParty → RefreshGhost}
    (h : Disciplined minRefreshSeconds w γ) (n : Nat) :
    Disciplined minRefreshSeconds (w.drop n) γ := by
  have halive : ∀ {dropped : List Nat} {j : RefreshParty}, dropped = n :: w.dropped →
      ({ w with dropped } : RefreshWorld).Alive j → w.Alive j ∧ j ≠ .caller n := by
    rintro _ j rfl hj
    cases j with
    | ticker => exact ⟨trivial, nofun⟩
    | caller m =>
      obtain ⟨hne, hold⟩ := not_or.mp fun hmem => hj (List.mem_cons.mpr hmem)
      exact ⟨hold, fun heq => hne (RefreshParty.caller.inj heq)⟩
  unfold RefreshWorld.drop
  split
  · rename_i hholder
    have hstate := soundState_permit (soundState_endRefresh h.state) none
    refine ⟨⟨hstate.counter, hstate.head, hstate.order, hstate.refreshing, hstate.records,
      hstate.never, hstate.paced, hstate.spaced, hstate.once, hstate.uptime⟩, fun j hj => ?_, h.seen⟩
    obtain ⟨hj, hne⟩ := halive rfl hj
    exact (h.knows j hj).of_permit_false (permit_false_of_holder hholder (h.knows j hj) hne) le_rfl
      fun _ _ hm => hm
  · refine ⟨⟨h.state.counter, h.state.head, h.state.order, h.state.refreshing, h.state.records,
      h.state.never, h.state.paced, h.state.spaced, h.state.once, h.state.uptime⟩, fun j hj => ?_,
      h.seen⟩
    have hk := h.knows j (halive rfl hj).1
    exact ⟨hk.holder, hk.floor, hk.number, hk.last, hk.ready, hk.loaded, hk.idle⟩

def disciplineOutline :
    System.Outline (refreshSystem A keyCheckValue custody minRefreshSeconds ids) where
  Ghost _ := RefreshGhost
  contract i := refreshContract minRefreshSeconds i.onDemand
  at_ := refreshPoints A keyCheckValue custody minRefreshSeconds ids
  shared := Disciplined minRefreshSeconds
  code_ok i l g h := by
    cases i with
    | ticker => exact wp_ticker minRefreshSeconds h
    | caller n =>
      cases l with
      | start =>
        obtain rfl : g = {} := h
        exact wp_caller minRefreshSeconds (ids n)
      | answered answer => exact nofun
  act_ok i w o x w' γ hshared _ hmay hgrant := by
    cases i with
    | ticker => exact disciplined_grant (i := .ticker) hshared trivial hmay hgrant
    | caller n =>
      have hgrant' : (if n ∈ w.dropped then none
        else grantRefresh A keyCheckValue custody (.caller n) w o x) = some w' := hgrant
      split at hgrant'
      · cases hgrant'
      · rename_i halive
        exact disciplined_grant (i := .caller n) hshared halive hmay hgrant'
  nature_ok w e w' γ hshared h := by
    cases e with
    | tick nanos =>
      have h' : (if (w.elapsed + nanos) / 1000000 < never then
        some { w with elapsed := w.elapsed + nanos } else none) = some w' := h
      split at h'
      · rename_i huptime
        cases h'
        obtain ⟨hstate, hknows, hseen⟩ := hshared
        refine ⟨⟨hstate.counter, hstate.head, hstate.order, hstate.refreshing, hstate.records,
          hstate.never, hstate.paced, hstate.spaced, hstate.once, huptime⟩, fun j hj => ?_, hseen⟩
        have hk := hknows j (by cases j <;> exact hj)
        exact ⟨hk.holder, hk.floor, hk.number, hk.last, hk.ready, hk.loaded, hk.idle⟩
      · cases h'
    | drop n =>
      obtain rfl := Option.some.inj h
      exact disciplined_drop hshared n

theorem installed_suffix {s t : (refreshSystem A keyCheckValue custody minRefreshSeconds ids).State}
    {moves : List (refreshSystem A keyCheckValue custody minRefreshSeconds ids).Move}
    (hrun : runFrom (refreshSystem A keyCheckValue custody minRefreshSeconds ids).step s
      moves = some t) :
    RefreshWorld.installed s.world <:+ RefreshWorld.installed t.world := by
  have hgrant : ∀ {i w o x w'}, grantRefresh A keyCheckValue custody i w o x = some w' →
      w.installed <:+ w'.installed := by
    intro i w o x w' h
    cases o with
    | snapshot | elapsed | lastOnDemandMs | fetchAddGeneration =>
      unfold grantRefresh at h
      obtain ⟨-, hw⟩ := whenEq_eq_some h
      subst hw
      exact List.suffix_rfl
    | release | setLastOnDemandMs ms =>
      cases h
      exact List.suffix_rfl
    | acquire =>
      simp only [grantRefresh] at h
      split at h
      · cases h
        exact List.suffix_rfl
      · cases h
    | fetchRows =>
      cases x <;> cases h <;> exact List.suffix_rfl
    | assemble rows generation =>
      cases x with
      | error e =>
        cases h
        exact List.suffix_rfl
      | ok snapshot =>
        simp only [grantRefresh] at h
        split at h
        · cases h
          exact List.suffix_rfl
        · cases h
    | install snapshot =>
      cases h
      exact List.suffix_cons _ _
  have hnature : ∀ {w : RefreshWorld} {n : Nat}, w.installed <:+ (w.drop n).installed := by
    intro w n
    unfold RefreshWorld.drop
    split <;> exact List.suffix_rfl
  refine Transition.runFrom_invariant
    (I := fun u => RefreshWorld.installed s.world <:+ RefreshWorld.installed u.world) hrun
    List.suffix_rfl ?_
  intro u m u' hu hstep
  refine hu.trans ?_
  rcases System.step_cases hstep with ⟨i, answer, o, k, w, -, -, hw, rfl⟩ | ⟨i, l, -, rfl⟩ |
    ⟨e, w, hw, rfl⟩
  · cases i with
    | ticker => exact hgrant hw
    | caller n =>
      have hw' : (if n ∈ RefreshWorld.dropped u.world then none
        else grantRefresh A keyCheckValue custody (.caller n) u.world o (answer o)) = some w := hw
      split at hw'
      · cases hw'
      · exact hgrant hw'
  · exact List.suffix_rfl
  · cases e with
    | tick nanos =>
      have hw' : (if (RefreshWorld.elapsed u.world + nanos) / 1000000 < never then
        some { u.world with elapsed := RefreshWorld.elapsed u.world + nanos } else none) =
          some w := hw
      split at hw'
      · cases hw'
        exact List.suffix_rfl
      · cases hw'
    | drop n =>
      obtain rfl := Option.some.inj hw
      exact hnature

/--
**The discipline of refreshes.** Along every run the generation of the installed snapshot never
decreases; a refresh that succeeds installs a greater one, a refresh that fails leaves the installed
snapshot as it found it; on the clock of the keyring any two loads of misses are `min_refresh`
apart; and a call loads at most once and answers from a snapshot installed no earlier than the one
it looked at first.
-/
theorem keyring_refresh_discipline {table : KeyTable} {boot : KeyringSnapshot}
    (hboot : loadSnapshot A keyCheckValue custody table 0 = .ok boot)
    {moves₁ moves₂ : List (refreshSystem A keyCheckValue custody minRefreshSeconds ids).Move}
    {s t : (refreshSystem A keyCheckValue custody minRefreshSeconds ids).State}
    (hrun₁ : runFrom (refreshSystem A keyCheckValue custody minRefreshSeconds ids).step
      (refreshInitial A keyCheckValue custody minRefreshSeconds ids boot) moves₁ = some s)
    (hrun₂ : runFrom (refreshSystem A keyCheckValue custody minRefreshSeconds ids).step s
      moves₂ = some t) :
    (RefreshWorld.snapshot s.world).generation ≤ (RefreshWorld.snapshot t.world).generation ∧
    (∀ r ∈ RefreshWorld.refreshes t.world,
      if r.succeeded then r.before.generation < r.after.generation else r.after = r.before) ∧
    (RefreshWorld.loads t.world).Pairwise (fun later earlier =>
      earlier.reading + minRefreshMs minRefreshSeconds ≤ later.reading) ∧
    ((RefreshWorld.loads t.world).map OnDemandLoad.caller).Nodup ∧
    (RefreshWorld.installed t.world).Pairwise (fun newer older =>
      older.generation < newer.generation) ∧
    ∀ n answer, t.proc (.caller n) = .ret (some (CallerPoint.answered answer)) →
      answer.observed ∈ RefreshWorld.installed t.world ∧
      answer.served ∈ RefreshWorld.installed t.world ∧
      answer.observed.generation ≤ answer.served.generation ∧
      answer.result = (answer.served.resolve (ids n)).getD (.error (.unknownDataKey (ids n))) := by
  have hzero : 0 / 1000000 < never := by decide
  have hinitial : (disciplineOutline A keyCheckValue custody minRefreshSeconds ids).Holds
      (refreshInitial A keyCheckValue custody minRefreshSeconds ids boot) := by
    refine ⟨fun _ => {}, ⟨⟨?_, rfl, List.pairwise_singleton _ _, nofun, nofun, fun _ => rfl, nofun,
      .nil, List.nodup_nil, hzero⟩, fun i _ => ?_, nofun⟩, fun i => ?_⟩
    · exact (generation_of_assemble hboot).le
    · exact ⟨nofun, Nat.zero_le _, nofun, nofun, nofun, fun _ _ _ => List.not_mem_nil,
        fun _ => ⟨rfl, rfl⟩⟩
    · cases i with
      | ticker =>
        rintro l ⟨⟩
        exact ⟨rfl, rfl⟩
      | caller n =>
        rintro l ⟨⟩
        rfl
  have hs := (disciplineOutline A keyCheckValue custody minRefreshSeconds ids).invariant
    (fun _ _ _ => trivial) hinitial hrun₁
  obtain ⟨γ, ht, hproc⟩ := (disciplineOutline A keyCheckValue custody minRefreshSeconds ids).invariant
    (fun _ _ _ => trivial) hs hrun₂
  obtain ⟨γ₁, hs, -⟩ := hs
  refine ⟨?_, ht.state.records, ht.state.spaced, ht.state.once, ht.state.order, ?_⟩
  · -- the snapshot of the earlier state is on record in the later one
    apply generation_le_of_mem ht.state
    exact (installed_suffix A keyCheckValue custody minRefreshSeconds ids hrun₂).subset
      (mem_installed hs.state)
  · intro n answer hanswer
    have hat := hproc (.caller n)
    rw [hanswer] at hat
    have hanswered : Answered (ids n) answer (γ (.caller n)) := hat _ rfl
    exact ⟨ht.seen _ _ hanswered.observed, ht.seen _ _ hanswered.served, hanswered.newer,
      hanswered.result⟩

end Outline

namespace Sample

theorem isSome_boot :
    (loadSnapshot resealCipher checkValueOf custody resealKeys 0).toOption.isSome := by
  decide +kernel

def bootSnapshot : KeyringSnapshot :=
  (loadSnapshot resealCipher checkValueOf custody resealKeys 0).toOption.get isSome_boot

theorem loadSnapshot_eq_boot :
    loadSnapshot resealCipher checkValueOf custody resealKeys 0 = .ok bootSnapshot := by
  have hsome : (loadSnapshot resealCipher checkValueOf custody resealKeys 0).toOption =
      some bootSnapshot := (Option.some_get isSome_boot).symm
  cases hload : loadSnapshot resealCipher checkValueOf custody resealKeys 0 with
  | error e =>
    rw [hload] at hsome
    cases hsome
  | ok snapshot =>
    rw [hload] at hsome
    exact congrArg Except.ok (Option.some.inj hsome)

/-- Every call asks for a key that is not in the keyring; the floor is one second. -/
abbrev refreshing : System RefreshParty :=
  refreshSystem resealCipher checkValueOf custody 1 fun _ => uuidOf 0x77

abbrev refreshingStart : refreshing.State :=
  refreshInitial resealCipher checkValueOf custody 1 (fun _ => uuidOf 0x77) bootSnapshot

/-- The answers of a process whose database is up, or down. -/
def keyringAnswers (w : RefreshWorld) (up : Bool) : (o : RefreshOp) → refreshSig.Ans o
  | .snapshot => w.snapshot
  | .acquire | .release | .setLastOnDemandMs _ | .install _ => ()
  | .elapsed => w.elapsed
  | .lastOnDemandMs => w.lastOnDemandMs
  | .fetchAddGeneration => w.generation
  | .fetchRows => if up then .ok (fetchRows resealKeys) else .error .database
  | .assemble rows generation => assemble resealCipher checkValueOf custody rows generation

inductive RefreshCue
  | call (n : Nat)
  | step (n : Nat) (up : Bool)
  | wait (nanos : Nat)

def refreshMove (s : refreshing.State) : RefreshCue → refreshing.Move
  | .call n => .jump (.caller n)
  | .step n up => .act (.caller n) (keyringAnswers s.world up)
  | .wait nanos => .nature (.tick nanos)

def performRefresh : List RefreshCue → refreshing.State → List refreshing.Move
  | [], _ => []
  | cue :: rest, s =>
    refreshMove s cue :: ((refreshing.step s (refreshMove s cue)).map (performRefresh rest)).getD []

/-- A miss from its first look to its answer. -/
def missCues (n : Nat) (up : Bool) : List RefreshCue :=
  .call n :: List.replicate (if up then 11 else 10) (.step n up)

/-- The first miss loads and installs; a second one, a second later, finds the database down. -/
def firstMiss : List refreshing.Move := performRefresh (missCues 0 true) refreshingStart

def secondCues : List RefreshCue := .wait 1000000000 :: missCues 1 false

/-- Two misses that start 0.9 ms and 1000 ms after boot, with the database down. -/
def closeCues : List RefreshCue :=
  .wait 900000 :: missCues 0 false ++ .wait 999100000 :: missCues 1 false

def closeMisses : List refreshing.Move := performRefresh closeCues refreshingStart

/-- The generation, the outcomes of the refreshes, and the loads that misses started. -/
def refreshLog (s : refreshing.State) : Nat × List Bool × List OnDemandLoad :=
  ((RefreshWorld.snapshot s.world).generation,
    (RefreshWorld.refreshes s.world).map RefreshRecord.succeeded, RefreshWorld.loads s.world)

end Sample

open Sample in
theorem keyring_refresh_discipline_twoMisses :
    ∃ s t, runFrom refreshing.step refreshingStart firstMiss = some s ∧
      runFrom refreshing.step s (performRefresh secondCues s) = some t ∧
      refreshLog t = (1, [false, true], [⟨1, 1000, 1000000000⟩, ⟨0, 0, 0⟩]) ∧
      (RefreshWorld.snapshot s.world).generation ≤ (RefreshWorld.snapshot t.world).generation ∧
      (RefreshWorld.loads t.world).Pairwise (fun later earlier =>
        earlier.reading + minRefreshMs 1 ≤ later.reading) := by
  have hmoves : ((runFrom refreshing.step refreshingStart firstMiss).bind fun s =>
      runFrom refreshing.step s (performRefresh secondCues s)).map refreshLog =
        some (1, [false, true], [⟨1, 1000, 1000000000⟩, ⟨0, 0, 0⟩]) := by
    decide +kernel
  obtain ⟨t, hboth, hlog⟩ := Option.map_eq_some_iff.mp hmoves
  obtain ⟨s, hfirst, hsecond⟩ := Option.bind_eq_some_iff.mp hboth
  obtain ⟨hmono, -, hspaced, -⟩ := keyring_refresh_discipline resealCipher checkValueOf custody 1
    (fun _ => uuidOf 0x77) loadSnapshot_eq_boot hfirst hsecond
  exact ⟨s, t, hfirst, hsecond, hlog, hmono, hspaced⟩

open Sample in
/-- Two misses whose loads start less than the floor of one second apart. -/
theorem misses_load_within_a_second :
    ∃ t, runFrom refreshing.step refreshingStart closeMisses = some t ∧
      ¬(RefreshWorld.loads t.world).Pairwise (fun later earlier =>
        earlier.startedAt + 1000000000 ≤ later.startedAt) := by
  have hmoves : (runFrom refreshing.step refreshingStart closeMisses).map refreshLog =
      some (0, [false, false], [⟨1, 1000, 1000000000⟩, ⟨0, 0, 900000⟩]) := by
    decide +kernel
  obtain ⟨t, hrun, hlog⟩ := Option.map_eq_some_iff.mp hmoves
  refine ⟨t, hrun, fun hspaced => ?_⟩
  have hloads : RefreshWorld.loads t.world = [⟨1, 1000, 1000000000⟩, ⟨0, 0, 900000⟩] :=
    (Prod.mk.inj (Prod.mk.inj hlog).2).2
  rw [hloads] at hspaced
  revert hspaced
  decide

end Moira.Keyring
