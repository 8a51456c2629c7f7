import Moira.Lib.Store
import Moira.Runner.Properties.Protocol

/-!
# The token is handed out once

The container is renamed before its token is returned, and no container is renamed twice.

- **`token_is_handed_out_once`** — one call at most returns the token of a runner; a call that
  begins after it is told that the token is gone or that there is no such runner, or is failed by
  the engine
-/

namespace Moira.Runner

open Transition (runFrom)

variable {requests : Nat → Request}

variable {lib : Libraries} {config : RunnerConfig}

/-! ## Containers -/

/-- The name is kept, or becomes the consumed one. -/
def NameFollows (name name' : String) : Prop :=
  name' = name ∨ (isConsumed name = false ∧ name' = consumedName name)

theorem NameFollows.refl (name : String) : NameFollows name name :=
  .inl rfl

theorem NameFollows.consumed {name name' : String} (h : NameFollows name name')
    (hconsumed : isConsumed name = true) : name' = name := by
  rcases h with h | ⟨hnot, -⟩
  · exact h
  · rw [hconsumed] at hnot
    cases hnot

theorem NameFollows.trans {a b c : String} (h : NameFollows a b) (h' : NameFollows b c) :
    NameFollows a c := by
  rcases h with rfl | ⟨hnot, rfl⟩
  · exact h'
  · -- a consumed name stays
    rw [h'.consumed (isConsumed_consumedName a)]
    exact .inr ⟨hnot, rfl⟩

/-- What a container may become. -/
structure Follows (k k' : Container) : Prop where
  id : k'.id = k.id
  labels : k'.labels = k.labels
  name : NameFollows k.name k'.name
  removed : k.removed = true → k'.removed = true
  outcome : k.outcome = true → k'.outcome = true

theorem Follows.refl (k : Container) : Follows k k :=
  ⟨rfl, rfl, .refl _, fun h => h, fun h => h⟩

/-- The containers are those there were, and each has become what it may. -/
def Becomes (R : Container → Container → Prop) (containers containers' : List Container) : Prop :=
  ∃ g, containers' = containers.map g ∧ ∀ k ∈ containers, R k (g k)

variable {k : Container} {c : ContainerId}

variable {containers : List Container} {w : World}

variable {containers' : List Container}

section Becomes

variable {R : Container → Container → Prop}

theorem Becomes.rfl (hR : ∀ k, R k k) : Becomes R containers containers :=
  ⟨id, containers.map_id.symm, fun k _ => hR k⟩

theorem Becomes.later (h : Becomes R containers containers') (hk : k ∈ containers) :
    ∃ k' ∈ containers', R k k' := by
  obtain ⟨g, rfl, hg⟩ := h
  exact ⟨g k, List.mem_map_of_mem hk, hg k hk⟩

theorem Becomes.earlier (h : Becomes R containers containers') {k' : Container}
    (hk' : k' ∈ containers') : ∃ k ∈ containers, R k k' := by
  obtain ⟨g, rfl, hg⟩ := h
  obtain ⟨k, hk, rfl⟩ := List.mem_map.mp hk'
  exact ⟨k, hk, hg k hk⟩

theorem becomes_modify {f : Container → Container} (hR : ∀ k, R k k)
    (h : ∀ k ∈ w.containers, k.id = c → R k (f k)) :
    Becomes R w.containers (w.modify c f).containers := by
  refine ⟨fun k => if k.id = c then f k else k, Eq.refl _, fun k hk => ?_⟩
  show R k (if k.id = c then f k else k)
  split
  · next hid => exact h k hk hid
  · exact hR k

end Becomes

/-- Each container is as it was or as what it may become. -/
abbrev Evolved (containers containers' : List Container) : Prop :=
  Becomes Follows containers containers'

theorem Evolved.refl (containers : List Container) : Evolved containers containers :=
  .rfl .refl

theorem evolved_modify {f : Container → Container}
    (h : ∀ k ∈ w.containers, k.id = c → Follows k (f k)) :
    Evolved w.containers (w.modify c f).containers :=
  becomes_modify .refl h

/-- Container ids and runner ids are not used twice. -/
structure Registry (lib : Libraries) (containers : List Container) : Prop where
  ids : (containers.map (·.id)).Nodup
  runners : ∀ a ∈ containers, ∀ b ∈ containers, ∀ id, runnerId lib a.labels = some id →
    runnerId lib b.labels = some id → a = b

theorem Registry.eq_of_id (h : Registry lib containers) {a b : Container} (ha : a ∈ containers)
    (hb : b ∈ containers) (hid : a.id = b.id) : a = b :=
  List.inj_on_of_nodup_map h.ids ha hb hid

theorem Registry.evolve (h : Registry lib containers) (hevolved : Evolved containers containers') :
    Registry lib containers' := by
  obtain ⟨g, rfl, hg⟩ := hevolved
  refine ⟨?_, fun a ha b hb id hida hidb => ?_⟩
  · have hids : (containers.map g).map (·.id) = containers.map (·.id) := by
      rw [List.map_map]
      exact List.map_congr_left fun k hk => (hg k hk).id
    rw [hids]
    exact h.ids
  · obtain ⟨k, hk, rfl⟩ := List.mem_map.mp ha
    obtain ⟨k', hk', rfl⟩ := List.mem_map.mp hb
    rw [(hg k hk).labels] at hida
    rw [(hg k' hk').labels] at hidb
    rw [h.runners k hk k' hk' id hida hidb]

/-! ## What a call holds -/

/-- The record of a container, as it was. -/
structure Mirrors (r : ContainerRecord) (k : Container) : Prop where
  id : k.id = r.id
  labels : k.labels = r.labels
  name : NameFollows r.name k.name

/-- Why a call that begins after the token was returned is refused. -/
def RefusedLater (seen : Seen) (err : ServiceError) : Prop :=
  err = .tokenAlreadyRetrieved ∨ err = .notFound ∨ EngineFailed seen err

/-- What is true of what a call has seen, when `before` had been returned as it began. -/
structure CallHolds (lib : Libraries) (containers : List Container) (issued before : List Uuid)
    (call : Call) (seen : Seen) : Prop where
  listed : ∀ records, seen.listed = some records → ∀ r ∈ records, ∃ k ∈ containers, Mirrors r k
  renamed : ∀ c, seen.renamed = some c → ∃ k ∈ containers, k.id = c ∧ isConsumed k.name = true
  issued : ∀ id, seen.issued = some id → id ∈ issued ∧
    (seen.created = false → ∀ k ∈ containers, runnerId lib k.labels ≠ some id)
  later : ∀ records, seen.listed = some records → ∀ id ∈ before, ∀ r ∈ records,
    runnerId lib r.labels = some id → isConsumed r.name = true
  unrenamed : ∀ id, call = .takeToken id → id ∈ before → seen.renamed = none
  taken : ∀ response id, call = .takeToken id → seen.answered = some (.ok response) →
    ∃ c, seen.renamed = some c ∧ ∃ k ∈ containers, k.id = c ∧ runnerId lib k.labels = some id
  refused : ∀ err id, call = .takeToken id → id ∈ before → seen.answered = some (.error err) →
    RefusedLater seen err

variable {issued issued' before : List Uuid} {call : Call} {seen seen' : Seen}

theorem CallHolds.evolve (h : CallHolds lib containers issued before call seen)
    (hevolved : Evolved containers containers') (hissued : issued ⊆ issued') :
    CallHolds lib containers' issued' before call seen where
  listed records hlisted r hr := by
    obtain ⟨k, hk, hmirrors⟩ := h.listed records hlisted r hr
    obtain ⟨k', hk', hfollows⟩ := hevolved.later hk
    exact ⟨k', hk', hfollows.id.trans hmirrors.id, hfollows.labels.trans hmirrors.labels,
      hmirrors.name.trans hfollows.name⟩
  renamed c hc := by
    obtain ⟨k, hk, hid, hconsumed⟩ := h.renamed c hc
    obtain ⟨k', hk', hfollows⟩ := hevolved.later hk
    refine ⟨k', hk', hfollows.id.trans hid, ?_⟩
    rw [hfollows.name.consumed hconsumed, hconsumed]
  issued id hid := by
    obtain ⟨hmem, hunused⟩ := h.issued id hid
    refine ⟨hissued hmem, fun hcreated k' hk' => ?_⟩
    obtain ⟨k, hk, hfollows⟩ := hevolved.earlier hk'
    rw [hfollows.labels]
    exact hunused hcreated k hk
  later := h.later
  unrenamed := h.unrenamed
  taken response id hcall hanswered := by
    obtain ⟨c, hc, k, hk, hid, hrunner⟩ := h.taken response id hcall hanswered
    obtain ⟨k', hk', hfollows⟩ := hevolved.later hk
    exact ⟨c, hc, k', hk', hfollows.id.trans hid, by rw [hfollows.labels, hrunner]⟩
  refused := h.refused

/-- The call has listed, renamed, asked for and answered the same. -/
structure SameHand (seen seen' : Seen) : Prop where
  listed : seen'.listed = seen.listed
  renamed : seen'.renamed = seen.renamed
  issued : seen'.issued = seen.issued
  created : seen'.created = seen.created
  answered : seen'.answered = seen.answered
  failures : seen.failures ⊆ seen'.failures

theorem RefusedLater.mono {err : ServiceError} (h : RefusedLater seen err)
    (hfailures : seen.failures ⊆ seen'.failures) : RefusedLater seen' err := by
  refine h.imp_right fun h => h.imp_right fun ⟨failure, hmem, herr⟩ => ?_
  exact ⟨failure, hfailures hmem, herr⟩

theorem CallHolds.congr (h : CallHolds lib containers issued before call seen)
    (hsame : SameHand seen seen') : CallHolds lib containers issued before call seen' where
  listed := by rw [hsame.listed]; exact h.listed
  renamed := by rw [hsame.renamed]; exact h.renamed
  issued := by rw [hsame.issued, hsame.created]; exact h.issued
  later := by rw [hsame.listed]; exact h.later
  unrenamed := by rw [hsame.renamed]; exact h.unrenamed
  taken := by rw [hsame.renamed, hsame.answered]; exact h.taken
  refused := by
    rw [hsame.answered]
    exact fun err id hcall hbefore hanswered => (h.refused err id hcall hbefore hanswered).mono hsame.failures

variable {id : Uuid}

theorem CallHolds.found (h : CallHolds lib containers issued before call seen)
    {identity : RunnerIdentity} (hfound : Found lib seen id identity) :
    ∃ k ∈ containers, k.id = identity.containerId ∧ runnerId lib k.labels = some id ∧
      NameFollows identity.containerName k.name := by
  obtain ⟨records, hlisted, hmem, rfl⟩ := hfound
  obtain ⟨r, hr, hidentity⟩ := List.mem_filterMap.mp hmem
  obtain ⟨hrunner, hcontainer, hname, -⟩ := fromRecord_cases hidentity
  obtain ⟨k, hk, hmirrors⟩ := h.listed records hlisted r hr
  refine ⟨k, hk, hmirrors.id.trans hcontainer.symm, ?_, ?_⟩
  · rw [hmirrors.labels, hrunner]
  · rw [hname]
    exact hmirrors.name

theorem CallHolds.consumed (h : CallHolds lib containers issued before call seen)
    {identity : RunnerIdentity} (hfound : Found lib seen id identity) (hbefore : id ∈ before) :
    identity.consumed = true := by
  obtain ⟨records, hlisted, hmem, rfl⟩ := hfound
  obtain ⟨r, hr, hidentity⟩ := List.mem_filterMap.mp hmem
  obtain ⟨hrunner, -, -, hconsumed⟩ := fromRecord_cases hidentity
  rw [hconsumed]
  exact h.later records hlisted identity.id hbefore r hr hrunner

/-! ## The invariant -/

structure Handover (lib : Libraries) (requests : Nat → Request) (w : World) : Prop where
  registry : Registry lib w.containers
  readsBack : ∀ id ∈ w.issued, lib.parseUuid (lib.formatUuid id) = some id
  calls : ∀ i, CallHolds lib w.containers w.issued (w.before i) (requests i).call (w.seen i)
  single : ∀ i j c, (w.seen i).renamed = some c → (w.seen j).renamed = some c → i = j
  distinct : ∀ i j id, (w.seen i).issued = some id → (w.seen j).issued = some id → i = j
  handed : ∀ id ∈ w.handed, ∃ k ∈ w.containers, runnerId lib k.labels = some id ∧
    isConsumed k.name = true
  before : ∀ i, w.before i ⊆ w.handed
  returned : ∀ id, id ∈ w.handed ↔ ∃ i response, (requests i).call = .takeToken id ∧
    (w.seen i).answered = some (.ok response)

variable {w' : World} {i : Nat} {o : RunnerOp} {x : o.Ans}

@[simp] theorem see_seen_self : (w.see config i o x).seen i = (w.seen i).record config o x :=
  Function.update_self ..

theorem see_seen_of_ne {j : Nat} (hne : j ≠ i) : (w.see config i o x).seen j = w.seen j :=
  Function.update_of_ne hne ..

theorem forall_see {P : Nat → Seen → Prop} (hi : P i ((w.seen i).record config o x))
    (h : ∀ j, j ≠ i → P j (w.seen j)) (j : Nat) : P j ((w.see config i o x).seen j) := by
  by_cases hji : j = i
  · subst hji
    rwa [see_seen_self]
  · rw [see_seen_of_ne hji]
    exact h j hji

theorem handed_evolve (h : ∀ id ∈ w.handed, ∃ k ∈ containers, runnerId lib k.labels = some id ∧
      isConsumed k.name = true) (hevolved : Evolved containers containers') :
    ∀ id ∈ w.handed, ∃ k ∈ containers', runnerId lib k.labels = some id ∧
      isConsumed k.name = true := by
  intro id hid
  obtain ⟨k, hk, hrunner, hconsumed⟩ := h id hid
  obtain ⟨k', hk', hfollows⟩ := hevolved.later hk
  exact ⟨k', hk', by rw [hfollows.labels, hrunner], by rw [hfollows.name.consumed hconsumed, hconsumed]⟩

theorem unique_see {α : Type} (f : Seen → Option α) (hseen : w'.seen = w.seen)
    (hunique : ∀ a b v, f (w.seen a) = some v → f (w.seen b) = some v → a = b)
    (hnew : ∀ v, f ((w.seen i).record config o x) = some v →
      f (w.seen i) = some v ∨ ∀ j, f (w.seen j) ≠ some v) (a b : Nat) (v : α)
    (ha : f ((w'.see config i o x).seen a) = some v)
    (hb : f ((w'.see config i o x).seen b) = some v) : a = b := by
  have hold : ∀ a, f ((w'.see config i o x).seen a) = some v →
      f (w.seen a) = some v ∨ (a = i ∧ ∀ j, f (w.seen j) ≠ some v) := by
    refine forall_see (P := fun a seen => f seen = some v →
      f (w.seen a) = some v ∨ (a = i ∧ ∀ j, f (w.seen j) ≠ some v)) ?_ fun a _ => ?_
    · rw [hseen]
      exact fun hv => (hnew v hv).imp_right fun hnew => ⟨rfl, hnew⟩
    · rw [hseen]
      exact .inl
  rcases hold a ha with ha' | ⟨hai, hnew⟩ <;> rcases hold b hb with hb' | ⟨hbi, hnew'⟩
  · exact hunique a b v ha' hb'
  · exact absurd ha' (hnew' a)
  · exact absurd hb' (hnew b)
  · rw [hai, hbi]

theorem returned_see (h : Handover lib requests w) (hseen : w'.seen = w.seen)
    (hanswered : ((w.seen i).record config o x).answered = (w.seen i).answered) (id : Uuid) :
    id ∈ w.handed ↔ ∃ j response, (requests j).call = .takeToken id ∧
      ((w'.see config i o x).seen j).answered = some (.ok response) := by
  have hsame : ∀ j, ((w'.see config i o x).seen j).answered = (w.seen j).answered := by
    refine forall_see (P := fun j seen => seen.answered = (w.seen j).answered) ?_ fun j _ => ?_
    · rw [hseen]
      exact hanswered
    · rw [hseen]
  rw [h.returned id]
  simp only [hsame]

theorem handover_see (h : Handover lib requests w) (hseen : w'.seen = w.seen)
    (hhanded : w'.handed = w.handed) (hbefore : w'.before = w.before)
    (hissued : w.issued ⊆ w'.issued)
    (hreads : ∀ id ∈ w'.issued, lib.parseUuid (lib.formatUuid id) = some id)
    (hevolved : Evolved w.containers w'.containers)
    (hcall : CallHolds lib w'.containers w'.issued (w.before i) (requests i).call
      ((w.seen i).record config o x))
    (hrenamed : ∀ c, ((w.seen i).record config o x).renamed = some c →
      (w.seen i).renamed = some c ∨ ∀ j, (w.seen j).renamed ≠ some c)
    (hid : ∀ id, ((w.seen i).record config o x).issued = some id →
      (w.seen i).issued = some id ∨ ∀ j, (w.seen j).issued ≠ some id)
    (hanswered : ((w.seen i).record config o x).answered = (w.seen i).answered) :
    Handover lib requests (w'.see config i o x) where
  registry := h.registry.evolve hevolved
  readsBack := hreads
  calls := by
    refine forall_see (P := fun j seen =>
      CallHolds lib w'.containers w'.issued (w'.before j) (requests j).call seen) ?_ fun j _ => ?_
    · rw [hseen, hbefore]
      exact hcall
    · rw [hseen, hbefore]
      exact (h.calls j).evolve hevolved hissued
  single := unique_see (·.renamed) hseen h.single hrenamed
  distinct := unique_see (·.issued) hseen h.distinct hid
  handed := by
    show ∀ id ∈ w'.handed, _
    rw [hhanded]
    exact handed_evolve h.handed hevolved
  before j := by
    show w'.before j ⊆ w'.handed
    rw [hbefore, hhanded]
    exact h.before j
  returned id := by
    show id ∈ w'.handed ↔ _
    rw [hhanded]
    exact returned_see h hseen hanswered id

theorem handover_quiet (h : Handover lib requests w) (hseen : w'.seen = w.seen)
    (hissued : w'.issued = w.issued) (hhanded : w'.handed = w.handed) (hbefore : w'.before = w.before)
    (hevolved : Evolved w.containers w'.containers)
    (hsame : SameHand (w.seen i) ((w.seen i).record config o x)) :
    Handover lib requests (w'.see config i o x) := by
  refine handover_see h hseen hhanded hbefore (by rw [hissued]; exact List.Subset.refl _)
    (by rw [hissued]; exact h.readsBack) hevolved ?_ (fun c hc => .inl ?_) (fun id hid => .inl ?_)
    hsame.answered
  · exact ((h.calls i).evolve hevolved (by rw [hissued]; exact List.Subset.refl _)).congr hsame
  · rwa [hsame.renamed] at hc
  · rwa [hsame.issued] at hid

/-! ### The registry is listed -/

theorem mem_records {r : ContainerRecord} (hr : r ∈ w.records) : ∃ k ∈ w.containers, k.record = r := by
  obtain ⟨k, hk, heq⟩ := List.mem_map.mp hr
  exact ⟨k, (List.mem_filter.mp hk).1, heq⟩

theorem handover_listed (h : Handover lib requests w) {records : List ContainerRecord}
    (hperm : records.Perm w.records) :
    Handover lib requests (w.see config i .listRunners (.ok records)) := by
  have hcalls := h.calls i
  refine handover_see h rfl rfl rfl (List.Subset.refl _) h.readsBack (.refl _) ?_ (fun c hc => .inl hc)
    (fun id hid => .inl hid) rfl
  refine
    { listed := fun records' hlisted r hr => ?_
      renamed := hcalls.renamed
      issued := hcalls.issued
      later := fun records' hlisted id hbefore r hr hrunner => ?_
      unrenamed := hcalls.unrenamed
      taken := hcalls.taken
      refused := hcalls.refused }
  · cases hlisted
    obtain ⟨k, hk, rfl⟩ := mem_records (hperm.mem_iff.mp hr)
    exact ⟨k, hk, rfl, rfl, .refl _⟩
  · cases hlisted
    obtain ⟨k, hk, rfl⟩ := mem_records (hperm.mem_iff.mp hr)
    -- the token was returned, so its container has been renamed
    obtain ⟨k', hk', hrunner', hconsumed⟩ := h.handed id (h.before i hbefore)
    rwa [h.registry.runners k hk k' hk' id hrunner hrunner']

/-! ### A container is renamed -/

theorem mem_of_present (h : w.present c = some k) :
    k ∈ w.containers ∧ k.id = c ∧ k.removed = false := by
  have hmatches := List.find?_some h
  simp only [Bool.and_eq_true, decide_eq_true_eq, Bool.not_eq_true'] at hmatches
  exact ⟨List.mem_of_find?_eq_some h, hmatches.1, hmatches.2⟩

theorem ne_of_not_nameTaken {name : String} (h : w.nameTaken name = false) (hk : k ∈ w.containers)
    (hremoved : k.removed = false) : k.name ≠ name := by
  have hnot := List.any_eq_false.mp h k hk
  simpa [hremoved] using hnot

theorem name_of_renamed (h : Handover lib requests w) {newName : String}
    (hmay : May lib (requests i).call (w.seen i) (.rename c newName))
    (hpresent : w.present c = some k) (hname : w.nameTaken newName = false) :
    isConsumed k.name = false ∧ newName = consumedName k.name := by
  obtain ⟨-, id, identity, -, hfound, hunconsumed, rfl, rfl⟩ := hmay
  obtain ⟨hk, hid, hremoved⟩ := mem_of_present hpresent
  obtain ⟨k', hk', hid', -, hfollows⟩ := (h.calls i).found hfound
  obtain rfl : k = k' := h.registry.eq_of_id hk hk' (hid.trans hid'.symm)
  have hnot : isConsumed identity.containerName = false := by
    obtain ⟨records, -, hmem, -⟩ := hfound
    obtain ⟨r, -, hidentity⟩ := List.mem_filterMap.mp hmem
    obtain ⟨-, -, hname, hconsumed⟩ := fromRecord_cases hidentity
    rw [hname, ← hconsumed, hunconsumed]
  rcases hfollows with heq | ⟨-, heq⟩
  · rw [heq]
    exact ⟨hnot, rfl⟩
  · exact absurd heq (ne_of_not_nameTaken hname hk hremoved)

theorem handover_renamed (h : Handover lib requests w) {newName : String}
    {result : Except EngineError Unit}
    (hmay : May lib (requests i).call (w.seen i) (.rename c newName))
    (hpresent : w.present c = some k) (hname : w.nameTaken newName = false) :
    Handover lib requests ((w.modify c fun k => { k with name := newName }).see config i
      (.rename c newName) ⟨result, true⟩) := by
  obtain ⟨hk, hid, -⟩ := mem_of_present hpresent
  obtain ⟨hunconsumed, rfl⟩ := name_of_renamed h hmay hpresent hname
  have hevolved : Evolved w.containers
      (w.modify c fun k' => { k' with name := consumedName k.name }).containers := by
    refine evolved_modify fun k' hk' hid' => ?_
    obtain rfl : k' = k := h.registry.eq_of_id hk' hk (hid'.trans hid.symm)
    exact ⟨rfl, rfl, .inr ⟨hunconsumed, rfl⟩, fun h => h, fun h => h⟩
  have hcalls := (h.calls i).evolve hevolved (List.Subset.refl w.issued)
  have hnone : (w.seen i).renamed = none := hmay.1
  cases result with
  | error err =>
    refine handover_see h rfl rfl rfl (List.Subset.refl _) h.readsBack hevolved ?_
      (fun c hc => (nomatch hc)) (fun id hid => .inl hid) rfl
    refine hcalls.congr ⟨rfl, ?_, rfl, rfl, rfl, fun failure hmem => List.mem_cons_of_mem _ hmem⟩
    rw [hnone]
    rfl
  | ok _ =>
    refine handover_see h rfl rfl rfl (List.Subset.refl _) h.readsBack hevolved ?_
      (fun c' hc' => .inr fun j hj => ?_) (fun id hid => .inl hid) rfl
    · -- the call has returned nothing yet, and it has found the token in its container
      obtain ⟨-, id, identity, hcall, hfound, hfresh, -⟩ := hmay
      refine
        { listed := hcalls.listed
          renamed := fun c' hc' => ?_
          issued := hcalls.issued
          later := hcalls.later
          unrenamed := fun id' hcall' hbefore => ?_
          taken := fun response id' hcall' hanswered => ?_
          refused := hcalls.refused }
      · cases hc'
        refine ⟨_, List.mem_map_of_mem hk, ?_, ?_⟩
        · rw [if_pos hid]
          exact hid
        · rw [if_pos hid]
          exact isConsumed_consumedName _
      · rw [hcall] at hcall'
        cases hcall'
        rw [(h.calls i).consumed hfound hbefore] at hfresh
        cases hfresh
      · obtain ⟨c', hc', -⟩ := hcalls.taken response id' hcall' hanswered
        rw [hnone] at hc'
        cases hc'
    · cases hc'
      obtain ⟨k', hk', hid', hconsumed⟩ := (h.calls j).renamed c hj
      rw [h.registry.eq_of_id hk' hk (hid'.trans hid.symm), hunconsumed] at hconsumed
      cases hconsumed

/-! ### A runner is created -/

theorem handover_issued (h : Handover lib requests w) (hfresh : w.freshId lib id = true) :
    Handover lib requests (({ w with issued := id :: w.issued } : World).see config i .newId id) := by
  unfold World.freshId at hfresh
  simp only [Bool.and_eq_true, decide_eq_true_eq, Bool.not_eq_true', List.all_eq_true] at hfresh
  obtain ⟨⟨hreads, hnot⟩, hunused⟩ := hfresh
  have hnew : id ∉ w.issued := by simpa using hnot
  have hcalls := (h.calls i).evolve (.refl _) (List.subset_cons_self id w.issued)
  refine handover_see h rfl rfl rfl (List.subset_cons_self id w.issued) (fun id' hid' => ?_) (.refl _) ?_
    (fun c hc => .inl hc) (fun id' hid' => .inr fun j hj => ?_) rfl
  · rcases List.mem_cons.mp hid' with rfl | hid'
    · exact hreads
    · exact h.readsBack id' hid'
  · refine
      { listed := hcalls.listed
        renamed := hcalls.renamed
        issued := fun id' hid' => ?_
        later := hcalls.later
        unrenamed := hcalls.unrenamed
        taken := hcalls.taken
        refused := hcalls.refused }
    cases hid'
    exact ⟨List.mem_cons_self, fun _ k hk => by simpa using hunused k hk⟩
  · cases hid'
    exact hnew ((h.calls j).issued id hj).1

theorem CallHolds.create (h : CallHolds lib containers issued before call seen)
    (hunused : ∀ id, seen.issued = some id → seen.created = false → runnerId lib k.labels ≠ some id) :
    CallHolds lib (k :: containers) issued before call seen where
  listed records hlisted r hr := by
    obtain ⟨k', hk', hmirrors⟩ := h.listed records hlisted r hr
    exact ⟨k', List.mem_cons_of_mem _ hk', hmirrors⟩
  renamed c hc := by
    obtain ⟨k', hk', hrest⟩ := h.renamed c hc
    exact ⟨k', List.mem_cons_of_mem _ hk', hrest⟩
  issued id hid := by
    refine ⟨(h.issued id hid).1, fun hcreated k' hk' => ?_⟩
    rcases List.mem_cons.mp hk' with rfl | hk'
    · exact hunused id hid hcreated
    · exact (h.issued id hid).2 hcreated k' hk'
  later := h.later
  unrenamed := h.unrenamed
  taken response id hcall hanswered := by
    obtain ⟨c, hc, k', hk', hrest⟩ := h.taken response id hcall hanswered
    exact ⟨c, hc, k', List.mem_cons_of_mem _ hk', hrest⟩
  refused := h.refused

theorem Registry.create (h : Registry lib containers) (hid : ∀ k' ∈ containers, k'.id ≠ k.id)
    (hrunner : ∀ k' ∈ containers, ∀ id, runnerId lib k.labels = some id →
      runnerId lib k'.labels ≠ some id) : Registry lib (k :: containers) where
  ids := by
    rw [List.map_cons, List.nodup_cons]
    refine ⟨fun hmem => ?_, h.ids⟩
    obtain ⟨k', hk', heq⟩ := List.mem_map.mp hmem
    exact hid k' hk' heq
  runners a ha b hb id hida hidb := by
    rcases List.mem_cons.mp ha with rfl | ha' <;> rcases List.mem_cons.mp hb with rfl | hb'
    · rfl
    · exact absurd hidb (hrunner b hb' id hida)
    · exact absurd hida (hrunner a ha' id hidb)
    · exact h.runners a ha' b hb' id hida hidb

theorem handover_created (h : Handover lib requests w) {spec : ContainerSpec}
    {result : Except EngineError Unit}
    (hmay : May lib (requests i).call (w.seen i) (.create spec))
    (hid : ∀ k ∈ w.containers, k.id ≠ c) :
    Handover lib requests
      (({ w with containers := { id := c, name := spec.name, labels := spec.labels } :: w.containers } :
        World).see config i (.create spec) (c, ⟨result, true⟩)) := by
  obtain ⟨hcreated, id, expiresAt, hissued, hlabels⟩ := hmay
  have hrunner : runnerId lib spec.labels = some id := by
    rw [hlabels, runnerId_runnerLabels]
    exact h.readsBack id ((h.calls i).issued id hissued).1
  have hsame : SameHand { w.seen i with created := true }
      ((w.seen i).record config (.create spec) (c, ⟨result, true⟩)) := by
    cases result with
    | ok _ => exact ⟨rfl, rfl, rfl, rfl, rfl, List.Subset.refl _⟩
    | error err => exact ⟨rfl, rfl, rfl, rfl, rfl, List.subset_cons_self _ _⟩
  have hissued' : ((w.seen i).record config (.create spec) (c, ⟨result, true⟩)).issued =
      (w.seen i).issued := hsame.issued
  refine
    { registry := h.registry.create hid fun k hk id' hid' => ?_
      readsBack := h.readsBack
      calls := ?_
      single := unique_see (·.renamed) rfl h.single fun v hv => .inl ((hsame.renamed).symm.trans hv)
      distinct := unique_see (·.issued) rfl h.distinct fun v hv => .inl (hissued'.symm.trans hv)
      handed := fun id hhanded => ?_
      before := h.before
      returned := fun id' => ?_ }
  · rw [hrunner] at hid'
    cases hid'
    exact ((h.calls i).issued id hissued).2 hcreated k hk
  · refine forall_see (P := fun j seen => CallHolds lib (_ :: w.containers) w.issued (w.before j)
      (requests j).call seen) ?_ fun j hji => ?_
    · have hcreate : CallHolds lib ({ id := c, name := spec.name, labels := spec.labels } :: w.containers)
          w.issued (w.before i) (requests i).call { w.seen i with created := true } := by
        have hcalls := h.calls i
        refine CallHolds.create ?_ fun _ _ hfalse => (nomatch hfalse)
        exact
          { hcalls with
            issued := fun id hid => ⟨(hcalls.issued id hid).1, fun hfalse => (nomatch hfalse)⟩ }
      exact hcreate.congr hsame
    · refine (h.calls j).create fun id' hid' _ hrunner' => hji ?_
      rw [hrunner] at hrunner'
      cases hrunner'
      exact h.distinct j i id hid' hissued
  · obtain ⟨k, hk, hrest⟩ := h.handed id hhanded
    exact ⟨k, List.mem_cons_of_mem _ hk, hrest⟩
  · exact returned_see h rfl hsame.answered id'

/-! ### A call begins, and answers -/

theorem handover_begin (h : Handover lib requests w)
    (hmay : May lib (requests i).call (w.seen i) .begin) :
    Handover lib requests
      (({ w with before := Function.update w.before i w.handed } : World).see config i .begin ()) := by
  obtain ⟨hlisted, hrenamed, hanswered⟩ := hmay
  have hcalls := h.calls i
  refine
    { registry := h.registry
      readsBack := h.readsBack
      calls := ?_
      single := unique_see (·.renamed) rfl h.single fun v hv => .inl hv
      distinct := unique_see (·.issued) rfl h.distinct fun v hv => .inl hv
      handed := h.handed
      before := fun j => ?_
      returned := fun id => ?_ }
  · refine forall_see (P := fun j seen => CallHolds lib w.containers w.issued
      (Function.update w.before i w.handed j) (requests j).call seen) ?_ fun j hji => ?_
    · show CallHolds lib w.containers w.issued _ _ (w.seen i)
      exact
        { listed := hcalls.listed
          renamed := hcalls.renamed
          issued := hcalls.issued
          later := fun records hsome => by
            rw [hlisted] at hsome
            cases hsome
          unrenamed := fun _ _ _ => hrenamed
          taken := hcalls.taken
          refused := fun err id _ _ hsome => by
            rw [hanswered] at hsome
            cases hsome }
    · rw [Function.update_of_ne hji]
      exact h.calls j
  · show Function.update w.before i w.handed j ⊆ w.handed
    by_cases hji : j = i
    · subst hji
      rw [Function.update_self]
      exact List.Subset.refl _
    · rw [Function.update_of_ne hji]
      exact h.before j
  · have hseen : ({ w with before := Function.update w.before i w.handed } : World).seen = w.seen := rfl
    exact returned_see h hseen rfl id

theorem callHolds_answered (h : CallHolds lib containers issued before call seen)
    {result : Except ServiceError RunnerResponse}
    (hmay : MayAnswer lib seen call result) :
    CallHolds lib containers issued before call { seen with answered := some result } where
  listed := h.listed
  renamed := h.renamed
  issued := h.issued
  later := h.later
  unrenamed := h.unrenamed
  taken response id hcall hanswered := by
    cases hanswered
    subst hcall
    obtain ⟨-, identity, hfound, hrenamed⟩ := hmay
    obtain ⟨k, hk, hid, hrunner, -⟩ := h.found hfound
    exact ⟨identity.containerId, hrenamed, k, hk, hid, hrunner⟩
  refused err id hcall hbefore hanswered := by
    cases hanswered
    subst hcall
    cases hmay with
    | taken => exact .inl rfl
    | missing => exact .inr (.inl rfl)
    | engine hfailed => exact .inr (.inr hfailed)
    | other identity hfound hunconsumed =>
      rw [h.consumed hfound hbefore] at hunconsumed
      cases hunconsumed

theorem handover_handed (h : Handover lib requests w) {token : MintedToken}
    (hmay : May lib (requests i).call (w.seen i) (.answer (.ok (.token token))))
    (hcall : (requests i).call = .takeToken id) :
    Handover lib requests (({ w with handed := id :: w.handed } : World).see config i
      (.answer (.ok (.token token))) ()) := by
  obtain ⟨hnone, hmay⟩ := hmay
  have hcalls := callHolds_answered (h.calls i) hmay
  refine
    { registry := h.registry
      readsBack := h.readsBack
      calls := forall_see hcalls fun j _ => h.calls j
      single := unique_see (·.renamed) rfl h.single fun v hv => .inl hv
      distinct := unique_see (·.issued) rfl h.distinct fun v hv => .inl hv
      handed := fun id' hid' => ?_
      before := fun j => List.Subset.trans (h.before j) (List.subset_cons_self _ _)
      returned := fun id' => ?_ }
  · rcases List.mem_cons.mp hid' with rfl | hid'
    · obtain ⟨c, hc, k, hk, hid, hrunner⟩ := hcalls.taken _ id' hcall rfl
      obtain ⟨k', hk', hid', hconsumed⟩ := hcalls.renamed c hc
      refine ⟨k, hk, hrunner, ?_⟩
      rwa [h.registry.eq_of_id hk hk' (hid.trans hid'.symm)]
    · exact h.handed id' hid'
  · constructor
    · intro hid'
      rcases List.mem_cons.mp hid' with rfl | hid'
      · refine ⟨i, .token token, hcall, ?_⟩
        rw [see_seen_self]
        rfl
      · obtain ⟨j, response, hj, hresponse⟩ := (h.returned id').mp hid'
        have hji : j ≠ i := by
          rintro rfl
          rw [hnone] at hresponse
          cases hresponse
        exact ⟨j, response, hj, by rw [see_seen_of_ne hji]; exact hresponse⟩
    · rintro ⟨j, response, hj, hresponse⟩
      by_cases hji : j = i
      · subst hji
        rw [hcall] at hj
        cases hj
        exact List.mem_cons_self
      · rw [see_seen_of_ne hji] at hresponse
        exact List.mem_cons_of_mem _ ((h.returned id').mpr ⟨j, response, hj, hresponse⟩)

theorem handover_answered (h : Handover lib requests w)
    {result : Except ServiceError RunnerResponse}
    (hmay : May lib (requests i).call (w.seen i) (.answer result))
    (hother : ∀ token id, result = .ok (.token token) → (requests i).call ≠ .takeToken id) :
    Handover lib requests (w.see config i (.answer result) ()) := by
  obtain ⟨hnone, hmay⟩ := hmay
  refine
    { registry := h.registry
      readsBack := h.readsBack
      calls := forall_see (callHolds_answered (h.calls i) hmay) fun j _ => h.calls j
      single := unique_see (·.renamed) rfl h.single fun v hv => .inl hv
      distinct := unique_see (·.issued) rfl h.distinct fun v hv => .inl hv
      handed := h.handed
      before := h.before
      returned := fun id => (h.returned id).trans ⟨?_, ?_⟩ }
  · rintro ⟨j, response, hj, hresponse⟩
    have hji : j ≠ i := by
      rintro rfl
      rw [hnone] at hresponse
      cases hresponse
    exact ⟨j, response, hj, by rw [see_seen_of_ne hji]; exact hresponse⟩
  · rintro ⟨j, response, hj, hresponse⟩
    by_cases hji : j = i
    · subst hji
      rw [see_seen_self] at hresponse
      obtain rfl : result = .ok response := Option.some.inj hresponse
      rw [hj] at hmay
      obtain ⟨⟨token, rfl⟩, -⟩ := hmay
      exact absurd hj (hother token id rfl)
    · rw [see_seen_of_ne hji] at hresponse
      exact ⟨j, response, hj, hresponse⟩

/-! ### Everything else -/

theorem failures_failed {α : Type} (seen : Seen) (result : Except EngineError α) :
    SameHand seen (seen.failed result) := by
  cases result with
  | ok _ => exact ⟨rfl, rfl, rfl, rfl, rfl, List.Subset.refl _⟩
  | error err => exact ⟨rfl, rfl, rfl, rfl, rfl, List.subset_cons_self _ _⟩

/-- An operation that neither lists nor renames nor creates nor answers. -/
def Aside : RunnerOp → Prop
  | .listRunners | .rename .. | .newId | .create _ | .answer _ => False
  | _ => True

theorem sameHand_aside (ho : Aside o) (seen : Seen) : SameHand seen (seen.record config o x) := by
  have hrefl : ∀ seen : Seen, SameHand seen seen :=
    fun _ => ⟨rfl, rfl, rfl, rfl, rfl, List.Subset.refl _⟩
  cases o with
  | listRunners | rename _ _ | newId | create _ | answer _ => exact ho.elim
  | transcript c =>
    cases x with
    | ok transcript =>
      obtain ⟨token, hrecord, -⟩ := record_transcript config seen c transcript
      rw [hrecord]
      exact ⟨rfl, rfl, rfl, rfl, rfl, List.Subset.refl _⟩
    | error err => exact failures_failed seen (.error err : Except EngineError Unit)
  | attach c =>
    have hfailed := failures_failed seen x
    exact ⟨hfailed.listed, hfailed.renamed, hfailed.issued, hfailed.created, hfailed.answered,
      hfailed.failures⟩
  | writeStdin c bytes =>
    have hfailed := failures_failed seen x.result
    exact ⟨hfailed.listed, hfailed.renamed, hfailed.issued, hfailed.created, hfailed.answered,
      hfailed.failures⟩
  | remove c =>
    have hfailed := failures_failed seen x.result
    exact ⟨hfailed.listed, hfailed.renamed, hfailed.issued, hfailed.created, hfailed.answered,
      hfailed.failures⟩
  | start c => exact failures_failed seen x.result
  | containsExchanging id => exact ⟨rfl, rfl, rfl, rfl, rfl, List.Subset.refl _⟩
  | insertExchanging id => exact ⟨rfl, rfl, rfl, rfl, rfl, List.Subset.refl _⟩
  | begin | lockGate | unlockGate | removeExchanging _ | utcNow => exact hrefl seen

theorem handover_failed (h : Handover lib requests w) (hmay : May lib (requests i).call (w.seen i) o)
    (hfails : Fails o x) : Handover lib requests (w.see config i o x) := by
  by_cases ho : Aside o
  · exact handover_quiet h rfl rfl rfl rfl (.refl _) (sameHand_aside ho _)
  have hcalls := h.calls i
  cases o with
  | listRunners =>
    cases x with
    | ok records => cases hfails
    | error err =>
      refine handover_see h rfl rfl rfl (List.Subset.refl _) h.readsBack (.refl _) ?_
        (fun c hc => .inl hc) (fun id hid => .inl hid) rfl
      exact
        { listed := fun _ hlisted => (nomatch hlisted)
          renamed := hcalls.renamed
          issued := hcalls.issued
          later := fun _ hlisted => (nomatch hlisted)
          unrenamed := hcalls.unrenamed
          taken := hcalls.taken
          refused := fun err id hcall hbefore hanswered =>
            (hcalls.refused err id hcall hbefore hanswered).mono (List.subset_cons_self _ _) }
  | rename c newName =>
    obtain ⟨result, effective⟩ := x
    cases result with
    | ok _ => cases hfails.2
    | error err =>
      refine handover_quiet h rfl rfl rfl rfl (.refl _)
        ⟨rfl, ?_, rfl, rfl, rfl, List.subset_cons_self _ _⟩
      exact (hmay.1 : (w.seen i).renamed = none).symm
  | create spec =>
    obtain ⟨id, result, effective⟩ := x
    cases result with
    | ok _ => cases hfails.2
    | error err =>
      refine handover_see h rfl rfl rfl (List.Subset.refl _) h.readsBack (.refl _) ?_
        (fun c hc => .inl hc) (fun id hid => .inl hid) rfl
      exact
        { listed := hcalls.listed
          renamed := hcalls.renamed
          issued := fun id hid => ⟨(hcalls.issued id hid).1, fun hcreated => (nomatch hcreated)⟩
          later := hcalls.later
          unrenamed := hcalls.unrenamed
          taken := hcalls.taken
          refused := fun err id hcall hbefore hanswered =>
            (hcalls.refused err id hcall hbefore hanswered).mono (List.subset_cons_self _ _) }
  | newId | answer _ => exact hfails.elim
  | begin | lockGate | unlockGate | transcript _ | attach _ | writeStdin _ _ | remove _ | start _
  | containsExchanging _ | insertExchanging _ | removeExchanging _ | utcNow => exact absurd trivial ho

theorem handover_responds (h : Handover lib requests w)
    (hmay : May lib (requests i).call (w.seen i) o) (hresponds : Responds lib requests w i o x w') :
    Handover lib requests (w'.see config i o x) := by
  have haside : Aside o → SameHand (w.seen i) ((w.seen i).record config o x) :=
    fun ho => sameHand_aside ho _
  have hmodify : ∀ {c : ContainerId} {f : Container → Container}, (∀ k, Follows k (f k)) →
      Aside o → Handover lib requests ((w.modify c f).see config i o x) := by
    intro c f hf ho
    have hevolved : Evolved w.containers (w.modify c f).containers := evolved_modify fun k _ _ => hf k
    exact handover_quiet h (show (w.modify c f).seen = w.seen from rfl) rfl rfl rfl hevolved
      (sameHand_aside ho _)
  cases hresponds with
  | begin => exact handover_begin h hmay
  | listed records hperm => exact handover_listed h hperm
  | renamed result hpresent hname => exact handover_renamed h hmay hpresent hname
  | issued hfresh => exact handover_issued h hfresh
  | created result hid => exact handover_created h hmay hid
  | handed hcall token => exact handover_handed h hmay hcall
  | answered result hother => exact handover_answered h hmay hother
  | failed hfails => exact handover_failed h hmay hfails
  | wrote bytes result hpresent =>
    exact hmodify (fun k => ⟨rfl, rfl, .refl _, fun h => h, fun h => h⟩) trivial
  | removed c result => exact hmodify (fun k => ⟨rfl, rfl, .refl _, fun _ => rfl, fun h => h⟩) trivial
  | started c result => exact hmodify (fun k => ⟨rfl, rfl, .refl _, fun h => h, fun h => h⟩) trivial
  | locked gate | unlocked gate =>
    exact handover_quiet h (show ({ w with gate } : World).seen = w.seen from rfl) rfl rfl rfl (.refl _)
      (haside trivial)
  | transcript _ | attached _ | contains _ | utcNow =>
    exact handover_quiet h rfl rfl rfl rfl (.refl _) (haside trivial)
  | inserted id =>
    exact handover_quiet h (show (w.insertExchanging (requests i).process id).seen = w.seen from rfl) rfl
      rfl rfl (.refl _) (haside trivial)
  | forgot id =>
    exact handover_quiet h (show (w.removeExchanging (requests i).process id).seen = w.seen from rfl) rfl
      rfl rfl (.refl _) (haside trivial)

theorem keeps_handover (lib : Libraries) (config : RunnerConfig) (requests : Nat → Request) :
    Keeps lib config requests (fun _ _ _ => True) (Handover lib requests) where
  act i w o x w' h _ hmay _ hresponds := handover_responds h hmay hresponds
  nature w e w' h hnature := by
    have hkept : ∀ {w' : World}, Evolved w.containers w'.containers → w'.seen = w.seen →
        w'.issued = w.issued → w'.handed = w.handed → w'.before = w.before →
          Handover lib requests w' := by
      intro w' hevolved hseen hissued hhanded hbefore
      refine
        { registry := h.registry.evolve hevolved
          readsBack := by rw [hissued]; exact h.readsBack
          calls := fun j => ?_
          single := by rw [hseen]; exact h.single
          distinct := by rw [hseen]; exact h.distinct
          handed := by rw [hhanded]; exact handed_evolve h.handed hevolved
          before := by rw [hbefore, hhanded]; exact h.before
          returned := by rw [hseen, hhanded]; exact h.returned }
      rw [hseen, hbefore, hissued]
      exact (h.calls j).evolve hevolved (List.Subset.refl _)
    cases e with
    | observe c transcript running =>
      cases hnature
      refine hkept (evolved_modify fun k _ _ => ?_) rfl rfl rfl rfl
      exact ⟨rfl, rfl, .refl _, fun h => h, fun h => by
        show (k.outcome || _) = true
        rw [h, Bool.true_or]⟩
    | wait _ | die _ | cancel _ =>
      cases hnature
      exact hkept (.refl _) rfl rfl rfl rfl

/-! ## Runs -/

/-- What is said of the tokens. -/
structure OneShot (requests : Nat → Request) (w : World) : Prop where
  /-- One call at most returns the token of a runner. -/
  once : ∀ i j id response response', (requests i).call = .takeToken id →
    (requests j).call = .takeToken id → (w.seen i).answered = some (.ok response) →
    (w.seen j).answered = some (.ok response') → i = j
  /-- What had been returned when a call began is what other calls have answered. -/
  before : ∀ i, ∀ id ∈ w.before i, ∃ j response, (requests j).call = .takeToken id ∧
    (w.seen j).answered = some (.ok response)
  /-- A call that begins after it is refused. -/
  later : ∀ i id result, (requests i).call = .takeToken id → id ∈ w.before i →
    (w.seen i).answered = some result → ∃ err, result = .error err ∧ RefusedLater (w.seen i) err

theorem Handover.oneShot (h : Handover lib requests w) : OneShot requests w where
  once i j id response response' hi hj hanswered hanswered' := by
    obtain ⟨c, hc, k, hk, hid, hrunner⟩ := (h.calls i).taken response id hi hanswered
    obtain ⟨c', hc', k', hk', hid', hrunner'⟩ := (h.calls j).taken response' id hj hanswered'
    obtain rfl : k = k' := h.registry.runners k hk k' hk' id hrunner hrunner'
    obtain rfl : c = c' := hid.symm.trans hid'
    exact h.single i j c hc hc'
  before i id hid := (h.returned id).mp (h.before i hid)
  later i id result hcall hbefore hanswered := by
    cases result with
    | error err => exact ⟨err, rfl, (h.calls i).refused err id hcall hbefore hanswered⟩
    | ok response =>
      obtain ⟨c, hc, -⟩ := (h.calls i).taken response id hcall hanswered
      rw [(h.calls i).unrenamed id hcall hbefore] at hc
      cases hc

theorem handover_initial (h : Registry lib containers) :
    Handover lib requests { containers } where
  registry := h
  readsBack _ hid := absurd hid List.not_mem_nil
  calls _ :=
    { listed := fun _ h => (nomatch h)
      renamed := fun _ h => (nomatch h)
      issued := fun _ h => (nomatch h)
      later := fun _ h => (nomatch h)
      unrenamed := fun _ _ h => absurd h List.not_mem_nil
      taken := fun _ _ _ h => (nomatch h)
      refused := fun _ _ _ h => absurd h List.not_mem_nil }
  single _ _ _ h := (nomatch h)
  distinct _ _ _ h := (nomatch h)
  handed _ hid := absurd hid List.not_mem_nil
  before _ _ hid := absurd hid List.not_mem_nil
  returned _ := ⟨fun h => absurd h List.not_mem_nil, fun ⟨_, _, _, h⟩ => (nomatch h)⟩

/-- **The token is handed out once**, in every order of the calls, in any number of processes and
with every way they and the engine can fail. -/
theorem token_is_handed_out_once {containers : List Container} (hregistry : Registry lib containers)
    {s : (runner lib config requests).State} {moves : List (runner lib config requests).Move}
    (hrun : runFrom (runner lib config requests).step
      (runnerInitial lib config requests containers) moves = some s) : OneShot requests s.world :=
  (runner_invariant (keeps_handover lib config requests) (handover_initial hregistry) hrun).oneShot

/-! ### Samples -/

namespace Sample

def formatUuid (id : Uuid) : String :=
  "00000000-0000-7000-8000-00000000000" ++ toString id

/-- The formats at the few ids and times that the samples use. -/
def libraries : Libraries where
  formatUuid := formatUuid
  parseUuid text := (List.range 10).find? fun id => formatUuid id = text
  formatRfc3339 _ := "1970-01-01T00:15:00Z"
  parseRfc3339 text := if text = "1970-01-01T00:15:00Z" then some 900 else none
  toLowercase c := [c.toLower]

def settings : RunnerConfig where
  image := "sha256:8f6e"
  memoryBytes := 536870912
  nanoCpus := 500000000
  pidsLimit := 128
  defaultTtl := 900
  maxTtl := 3600
  authorizationUrlPrefix := "https://claude.com/cai/oauth/authorize"
  pastePromptMarker := "Paste code here if prompted"
  tokenPrefix := "sk-ant-"
  failureMarkers := ["OAuth error"]

/-- A runner that has printed its token. -/
def readyContainer : Container where
  id := 1
  name := "moira-runner-demo-" ++ formatUuid 5
  labels := runnerLabels libraries 5 900
  transcript := "sk-ant-oat01\r\n"
  outcome := true

theorem registry_readyContainer : Registry libraries [readyContainer] where
  ids := List.nodup_singleton _
  runners a ha b hb _ _ _ := by
    rw [List.mem_singleton.mp ha, List.mem_singleton.mp hb]

abbrev system (requests : Nat → Request) : System Nat :=
  runner libraries settings requests

abbrev initial (requests : Nat → Request) (containers : List Container) : (system requests).State :=
  runnerInitial libraries settings requests containers

def replyIf (possible : Bool) (err : EngineError) : EngineReply :=
  if possible then ⟨.ok (), true⟩ else ⟨.error err, false⟩

/-- An engine that works; the new ids are the numbers of the calls. -/
def engineAnswer (requests : Nat → Request) (w : World) (i : Nat) : (o : RunnerOp) → o.Ans
  | .listRunners => .ok w.records
  | .transcript c => (w.present c).elim (.error .notFound) fun k => .ok k.transcript
  | .attach c => if (w.present c).isSome then .ok () else .error .notFound
  | .writeStdin c _ => replyIf (w.present c).isSome .notFound
  | .rename c newName => replyIf ((w.present c).isSome && !w.nameTaken newName) .conflict
  | .remove _ => ⟨.ok (), true⟩
  | .create spec => (100 + i, replyIf (!w.nameTaken spec.name) .conflict)
  | .start c => replyIf (w.present c).isSome .notFound
  | .containsExchanging id => (w.exchanging (requests i).process).contains id
  | .utcNow => w.now
  | .newId => i
  | .begin | .lockGate | .unlockGate | .insertExchanging _ | .removeExchanging _ | .answer _ => ()

/-- The registry is not answered for the third call. -/
def engineDown (requests : Nat → Request) (w : World) (i : Nat) : (o : RunnerOp) → o.Ans
  | .listRunners => if i = 2 then .error (.unavailable "down") else .ok w.records
  | o => engineAnswer requests w i o

/-- The calls move in the order of the schedule; a call that waits or is over is passed by. -/
def perform (answer : (Nat → Request) → World → Nat → (o : RunnerOp) → o.Ans) :
    List Nat → (system requests).State → List (system requests).Move
  | [], _ => []
  | i :: rest, s =>
    match (system requests).step s (.act i (answer requests s.world i)) with
    | some s' => .act i (answer requests s.world i) :: perform answer rest s'
    | none => perform answer rest s

/-- Two processes race for the token, and a third one comes after them. -/
def takers (i : Nat) : Request where
  process := i
  call := .takeToken 5

def race : List Nat :=
  (List.replicate 12 [0, 1]).flatten ++ List.replicate 12 2

/-- The token that was returned, or why not. -/
def outcome (w : World) (i : Nat) : Option (MintedToken ⊕ ServiceError) :=
  match (w.seen i).answered with
  | some (.ok (.token token)) => some (.inl token)
  | some (.error err) => some (.inr err)
  | _ => none

end Sample

open Sample in
theorem token_is_handed_out_once_race :
    ∃ s : (system takers).State,
      runFrom (system takers).step (initial takers [readyContainer])
        (perform engineAnswer race (initial takers [readyContainer])) = some s ∧
      outcome s.world 0 = some (.inl "sk-ant-oat01") ∧
      outcome s.world 1 = some (.inr (.failed "container name already in use")) ∧
      outcome s.world 2 = some (.inr .tokenAlreadyRetrieved) ∧ OneShot takers s.world := by
  have hmoves : (runFrom (system takers).step (initial takers [readyContainer])
      (perform engineAnswer race (initial takers [readyContainer]))).map
        (fun s => (outcome s.world 0, outcome s.world 1, outcome s.world 2)) =
      some (some (.inl "sk-ant-oat01"), some (.inr (.failed "container name already in use")),
        some (.inr .tokenAlreadyRetrieved)) := by
    decide +kernel
  obtain ⟨s, hrun, hworld⟩ := Option.map_eq_some_iff.mp hmoves
  simp only [Prod.mk.injEq] at hworld
  exact ⟨s, hrun, hworld.1, hworld.2.1, hworld.2.2,
    token_is_handed_out_once registry_readyContainer hrun⟩

theorem answered_of_outcome {i : Nat} {err : ServiceError}
    (h : Sample.outcome w i = some (.inr err)) : (w.seen i).answered = some (.error err) := by
  unfold Sample.outcome at h
  split at h
  · cases h
  · next err' hanswered =>
    cases h
    exact hanswered
  · cases h

open Sample in
/-- A call that begins after the token was returned is told that the engine is down. -/
theorem later_call_can_be_failed_by_the_engine :
    ¬∀ (moves : List (system takers).Move) (s : (system takers).State),
      runFrom (system takers).step (initial takers [readyContainer]) moves = some s →
        ∀ i id result, (takers i).call = .takeToken id → id ∈ s.world.before i →
          (s.world.seen i).answered = some result →
            result = .error .tokenAlreadyRetrieved ∨ result = .error .notFound := by
  intro hall
  have hmoves : (runFrom (system takers).step (initial takers [readyContainer])
      (perform engineDown race (initial takers [readyContainer]))).map
        (fun s => (outcome s.world 2, s.world.before 2)) =
      some (some (.inr (.dockerUnavailable "down")), [5]) := by
    decide +kernel
  obtain ⟨s, hrun, hworld⟩ := Option.map_eq_some_iff.mp hmoves
  simp only [Prod.mk.injEq] at hworld
  have hbefore : 5 ∈ s.world.before 2 := by
    rw [hworld.2]
    exact List.mem_singleton_self 5
  rcases hall _ s hrun 2 5 _ rfl hbefore (answered_of_outcome hworld.1) with h | h <;> cases h

end Moira.Runner
