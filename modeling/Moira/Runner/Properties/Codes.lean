import Moira.Runner.Properties.OneShot

/-!
# One authorization code per runner

A call reads the stream of the container, reads the set of the runners that were submitted to,
writes its code, and only then adds the runner to the set.

- **`one_code_is_written`** — in every run that meets it, a process writes one code to the container
  of a runner at most, and a call whose code is not written is refused
-/

namespace Moira.Runner

open Transition (runFrom)

/-- The runner that a call submits a code to. -/
def Call.submits : Call → Option Uuid
  | .submitCode id _ => some id
  | _ => none

/-- The call has passed its check, has not added its runner, and has written or may still write. -/
def Seen.pending (seen : Seen) (gone : Bool) : Bool :=
  !seen.recorded && (seen.wrote ||
    (seen.clear && seen.absent.isSome && seen.answered.isNone && (!gone || seen.attached)))

def World.pending (w : World) (i : Nat) : Bool :=
  (w.seen i).pending (w.gone i)

/-- The calls submit codes to one runner in one process. -/
def Rivals (requests : Nat → Request) (i j : Nat) : Prop :=
  (requests j).process = (requests i).process ∧ (requests j).call.submits = (requests i).call.submits

instance instDecidableRivals (requests : Nat → Request) (i j : Nat) : Decidable (Rivals requests i j) :=
  inferInstanceAs (Decidable (_ ∧ _))

/-- No rival of the call is pending. -/
def raceFree (requests : Nat → Request) (i : Nat) (w : World) : Bool :=
  (requests i).call.submits.isNone ||
    w.started.all fun j => j = i || !decide (Rivals requests i j) || !w.pending j

/-- The call has seen whether an outcome has been in the stream. -/
def upToDate (lib : Libraries) (requests : Nat → Request) (i : Nat) (w : World) : Bool :=
  (requests i).call.submits.isNone || !(w.seen i).clear ||
    w.containers.all fun k => !(runnerId lib k.labels = (requests i).call.submits : Bool) || !k.outcome

/-- A call that submits a code reads the set alone and has read the stream as it is. -/
def ReadsAlone (lib : Libraries) (requests : Nat → Request) (i : Nat) (w : World) : RunnerOp → Prop
  | .containsExchanging _ => (raceFree requests i w && upToDate lib requests i w) = true
  | _ => True

instance instDecidableReadsAlone (lib : Libraries) (requests : Nat → Request) :
    ∀ i w o, Decidable (ReadsAlone lib requests i w o)
  | i, w, .containsExchanging _ =>
    inferInstanceAs (Decidable ((raceFree requests i w && upToDate lib requests i w) = true))
  | _, _, .begin | _, _, .lockGate | _, _, .unlockGate | _, _, .listRunners | _, _, .transcript _
  | _, _, .attach _ | _, _, .writeStdin .. | _, _, .rename .. | _, _, .remove _ | _, _, .create _
  | _, _, .start _ | _, _, .insertExchanging _ | _, _, .removeExchanging _ | _, _, .utcNow
  | _, _, .newId | _, _, .answer _ => isTrue trivial

/-- What the calls of a process have written. -/
def Container.writtenFrom (k : Container) (requests : Nat → Request) (p : Nat) : List Written :=
  k.stdin.filter fun v => (requests v.call).process = p

variable {lib : Libraries} {config : RunnerConfig} {requests : Nat → Request}

/-! ## The parts of the invariant -/

/-- An outcome that is in the stream is known to have appeared. -/
def Shown (config : RunnerConfig) (k : Container) : Prop :=
  showsOutcome config k.transcript = true → k.outcome = true

/-- What has become of the codes. -/
structure Ledger (lib : Libraries) (requests : Nat → Request) (w : World) : Prop where
  once : ∀ p, ∀ k ∈ w.containers, (k.writtenFrom requests p).length ≤ 1
  /-- A runner that was written to is in the set, or will be added to it, or its outcome is known. -/
  settled : ∀ p, ∀ k ∈ w.containers, k.writtenFrom requests p ≠ [] → k.outcome = true ∨
    k.removed = true ∨ ∃ id, runnerId lib k.labels = some id ∧ (id ∈ w.exchanging p ∨
      ∃ j, (requests j).process = p ∧ (requests j).call.submits = some id ∧
        (w.seen j).wrote = true ∧ (w.seen j).recorded = false)
  written : ∀ k ∈ w.containers, ∀ v ∈ k.stdin, (w.seen v.call).wrote = true
  wrote : ∀ i, (w.seen i).wrote = true → ∃ id code, (requests i).call = .submitCode id code ∧
    ∃ k ∈ w.containers, runnerId lib k.labels = some id ∧
      ∃ v ∈ k.stdin, v.call = i ∧ v.bytes = code ++ "\r"

/-- Who may write next. -/
structure Turns (lib : Libraries) (requests : Nat → Request) (w : World) : Prop where
  alone : ∀ i j, (requests i).call.submits ≠ none → Rivals requests i j → w.pending i = true →
    w.pending j = true → i = j
  unlisted : ∀ i id, (requests i).call.submits = some id → w.pending i = true →
    id ∉ w.exchanging (requests i).process
  /-- The container of a pending call is as nobody has written to it. -/
  unwritten : ∀ i id, (requests i).call.submits = some id → w.pending i = true →
    (w.seen i).wrote = false → ∀ k ∈ w.containers, runnerId lib k.labels = some id →
      k.removed = false → k.writtenFrom requests (requests i).process = []

/-- What a call knows of the containers, and what it has answered. -/
structure CallKnows (lib : Libraries) (containers : List Container) (call : Call) (seen : Seen) :
    Prop where
  token : ∀ c, seen.token = some c → ∃ k ∈ containers, k.id = c ∧ k.outcome = true
  removed : ∀ c id identity, seen.removed = some c → Found lib seen id identity →
    identity.containerId = c → ∀ k ∈ containers, k.id = c → k.removed = true
  absent : ∀ id, call.submits = some id → ∀ id', seen.absent = some id' → id' = id
  answers : ∀ id code result, call = .submitCode id code → seen.answered = some result →
    MayAnswer lib seen call result

structure CodesKept (lib : Libraries) (config : RunnerConfig) (requests : Nat → Request) (w : World) :
    Prop where
  handover : Handover lib requests w
  started : ∀ i, i ∉ w.started → w.seen i = {}
  shown : ∀ k ∈ w.containers, Shown config k
  ledger : Ledger lib requests w
  turns : Turns lib requests w
  calls : ∀ i, CallKnows lib w.containers (requests i).call (w.seen i)

/-! ## What changes nothing about the codes -/

/-- What a container stays. -/
structure Lasts (k k' : Container) : Prop where
  id : k'.id = k.id
  labels : k'.labels = k.labels
  removed : k.removed = true → k'.removed = true
  outcome : k.outcome = true → k'.outcome = true

theorem Lasts.refl (k : Container) : Lasts k k :=
  ⟨rfl, rfl, fun h => h, fun h => h⟩

/-- The container has been written the same. -/
structure Unwrote (config : RunnerConfig) (k k' : Container) : Prop extends Lasts k k' where
  stdin : k'.stdin = k.stdin
  shown : Shown config k → Shown config k'

theorem Unwrote.refl (k : Container) : Unwrote config k k :=
  ⟨.refl k, rfl, fun h => h⟩

/-- Nothing was written to the containers. -/
abbrev Idle (config : RunnerConfig) (containers containers' : List Container) : Prop :=
  Becomes (Unwrote config) containers containers'

theorem Idle.refl (containers : List Container) : Idle config containers containers :=
  .rfl .refl

variable {c : ContainerId}

theorem idle_modify {w : World} {f : Container → Container} (h : ∀ k, Unwrote config k (f k)) :
    Idle config w.containers (w.modify c f).containers :=
  becomes_modify .refl fun k _ _ => h k

variable {k : Container}

theorem Unwrote.writtenFrom {k' : Container} (h : Unwrote config k k') (p : Nat) :
    k'.writtenFrom requests p = k.writtenFrom requests p := by
  unfold Container.writtenFrom
  rw [h.stdin]

variable {w w' : World} {i : Nat} {o : RunnerOp} {x : o.Ans}

/-- The calls have written and remembered the same. -/
def SameWrites (w w' : World) : Prop :=
  ∀ j, (w'.seen j).wrote = (w.seen j).wrote ∧ (w'.seen j).recorded = (w.seen j).recorded

theorem Ledger.idle (h : Ledger lib requests w) (hidle : Idle config w.containers w'.containers)
    (hexchanging : w'.exchanging = w.exchanging) (hsame : SameWrites w w') :
    Ledger lib requests w' where
  once p k' hk' := by
    obtain ⟨k, hk, hunwrote⟩ := hidle.earlier hk'
    rw [hunwrote.writtenFrom]
    exact h.once p k hk
  settled p k' hk' hwritten := by
    obtain ⟨k, hk, hunwrote⟩ := hidle.earlier hk'
    rw [hunwrote.writtenFrom] at hwritten
    rcases h.settled p k hk hwritten with houtcome | hremoved | ⟨id, hid, hwhere⟩
    · exact .inl (hunwrote.outcome houtcome)
    · exact .inr (.inl (hunwrote.removed hremoved))
    · refine .inr (.inr ⟨id, by rw [hunwrote.labels, hid], ?_⟩)
      rw [hexchanging]
      refine hwhere.imp_right fun ⟨j, hprocess, hcall, hwrote, hrecorded⟩ => ?_
      exact ⟨j, hprocess, hcall, (hsame j).1.trans hwrote, (hsame j).2.trans hrecorded⟩
  written k' hk' v hv := by
    obtain ⟨k, hk, hunwrote⟩ := hidle.earlier hk'
    rw [hunwrote.stdin] at hv
    rw [(hsame v.call).1]
    exact h.written k hk v hv
  wrote j hj := by
    rw [(hsame j).1] at hj
    obtain ⟨id, code, hcall, k, hk, hid, v, hv, hrest⟩ := h.wrote j hj
    obtain ⟨k', hk', hunwrote⟩ := hidle.later hk
    exact ⟨id, code, hcall, k', hk', by rw [hunwrote.labels, hid], v, by rw [hunwrote.stdin]; exact hv,
      hrest⟩

theorem Turns.mono (h : Turns lib requests w) (hexchanging : ∀ p, w'.exchanging p ⊆ w.exchanging p)
    (hpending : ∀ j, (requests j).call.submits ≠ none → w'.pending j = true → w.pending j = true)
    (hwrote : ∀ j, (w'.seen j).wrote = false → (w.seen j).wrote = false)
    (hcontainers : ∀ k' ∈ w'.containers, k'.stdin = [] ∨ ∃ k ∈ w.containers, k'.stdin = k.stdin ∧
      k'.labels = k.labels ∧ (k'.removed = false → k.removed = false)) :
    Turns lib requests w' where
  alone a b ha hrivals hpa hpb := by
    have hb : (requests b).call.submits ≠ none := by rwa [hrivals.2]
    exact h.alone a b ha hrivals (hpending a ha hpa) (hpending b hb hpb)
  unlisted a id ha hpa hmem := by
    have hpa := hpending a (by rw [ha]; exact Option.some_ne_none id) hpa
    exact h.unlisted a id ha hpa (hexchanging _ hmem)
  unwritten a id ha hpa hwa k' hk' hid hlive := by
    have hpa := hpending a (by rw [ha]; exact Option.some_ne_none id) hpa
    unfold Container.writtenFrom
    rcases hcontainers k' hk' with hempty | ⟨k, hk, hstdin, hlabels, hremoved⟩
    · rw [hempty]
      rfl
    · rw [hstdin]
      rw [hlabels] at hid
      exact h.unwritten a id ha hpa (hwrote a hwa) k hk hid (hremoved hlive)

variable {containers : List Container}

variable {containers' : List Container} {call : Call} {seen seen' : Seen}

theorem CallKnows.evolve (h : CallKnows lib containers call seen)
    (hlasts : Becomes Lasts containers containers') : CallKnows lib containers' call seen where
  token c hc := by
    obtain ⟨k, hk, hid, houtcome⟩ := h.token c hc
    obtain ⟨k', hk', hlast⟩ := hlasts.later hk
    exact ⟨k', hk', hlast.id.trans hid, hlast.outcome houtcome⟩
  removed c id identity hc hfound hcontainer k' hk' hid := by
    obtain ⟨k, hk, hlast⟩ := hlasts.earlier hk'
    exact hlast.removed (h.removed c id identity hc hfound hcontainer k hk (hlast.id.symm.trans hid))
  absent := h.absent
  answers := h.answers

variable {id : Uuid}

theorem mayAnswer_mono (seen seen' : Seen) {code : String}
    {result : Except ServiceError RunnerResponse}
    (h : MayAnswer lib seen (.submitCode id code) result) (hlisted : seen'.listed = seen.listed)
    (hwrote : seen'.wrote = seen.wrote) (hrecorded : seen'.recorded = seen.recorded)
    (hfailures : seen.failures ⊆ seen'.failures) :
    MayAnswer lib seen' (.submitCode id code) result := by
  cases result with
  | ok response => exact ⟨hwrote.trans h.1, hrecorded.trans h.2⟩
  | error err =>
    obtain ⟨hnot, hrefused⟩ := h
    refine ⟨hrecorded.trans hnot, ?_⟩
    cases hrefused with
    | invalid hinvalid hunwritten => exact .invalid hinvalid (hwrote.trans hunwritten)
    | missing hmissing hunwritten =>
      obtain ⟨records, hrecords, hnone⟩ := hmissing
      exact .missing ⟨records, hlisted.trans hrecords, hnone⟩ (hwrote.trans hunwritten)
    | engine hfailed =>
      obtain ⟨failure, hmem, herr⟩ := hfailed
      exact .engine ⟨failure, hfailures hmem, herr⟩
    | wrongState current hunwritten => exact .wrongState current (hwrote.trans hunwritten)

/-! ## What an answer does to what a call holds -/

theorem failed_eq {α : Type} (seen : Seen) (result : Except EngineError α) :
    ∃ failures, seen.failed result = { seen with failures } ∧ seen.failures ⊆ failures := by
  cases result with
  | ok _ => exact ⟨seen.failures, rfl, List.Subset.refl _⟩
  | error err => exact ⟨err :: seen.failures, rfl, List.subset_cons_self _ _⟩

variable {bytes : String}

theorem pending_of_submits {container : ContainerId} {gone : Bool}
    (h : Submits lib call seen container bytes) (hlive : gone = false ∨ seen.attached = true) :
    seen.pending gone = true := by
  obtain ⟨id, code, identity, -, -, -, -, habsent⟩ := h.found
  unfold Seen.pending
  rw [h.recorded, h.wrote, habsent, h.answered, h.clear]
  rcases hlive with rfl | hattached
  · rfl
  · rw [hattached]
    simp

/-- An operation that does not read the set of those exchanging. -/
def Unread : RunnerOp → Prop
  | .containsExchanging _ => False
  | _ => True

theorem pending_record {gone : Bool} (hsubmits : call.submits ≠ none) (hmay : May lib call seen o)
    (ho : Unread o)
    (hlive : gone = false ∨ o.detached = true)
    (h : (seen.record config o x).pending gone = true) : seen.pending gone = true := by
  cases o with
  | containsExchanging id => exact ho.elim
  | attach c =>
    obtain ⟨bytes, hsubmits⟩ := hmay
    exact pending_of_submits hsubmits (hlive.imp_right fun h => (nomatch h))
  | writeStdin c bytes => exact pending_of_submits hmay.1 (.inr hmay.2)
  | insertExchanging id => cases h
  | transcript c =>
    have habsent : seen.absent = none := by
      cases call with
      | submitCode id code => exact hmay id code rfl
      | create _ _ | view _ | takeToken _ | delete _ | reap _ => exact absurd rfl hsubmits
    cases x with
    | ok transcript =>
      simp only [Seen.record, Seen.pending, habsent] at h ⊢
      simpa using h
    | error err => exact h
  | listRunners =>
    obtain ⟨failures, heq, -⟩ := failed_eq seen x
    simp only [Seen.record, heq] at h
    exact h
  | rename c newName =>
    obtain ⟨failures, heq, -⟩ := failed_eq seen x.result
    simp only [Seen.record, heq] at h
    exact h
  | remove c =>
    obtain ⟨failures, heq, -⟩ := failed_eq seen x.result
    simp only [Seen.record, heq] at h
    exact h
  | start c =>
    obtain ⟨failures, heq, -⟩ := failed_eq seen x.result
    simp only [Seen.record, heq] at h
    exact h
  | create spec =>
    obtain ⟨id, reply⟩ := x
    obtain ⟨failures, heq, -⟩ := failed_eq seen reply.result
    simp only [Seen.record, heq] at h
    exact h
  | answer result =>
    unfold Seen.pending at h ⊢
    simp only [Seen.record, Option.isNone_some, Bool.and_false, Bool.false_and, Bool.or_false,
      Bool.and_eq_true] at h
    rw [h.1, h.2]
    rfl
  | begin | lockGate | unlockGate | removeExchanging _ | utcNow | newId => exact h

/-- An operation that neither writes nor remembers a code. -/
def Wordless : RunnerOp → Prop
  | .writeStdin .. | .insertExchanging _ => False
  | _ => True

theorem sameWrites_record (ho : Wordless o) (seen : Seen) :
    (seen.record config o x).wrote = seen.wrote ∧ (seen.record config o x).recorded = seen.recorded := by
  cases o with
  | writeStdin _ _ | insertExchanging _ => exact ho.elim
  | transcript c =>
    cases x with
    | ok transcript =>
      obtain ⟨token, hrecord, -⟩ := record_transcript config seen c transcript
      rw [hrecord]
      exact ⟨rfl, rfl⟩
    | error err => exact ⟨rfl, rfl⟩
  | listRunners | attach _ =>
    obtain ⟨failures, heq, -⟩ := failed_eq seen x
    simp only [Seen.record, heq, and_self]
  | rename _ _ | remove _ | start _ =>
    obtain ⟨failures, heq, -⟩ := failed_eq seen x.result
    simp only [Seen.record, heq, and_self]
  | create spec =>
    obtain ⟨id, reply⟩ := x
    obtain ⟨failures, heq, -⟩ := failed_eq seen reply.result
    simp only [Seen.record, heq, and_self]
  | begin | lockGate | unlockGate | containsExchanging _ | removeExchanging _ | utcNow | newId
  | answer _ => exact ⟨rfl, rfl⟩

/-! ## One step of a call -/

theorem sameWrites_see (hresponds : Responds lib requests w i o x w') (ho : Wordless o) :
    SameWrites w (w'.see config i o x) := by
  refine forall_see (P := fun j seen => seen.wrote = (w.seen j).wrote ∧
    seen.recorded = (w.seen j).recorded) ?_ fun j _ => ?_
  · rw [seen_of_responds hresponds]
    exact sameWrites_record ho _
  · rw [seen_of_responds hresponds]
    exact ⟨rfl, rfl⟩

theorem pending_see (hmay : May lib (requests i).call (w.seen i) o) (ho : Unread o)
    (hlive : w.gone i = false ∨ o.detached = true) (hseen : w'.seen = w.seen)
    (hgone : w'.gone = w.gone) (j : Nat) (hj : (requests j).call.submits ≠ none)
    (h : (w'.see config i o x).pending j = true) : w.pending j = true := by
  unfold World.pending at h ⊢
  rw [show (w'.see config i o x).gone = w'.gone from rfl, hgone] at h
  by_cases hji : j = i
  · subst hji
    rw [see_seen_self, hseen] at h
    exact pending_record hj hmay ho hlive h
  · rwa [see_seen_of_ne hji, hseen] at h

theorem gone_of_responds (h : Responds lib requests w i o x w') : w'.gone = w.gone := by
  cases h <;> rfl

theorem started_of_responds (h : Responds lib requests w i o x w') : w'.started = w.started := by
  cases h <;> rfl

theorem started_see (h : ∀ j, j ∉ w.started → w.seen j = {})
    (hresponds : Responds lib requests w i o x w') (j : Nat)
    (hj : j ∉ (w'.see config i o x).started) : (w'.see config i o x).seen j = {} := by
  have hstarted : (w'.see config i o x).started = if i ∈ w'.started then w'.started else i :: w'.started :=
    rfl
  rw [hstarted, started_of_responds hresponds] at hj
  have hne : j ≠ i ∧ j ∉ w.started := by
    split at hj
    · next hi =>
      exact ⟨fun hji => hj (hji ▸ hi), hj⟩
    · exact not_or.mp fun h => hj (List.mem_cons.mpr h)
  rw [see_seen_of_ne hne.1, seen_of_responds hresponds]
  exact h j hne.2

/-! ### The ledger -/

theorem ledger_wrote {result : Except EngineError Unit} (h : CodesKept lib config requests w)
    (hmay : May lib (requests i).call (w.seen i) (.writeStdin c bytes))
    (hpresent : w.present c = some k) :
    Ledger lib requests ((w.write i c bytes).see config i (.writeStdin c bytes) ⟨result, true⟩) := by
  obtain ⟨hsubmits, hattached⟩ := hmay
  obtain ⟨id, code, identity, hcall, hfound, hcontainer, hbytes, habsent⟩ := hsubmits.found
  obtain ⟨hk, hid, hlive⟩ := mem_of_present hpresent
  -- the container is that of the runner that the call has found
  obtain ⟨k₀, hk₀, hid₀, hrunner, -⟩ := (h.handover.calls i).found hfound
  obtain rfl : k₀ = k := h.handover.registry.eq_of_id hk₀ hk (by rw [hid₀, hcontainer, hid])
  have hruns : (requests i).call.submits = some id := by rw [hcall]; rfl
  have hempty : k₀.writtenFrom requests (requests i).process = [] :=
    h.turns.unwritten i id hruns (pending_of_submits hsubmits (.inr hattached)) hsubmits.wrote k₀ hk
      hrunner hlive
  obtain ⟨failures, hfailed, -⟩ := failed_eq (w.seen i) result
  have hseen : (w.seen i).record config (.writeStdin c bytes) ⟨result, true⟩ =
      { w.seen i with failures, attached := false, wrote := true } := by
    simp only [Seen.record, hfailed]
  set w₁ := (w.write i c bytes).see config i (.writeStdin c bytes) ⟨result, true⟩ with hw₁
  have hself : (w₁.seen i).wrote = true ∧ (w₁.seen i).recorded = false := by
    rw [hw₁, see_seen_self, show (w.write i c bytes).seen = w.seen from rfl, hseen]
    exact ⟨rfl, hsubmits.recorded⟩
  have hother : ∀ j, j ≠ i → w₁.seen j = w.seen j := fun j hji => see_seen_of_ne hji
  have hwrote : ∀ j, (w.seen j).wrote = true → (w₁.seen j).wrote = true := by
    intro j hj
    by_cases hji : j = i
    · rw [hji]
      exact hself.1
    · rwa [hother j hji]
  -- each container is as it was, or is the one that was written to
  have hcontainers : ∀ k' ∈ w₁.containers, (k' ∈ w.containers ∧ k'.id ≠ c) ∨
      k' = { k₀ with stdin := ⟨i, bytes⟩ :: k₀.stdin } := by
    intro k' hk'
    obtain ⟨k₁, hk₁, rfl⟩ := List.mem_map.mp hk'
    by_cases hc : k₁.id = c
    · obtain rfl : k₁ = k₀ := h.handover.registry.eq_of_id hk₁ hk (hc.trans hid.symm)
      exact .inr (if_pos hc)
    · simp only [if_neg hc]
      exact .inl ⟨hk₁, hc⟩
  have hnew : ({ k₀ with stdin := ⟨i, bytes⟩ :: k₀.stdin } : Container) ∈ w₁.containers :=
    List.mem_map.mpr ⟨k₀, hk, if_pos hid⟩
  have hwritten : ∀ p, ({ k₀ with stdin := ⟨i, bytes⟩ :: k₀.stdin } : Container).writtenFrom requests p =
      if (requests i).process = p then ⟨i, bytes⟩ :: k₀.writtenFrom requests p
        else k₀.writtenFrom requests p := by
    intro p
    simp [Container.writtenFrom, List.filter_cons]
  have hsettled : ∀ p, ∀ k' ∈ w.containers, k'.writtenFrom requests p ≠ [] → k'.outcome = true ∨
      k'.removed = true ∨ ∃ id, runnerId lib k'.labels = some id ∧ (id ∈ w₁.exchanging p ∨
        ∃ j, (requests j).process = p ∧ (requests j).call.submits = some id ∧
          (w₁.seen j).wrote = true ∧ (w₁.seen j).recorded = false) := by
    intro p k' hk' hne
    refine (h.ledger.settled p k' hk' hne).imp_right fun h => h.imp_right fun ⟨id', hid', hwhere⟩ => ?_
    refine ⟨id', hid', hwhere.imp_right fun ⟨j, hprocess, hsubmitted, hj, hrecorded⟩ => ?_⟩
    have hji : j ≠ i := by
      intro hji
      rw [hji, hsubmits.wrote] at hj
      cases hj
    exact ⟨j, hprocess, hsubmitted, by rwa [hother j hji], by rwa [hother j hji]⟩
  refine
    { once := fun p k' hk' => ?_
      settled := fun p k' hk' hne => ?_
      written := fun k' hk' v hv => ?_
      wrote := fun j hj => ?_ }
  · rcases hcontainers k' hk' with ⟨hk', -⟩ | rfl
    · exact h.ledger.once p k' hk'
    · rw [hwritten]
      split
      · next hp =>
        subst hp
        rw [hempty]
        exact Nat.le_refl 1
      · exact h.ledger.once p k₀ hk
  · rcases hcontainers k' hk' with ⟨hk', -⟩ | rfl
    · exact hsettled p k' hk' hne
    · rw [hwritten] at hne
      split at hne
      · next hp => exact .inr (.inr ⟨id, hrunner, .inr ⟨i, hp, hruns, hself⟩⟩)
      · exact hsettled p k₀ hk hne
  · rcases hcontainers k' hk' with ⟨hk', -⟩ | rfl
    · exact hwrote _ (h.ledger.written k' hk' v hv)
    · rcases List.mem_cons.mp hv with rfl | hv
      · exact hself.1
      · exact hwrote _ (h.ledger.written k₀ hk v hv)
  · by_cases hji : j = i
    · subst hji
      exact ⟨id, code, hcall, _, hnew, hrunner, ⟨j, bytes⟩, List.mem_cons_self, rfl, hbytes⟩
    · rw [hother j hji] at hj
      obtain ⟨id', code', hcall', k', hk', hrunner', v, hv, hvj, hvbytes⟩ := h.ledger.wrote j hj
      by_cases hc : k'.id = c
      · obtain rfl : k' = k₀ := h.handover.registry.eq_of_id hk' hk (hc.trans hid.symm)
        exact ⟨id', code', hcall', _, hnew, hrunner', v, List.mem_cons_of_mem _ hv, hvj, hvbytes⟩
      · exact ⟨id', code', hcall', k', List.mem_map.mpr ⟨k', hk', if_neg hc⟩, hrunner', v, hv, hvj, hvbytes⟩

theorem ledger_inserted (h : Ledger lib requests w)
    (hmay : May lib (requests i).call (w.seen i) (.insertExchanging id)) :
    Ledger lib requests ((w.insertExchanging (requests i).process id).see config i
      (.insertExchanging id) ()) := by
  obtain ⟨-, -, -, -, code, hcall⟩ := hmay
  set w₁ := (w.insertExchanging (requests i).process id).see config i (.insertExchanging id) ()
  have hwrote : ∀ j, (w₁.seen j).wrote = (w.seen j).wrote :=
    forall_see (P := fun j seen => seen.wrote = (w.seen j).wrote) rfl fun _ _ => rfl
  have hexchanging : ∀ p, w.exchanging p ⊆ w₁.exchanging p := by
    intro p
    show w.exchanging p ⊆ Function.update w.exchanging _ _ p
    by_cases hp : p = (requests i).process
    · subst hp
      rw [Function.update_self]
      exact List.subset_cons_self _ _
    · rw [Function.update_of_ne hp]
      exact List.Subset.refl _
  refine
    { once := h.once
      settled := fun p k hk hne => ?_
      written := fun k hk v hv => (hwrote _).trans (h.written k hk v hv)
      wrote := fun j hj => h.wrote j ((hwrote j).symm.trans hj) }
  refine (h.settled p k hk hne).imp_right fun h => h.imp_right fun ⟨id', hid', hwhere⟩ => ?_
  refine ⟨id', hid', ?_⟩
  rcases hwhere with hmem | ⟨j, hprocess, hsubmits, hj, hrecorded⟩
  · exact .inl (hexchanging p hmem)
  · by_cases hji : j = i
    · -- the call that had still to add its runner is the one that adds it
      subst hji
      rw [hcall] at hsubmits
      obtain rfl : id = id' := Option.some.inj hsubmits
      refine .inl ?_
      show id ∈ Function.update w.exchanging _ _ p
      rw [← hprocess, Function.update_self]
      exact List.mem_cons_self
    · refine .inr ⟨j, hprocess, hsubmits, (hwrote j).trans hj, ?_⟩
      rw [show w₁.seen j = w.seen j from see_seen_of_ne hji]
      exact hrecorded

theorem ledger_forgot (h : CodesKept lib config requests w)
    (hmay : May lib (requests i).call (w.seen i) (.removeExchanging id)) :
    Ledger lib requests ((w.removeExchanging (requests i).process id).see config i
      (.removeExchanging id) ()) := by
  obtain ⟨⟨identity, hfound, hwhy⟩, -⟩ := hmay
  obtain ⟨k₀, hk₀, hid₀, hrunner, -⟩ := (h.handover.calls i).found hfound
  have hover : k₀.outcome = true ∨ k₀.removed = true := by
    rcases hwhy with htoken | hremoved
    · obtain ⟨k₁, hk₁, hid₁, houtcome⟩ := (h.calls i).token _ htoken
      obtain rfl : k₁ = k₀ := h.handover.registry.eq_of_id hk₁ hk₀ (hid₁.trans hid₀.symm)
      exact .inl houtcome
    · exact .inr ((h.calls i).removed _ id identity hremoved hfound rfl k₀ hk₀ hid₀)
  have hforgot : Responds lib requests w i (.removeExchanging id) ()
      (w.removeExchanging (requests i).process id) := .forgot id
  have hsame : SameWrites w ((w.removeExchanging (requests i).process id).see config i
      (.removeExchanging id) ()) := sameWrites_see hforgot trivial
  refine
    { once := h.ledger.once
      settled := fun p k hk hne => ?_
      written := fun k hk v hv => (hsame _).1.trans (h.ledger.written k hk v hv)
      wrote := fun j hj => h.ledger.wrote j ((hsame j).1.symm.trans hj) }
  rcases h.ledger.settled p k hk hne with houtcome | hremoved | ⟨id', hid', hwhere⟩
  · exact .inl houtcome
  · exact .inr (.inl hremoved)
  · by_cases hne' : id' = id
    · subst hne'
      obtain rfl : k₀ = k := h.handover.registry.runners k₀ hk₀ k hk id' hrunner hid'
      exact hover.imp_right .inl
    · refine .inr (.inr ⟨id', hid', ?_⟩)
      rcases hwhere with hmem | ⟨j, hprocess, hsubmits, hj, hrecorded⟩
      · refine .inl ?_
        show id' ∈ Function.update w.exchanging _ _ p
        by_cases hp : p = (requests i).process
        · subst hp
          rw [Function.update_self]
          exact List.mem_filter.mpr ⟨hmem, decide_eq_true hne'⟩
        · rwa [Function.update_of_ne hp]
      · exact .inr ⟨j, hprocess, hsubmits, (hsame j).1.trans hj, (hsame j).2.trans hrecorded⟩

theorem Ledger.cons (h : Ledger lib requests w) (hk : k.stdin = [])
    (hcontainers : w'.containers = k :: w.containers) (hexchanging : w'.exchanging = w.exchanging)
    (hsame : SameWrites w w') : Ledger lib requests w' := by
  have hempty : ∀ p, k.writtenFrom requests p = [] := by
    intro p
    rw [Container.writtenFrom, hk]
    rfl
  refine
    { once := fun p k' hk' => ?_
      settled := fun p k' hk' hne => ?_
      written := fun k' hk' v hv => ?_
      wrote := fun j hj => ?_ }
  · rw [hcontainers] at hk'
    rcases List.mem_cons.mp hk' with rfl | hk'
    · rw [hempty]
      exact Nat.zero_le 1
    · exact h.once p k' hk'
  · rw [hcontainers] at hk'
    rcases List.mem_cons.mp hk' with rfl | hk'
    · exact absurd (hempty p) hne
    · refine (h.settled p k' hk' hne).imp_right fun h => h.imp_right fun ⟨id, hid, hwhere⟩ => ?_
      rw [hexchanging]
      refine ⟨id, hid, hwhere.imp_right fun ⟨j, hprocess, hsubmits, hj, hrecorded⟩ => ?_⟩
      exact ⟨j, hprocess, hsubmits, (hsame j).1.trans hj, (hsame j).2.trans hrecorded⟩
  · rw [hcontainers] at hk'
    rw [(hsame v.call).1]
    rcases List.mem_cons.mp hk' with rfl | hk'
    · rw [hk] at hv
      exact absurd hv List.not_mem_nil
    · exact h.written k' hk' v hv
  · rw [(hsame j).1] at hj
    obtain ⟨id, code, hcall, k', hk', hrest⟩ := h.wrote j hj
    exact ⟨id, code, hcall, k', hcontainers ▸ List.mem_cons_of_mem _ hk', hrest⟩

theorem ledger_idle (h : Ledger lib requests w) (hresponds : Responds lib requests w i o x w')
    (ho : Wordless o) (hidle : Idle config w.containers w'.containers)
    (hexchanging : w'.exchanging = w.exchanging) : Ledger lib requests (w'.see config i o x) := by
  have hidle : Idle config w.containers (w'.see config i o x).containers := hidle
  exact h.idle hidle hexchanging (sameWrites_see hresponds ho)

theorem ledger_failed (h : Ledger lib requests w)
    (hmay : May lib (requests i).call (w.seen i) o) (hfails : Fails o x) :
    Ledger lib requests (w.see config i o x) := by
  cases o with
  | writeStdin c bytes =>
    obtain ⟨result, effective⟩ := x
    obtain rfl : effective = false := hfails.1
    have hidle : Idle config w.containers w.containers := .refl _
    refine h.idle hidle rfl (forall_see (P := fun j seen => seen.wrote =
      (w.seen j).wrote ∧ seen.recorded = (w.seen j).recorded) ?_ fun _ _ => ⟨rfl, rfl⟩)
    obtain ⟨failures, heq, -⟩ := failed_eq (w.seen i) result
    simp only [Seen.record, heq]
    exact ⟨hmay.1.wrote.symm, trivial⟩
  | insertExchanging id => exact hfails.elim
  | begin | lockGate | unlockGate | listRunners | transcript _ | attach _ | rename _ _ | remove _
  | create _ | start _ | containsExchanging _ | removeExchanging _ | utcNow | newId | answer _ =>
    exact ledger_idle h (.failed hfails) trivial (.refl _) rfl

theorem ledger_responds (h : CodesKept lib config requests w)
    (hmay : May lib (requests i).call (w.seen i) o) (hresponds : Responds lib requests w i o x w') :
    Ledger lib requests (w'.see config i o x) := by
  have hidle : Wordless o → Idle config w.containers w'.containers → w'.exchanging = w.exchanging →
      Ledger lib requests (w'.see config i o x) := ledger_idle h.ledger hresponds
  have hsame : Wordless o → SameWrites w (w'.see config i o x) := sameWrites_see hresponds
  cases hresponds with
  | wrote bytes result hpresent => exact ledger_wrote h hmay hpresent
  | inserted id => exact ledger_inserted h.ledger hmay
  | forgot id => exact ledger_forgot h hmay
  | created result hid =>
    exact h.ledger.cons rfl rfl rfl (hsame trivial)
  | failed hfails => exact ledger_failed h.ledger hmay hfails
  | renamed result hpresent hname =>
    exact hidle trivial (idle_modify fun k => ⟨⟨rfl, rfl, id, id⟩, rfl, id⟩) rfl
  | removed c result =>
    exact hidle trivial (idle_modify fun k => ⟨⟨rfl, rfl, fun _ => rfl, id⟩, rfl, id⟩) rfl
  | started c result =>
    exact hidle trivial (idle_modify fun k => ⟨⟨rfl, rfl, id, id⟩, rfl, id⟩) rfl
  | begin | locked _ | unlocked _ | listed _ _ | transcript _ | attached _ | contains _ | utcNow
  | issued _ | handed _ _ | answered _ _ => exact hidle trivial (.refl _) rfl

/-! ### The turns -/

theorem wrote_mono (hmay : May lib call seen o) (h : (seen.record config o x).wrote = false) :
    seen.wrote = false := by
  have hsame : Wordless o → (seen.record config o x).wrote = seen.wrote :=
    fun ho => (sameWrites_record ho seen).1
  cases o with
  | writeStdin c bytes => exact hmay.1.wrote
  | insertExchanging id => exact h
  | begin | lockGate | unlockGate | listRunners | transcript _ | attach _ | rename _ _ | remove _
  | create _ | start _ | containsExchanging _ | removeExchanging _ | utcNow | newId | answer _ =>
    rwa [hsame trivial] at h

theorem wrote_mono_see (hmay : May lib (requests i).call (w.seen i) o) (hseen : w'.seen = w.seen) (j : Nat)
    (h : ((w'.see config i o x).seen j).wrote = false) : (w.seen j).wrote = false := by
  by_cases hji : j = i
  · subst hji
    rw [see_seen_self, hseen] at h
    exact wrote_mono hmay h
  · rwa [see_seen_of_ne hji, hseen] at h

theorem Rivals.symm {j : Nat} (h : Rivals requests i j) : Rivals requests j i :=
  ⟨h.1.symm, h.2.symm⟩

theorem turns_absent (h : CodesKept lib config requests w)
    (hguard : ReadsAlone lib requests i w (.containsExchanging id))
    (hmay : May lib (requests i).call (w.seen i) (.containsExchanging id))
    (habsent : (w.exchanging (requests i).process).contains id = false) :
    Turns lib requests (w.see config i (.containsExchanging id) false) := by
  obtain ⟨hcall, hunwritten⟩ := hmay
  rw [ReadsAlone, Bool.and_eq_true] at hguard
  obtain ⟨hrace, hcurrent⟩ := hguard
  set w₁ := w.see config i (.containsExchanging id) false with hw₁
  have hself : w₁.seen i = { w.seen i with absent := some id } := see_seen_self
  have hother : ∀ j, j ≠ i → w₁.pending j = w.pending j := by
    intro j hji
    rw [World.pending, show w₁.seen j = w.seen j from see_seen_of_ne hji]
    rfl
  have hsubmits : ∀ id', (requests i).call.submits = some id' → id' = id := by
    intro id' hruns
    cases hcalls : (requests i).call with
    | submitCode id₁ code =>
      rw [hcalls] at hruns
      exact (Option.some.inj hruns).symm.trans (hcall id₁ code hcalls).symm
    | create _ _ | view _ | takeToken _ | delete _ | reap _ =>
      rw [hcalls] at hruns
      cases hruns
  -- no rival is pending
  have hrival : ∀ j, j ≠ i → (requests i).call.submits ≠ none → Rivals requests i j →
      w.pending j = false := by
    intro j hji hruns hrivals
    by_cases hstarted : j ∈ w.started
    · have hone := (Bool.or_eq_true ..).mp hrace
      rw [Option.isNone_iff_eq_none, List.all_eq_true] at hone
      have hj := hone.resolve_left hruns j hstarted
      simpa [hji, hrivals] using hj
    · rw [World.pending, h.started j hstarted]
      rfl
  refine
    { alone := fun a b ha hrivals hpa hpb => ?_
      unlisted := fun a id' ha hpa => ?_
      unwritten := fun a id' ha hpa hwa k hk hid hlive => ?_ }
  · by_cases hai : a = i <;> by_cases hbi : b = i
    · rw [hai, hbi]
    · subst hai
      rw [hother b hbi, hrival b hbi ha hrivals] at hpb
      cases hpb
    · subst hbi
      have hruns : (requests b).call.submits ≠ none := by rwa [hrivals.2]
      rw [hother a hai, hrival a hai hruns hrivals.symm] at hpa
      cases hpa
    · rw [hother a hai] at hpa
      rw [hother b hbi] at hpb
      exact h.turns.alone a b ha hrivals hpa hpb
  · by_cases hai : a = i
    · subst hai
      obtain rfl := hsubmits id' ha
      show id' ∉ w.exchanging _
      simpa using habsent
    · rw [hother a hai] at hpa
      exact h.turns.unlisted a id' ha hpa
  · by_cases hai : a = i
    · subst hai
      obtain rfl := hsubmits id' ha
      have hruns : (requests a).call.submits ≠ none := by rw [ha]; exact Option.some_ne_none _
      -- the stream has been read as it is, so that the runner shows no outcome
      have hclear : (w.seen a).clear = true := by
        unfold World.pending Seen.pending at hpa
        rw [hself] at hpa
        simp only [hunwritten.wrote, Bool.false_or, Bool.and_eq_true] at hpa
        exact hpa.2.1.1.1
      have houtcome : k.outcome = false := by
        have hone := (Bool.or_eq_true ..).mp hcurrent
        rw [Bool.or_eq_true, Option.isNone_iff_eq_none, List.all_eq_true, hclear] at hone
        have hk' := (hone.resolve_left fun h => h.elim hruns fun h => (nomatch h)) k hk
        simpa [hid, ha] using hk'
      by_contra hne
      rcases h.ledger.settled _ k hk hne with hshown | hremoved | ⟨id₁, hid₁, hwhere⟩
      · rw [houtcome] at hshown
        cases hshown
      · rw [hlive] at hremoved
        cases hremoved
      · obtain rfl : id₁ = id' := Option.some.inj (hid₁.symm.trans hid)
        rcases hwhere with hmem | ⟨j, hprocess, hruns', hj, hrecorded⟩
        · rw [List.contains_eq_mem, decide_eq_false_iff_not] at habsent
          exact habsent hmem
        · have hji : j ≠ a := by
            intro hji
            rw [hji, hunwritten.wrote] at hj
            cases hj
          have hpending : w.pending j = true := by
            rw [World.pending, Seen.pending, hj, hrecorded]
            rfl
          rw [hrival j hji hruns ⟨hprocess, hruns'.trans ha.symm⟩] at hpending
          cases hpending
    · rw [hother a hai] at hpa
      rw [show w₁.seen a = w.seen a from see_seen_of_ne hai] at hwa
      exact h.turns.unwritten a id' ha hpa hwa k hk hid hlive

theorem turns_listed (h : Turns lib requests w)
    (hmay : May lib (requests i).call (w.seen i) (.containsExchanging id)) :
    Turns lib requests (w.see config i (.containsExchanging id) true) := by
  refine h.mono (fun _ => List.Subset.refl _) (fun j _ hj => ?_) (wrote_mono_see hmay rfl)
    fun k hk => .inr ⟨k, hk, rfl, rfl, fun h => h⟩
  by_cases hji : j = i
  · subst hji
    unfold World.pending at hj
    rw [see_seen_self] at hj
    -- what it has not read as absent it does not write to
    simp [Seen.record, Seen.pending, hmay.2.wrote] at hj
  · unfold World.pending at hj ⊢
    rwa [see_seen_of_ne hji] at hj

theorem turns_inserted (h : Turns lib requests w)
    (hmay : May lib (requests i).call (w.seen i) (.insertExchanging id)) :
    Turns lib requests ((w.insertExchanging (requests i).process id).see config i
      (.insertExchanging id) ()) := by
  obtain ⟨hwrote, hrecorded, -, -, code, hcall⟩ := hmay
  set w₁ := (w.insertExchanging (requests i).process id).see config i (.insertExchanging id) ()
  have hruns : (requests i).call.submits = some id := by rw [hcall]; rfl
  have hpending : w.pending i = true := by
    rw [World.pending, Seen.pending, hwrote, hrecorded]
    rfl
  have hself : w₁.pending i = false := by
    rw [World.pending, show w₁.seen i = { w.seen i with recorded := true } from see_seen_self]
    rfl
  have hother : ∀ j, j ≠ i → w₁.seen j = w.seen j := fun j hji => see_seen_of_ne hji
  have hold : ∀ j, w₁.pending j = true → j ≠ i ∧ w.pending j = true := by
    intro j hj
    have hji : j ≠ i := by
      intro hji
      rw [hji, hself] at hj
      cases hj
    refine ⟨hji, ?_⟩
    rw [World.pending, hother j hji] at hj
    exact hj
  refine
    { alone := fun a b ha hrivals hpa hpb => h.alone a b ha hrivals (hold a hpa).2 (hold b hpb).2
      unlisted := fun a id' ha hpa hmem => ?_
      unwritten := fun a id' ha hpa hwa => ?_ }
  · obtain ⟨hai, hpa'⟩ := hold a hpa
    have hmem : id' ∈ Function.update w.exchanging (requests i).process
        (id :: w.exchanging (requests i).process) (requests a).process := hmem
    by_cases hp : (requests a).process = (requests i).process
    · rw [hp, Function.update_self] at hmem
      rcases List.mem_cons.mp hmem with rfl | hmem
      · -- two calls would have been pending on the runner
        have hrivals : Rivals requests i a := ⟨hp, ha.trans hruns.symm⟩
        exact hai (h.alone i a (by rw [hruns]; exact Option.some_ne_none _) hrivals hpending hpa').symm
      · exact h.unlisted a id' ha hpa' (hp ▸ hmem)
    · rw [Function.update_of_ne hp] at hmem
      exact h.unlisted a id' ha hpa' hmem
  · obtain ⟨hai, hpa⟩ := hold a hpa
    rw [hother a hai] at hwa
    exact h.unwritten a id' ha hpa hwa

theorem turns_wrote {result : Except EngineError Unit} (h : CodesKept lib config requests w)
    (hmay : May lib (requests i).call (w.seen i) (.writeStdin c bytes))
    (hpresent : w.present c = some k) :
    Turns lib requests ((w.write i c bytes).see config i (.writeStdin c bytes) ⟨result, true⟩) := by
  obtain ⟨hsubmits, hattached⟩ := hmay
  obtain ⟨id, code, identity, hcall, hfound, hcontainer, -, -⟩ := hsubmits.found
  obtain ⟨hk, hid, -⟩ := mem_of_present hpresent
  obtain ⟨k₀, hk₀, hid₀, hrunner, -⟩ := (h.handover.calls i).found hfound
  obtain rfl : k₀ = k := h.handover.registry.eq_of_id hk₀ hk (by rw [hid₀, hcontainer, hid])
  have hruns : (requests i).call.submits = some id := by rw [hcall]; rfl
  have hpending : w.pending i = true := pending_of_submits hsubmits (.inr hattached)
  obtain ⟨failures, hfailed, -⟩ := failed_eq (w.seen i) result
  set w₁ := (w.write i c bytes).see config i (.writeStdin c bytes) ⟨result, true⟩ with hw₁
  have hself : (w₁.seen i).wrote = true := by
    rw [hw₁, see_seen_self]
    simp only [Seen.record, show (w.write i c bytes).seen = w.seen from rfl, hfailed]
  have hold : ∀ j, (requests j).call.submits ≠ none → w₁.pending j = true → w.pending j = true :=
    fun j hj => pending_see (o := .writeStdin c bytes) ⟨hsubmits, hattached⟩ trivial (.inr rfl) rfl rfl j hj
  refine
    { alone := fun a b ha hrivals hpa hpb => ?_
      unlisted := fun a id' ha hpa => ?_
      unwritten := fun a id' ha hpa hwa k' hk' hid' hlive => ?_ }
  · have hb : (requests b).call.submits ≠ none := by rwa [hrivals.2]
    exact h.turns.alone a b ha hrivals (hold a ha hpa) (hold b hb hpb)
  · exact h.turns.unlisted a id' ha (hold a (by rw [ha]; exact Option.some_ne_none _) hpa)
  · have hpa := hold a (by rw [ha]; exact Option.some_ne_none _) hpa
    have hai : a ≠ i := by
      intro hai
      rw [hai, hself] at hwa
      cases hwa
    rw [show w₁.seen a = w.seen a from see_seen_of_ne hai] at hwa
    obtain ⟨k₁, hk₁, rfl⟩ := List.mem_map.mp hk'
    by_cases hc : k₁.id = c
    · obtain rfl : k₁ = k₀ := h.handover.registry.eq_of_id hk₁ hk (hc.trans hid.symm)
      simp only [if_pos hc] at hid' hlive ⊢
      obtain rfl : id = id' := Option.some.inj (hrunner.symm.trans hid')
      -- the writer is the only one of its process
      have hp : (requests i).process ≠ (requests a).process := by
        intro hp
        have hrivals : Rivals requests i a := ⟨hp.symm, ha.trans hruns.symm⟩
        exact hai (h.turns.alone i a (by rw [hruns]; exact Option.some_ne_none _) hrivals hpending hpa).symm
      have hempty := h.turns.unwritten a id ha hpa hwa k₁ hk₁ hid' hlive
      rw [Container.writtenFrom] at hempty ⊢
      rw [List.filter_cons, hempty, if_neg (by simpa using hp)]
    · simp only [if_neg hc] at hid' hlive ⊢
      exact h.turns.unwritten a id' ha hpa hwa k₁ hk₁ hid' hlive

theorem turns_quiet (h : Turns lib requests w)
    (hmay : May lib (requests i).call (w.seen i) o) (ho : Unread o)
    (hlive : w.gone i = false ∨ o.detached = true) (hresponds : Responds lib requests w i o x w')
    (hexchanging : ∀ p, w'.exchanging p ⊆ w.exchanging p)
    (hcontainers : ∀ k' ∈ w'.containers, k'.stdin = [] ∨ ∃ k ∈ w.containers, k'.stdin = k.stdin ∧
      k'.labels = k.labels ∧ (k'.removed = false → k.removed = false)) :
    Turns lib requests (w'.see config i o x) := by
  have hexchanging : ∀ p, (w'.see config i o x).exchanging p ⊆ w.exchanging p := hexchanging
  exact h.mono hexchanging
    (pending_see hmay ho hlive (seen_of_responds hresponds) (gone_of_responds hresponds))
    (wrote_mono_see hmay (seen_of_responds hresponds)) hcontainers

theorem Idle.unwritten {containers' : List Container} (h : Idle config containers containers')
    (k' : Container) (hk' : k' ∈ containers') :
    k'.stdin = [] ∨ ∃ k ∈ containers, k'.stdin = k.stdin ∧
      k'.labels = k.labels ∧ (k'.removed = false → k.removed = false) := by
  obtain ⟨k, hk, hunwrote⟩ := h.earlier hk'
  refine .inr ⟨k, hk, hunwrote.stdin, hunwrote.labels, fun hlive => ?_⟩
  by_contra hremoved
  rw [hunwrote.removed (by simpa using hremoved)] at hlive
  cases hlive

theorem filter_update_subset (f : Nat → List Uuid) (p : Nat) (g : Uuid → Bool) (q : Nat) :
    Function.update f p ((f p).filter g) q ⊆ f q := by
  by_cases hq : q = p
  · subst hq
    rw [Function.update_self]
    exact List.filter_subset_self _
  · rw [Function.update_of_ne hq]
    exact List.Subset.refl _

theorem turns_responds (h : CodesKept lib config requests w) (hguard : ReadsAlone lib requests i w o)
    (hmay : May lib (requests i).call (w.seen i) o) (hlive : w.gone i = false ∨ o.detached = true)
    (hresponds : Responds lib requests w i o x w') : Turns lib requests (w'.see config i o x) := by
  have hquiet : Unread o → (∀ p, w'.exchanging p ⊆ w.exchanging p) →
      Idle config w.containers w'.containers → Turns lib requests (w'.see config i o x) :=
    fun ho hexchanging hidle => turns_quiet h.turns hmay ho hlive hresponds hexchanging hidle.unwritten
  have hcons : Unread o → (∀ p, w'.exchanging p ⊆ w.exchanging p) →
      (∀ k' ∈ w'.containers, k'.stdin = [] ∨ k' ∈ w.containers) →
        Turns lib requests (w'.see config i o x) :=
    fun ho hexchanging hnew => turns_quiet h.turns hmay ho hlive hresponds hexchanging fun k' hk' =>
      (hnew k' hk').imp_right fun hk => ⟨k', hk, rfl, rfl, fun h => h⟩
  cases hresponds with
  | wrote bytes result hpresent => exact turns_wrote h hmay hpresent
  | inserted id => exact turns_inserted h.turns hmay
  | contains id =>
    cases habsent : (w.exchanging (requests i).process).contains id with
    | false => exact turns_absent h hguard hmay habsent
    | true => exact turns_listed h.turns hmay
  | forgot id => exact hquiet trivial (filter_update_subset _ _ _) (.refl _)
  | created result hid =>
    refine hcons trivial (fun _ => List.Subset.refl _) fun k' hk' => ?_
    rcases List.mem_cons.mp hk' with rfl | hk'
    · exact .inl rfl
    · exact .inr hk'
  | renamed result hpresent hname =>
    exact hquiet trivial (fun _ => List.Subset.refl _) (idle_modify fun k => ⟨⟨rfl, rfl, id, id⟩, rfl, id⟩)
  | removed c result =>
    exact hquiet trivial (fun _ => List.Subset.refl _)
      (idle_modify fun k => ⟨⟨rfl, rfl, fun _ => rfl, id⟩, rfl, id⟩)
  | started c result =>
    exact hquiet trivial (fun _ => List.Subset.refl _) (idle_modify fun k => ⟨⟨rfl, rfl, id, id⟩, rfl, id⟩)
  | failed hfails =>
    cases o with
    | containsExchanging id => exact hfails.elim
    | begin | lockGate | unlockGate | listRunners | transcript _ | attach _ | writeStdin _ _ | rename _ _
    | remove _ | create _ | start _ | insertExchanging _ | removeExchanging _ | utcNow | newId
    | answer _ => exact hquiet trivial (fun _ => List.Subset.refl _) (.refl _)
  | begin | locked _ | unlocked _ | listed _ _ | transcript _ | attached _ | utcNow | issued _
  | handed _ _ | answered _ _ => exact hquiet trivial (fun _ => List.Subset.refl _) (.refl _)

/-! ### What the calls know -/

/-- An answer that tells of no token and of no removal. -/
def Uninformed : RunnerOp → Prop
  | .transcript _ | .remove _ => False
  | _ => True

theorem uninformed_record (ho : Uninformed o) (seen : Seen) :
    (seen.record config o x).token = seen.token ∧ (seen.record config o x).removed = seen.removed := by
  cases o with
  | transcript _ | remove _ => exact ho.elim
  | listRunners | attach _ =>
    obtain ⟨failures, heq, -⟩ := failed_eq seen x
    simp only [Seen.record, heq, and_self]
  | rename _ _ | writeStdin _ _ | start _ =>
    obtain ⟨failures, heq, -⟩ := failed_eq seen x.result
    simp only [Seen.record, heq, and_self]
  | create spec =>
    obtain ⟨id, reply⟩ := x
    obtain ⟨failures, heq, -⟩ := failed_eq seen reply.result
    simp only [Seen.record, heq, and_self]
  | begin | lockGate | unlockGate | containsExchanging _ | insertExchanging _ | removeExchanging _
  | utcNow | newId | answer _ => exact ⟨rfl, rfl⟩

theorem absent_record (h : CallKnows lib containers call seen) (hmay : May lib call seen o) (id : Uuid)
    (hruns : call.submits = some id) (id' : Uuid) (hid' : (seen.record config o x).absent = some id') :
    id' = id := by
  cases o with
  | containsExchanging id₁ =>
    cases x with
    | true => cases hid'
    | false =>
      obtain rfl : id₁ = id' := Option.some.inj hid'
      cases call with
      | submitCode id₂ code =>
        obtain rfl : id₂ = id := Option.some.inj hruns
        exact hmay.1 id₂ code rfl
      | create _ _ | view _ | takeToken _ | delete _ | reap _ => cases hruns
  | transcript c =>
    cases x with
    | ok transcript => exact h.absent id hruns id' hid'
    | error err => exact h.absent id hruns id' hid'
  | listRunners | attach _ =>
    obtain ⟨failures, heq, -⟩ := failed_eq seen x
    simp only [Seen.record, heq] at hid'
    exact h.absent id hruns id' hid'
  | rename _ _ | writeStdin _ _ | start _ | remove _ =>
    obtain ⟨failures, heq, -⟩ := failed_eq seen x.result
    simp only [Seen.record, heq] at hid'
    exact h.absent id hruns id' hid'
  | create spec =>
    obtain ⟨id₁, reply⟩ := x
    obtain ⟨failures, heq, -⟩ := failed_eq seen reply.result
    simp only [Seen.record, heq] at hid'
    exact h.absent id hruns id' hid'
  | begin | lockGate | unlockGate | insertExchanging _ | removeExchanging _ | utcNow | newId
  | answer _ => exact h.absent id hruns id' hid'

theorem answers_record (h : CallKnows lib containers call seen) (hmay : May lib call seen o) (id : Uuid)
    (code : String) (result : Except ServiceError RunnerResponse) (hcall : call = .submitCode id code)
    (hanswered : (seen.record config o x).answered = some result) :
    MayAnswer lib (seen.record config o x) call result := by
  have hopen : seen.answered = none → (seen.record config o x).answered = seen.answered →
      MayAnswer lib (seen.record config o x) call result := by
    intro hnone hsame
    rw [hsame, hnone] at hanswered
    cases hanswered
  subst hcall
  cases o with
  | answer result' =>
    obtain rfl : result' = result := Option.some.inj hanswered
    exact mayAnswer_mono seen { seen with answered := some result' } hmay.2 rfl rfl rfl
      (List.Subset.refl _)
  | listRunners =>
    obtain ⟨failures, heq, -⟩ := failed_eq seen x
    exact hopen hmay.1 (by simp only [Seen.record, heq])
  | attach c =>
    obtain ⟨bytes, hsubmits⟩ := hmay
    obtain ⟨failures, heq, -⟩ := failed_eq seen x
    exact hopen hsubmits.answered (by simp only [Seen.record, heq])
  | writeStdin c bytes =>
    obtain ⟨failures, heq, -⟩ := failed_eq seen x.result
    exact hopen hmay.1.answered (by simp only [Seen.record, heq])
  | insertExchanging id' => exact hopen hmay.2.2.1 rfl
  | transcript c =>
    cases x with
    | ok transcript =>
      exact mayAnswer_mono seen _ (h.answers id code result rfl hanswered) rfl rfl rfl
        (List.Subset.refl _)
    | error err =>
      exact mayAnswer_mono seen _ (h.answers id code result rfl hanswered) rfl rfl rfl
        (List.subset_cons_self _ _)
  | rename _ _ | remove _ | start _ =>
    obtain ⟨failures, heq, hfailures⟩ := failed_eq seen x.result
    simp only [Seen.record, heq] at hanswered ⊢
    exact mayAnswer_mono seen _ (h.answers id code result rfl hanswered) rfl rfl rfl hfailures
  | create spec =>
    obtain ⟨id₁, reply⟩ := x
    obtain ⟨failures, heq, hfailures⟩ := failed_eq seen reply.result
    simp only [Seen.record, heq] at hanswered ⊢
    exact mayAnswer_mono seen _ (h.answers id code result rfl hanswered) rfl rfl rfl hfailures
  | begin | lockGate | unlockGate | containsExchanging _ | removeExchanging _ | utcNow | newId =>
    exact mayAnswer_mono seen _ (h.answers id code result rfl hanswered) rfl rfl rfl
      (List.Subset.refl _)

theorem found_record (hmay : May lib call seen o) {identity : RunnerIdentity}
    (hremoved : seen.removed = some c) (h : Found lib (seen.record config o x) id identity) :
    Found lib seen id identity := by
  obtain ⟨records, hlisted, hmem⟩ := h
  refine ⟨records, ?_, hmem⟩
  cases o with
  | listRunners =>
    rw [hmay.2] at hremoved
    cases hremoved
  | transcript c =>
    cases x with
    | ok transcript => exact hlisted
    | error err => exact hlisted
  | attach _ =>
    obtain ⟨failures, heq, -⟩ := failed_eq seen x
    simpa only [Seen.record, heq] using hlisted
  | rename _ _ | writeStdin _ _ | start _ | remove _ =>
    obtain ⟨failures, heq, -⟩ := failed_eq seen x.result
    simpa only [Seen.record, heq] using hlisted
  | create spec =>
    obtain ⟨id₁, reply⟩ := x
    obtain ⟨failures, heq, -⟩ := failed_eq seen reply.result
    simpa only [Seen.record, heq] using hlisted
  | begin | lockGate | unlockGate | containsExchanging _ | insertExchanging _ | removeExchanging _
  | utcNow | newId | answer _ => exact hlisted

theorem callKnows_record (h : CallKnows lib containers call seen) (hmay : May lib call seen o)
    (htoken : ∀ c, (seen.record config o x).token = some c → seen.token = some c ∨
      ∃ k ∈ containers, k.id = c ∧ k.outcome = true)
    (hremoved : ∀ c, (seen.record config o x).removed = some c → seen.removed = some c ∨
      ∀ k ∈ containers, k.id = c → k.removed = true) :
    CallKnows lib containers call (seen.record config o x) where
  token c hc := (htoken c hc).elim (h.token c) id
  removed c id identity hc hfound hcontainer k hk hid := by
    rcases hremoved c hc with hold | hnew
    · exact h.removed c id identity hold (found_record hmay hold hfound) hcontainer k hk hid
    · exact hnew k hk hid
  absent := absent_record h hmay
  answers := answers_record h hmay

theorem CallKnows.cons (h : CallKnows lib containers call seen)
    (hholds : CallHolds lib containers issued before call seen)
    (hfresh : ∀ k' ∈ containers, k'.id ≠ k.id) : CallKnows lib (k :: containers) call seen where
  token c hc := by
    obtain ⟨k', hk', hrest⟩ := h.token c hc
    exact ⟨k', List.mem_cons_of_mem _ hk', hrest⟩
  removed c id identity hc hfound hcontainer k' hk' hid := by
    rcases List.mem_cons.mp hk' with rfl | hk'
    · obtain ⟨k₀, hk₀, hid₀, -⟩ := hholds.found hfound
      exact absurd (hid₀.trans (hcontainer.trans hid.symm)) (hfresh k₀ hk₀)
    · exact h.removed c id identity hc hfound hcontainer k' hk' hid
  absent := h.absent
  answers := h.answers

theorem calls_of_responds (h : CodesKept lib config requests w)
    (hresponds : Responds lib requests w i o x w')
    (j : Nat) : CallKnows lib w'.containers (requests j).call (w.seen j) := by
  have hlasts : Becomes Lasts w.containers w'.containers →
      CallKnows lib w'.containers (requests j).call (w.seen j) := (h.calls j).evolve
  cases hresponds with
  | created result hid => exact (h.calls j).cons (h.handover.calls j) hid
  | wrote bytes result hpresent =>
    exact hlasts (becomes_modify .refl fun k _ _ => ⟨rfl, rfl, id, id⟩)
  | renamed result hpresent hname =>
    exact hlasts (becomes_modify .refl fun k _ _ => ⟨rfl, rfl, id, id⟩)
  | removed c result =>
    exact hlasts (becomes_modify .refl fun k _ _ => ⟨rfl, rfl, fun _ => rfl, id⟩)
  | started c result => exact hlasts (becomes_modify .refl fun k _ _ => ⟨rfl, rfl, id, id⟩)
  | begin | locked _ | unlocked _ | listed _ _ | transcript _ | attached _ | contains _ | inserted _
  | forgot _ | utcNow | issued _ | handed _ _ | answered _ _ | failed _ => exact hlasts (.rfl .refl)

theorem callKnows_responds (h : CodesKept lib config requests w)
    (hmay : May lib (requests i).call (w.seen i) o) (hresponds : Responds lib requests w i o x w') :
    CallKnows lib w'.containers (requests i).call ((w.seen i).record config o x) := by
  have hknows := calls_of_responds h hresponds i
  have hquiet : Uninformed o →
      CallKnows lib w'.containers (requests i).call ((w.seen i).record config o x) := by
    intro ho
    have hsame : ((w.seen i).record config o x).token = (w.seen i).token ∧
        ((w.seen i).record config o x).removed = (w.seen i).removed := uninformed_record ho (w.seen i)
    refine callKnows_record hknows hmay (fun c hc => .inl ?_) fun c hc => .inl ?_
    · rwa [hsame.1] at hc
    · rwa [hsame.2] at hc
  cases hresponds with
  | @transcript c k hpresent =>
    obtain ⟨hk, hid, -⟩ := mem_of_present hpresent
    refine callKnows_record hknows hmay (fun c' hc' => ?_) fun c' hc' => .inl hc'
    by_cases htoken : (extractToken k.transcript config.tokenPrefix).isSome = true
    · simp only [Seen.record, if_pos htoken] at hc'
      obtain rfl : c = c' := Option.some.inj hc'
      refine .inr ⟨k, hk, hid, h.shown k hk ?_⟩
      rw [showsOutcome, htoken, Bool.true_or]
    · simp only [Seen.record, if_neg htoken] at hc'
      exact .inl hc'
  | removed c result =>
    refine callKnows_record hknows hmay (fun c' hc' => .inl ?_) fun c' hc' => .inr fun k hk hid => ?_
    · obtain ⟨failures, heq, -⟩ := failed_eq (w.seen i) result
      simpa only [Seen.record, heq] using hc'
    · obtain ⟨k₁, hk₁, rfl⟩ := List.mem_map.mp hk
      have hc : c = c' := by
        simp only [Seen.record] at hc'
        split at hc'
        · exact Option.some.inj hc'
        · cases hc'
      by_cases hk₁c : k₁.id = c
      · rw [if_pos hk₁c]
      · rw [if_neg hk₁c] at hid
        exact absurd (hid.trans hc.symm) hk₁c
  | failed hfails =>
    cases o with
    | transcript c =>
      cases x with
      | ok transcript => cases hfails
      | error err => exact callKnows_record hknows hmay (fun c hc => .inl hc) fun c hc => .inl hc
    | remove c =>
      obtain ⟨result, effective⟩ := x
      obtain ⟨failures, heq, -⟩ := failed_eq (w.seen i) result
      refine callKnows_record hknows hmay (fun c' hc' => .inl ?_) fun c' hc' => ?_
      · simpa only [Seen.record, heq] using hc'
      · simp only [Seen.record, hfails.2, Bool.false_eq_true, if_false] at hc'
        cases hc'
    | begin | lockGate | unlockGate | listRunners | attach _ | writeStdin _ _ | rename _ _ | create _
    | start _ | containsExchanging _ | insertExchanging _ | removeExchanging _ | utcNow | newId
    | answer _ => exact hquiet trivial
  | begin | locked _ | unlocked _ | listed _ _ | attached _ | wrote _ _ _ | renamed _ _ _ | created _ _
  | started _ _ | contains _ | inserted _ | forgot _ | utcNow | issued _ | handed _ _ | answered _ _ =>
    exact hquiet trivial

/-! ## Every step -/

theorem showsOutcome_empty (config : RunnerConfig) : showsOutcome config "" = false := by
  have hstripped : stripAnsi "".toList = [] := rfl
  have htoken : extractToken "" config.tokenPrefix = none := by
    rw [extractToken, hstripped]
    rfl
  have hmarker : containsFailureMarker "" config.failureMarkers = false := by
    refine List.any_eq_false.mpr fun marker _ => ?_
    rw [hstripped]
    by_cases hempty : marker.isEmpty = true
    · simp [hempty]
    · have hnil : marker.toList ≠ [] := by simpa using hempty
      simp [containsText, splitOnce, hnil]
  rw [showsOutcome, htoken, hmarker]
  rfl

theorem shown_responds (w w' : World) (h : ∀ k ∈ w.containers, Shown config k)
    (hresponds : Responds lib requests w i o x w') : ∀ k ∈ w'.containers, Shown config k := by
  have hkept : ∀ {c : ContainerId} {f : Container → Container},
      (∀ k, Shown config k → Shown config (f k)) → ∀ k ∈ (w.modify c f).containers, Shown config k := by
    intro c f hf k hk
    obtain ⟨k₁, hk₁, rfl⟩ := List.mem_map.mp hk
    split
    · exact hf k₁ (h k₁ hk₁)
    · exact h k₁ hk₁
  cases hresponds with
  | created result hid =>
    intro k hk hshows
    rcases List.mem_cons.mp hk with rfl | hk
    · rw [showsOutcome_empty] at hshows
      cases hshows
    · exact h k hk hshows
  | wrote _ _ _ | renamed _ _ _ | removed _ _ | started _ _ => exact hkept fun _ hshown => hshown
  | begin | locked _ | unlocked _ | listed _ _ | transcript _ | attached _ | contains _ | inserted _
  | forgot _ | utcNow | issued _ | handed _ _ | answered _ _ | failed _ => exact h

theorem codes_responds (h : CodesKept lib config requests w) (hguard : ReadsAlone lib requests i w o)
    (hmay : May lib (requests i).call (w.seen i) o) (hlive : w.gone i = false ∨ o.detached = true)
    (hresponds : Responds lib requests w i o x w') :
    CodesKept lib config requests (w'.see config i o x) where
  handover := handover_responds h.handover hmay hresponds
  started := started_see h.started hresponds
  shown := shown_responds w w' h.shown hresponds
  ledger := ledger_responds h hmay hresponds
  turns := turns_responds h hguard hmay hlive hresponds
  calls := by
    refine forall_see (P := fun j seen => CallKnows lib w'.containers (requests j).call seen) ?_ fun j _ => ?_
    · rw [seen_of_responds hresponds]
      exact callKnows_responds h hmay hresponds
    · rw [seen_of_responds hresponds]
      exact calls_of_responds h hresponds j

theorem codes_nature (h : CodesKept lib config requests w) (hhandover : Handover lib requests w')
    (hidle : Idle config w.containers w'.containers) (hexchanging : w'.exchanging = w.exchanging)
    (hseen : w'.seen = w.seen) (hstarted : w'.started = w.started)
    (hpending : ∀ j, w'.pending j = true → w.pending j = true) : CodesKept lib config requests w' where
  handover := hhandover
  started := by rw [hseen, hstarted]; exact h.started
  shown k' hk' := by
    obtain ⟨k, hk, hunwrote⟩ := hidle.earlier hk'
    exact hunwrote.shown (h.shown k hk)
  ledger := h.ledger.idle hidle hexchanging fun j => by rw [hseen]; exact ⟨rfl, rfl⟩
  turns := h.turns.mono (fun p => by rw [hexchanging]; exact List.Subset.refl _) (fun j _ => hpending j)
    (fun j hj => by rwa [hseen] at hj) hidle.unwritten
  calls j := by
    rw [hseen]
    obtain ⟨g, hg, hunwrote⟩ := hidle
    exact (h.calls j).evolve ⟨g, hg, fun k hk => (hunwrote k hk).toLasts⟩

theorem keeps_codes (lib : Libraries) (config : RunnerConfig) (requests : Nat → Request) :
    Keeps lib config requests (ReadsAlone lib requests) (CodesKept lib config requests) where
  act i w o x w' h hguard hmay hlive hresponds := codes_responds h hguard hmay hlive hresponds
  nature w e w' h hnature := by
    have hhandover := (keeps_handover lib config requests).nature w e w' h.handover hnature
    cases e with
    | observe c transcript running =>
      cases hnature
      refine codes_nature h hhandover (idle_modify fun k => ⟨⟨rfl, rfl, id, fun houtcome => ?_⟩, rfl, ?_⟩)
        rfl rfl rfl fun _ => id
      · show (k.outcome || _) = true
        rw [houtcome, Bool.true_or]
      · intro _ hshows
        show (k.outcome || showsOutcome config transcript) = true
        rw [show showsOutcome config transcript = true from hshows, Bool.or_true]
    | cancel i =>
      cases hnature
      refine codes_nature h hhandover (.refl _) rfl rfl rfl fun j hj => ?_
      -- a call that is cancelled has one reason less to be pending
      simp only [World.pending, Seen.pending] at hj ⊢
      by_cases hji : j = i
      · subst hji
        rw [Function.update_self] at hj
        grind
      · rwa [Function.update_of_ne hji] at hj
    | wait _ | die _ =>
      cases hnature
      exact codes_nature h hhandover (.refl _) rfl rfl rfl fun _ => id

/-! ## Runs -/

/-- Why a code is not accepted. -/
inductive CodeRefused (lib : Libraries) (w : World) (i : Nat) (id : Uuid) (code : String) :
    ServiceError → Prop
  /-- The call has written nothing: the runner takes no code, there is no such runner, or the code
  can be none. -/
  | unwritten {err : ServiceError} (hunwritten : ∀ k ∈ w.containers, ∀ v ∈ k.stdin, v.call ≠ i)
      (h : (∃ current, err = .wrongState current) ∨ (err = .notFound ∧ Missing lib (w.seen i) id) ∨
        validateAuthorizationCode code = .error err) : CodeRefused lib w i id code err
  | engine {err : ServiceError} (h : EngineFailed (w.seen i) err) : CodeRefused lib w i id code err

/-- What is said of the codes. -/
structure OneCode (lib : Libraries) (requests : Nat → Request) (w : World) : Prop where
  /-- A process writes to a container once at most. -/
  once : ∀ p, ∀ k ∈ w.containers, (k.writtenFrom requests p).length ≤ 1
  /-- A code that is accepted is the one that was written. -/
  accepted : ∀ i id code response, (requests i).call = .submitCode id code →
    (w.seen i).answered = some (.ok response) → ∃ k ∈ w.containers, runnerId lib k.labels = some id ∧
      ∃ v ∈ k.stdin, v.call = i ∧ v.bytes = code ++ "\r"
  /-- Every other call is refused. -/
  refused : ∀ i id code err, (requests i).call = .submitCode id code →
    (w.seen i).answered = some (.error err) → CodeRefused lib w i id code err

theorem CodesKept.oneCode (h : CodesKept lib config requests w) : OneCode lib requests w where
  once := h.ledger.once
  accepted i id code response hcall hanswered := by
    have hmay := (h.calls i).answers id code _ hcall hanswered
    rw [hcall] at hmay
    obtain ⟨id', code', hcall', hwritten⟩ := h.ledger.wrote i hmay.1
    obtain ⟨rfl, rfl⟩ := Call.submitCode.inj (hcall.symm.trans hcall')
    exact hwritten
  refused i id code err hcall hanswered := by
    have hmay := (h.calls i).answers id code _ hcall hanswered
    rw [hcall] at hmay
    have hunwritten : (w.seen i).wrote = false → ∀ k ∈ w.containers, ∀ v ∈ k.stdin, v.call ≠ i := by
      intro hnot k hk v hv hvi
      have hwrote := h.ledger.written k hk v hv
      rw [hvi, hnot] at hwrote
      cases hwrote
    cases hmay.2 with
    | invalid hinvalid hwrote => exact .unwritten (hunwritten hwrote) (.inr (.inr hinvalid))
    | missing hmissing hwrote => exact .unwritten (hunwritten hwrote) (.inr (.inl ⟨rfl, hmissing⟩))
    | engine hfailed => exact .engine hfailed
    | wrongState current hwrote => exact .unwritten (hunwritten hwrote) (.inl ⟨current, rfl⟩)

theorem codes_initial (hregistry : Registry lib containers)
    (hshown : ∀ k ∈ containers, Shown config k) (hstdin : ∀ k ∈ containers, k.stdin = []) :
    CodesKept lib config requests { containers } where
  handover := handover_initial hregistry
  started _ _ := rfl
  shown := hshown
  ledger :=
    { once := fun p k hk => by
        rw [Container.writtenFrom, hstdin k hk]
        exact Nat.zero_le 1
      settled := fun p k hk hne => by
        rw [Container.writtenFrom, hstdin k hk] at hne
        exact absurd rfl hne
      written := fun k hk v hv => by
        rw [hstdin k hk] at hv
        exact absurd hv List.not_mem_nil
      wrote := fun _ h => (nomatch h) }
  turns :=
    { alone := fun _ _ _ _ h => (nomatch h)
      unlisted := fun _ _ _ h => (nomatch h)
      unwritten := fun _ _ _ h => (nomatch h) }
  calls _ :=
    { token := fun _ h => (nomatch h)
      removed := fun _ _ _ h => (nomatch h)
      absent := fun _ _ _ h => (nomatch h)
      answers := fun _ _ _ _ h => (nomatch h) }

/-- **One code is written**, in every run whose calls read the set alone. -/
theorem one_code_is_written {containers : List Container} (hregistry : Registry lib containers)
    (hshown : ∀ k ∈ containers, Shown config k) (hstdin : ∀ k ∈ containers, k.stdin = [])
    {s : (runner lib config requests).State} {moves : List (runner lib config requests).Move}
    (hmeets : Transition.Meets (runner lib config requests).step (System.Guarded (ReadsAlone lib requests))
      (runnerInitial lib config requests containers) moves)
    (hrun : runFrom (runner lib config requests).step
      (runnerInitial lib config requests containers) moves = some s) : OneCode lib requests s.world :=
  (runner_run (keeps_codes lib config requests) (codes_initial hregistry hshown hstdin) hmeets hrun).oneCode

/-! ### Samples -/

namespace Sample

/-- A runner that has asked for the code. -/
def awaitingContainer : Container where
  id := 1
  name := "moira-runner-demo-" ++ formatUuid 5
  labels := runnerLabels libraries 5 900
  running := true
  transcript := "https://claude.com/cai/oauth/authorize?code=1\r\nPaste code here if prompted >"

/-- Two calls submit codes to one runner, in one process. -/
def submitters (i : Nat) : Request where
  process := 0
  call := .submitCode 5 (if i = 0 then "first#1" else "second#2")

def inTurn : List Nat :=
  List.replicate 10 0 ++ List.replicate 10 1

def atOnce : List Nat :=
  (List.replicate 10 [0, 1]).flatten

instance instDecidableReadMove (requests : Nat → Request) (s : (system requests).State)
    (m : (system requests).Move) :
    Decidable (System.Guarded (M := system requests) (ReadsAlone libraries requests) s m) :=
  @System.instDecidableGuarded _ (system requests) (ReadsAlone libraries requests)
    (instDecidableReadsAlone libraries requests) s m

/-- Whether a call was accepted, or why not. -/
def accepted (w : World) (i : Nat) : Option (Option ServiceError) :=
  match (w.seen i).answered with
  | some (.ok _) => some none
  | some (.error err) => some (some err)
  | none => none

end Sample

open Sample in
theorem one_code_is_written_in_turn :
    ∃ s : (system submitters).State,
      runFrom (system submitters).step (initial submitters [awaitingContainer])
        (perform engineAnswer inTurn (initial submitters [awaitingContainer])) = some s ∧
      accepted s.world 0 = some none ∧ accepted s.world 1 = some (some (.wrongState .exchanging)) ∧
      OneCode libraries submitters s.world := by
  have hmoves : (runFrom (system submitters).step (initial submitters [awaitingContainer])
      (perform engineAnswer inTurn (initial submitters [awaitingContainer]))).map
        (fun s => (accepted s.world 0, accepted s.world 1)) =
      some (some none, some (some (.wrongState .exchanging))) := by
    decide +kernel
  have hmeets : Transition.Meets (system submitters).step
      (System.Guarded (ReadsAlone libraries submitters)) (initial submitters [awaitingContainer])
        (perform engineAnswer inTurn (initial submitters [awaitingContainer])) := by
    decide +kernel
  obtain ⟨s, hrun, hworld⟩ := Option.map_eq_some_iff.mp hmoves
  simp only [Prod.mk.injEq] at hworld
  refine ⟨s, hrun, hworld.1, hworld.2, one_code_is_written ?_ ?_ ?_ hmeets hrun⟩
  · exact
      { ids := List.nodup_singleton _
        runners := fun a ha b hb _ _ _ => by rw [List.mem_singleton.mp ha, List.mem_singleton.mp hb] }
  · intro k hk hshows
    obtain rfl := List.mem_singleton.mp hk
    rw [show showsOutcome settings awaitingContainer.transcript = false by decide +kernel] at hshows
    cases hshows
  · intro k hk
    obtain rfl := List.mem_singleton.mp hk
    rfl

open Sample in
/-- Two calls that have both read the set before either adds the runner write both of their codes.
-/
theorem two_codes_are_written_at_once :
    ¬∀ (moves : List (system submitters).Move) (s : (system submitters).State),
      runFrom (system submitters).step (initial submitters [awaitingContainer]) moves = some s →
        ∀ k ∈ s.world.containers, k.outcome = false → (k.writtenFrom submitters 0).length ≤ 1 := by
  intro hall
  have hmoves : (runFrom (system submitters).step (initial submitters [awaitingContainer])
      (perform engineAnswer atOnce (initial submitters [awaitingContainer]))).map
        (fun s => (s.world.containers.map fun k => (k.outcome, (k.writtenFrom submitters 0).length))) =
      some [(false, 2)] := by
    decide +kernel
  obtain ⟨s, hrun, hworld⟩ := Option.map_eq_some_iff.mp hmoves
  obtain ⟨k, hk, hshape⟩ := List.mem_map.mp (hworld ▸ List.mem_singleton_self (false, 2))
  obtain ⟨houtcome, hlength⟩ := Prod.mk.inj hshape
  have hone := hall _ s hrun k hk houtcome
  rw [hlength] at hone
  exact absurd hone (by decide)

end Moira.Runner
