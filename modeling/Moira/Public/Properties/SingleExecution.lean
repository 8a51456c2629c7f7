import Mathlib.Data.List.Pairwise
import Moira.Public.Properties.Caller
import Moira.Public.Properties.LaterCall

/-!
# Who executes

Any number of calls, their statements in any order, and time.

- **`onlyClaimerExecutes`** — over every interleaving that meets it
-/

namespace Moira.Public

open Transition (runFrom)
open Prog

section

variable {hasher : IdempotencyHasher} {codec : ResponseCodec} {input : CallInput}
variable {inputs : Nat → CallInput}

/-! ## The ledger over all calls -/

/-- The position a call claims, when it has a key. -/
def positionOf (hasher : IdempotencyHasher) (input : CallInput) : Option Position :=
  input.key.map (currentPosition hasher input)

/-- The claim that entitles a dispatch. -/
def EntitledBy (hasher : IdempotencyHasher) (inputs : Nat → CallInput) (d : Dispatched)
    (c : LedgerClaim) : Prop :=
  c.call = d.call ∧ positionOf hasher (inputs d.call) = some c.position ∧
    c.claimedAt ≤ d.dispatchedAt ∧ d.dispatchedAt < c.expiresAt

/-- The claims of one position follow one another, each after the last one has expired; a finished
row that a call has found is there until it expires. -/
structure LedgerInv (hasher : IdempotencyHasher) (inputs : Nat → CallInput) (w : World) : Prop where
  placed : w.ledger.Placed
  /-- A finished row that a call has found is there until it expires. -/
  found : ∀ i row, (w.calls i).found = some row → row.responseBody.isSome = true →
    w.now ≤ row.expiresAt → ∃ row', w.ledger row.position = some row' ∧
      row'.expiresAt = row.expiresAt ∧ row'.responseBody.isSome = true
  own : ∀ i record, (w.calls i).claimed = some record → ∃ c ∈ w.claims, c.call = i ∧
    c.expiresAt = record.expiresAt ∧ positionOf hasher (inputs i) = some c.position
  live : ∀ c ∈ w.claims, c.claimedAt ≤ w.now ∧ (w.now ≤ c.expiresAt →
    ∃ row, w.ledger c.position = some row ∧ row.expiresAt = c.expiresAt)
  apart : w.claims.Pairwise fun later earlier =>
    later.position = earlier.position → earlier.expiresAt < later.claimedAt
  settled : ∀ d ∈ w.dispatches, (w.calls d.call).dispatched = true ∧
    ((inputs d.call).key ≠ none → ∃ c ∈ w.claims, EntitledBy hasher inputs d c)
  once : (w.dispatches.map (·.call)).Nodup

variable {record : IdempotencyRecord}

variable {w : World}

variable {i : Nat}

namespace LedgerInv

section

variable (h : LedgerInv hasher inputs w)
include h

theorem of_persists {l : Ledger} (hplaced : l.Placed) (hpersists : w.ledger.Persists w.now l) :
    LedgerInv hasher inputs { w with ledger := l } where
  placed := hplaced
  found i row hfound hbody hlive := by
    obtain ⟨row', hrow', hexpires, hbody'⟩ := h.found i row hfound hbody hlive
    obtain ⟨row'', hrow'', hexpires', hbody''⟩ := hpersists _ row' hrow' (hexpires ▸ hlive)
    exact ⟨row'', hrow'', hexpires'.trans hexpires, hbody'' hbody'⟩
  own := h.own
  live c hc := by
    obtain ⟨hat, hlive⟩ := h.live c hc
    refine ⟨hat, fun hle => ?_⟩
    obtain ⟨row, hrow, hexpires⟩ := hlive hle
    obtain ⟨row', hrow', hexpires', -⟩ := hpersists _ row hrow (hexpires ▸ hle)
    exact ⟨row', hrow', hexpires'.trans hexpires⟩
  apart := h.apart
  settled := h.settled
  once := h.once

theorem insert (record : IdempotencyRecord) :
    LedgerInv hasher inputs { w with ledger := (w.ledger.insert record).2 } :=
  h.of_persists (Ledger.placed_insert h.placed record) (Ledger.persists_insert _ _ _)

theorem wait (seconds : Nat) :
    LedgerInv hasher inputs { w with now := w.now + seconds } where
  placed := h.placed
  found i row hfound hbody hlive := h.found i row hfound hbody (Nat.le_of_add_right_le hlive)
  own := h.own
  live c hc := ⟨Nat.le_add_right_of_le (h.live c hc).1,
    fun hlive => (h.live c hc).2 (Nat.le_of_add_right_le hlive)⟩
  apart := h.apart
  settled := h.settled
  once := h.once

theorem claim (hfree : w.ledger record.position = none) :
    LedgerInv hasher inputs
      { w with
        ledger := (w.ledger.insert record).2
        claims := { call := i, position := record.position, claimedAt := w.now
                    expiresAt := record.expiresAt } :: w.claims } where
  placed := (h.insert record).placed
  found := (h.insert record).found
  own j record' hclaimed := by
    obtain ⟨c, hc, hown⟩ := h.own j record' hclaimed
    exact ⟨c, List.mem_cons_of_mem _ hc, hown⟩
  live c hc := by
    rcases List.mem_cons.mp hc with rfl | hc
    · refine ⟨Nat.le_refl _, fun _ => ⟨record, ?_, rfl⟩⟩
      simp [Ledger.insert, hfree]
    · exact (h.insert record).live c hc
  apart := by
    refine List.pairwise_cons.mpr ⟨fun c hc heq => ?_, h.apart⟩
    have heq : record.position = c.position := heq
    -- an earlier claim that had not expired would still have its row here
    by_contra hnot
    obtain ⟨row, hrow, -⟩ := (h.live c hc).2 (Nat.le_of_not_lt hnot)
    rw [← heq, hfree] at hrow
    cases hrow
  settled d hd := by
    obtain ⟨hdispatched, hclaim⟩ := h.settled d hd
    refine ⟨hdispatched, fun hkey => ?_⟩
    obtain ⟨c, hc, hentitled⟩ := hclaim hkey
    exact ⟨c, List.mem_cons_of_mem _ hc, hentitled⟩
  once := h.once

theorem see {seen : CallSeen}
    (hfound : ∀ row, seen.found = some row → (w.calls i).found = some row ∨
      w.ledger row.position = some row)
    (hown : ∀ record, seen.claimed = some record → (w.calls i).claimed = some record ∨
      ∃ c ∈ w.claims, c.call = i ∧ c.expiresAt = record.expiresAt ∧
        positionOf hasher (inputs i) = some c.position)
    (hdispatched : (w.calls i).dispatched = true → seen.dispatched = true) :
    LedgerInv hasher inputs { w with calls := Function.update w.calls i seen } where
  placed := h.placed
  found j row hrow hbody hlive := by
    by_cases hj : j = i
    · subst hj
      rcases hfound row (by simpa using hrow) with hold | hnew
      · exact h.found j row hold hbody hlive
      · exact ⟨row, hnew, rfl, hbody⟩
    · exact h.found j row (by simpa [hj] using hrow) hbody hlive
  own j record hclaimed := by
    by_cases hj : j = i
    · subst hj
      rcases hown record (by simpa using hclaimed) with hold | hnew
      · exact h.own j record hold
      · exact hnew
    · exact h.own j record (by simpa [hj] using hclaimed)
  live := h.live
  apart := h.apart
  settled d hd := by
    obtain ⟨hold, hclaim⟩ := h.settled d hd
    refine ⟨?_, hclaim⟩
    by_cases hj : d.call = i
    · simpa [hj] using hdispatched (hj ▸ hold)
    · simpa [hj] using hold
  once := h.once

theorem dispatch {seen : CallSeen} (hfound : seen.found = (w.calls i).found)
    (hclaimed : seen.claimed = (w.calls i).claimed) (hseen : seen.dispatched = true)
    (hnot : (w.calls i).dispatched = false)
    (hclaim : (inputs i).key ≠ none → ∃ record, (w.calls i).claimed = some record ∧
      w.now < record.expiresAt) :
    LedgerInv hasher inputs
      { w.dispatch i with calls := Function.update w.calls i seen } := by
  have hsee : LedgerInv hasher inputs { w with calls := Function.update w.calls i seen } :=
    h.see (fun row hrow => .inl (hfound ▸ hrow)) (fun record hrecord => .inl (hclaimed ▸ hrecord))
      fun _ => hseen
  refine ⟨hsee.placed, hsee.found, hsee.own, hsee.live, hsee.apart, ?_, ?_⟩
  · intro d hd
    rcases List.mem_cons.mp hd with rfl | hd
    · refine ⟨by simpa [World.dispatch] using hseen, fun hkey => ?_⟩
      obtain ⟨record, hrecord, hlive⟩ := hclaim hkey
      obtain ⟨c, hc, hcall, hexpires, hposition⟩ := h.own i record hrecord
      exact ⟨c, hc, hcall, hposition, (h.live c hc).1, hexpires ▸ hlive⟩
    · exact hsee.settled d hd
  · refine List.nodup_cons.mpr ⟨fun hmem => ?_, h.once⟩
    -- the call has not dispatched before
    obtain ⟨d, hd, hcall⟩ := List.mem_map.mp hmem
    have hold := (h.settled d hd).1
    rw [hcall, hnot] at hold
    cases hold

end

end LedgerInv

/-! ## Steps of the world -/

/--
No row expires under the call: the row it has found when it reads it for the last time, and the row
it has claimed when it executes.
-/
def rowStands (i : Nat) (w : World) : ResponseOp → Prop
  | .getIdempotencyRecord .replay _ => ∀ row ∈ (w.calls i).found, w.now < row.expiresAt
  | .execute => ∀ record ∈ (w.calls i).claimed, w.now < record.expiresAt
  | _ => True

instance instDecidableRowStands (i : Nat) (w : World) : ∀ o, Decidable (rowStands i w o)
  | .getIdempotencyRecord .replay _ =>
    inferInstanceAs (Decidable (∀ row ∈ (w.calls i).found, w.now < row.expiresAt))
  | .execute => inferInstanceAs (Decidable (∀ row ∈ (w.calls i).claimed, w.now < row.expiresAt))
  | .getIdempotencyRecord .probe _ | .getIdempotencyRecord .conflict _ | .authorize
  | .executionPolicy _ | .checkRateLimit _ | .prepareExecution | .now | .claimInsert _
  | .newConversationService | .prepareResponseConversation | .insertResponseStarted _ | .audit _
  | .newExecutionService | .completeResponse _ | .recordAssistant .. | .failResponse _
  | .finishIdempotency .. => isTrue trivial

section

variable {w' : World}

variable {o : ResponseOp}

variable {x : o.Ans}

theorem see_of_quiet (h : (w.calls i).record o x = w.calls i) : w.see i o x = w := by
  simp [World.see, h]

theorem insert_calls {written : Written Bool} (h : w.insert i record written = some w') :
    w'.calls = w.calls := by
  unfold World.insert at h
  split at h <;> (try split at h) <;> cases h <;> rfl

variable {p : Position}

theorem finish_calls {status : Int} {body : Json} {resourceId : Option String}
    {written : Written Unit} (h : w.finish p status body resourceId written = some w') :
    w'.calls = w.calls := by
  unfold World.finish at h
  split at h <;> cases h
  rfl

theorem answer_calls (h : w.answer i o x = some w') : w'.calls = w.calls := by
  unfold World.answer at h
  split at h
  · split at h <;> cases h
    rfl
  · split at h <;> cases h
    rfl
  · exact insert_calls h
  · exact finish_calls h
  · cases h
    rfl
  · cases h
    rfl

section

variable (h : LedgerInv hasher inputs w)
include h

theorem get_placed {row : IdempotencyRecord} (hget : some row = w.ledger.get w.now p) :
    w.ledger row.position = some row := by
  have hrow := (Ledger.get_eq_some.mp hget.symm).1
  rw [h.placed p row hrow]
  exact hrow

theorem ledgerInv_insert
    (hmay : (seenContract hasher (inputs i)).may (w.calls i) (.claimInsert record))
    {written : Written Bool} (hanswer : w.insert i record written = some w') :
    LedgerInv hasher inputs (w'.see i (.claimInsert record) written) := by
  obtain ⟨key, hkey, hposition⟩ := hmay
  unfold World.insert at hanswer
  split at hanswer
  · split at hanswer
    · next hinserted =>
      cases hanswer
      obtain ⟨hfree, -⟩ := Ledger.insert_true.mp (Prod.ext hinserted rfl)
      refine (h.claim (i := i) hfree).see (fun row hrow => .inl hrow) ?_ id
      intro record' hrecord
      cases hrecord
      refine .inr ⟨_, List.mem_cons_self .., rfl, rfl, ?_⟩
      simp [positionOf, hkey, hposition]
    · cases hanswer
  · split at hanswer
    · cases hanswer
    · cases hanswer
      rw [see_of_quiet rfl]
      exact h
  · cases hanswer
  · next err committed =>
    cases hanswer
    rw [see_of_quiet rfl]
    cases committed with
    | true => exact h.insert record
    | false => exact h

theorem ledgerInv_finish {status : Int} {body : Json} {resourceId : Option String}
    {written : Written Unit} (hanswer : w.finish p status body resourceId written = some w') :
    LedgerInv hasher inputs (w'.see i (.finishIdempotency p status body resourceId) written) := by
  unfold World.finish at hanswer
  split at hanswer
  · cases hanswer
  · next result committed _ =>
    cases hanswer
    rw [see_of_quiet rfl]
    cases committed with
    | true => exact h.of_persists (Ledger.placed_finish h.placed p) (Ledger.persists_finish _ _ _)
    | false => exact h

theorem replay_answers (hguard : rowStands i w (.getIdempotencyRecord .replay p)) :
    (seenContract hasher (inputs i)).answers (w.calls i) (.getIdempotencyRecord .replay p)
      (.ok (w.ledger.get w.now p)) := by
  intro row hfound hbody hposition
  have hlive : w.now < row.expiresAt := hguard row hfound
  obtain ⟨row', hrow', hexpires, hbody'⟩ := h.found i row hfound hbody (Nat.le_of_lt hlive)
  rw [hposition] at hrow'
  exact ⟨row', Ledger.get_eq_some.mpr ⟨hrow', hexpires ▸ hlive⟩, hbody'⟩

theorem ledgerInv_act (hguard : rowStands i w o)
    (hmay : (seenContract hasher (inputs i)).may (w.calls i) o)
    (hanswer : w.answer i o x = some w') :
    (seenContract hasher (inputs i)).answers (w.calls i) o x ∧
      LedgerInv hasher inputs (w'.see i o x) := by
  cases o with
  | claimInsert record => exact ⟨trivial, ledgerInv_insert h hmay hanswer⟩
  | finishIdempotency p status body resourceId => exact ⟨trivial, ledgerInv_finish h hanswer⟩
  | execute =>
    obtain ⟨hclaim, hnot⟩ := hmay
    cases hanswer
    refine ⟨trivial, h.dispatch rfl rfl rfl hnot fun hkey => ?_⟩
    obtain ⟨record, hrecord⟩ := Option.isSome_iff_exists.mp (hclaim.resolve_left hkey)
    exact ⟨record, hrecord, hguard record hrecord⟩
  | getIdempotencyRecord site p =>
    cases x with
    | error err =>
      cases hanswer
      rw [see_of_quiet (by cases site <;> rfl)]
      exact ⟨by cases site <;> trivial, h⟩
    | ok row =>
      simp only [World.answer] at hanswer
      split at hanswer
      · next hget =>
        cases hanswer
        cases site with
        | replay =>
          rw [see_of_quiet rfl, hget]
          exact ⟨replay_answers h hguard, h⟩
        | probe =>
          refine ⟨trivial, ?_⟩
          cases row with
          | none =>
            rw [see_of_quiet rfl]
            exact h
          | some row =>
            refine h.see (fun row' hrow => ?_) (fun record hrecord => .inl hrecord) id
            cases hrow
            exact .inr (get_placed h hget)
        | conflict =>
          refine ⟨trivial, ?_⟩
          cases row with
          | none =>
            rw [see_of_quiet rfl]
            exact h
          | some row =>
            refine h.see (fun row' hrow => ?_) (fun record hrecord => .inl hrecord) id
            cases hrow
            exact .inr (get_placed h hget)
      · cases hanswer
  | now =>
    simp only [World.answer] at hanswer
    split at hanswer
    · cases hanswer
      rw [see_of_quiet rfl]
      exact ⟨trivial, h⟩
    · cases hanswer
  | _ =>
    cases hanswer
    rw [see_of_quiet rfl]
    exact ⟨trivial, h⟩

end

end

/-- The proof outline: each call knows what it has seen. -/
def callsOutline (hasher : IdempotencyHasher) (codec : ResponseCodec) (inputs : Nat → CallInput) :
    System.Outline (calls hasher codec inputs) where
  Ghost _ := CallSeen
  contract i := seenContract hasher (inputs i)
  at_ _ _ seen := seen = {}
  shared w γ := LedgerInv hasher inputs w ∧ w.calls = γ
  guard := rowStands
  code_ok i _ seen h := by
    subst h
    refine wp_bind_mono (P := fun _ _ => True) (wp_attempt.mpr ?_) fun _ _ _ => ?_
    · exact wp_mono sound_createResponse (fun _ _ _ => trivial) fun _ _ _ => trivial
    · intro point hpoint
      cases hpoint
  act_ok i w o x w' γ h hguard hmay hgrant := by
    obtain ⟨hinv, rfl⟩ := h
    obtain ⟨w₁, hanswer, rfl⟩ := Option.map_eq_some_iff.mp hgrant
    obtain ⟨hanswers, hinv'⟩ := ledgerInv_act hinv hguard hmay hanswer
    refine ⟨hanswers, hinv', ?_⟩
    simp only [World.see, answer_calls hanswer]
    rfl
  nature_ok w e w' γ h hnature := by
    obtain ⟨hinv, rfl⟩ := h
    cases e with
    | wait seconds =>
      cases hnature
      exact ⟨hinv.wait seconds, rfl⟩
    | sweep p =>
      cases hnature
      exact ⟨hinv.of_persists (Ledger.placed_sweep hinv.placed _ p) (Ledger.persists_sweep _ _ _),
        rfl⟩

/-! ## Only the claimer executes -/

/-- The dispatches of calls on the position of a claim, before its row has expired. -/
def duringClaim (hasher : IdempotencyHasher) (inputs : Nat → CallInput) (w : World)
    (c : LedgerClaim) : List Dispatched :=
  w.dispatches.filter fun d => positionOf hasher (inputs d.call) = some c.position ∧
    c.claimedAt ≤ d.dispatchedAt ∧ d.dispatchedAt < c.expiresAt

/--
A call with a key dispatches only on its own claim, and while the row of a claim stands, the calls
on its position dispatch at most once.
-/
def OnlyClaimerExecutes (hasher : IdempotencyHasher) (inputs : Nat → CallInput) (w : World) : Prop :=
  (∀ d ∈ w.dispatches, ∀ p, positionOf hasher (inputs d.call) = some p →
    ∃ c ∈ w.claims, c.call = d.call ∧ c.position = p ∧ c.claimedAt ≤ d.dispatchedAt) ∧
  ∀ c ∈ w.claims, (duringClaim hasher inputs w c).length ≤ 1

/-- Neither claim begins before the other has expired, if they are of one position. -/
def Apart (a b : LedgerClaim) : Prop :=
  a.position = b.position → b.expiresAt < a.claimedAt ∨ a.expiresAt < b.claimedAt

instance : Std.Symm Apart :=
  ⟨fun _ _ hab heq => (hab heq.symm).symm⟩

theorem LedgerInv.claim_eq (h : LedgerInv hasher inputs w) {c c' : LedgerClaim}
    (hc : c ∈ w.claims) (hc' : c' ∈ w.claims) (hposition : c.position = c'.position) {time : Nat}
    (hat : c.claimedAt ≤ time ∧ time < c.expiresAt)
    (hat' : c'.claimedAt ≤ time ∧ time < c'.expiresAt) : c = c' := by
  by_contra hne
  have hapart : w.claims.Pairwise Apart := h.apart.imp fun hab heq => .inl (hab heq)
  have hone := hapart.forall hc hc' hne hposition
  omega

theorem LedgerInv.onlyClaimer (h : LedgerInv hasher inputs w) :
    OnlyClaimerExecutes hasher inputs w := by
  have hkeyed : ∀ d ∈ w.dispatches, ∀ p, positionOf hasher (inputs d.call) = some p →
      ∃ c ∈ w.claims, EntitledBy hasher inputs d c := by
    intro d hd p hp
    refine (h.settled d hd).2 fun hkey => ?_
    simp [positionOf, hkey] at hp
  refine ⟨fun d hd p hp => ?_, fun c hc => ?_⟩
  · obtain ⟨c, hc, hcall, hposition, hat, -⟩ := hkeyed d hd p hp
    exact ⟨c, hc, hcall, Option.some.inj (hposition.symm.trans hp), hat⟩
  · have hsame : ∀ d ∈ duringClaim hasher inputs w c, d.call = c.call := by
      intro d hd
      obtain ⟨hmem, hduring⟩ := List.mem_filter.mp hd
      obtain ⟨hposition, hat, hlive⟩ := of_decide_eq_true hduring
      obtain ⟨c', hc', hcall, hposition', hat', hlive'⟩ := hkeyed d hmem _ hposition
      have heq : c = c' := h.claim_eq hc hc' (Option.some.inj (hposition.symm.trans hposition'))
        ⟨hat, hlive⟩ ⟨hat', hlive'⟩
      rw [heq, hcall]
    have hnodup : ((duringClaim hasher inputs w c).map (·.call)).Nodup :=
      h.once.sublist (List.filter_sublist.map _)
    -- all of them are by the same call, and each call dispatches once
    cases hduring : duringClaim hasher inputs w c with
    | nil => simp
    | cons d rest =>
      cases rest with
      | nil => simp
      | cons d' rest =>
        rw [hduring] at hsame hnodup
        have hd := hsame d (by simp)
        have hd' := hsame d' (by simp)
        simp [hd, hd'] at hnodup

theorem callsOutline_initial {ledger : Ledger} (hplaced : ledger.Placed) :
    (callsOutline hasher codec inputs).Holds (callsInitial hasher codec inputs ledger) := by
  refine ⟨fun _ => {}, ⟨⟨hplaced, ?_, ?_, ?_, ?_, ?_, ?_⟩, rfl⟩, ?_⟩
  · intro i row hrow
    cases hrow
  · intro i record hrecord
    cases hrecord
  · intro c hc
    cases hc
  · exact List.Pairwise.nil
  · intro d hd
    cases hd
  · exact List.nodup_nil
  · intro i
    exact (callsOutline hasher codec inputs).code_ok i () {} rfl

/--
**Only the claimer executes**, over every interleaving of any number of calls in which no row
expires under a call: the row it has found, until it has read it for the last time, and the row it
has claimed, until it executes.
-/
theorem onlyClaimerExecutes {ledger : Ledger} (hplaced : ledger.Placed)
    {moves : List (calls hasher codec inputs).Move} {t : (calls hasher codec inputs).State}
    (hrun : runFrom (calls hasher codec inputs).step
      (callsInitial hasher codec inputs ledger) moves = some t)
    (hstands : Transition.Meets (calls hasher codec inputs).step (System.Guarded rowStands)
      (callsInitial hasher codec inputs ledger) moves) :
    OnlyClaimerExecutes hasher inputs t.world := by
  obtain ⟨γ, ⟨hinv, -⟩, -⟩ :=
    (callsOutline hasher codec inputs).guarded (callsOutline_initial hplaced) hstands hrun
  exact hinv.onlyClaimer

end

/-! ## Runs of a few calls -/

namespace Sample

/-- Every call is the same request. -/
abbrev same : Nat → CallInput := fun _ => input

abbrev system : System Nat := calls hasher codec same

abbrev initial : system.State := callsInitial hasher codec same empty

instance (s : system.State) (m : system.Move) :
    Decidable (System.Guarded (M := system) rowStands s m) :=
  @System.instDecidableGuarded _ system rowStands (fun i w o => instDecidableRowStands i w o) s m

/-- A call makes its next step, with services that work; or the world moves. -/
inductive Cue
  | call (i : Nat)
  | world (e : WorldEvent)

def moveOf (s : system.State) : Cue → system.Move
  | .call i => .act i (workingAnswer (succeededWith "hi") (CallLog.start s.world.ledger s.world.now))
  | .world e => .nature e

def perform : List Cue → system.State → List system.Move
  | [], _ => []
  | cue :: rest, s =>
    moveOf s cue :: ((system.step s (moveOf s cue)).map (perform rest)).getD []

/-- One call from its first step to its answer, then another that finds it finished. -/
def inTurn : List system.Move :=
  perform (List.replicate 21 (.call 0) ++ List.replicate 13 (.call 1)) initial

/--
Call 0 finishes; call 1 finds its row finished; the row expires and is swept; call 2 claims the
position; call 1 reads again and finds the row of call 2, without an answer.
-/
def overtaken : List system.Move :=
  perform (List.replicate 21 (Cue.call 0) ++ List.replicate 12 (Cue.call 1) ++
    [Cue.world (.wait 90000), Cue.world (.sweep record.position)] ++ List.replicate 11 (Cue.call 2) ++
    List.replicate 7 (Cue.call 1) ++ List.replicate 7 (Cue.call 2)) initial

end Sample

theorem onlyClaimerExecutes_inTurn :
    ∃ t, runFrom Sample.system.step Sample.initial Sample.inTurn = some t ∧
      t.world.dispatches = [{ call := 0, dispatchedAt := 0 }] ∧
      OnlyClaimerExecutes Sample.hasher Sample.same t.world := by
  have hmoves : (runFrom Sample.system.step Sample.initial Sample.inTurn).map
      (fun t => t.world.dispatches) = some [{ call := 0, dispatchedAt := 0 }] := by
    decide +kernel
  obtain ⟨t, hrun, hdispatches⟩ := Option.map_eq_some_iff.mp hmoves
  have hplaced : Sample.empty.Placed := by
    intro p row hrow
    cases hrow
  have hstands : Transition.Meets Sample.system.step (System.Guarded rowStands) Sample.initial
      Sample.inTurn := by
    decide +kernel
  exact ⟨t, hrun, hdispatches, onlyClaimerExecutes hplaced hrun hstands⟩

/-- Two calls execute during one claim, one of them without a claim of its own. -/
theorem executes_without_claim_overtaken :
    ∃ t, runFrom Sample.system.step Sample.initial Sample.overtaken = some t ∧
      ¬ OnlyClaimerExecutes Sample.hasher Sample.same t.world := by
  have hmoves : (runFrom Sample.system.step Sample.initial Sample.overtaken).map
      (fun t => (t.world.dispatches, t.world.claims)) =
      some ([{ call := 2, dispatchedAt := 90000 }, { call := 1, dispatchedAt := 90000 },
          { call := 0, dispatchedAt := 0 }],
        [{ call := 2, position := Sample.record.position, claimedAt := 90000, expiresAt := 176400 },
          { call := 0, position := Sample.record.position, claimedAt := 0, expiresAt := 86400 }]) := by
    decide +kernel
  obtain ⟨t, hrun, hworld⟩ := Option.map_eq_some_iff.mp hmoves
  simp only [Prod.mk.injEq] at hworld
  refine ⟨t, hrun, fun hclaimers => ?_⟩
  obtain ⟨c, hc, hcall, -⟩ := hclaimers.1 { call := 1, dispatchedAt := 90000 }
    (by simp [hworld.1]) Sample.record.position rfl
  rw [hworld.2] at hc
  simp only [List.mem_cons, List.not_mem_nil, or_false] at hc
  rcases hc with rfl | rfl <;> cases hcall

end Moira.Public
