import Moira.Admin.Properties.Call

/-!
# Exactly once

The ledger, the locks and the commits over every interleaving of admin commands.

- **`adminCommands_exactlyOnce`** — what commits and what callers are told, in every run
-/

namespace Moira.Admin

open Transition (runFrom)
open Prog

section

variable {T : Type} {runner : AdminCommandRunner T} {specs : Nat → AdminCommandSpec}
variable {initial : Ledger} {w w' : World T} {i j : Nat}

/-- The record is from before the run, or of a call of this run that committed it. -/
def Recorded (initial : Ledger) (w : World T) (row : IdempotencyRecord) : Prop :=
  initial row.position = some row ∨ ∃ c ∈ w.commits, c.row = some row

/-- Nothing but what the transaction has deleted is committed at the position. -/
def EmptyFor (w : World T) (i : Nat) (p : Position) : Prop :=
  ∀ row, w.ledger p = some row → row ∈ w.deleted i

/-- The later commit of a record comes after the earlier record has expired. -/
def Follows (later earlier : Commit) : Prop :=
  ∀ row' row, later.row = some row' → earlier.row = some row → row'.position = row.position →
    row.expiresAt ≤ later.committedAt

/-- The call has committed the row, with effects of its mutation or without. -/
def HasCommit (w : World T) (i : Nat) (row : Option IdempotencyRecord) (mutated : Bool) : Prop :=
  ∃ c ∈ w.commits, c.call = i ∧ c.row = row ∧ c.mutated = mutated

/-- A row that was committed is there until it expires; a call that holds the lock of its position
is the only one that can put a row there. -/
structure CommandInv (runner : AdminCommandRunner T) (specs : Nat → AdminCommandSpec)
    (initial : Ledger) (w : World T) : Prop where
  placed : w.ledger.Placed
  recorded : ∀ p row, w.ledger p = some row → Recorded initial w row
  started : ∀ i, w.startedAt i ≤ w.now
  deleted : ∀ i, ∀ row ∈ w.deleted i, row.expiresAt ≤ w.now
  locked : ∀ i, w.opened i = true → (w.calls i).locked = true →
    ∀ claim, commandClaim runner (specs i) = some claim →
      w.locks (runner.advisoryLockKey claim.position) = some i
  pending : ∀ i row, w.opened i = true → (w.calls i).inserted = some row →
    w.pending row.position = some i ∧ (w.calls i).locked = true ∧
      ClaimRow runner (specs i) row ∧ EmptyFor w i row.position
  cleared : ∀ i claim, w.opened i = true → commandClaim runner (specs i) = some claim →
    claim.position ∈ (w.calls i).clear → (w.calls i).locked = true ∧ EmptyFor w i claim.position
  found : ∀ i row, (w.calls i).found = some row →
    (∃ claim, commandClaim runner (specs i) = some claim ∧ row.position ∈ claim.positions) ∧
      Recorded initial w row
  commits : ∀ c ∈ w.commits,
    Commits runner (specs c.call) (w.calls c.call).mutation c.row c.mutated
  live : ∀ c ∈ w.commits, ∀ row, c.row = some row →
    w.ledger row.position = some row ∨ row.expiresAt ≤ w.now
  apart : w.commits.Pairwise Follows
  refused : ∀ i, (w.calls i).refused = false
  ready : ∀ i, (w.calls i).mutation.isSome = true → Ready runner (specs i) (w.calls i)
  settled : ∀ i row mutated, (w.calls i).committed = some (row, mutated) →
    HasCommit w i row mutated
  told : ∀ i r, (w.calls i).reply = some r → Told runner (specs i) (w.calls i) r

variable {claim : AdminIdempotencyClaim} {o : AdminOp T}

variable {x : o.Ans}

namespace CommandInv

/-! ## Steps of the database -/

section

variable (h : CommandInv runner specs initial w)
include h

theorem lose {l : Ledger} (hkept : ∀ p row, l p = some row → w.ledger p = some row)
    (hlost : ∀ p row, w.ledger p = some row → l p = some row ∨ row.expiresAt ≤ w.now) :
    CommandInv runner specs initial { w with ledger := l } where
  placed p row hrow := h.placed p row (hkept p row hrow)
  recorded p row hrow := h.recorded p row (hkept p row hrow)
  started := h.started
  deleted := h.deleted
  locked := h.locked
  pending i row hopen hrow := by
    obtain ⟨hpending, hlocked, hclaim, hempty⟩ := h.pending i row hopen hrow
    exact ⟨hpending, hlocked, hclaim, fun row' hrow' => hempty row' (hkept _ _ hrow')⟩
  cleared i claim hopen hclaim hclear := by
    obtain ⟨hlocked, hempty⟩ := h.cleared i claim hopen hclaim hclear
    exact ⟨hlocked, fun row' hrow' => hempty row' (hkept _ _ hrow')⟩
  found := h.found
  commits := h.commits
  live c hc row hrow := by
    rcases h.live c hc row hrow with hthere | hexpired
    · exact hlost _ row hthere
    · exact .inr hexpired
  apart := h.apart
  refused := h.refused
  ready := h.ready
  settled := h.settled
  told := h.told

theorem wait (seconds : Nat) :
    CommandInv runner specs initial { w with now := w.now + seconds } where
  placed := h.placed
  recorded := h.recorded
  started i := Nat.le_add_right_of_le (h.started i)
  deleted i row hrow := Nat.le_add_right_of_le (h.deleted i row hrow)
  locked := h.locked
  pending := h.pending
  cleared := h.cleared
  found := h.found
  commits := h.commits
  live c hc row hrow := by
    rcases h.live c hc row hrow with hthere | hexpired
    · exact .inl hthere
    · exact .inr (Nat.le_add_right_of_le hexpired)
  apart := h.apart
  refused := h.refused
  ready := h.ready
  settled := h.settled
  told := h.told

theorem close (i : Nat) : CommandInv runner specs initial (w.close i) := by
  have hopened : ∀ {j}, (w.close i).opened j = true → j ≠ i ∧ w.opened j = true := by
    intro j hopen
    by_cases hj : j = i
    · subst hj
      simp [World.close] at hopen
    · exact ⟨hj, by simpa [World.close, hj] using hopen⟩
  refine { h with locked := ?_, pending := ?_, cleared := ?_ }
  · intro j hopen hlocked claim hclaim
    obtain ⟨hj, hopen⟩ := hopened hopen
    simp [World.close, h.locked j hopen hlocked claim hclaim, hj]
  · intro j row hopen hrow
    obtain ⟨hj, hopen⟩ := hopened hopen
    obtain ⟨hpending, hrest⟩ := h.pending j row hopen hrow
    exact ⟨by simp [World.close, hpending, hj], hrest⟩
  · intro j claim hopen hclaim hclear
    exact h.cleared j claim (hopened hopen).2 hclaim hclear

theorem lock_unique {claim' : AdminIdempotencyClaim} (hopen : w.opened i = true)
    (hlocked : (w.calls i).locked = true) (hclaim : commandClaim runner (specs i) = some claim)
    (hopen' : w.opened j = true) (hlocked' : (w.calls j).locked = true)
    (hclaim' : commandClaim runner (specs j) = some claim')
    (hposition : claim.position = claim'.position) : i = j := by
  have hi := h.locked i hopen hlocked claim hclaim
  have hj := h.locked j hopen' hlocked' claim' hclaim'
  rw [hposition, hj] at hi
  exact (Option.some.inj hi).symm

end

variable {p : Position}

theorem visible_of_not_inserted (h : ∀ row, (w.calls i).inserted = some row → row.position ≠ p) :
    w.visible i p = (w.ledger p).filter (· ∉ w.deleted i) := by
  unfold World.visible
  have hnone : (w.calls i).inserted.filter (·.position = p) = none := by
    rw [Option.filter_eq_none_iff]
    intro row hrow
    simpa using h row hrow
  rw [hnone]

variable {row : IdempotencyRecord}

theorem visible_inserted (h : (w.calls i).inserted = some row) :
    w.visible i row.position = some row := by
  simp [World.visible, h, Option.filter]

theorem visible_or_expired (h : CommandInv runner specs initial w) (hopen : w.opened i = true)
    (hrow : w.ledger p = some row) : w.visible i p = some row ∨ row.expiresAt ≤ w.now := by
  by_cases hdeleted : row ∈ w.deleted i
  · exact .inr (h.deleted i row hdeleted)
  · by_cases hinserted : ∃ mine, (w.calls i).inserted = some mine ∧ mine.position = p
    · obtain ⟨mine, hmine, rfl⟩ := hinserted
      -- the claim was inserted where nothing else was left
      exact absurd ((h.pending i mine hopen hmine).2.2.2 row hrow) hdeleted
    · refine .inl ?_
      rw [visible_of_not_inserted fun mine hmine hp => hinserted ⟨mine, hmine, hp⟩, hrow]
      simp [hdeleted]

theorem visible_cases (hrow : w.visible i p = some row) :
    ((w.calls i).inserted = some row ∧ row.position = p) ∨ w.ledger p = some row := by
  by_cases hinserted : ∃ mine, (w.calls i).inserted = some mine ∧ mine.position = p
  · obtain ⟨mine, hmine, rfl⟩ := hinserted
    rw [visible_inserted hmine] at hrow
    cases hrow
    exact .inl ⟨hmine, rfl⟩
  · rw [visible_of_not_inserted fun mine hmine hp => hinserted ⟨mine, hmine, hp⟩] at hrow
    exact .inr (Option.filter_eq_some_iff.mp hrow).1

section

variable (h : CommandInv runner specs initial w)
include h

theorem commit (hopen : w.opened i = true)
    (hcommits : Commits runner (specs i) (w.calls i).mutation (w.calls i).inserted
      (w.calls i).mutated) : CommandInv runner specs initial (w.commit i) := by
  have hclosed := h.close i
  have hrecorded : ∀ row, Recorded initial w row → Recorded initial (w.commit i) row := by
    rintro row (hinitial | ⟨c, hc, hrow⟩)
    · exact .inl hinitial
    · exact .inr ⟨c, List.mem_cons_of_mem _ hc, hrow⟩
  -- a row that another transaction rests on being away does not come back with this commit
  have hempty : ∀ j claim, j ≠ i → w.opened j = true → (w.calls j).locked = true →
      commandClaim runner (specs j) = some claim → EmptyFor w j claim.position →
      EmptyFor (w.commit i) j claim.position := by
    intro j claim hj hopenj hlockedj hclaimj hemptyj row hrow
    rcases visible_cases hrow with ⟨hmine, hposition⟩ | hold
    · obtain ⟨-, hlocked, ⟨claim', hclaim', hposition', -⟩, -⟩ := h.pending i row hopen hmine
      exact absurd (h.lock_unique hopenj hlockedj hclaimj hopen hlocked hclaim'
        (hposition.symm.trans hposition')) hj
    · exact hemptyj row hold
  have hopened : ∀ {j}, (w.commit i).opened j = true → j ≠ i ∧ w.opened j = true := by
    intro j hj
    by_cases hji : j = i
    · subst hji
      simp [World.commit, World.close] at hj
    · exact ⟨hji, by simpa [World.commit, World.close, hji] using hj⟩
  constructor
  · intro p row hrow
    rcases visible_cases hrow with ⟨-, hposition⟩ | hold
    · exact hposition
    · exact h.placed p row hold
  · intro p row hrow
    rcases visible_cases hrow with ⟨hmine, -⟩ | hold
    · exact .inr ⟨_, List.mem_cons_self .., hmine⟩
    · exact hrecorded row (h.recorded p row hold)
  · exact h.started
  · exact h.deleted
  · exact hclosed.locked
  · intro j row hj hrow
    obtain ⟨hji, hopenj⟩ := hopened hj
    obtain ⟨hpending, hlocked, hclaim, -⟩ := hclosed.pending j row hj hrow
    obtain ⟨claim, hsome, hposition, hhash⟩ := hclaim
    refine ⟨hpending, hlocked, ⟨claim, hsome, hposition, hhash⟩, ?_⟩
    have hemptyj := (h.pending j row hopenj hrow).2.2.2
    rw [hposition] at hemptyj ⊢
    exact hempty j claim hji hopenj hlocked hsome hemptyj
  · intro j claim hj hclaim hclear
    obtain ⟨hji, hopenj⟩ := hopened hj
    obtain ⟨hlocked, hemptyj⟩ := h.cleared j claim hopenj hclaim hclear
    exact ⟨hlocked, hempty j claim hji hopenj hlocked hclaim hemptyj⟩
  · intro j row hrow
    obtain ⟨hposition, hrec⟩ := h.found j row hrow
    exact ⟨hposition, hrecorded row hrec⟩
  · intro c hc
    rcases List.mem_cons.mp hc with rfl | hc
    · exact hcommits
    · exact h.commits c hc
  · intro c hc row hrow
    rcases List.mem_cons.mp hc with rfl | hc
    · exact .inl (visible_inserted hrow)
    · rcases h.live c hc row hrow with hthere | hexpired
      · exact h.visible_or_expired hopen hthere
      · exact .inr hexpired
  · refine List.pairwise_cons.mpr ⟨fun c hc => ?_, h.apart⟩
    intro row' row hrow' hrow hposition
    have hrow' : (w.calls i).inserted = some row' := hrow'
    -- the earlier row is no longer there for this transaction, so it has expired
    rcases h.live c hc row hrow with hthere | hexpired
    · rw [← hposition] at hthere
      exact h.deleted i row ((h.pending i row' hopen hrow').2.2.2 row hthere)
    · exact hexpired
  · exact h.refused
  · exact h.ready
  · intro j row mutated hj
    obtain ⟨c, hc, hcommit⟩ := h.settled j row mutated hj
    exact ⟨c, List.mem_cons_of_mem _ hc, hcommit⟩
  · exact h.told

/-! ## Steps of a call -/

theorem update {call : AdminCall T}
    (hlocked : w.opened i = true → call.locked = true → ∀ claim,
      commandClaim runner (specs i) = some claim →
        w.locks (runner.advisoryLockKey claim.position) = some i)
    (hpending : ∀ row, w.opened i = true → call.inserted = some row →
      w.pending row.position = some i ∧ call.locked = true ∧ ClaimRow runner (specs i) row ∧
        EmptyFor w i row.position)
    (hcleared : ∀ claim, w.opened i = true → commandClaim runner (specs i) = some claim →
      claim.position ∈ call.clear → call.locked = true ∧ EmptyFor w i claim.position)
    (hfound : ∀ row, call.found = some row →
      (∃ claim, commandClaim runner (specs i) = some claim ∧ row.position ∈ claim.positions) ∧
        Recorded initial w row)
    (hmutation : ∀ m, (w.calls i).mutation = some m → call.mutation = some m)
    (hrefused : call.refused = false)
    (hready : call.mutation.isSome = true → Ready runner (specs i) call)
    (hsettled : ∀ row mutated, call.committed = some (row, mutated) → HasCommit w i row mutated)
    (htold : ∀ r, call.reply = some r → Told runner (specs i) call r) :
    CommandInv runner specs initial { w with calls := Function.update w.calls i call } := by
  refine { h with
    locked := ?_, pending := ?_, cleared := ?_, found := ?_, commits := ?_, refused := ?_
    ready := ?_, settled := ?_, told := ?_ }
  · intro j hopen hj
    rcases eq_or_ne j i with rfl | hji
    · exact hlocked hopen (by simpa using hj)
    · exact h.locked j hopen (by simpa [hji] using hj)
  · intro j row hopen hj
    rcases eq_or_ne j i with rfl | hji
    · simpa [EmptyFor] using hpending row hopen (by simpa using hj)
    · simpa [EmptyFor, hji] using h.pending j row hopen (by simpa [hji] using hj)
  · intro j claim hopen hclaim hj
    rcases eq_or_ne j i with rfl | hji
    · simpa [EmptyFor] using hcleared claim hopen hclaim (by simpa using hj)
    · simpa [EmptyFor, hji] using h.cleared j claim hopen hclaim (by simpa [hji] using hj)
  · intro j row hj
    rcases eq_or_ne j i with rfl | hji
    · exact hfound row (by simpa using hj)
    · exact h.found j row (by simpa [hji] using hj)
  · intro c hc
    by_cases hji : c.call = i
    · rcases h.commits c hc with hnothing | ⟨m, hm, hrest⟩
      · exact .inl hnothing
      · refine .inr ⟨m, ?_, hrest⟩
        rw [hji] at hm ⊢
        simpa using hmutation m hm
    · simpa [hji] using h.commits c hc
  · exact (Function.forall_update_iff w.calls fun _ call => call.refused = false).mpr
      ⟨hrefused, fun j _ => h.refused j⟩
  · exact (Function.forall_update_iff w.calls fun j call =>
      call.mutation.isSome = true → Ready runner (specs j) call).mpr ⟨hready, fun j _ => h.ready j⟩
  · exact (Function.forall_update_iff w.calls fun j call =>
      ∀ row mutated, call.committed = some (row, mutated) → HasCommit w j row mutated).mpr
        ⟨hsettled, fun j _ => h.settled j⟩
  · exact (Function.forall_update_iff w.calls fun j call =>
      ∀ r, call.reply = some r → Told runner (specs j) call r).mpr ⟨htold, fun j _ => h.told j⟩

theorem quiet {call : AdminCall T} (hlocked : call.locked = (w.calls i).locked)
    (hinserted : call.inserted = (w.calls i).inserted) (hclear : call.clear = (w.calls i).clear)
    (hfound : call.found = (w.calls i).found)
    (hmutation : ∀ m, (w.calls i).mutation = some m → call.mutation = some m)
    (hrefused : call.refused = (w.calls i).refused)
    (hready : call.mutation.isSome = true → Ready runner (specs i) call)
    (hsettled : ∀ row mutated, call.committed = some (row, mutated) → HasCommit w i row mutated)
    (htold : ∀ r, call.reply = some r → Told runner (specs i) call r) :
    CommandInv runner specs initial { w with calls := Function.update w.calls i call } :=
  h.update (fun hopen hc => h.locked i hopen (hlocked ▸ hc))
    (fun row hopen hrow => by
      rw [hlocked]
      exact h.pending i row hopen (hinserted ▸ hrow))
    (fun claim hopen hclaim hmem => by
      rw [hlocked]
      exact h.cleared i claim hopen hclaim (hclear ▸ hmem))
    (fun row hrow => h.found i row (hfound ▸ hrow)) hmutation (hrefused.trans (h.refused i)) hready
    hsettled htold

theorem told_fail (failed : Bool) {r : Except AppError (AdminCommandOutcome T)}
    (hr : (w.calls i).reply = some r) :
    Told runner (specs i) { w.calls i with failed := (w.calls i).failed || failed } r := by
  rcases h.told i r hr with hfailed | hrest
  · exact .inl (by simp [hfailed])
  · exact .inr hrest

theorem noted
    (hrecord : (w.calls i).record o x =
      { w.calls i with failed := (w.calls i).failed || AdminCall.stepFailed o x }) :
    CommandInv runner specs initial (w.see i o x) := by
  unfold World.see
  rw [hrecord]
  exact h.quiet rfl rfl rfl rfl (fun m hm => hm) rfl (h.ready i) (h.settled i)
    fun r hr => h.told_fail _ hr

theorem begin_ (hlocked : (w.calls i).locked = false) (hclear : (w.calls i).clear = [])
    (hinserted : (w.calls i).inserted = none) :
    CommandInv runner specs initial
      { w with
        opened := Function.update w.opened i true
        startedAt := Function.update w.startedAt i w.now
        deleted := Function.update w.deleted i [] } := by
  refine { h with started := ?_, deleted := ?_, locked := ?_, pending := ?_, cleared := ?_ }
  · intro j
    by_cases hji : j = i
    · simp [hji]
    · simpa [hji] using h.started j
  · intro j row hrow
    by_cases hji : j = i
    · simp [hji] at hrow
    · exact h.deleted j row (by simpa [hji] using hrow)
  · intro j hopen hj
    by_cases hji : j = i
    · subst hji
      rw [hlocked] at hj
      cases hj
    · exact h.locked j (by simpa [hji] using hopen) hj
  · intro j row hopen hj
    by_cases hji : j = i
    · subst hji
      rw [hinserted] at hj
      cases hj
    · simpa [EmptyFor, hji] using h.pending j row (by simpa [hji] using hopen) hj
  · intro j claim hopen hclaim hj
    by_cases hji : j = i
    · subst hji
      rw [hclear] at hj
      cases hj
    · simpa [EmptyFor, hji] using h.cleared j claim (by simpa [hji] using hopen) hclaim hj

theorem acquire (hclaim : commandClaim runner (specs i) = some claim)
    (hfree : (w.locks (runner.advisoryLockKey claim.position)).all (· = i) = true) :
    CommandInv runner specs initial
      { w with
        locks := Function.update w.locks (runner.advisoryLockKey claim.position) (some i)
        calls := Function.update w.calls i { w.calls i with locked := true } } := by
  have hothers : CommandInv runner specs initial
      { w with locks := Function.update w.locks (runner.advisoryLockKey claim.position) (some i) } := by
    refine { h with locked := ?_ }
    intro j hopen hj claim' hclaim'
    have hold := h.locked j hopen hj claim' hclaim'
    by_cases hkey : runner.advisoryLockKey claim'.position = runner.advisoryLockKey claim.position
    · rw [← hkey, hold] at hfree
      have hji : j = i := by simpa using hfree
      simp [hkey, hji]
    · simpa [hkey] using hold
  refine hothers.update ?_ ?_ ?_ (fun row hrow => h.found i row hrow) (fun m hm => hm) (h.refused i)
    (fun hm claim' hclaim' => ⟨rfl, (h.ready i hm claim' hclaim').2⟩) (h.settled i) ?_
  · intro _ _ claim' hclaim'
    obtain rfl := Option.some.inj (hclaim.symm.trans hclaim')
    simp
  · intro row hopen hrow
    obtain ⟨hpending, -, hrest⟩ := hothers.pending i row hopen hrow
    exact ⟨hpending, rfl, hrest⟩
  · intro claim' hopen hclaim' hmem
    exact ⟨rfl, (hothers.cleared i claim' hopen hclaim' hmem).2⟩
  · intro r hr
    exact h.told i r hr

theorem sweepExpired (positions : List Position) :
    CommandInv runner specs initial (w.sweepExpired i positions) := by
  have hmore : ∀ j row, row ∈ w.deleted j → row ∈ (w.sweepExpired i positions).deleted j := by
    intro j row hrow
    by_cases hji : j = i
    · subst hji
      simp [World.sweepExpired, hrow]
    · simpa [World.sweepExpired, hji] using hrow
  refine { h with deleted := ?_, pending := ?_, cleared := ?_ }
  · intro j row hrow
    by_cases hji : j = i
    · subst hji
      simp only [World.sweepExpired, Function.update_self, List.mem_append, List.mem_filter,
        decide_eq_true_eq] at hrow
      rcases hrow with hrow | ⟨-, hexpired⟩
      · exact h.deleted j row hrow
      · exact Nat.le_trans hexpired (h.started j)
    · exact h.deleted j row (by simpa [World.sweepExpired, hji] using hrow)
  · intro j row hopen hrow
    obtain ⟨hpending, hlocked, hclaim, hempty⟩ := h.pending j row hopen hrow
    exact ⟨hpending, hlocked, hclaim, fun row' hrow' => hmore j row' (hempty row' hrow')⟩
  · intro j claim hopen hclaim hmem
    obtain ⟨hlocked, hempty⟩ := h.cleared j claim hopen hclaim hmem
    exact ⟨hlocked, fun row' hrow' => hmore j row' (hempty row' hrow')⟩

theorem loadNone (hlocked : (w.calls i).locked = true) (hinserted : (w.calls i).inserted = none)
    (hnone : w.visible i p = none) :
    CommandInv runner specs initial (w.see i (.load p) (.ok none)) := by
  refine h.update (fun hopen hl => h.locked i hopen hl) (fun row hopen hrow => h.pending i row hopen hrow)
    ?_ (fun row hrow => h.found i row hrow) (fun m hm => hm) (h.refused i) ?_ (h.settled i)
    fun r hr => h.told i r hr
  · intro claim hopen hclaim hmem
    rcases List.mem_cons.mp hmem with rfl | hmem
    · refine ⟨hlocked, fun row hrow => ?_⟩
      rw [visible_of_not_inserted (by simp [hinserted]), hrow] at hnone
      simpa [Option.filter] using hnone
    · exact h.cleared i claim hopen hclaim hmem
  · intro hm claim hclaim
    obtain ⟨hlocked, hclear, hrow⟩ := h.ready i hm claim hclaim
    exact ⟨hlocked, fun q hq => List.mem_cons_of_mem _ (hclear q hq), hrow⟩

theorem loadSome (hmay : (commandContract runner (specs i)).may (w.calls i) (.load p))
    (hsome : w.visible i p = some row) :
    CommandInv runner specs initial (w.see i (.load p) (.ok (some row))) := by
  obtain ⟨-, hinserted, hreply, claim, hclaim, hp⟩ := hmay
  have hrow : w.ledger p = some row := by
    rcases visible_cases hsome with ⟨hmine, -⟩ | hold
    · rw [hinserted] at hmine
      cases hmine
    · exact hold
  refine h.update (fun hopen hl => h.locked i hopen hl) (fun row hopen hrow => h.pending i row hopen hrow)
    (fun claim hopen hc hmem => h.cleared i claim hopen hc hmem) ?_ (fun m hm => hm) (h.refused i)
    (h.ready i) (h.settled i) ?_
  · intro row' hrow'
    cases hrow'
    exact ⟨⟨claim, hclaim, h.placed p row hrow ▸ hp⟩, h.recorded p row hrow⟩
  · intro r hr
    have hr : (w.calls i).reply = some r := hr
    rw [hreply] at hr
    cases hr

theorem insertClaim (hopen : w.opened i = true)
    (hmay : (commandContract runner (specs i)).may (w.calls i) (.insertClaim row))
    (hfree : w.pending row.position = none) :
    CommandInv runner specs initial
      (World.see { w with pending := Function.update w.pending row.position (some i) } i
        (.insertClaim row) .inserted) := by
  obtain ⟨hlocked, hinserted, hclear, hrow⟩ := hmay
  have hothers : CommandInv runner specs initial
      { w with pending := Function.update w.pending row.position (some i) } := by
    refine { h with pending := ?_ }
    intro j row' hj hrow'
    obtain ⟨hpending, hrest⟩ := h.pending j row' hj hrow'
    refine ⟨?_, hrest⟩
    by_cases hposition : row'.position = row.position
    · rw [hposition, hfree] at hpending
      cases hpending
    · simpa [hposition] using hpending
  refine hothers.update (fun hopen hl => h.locked i hopen hl) ?_
    (fun claim hopen hc hmem => h.cleared i claim hopen hc hmem) (fun row hrow => h.found i row hrow)
    (fun m hm => hm) (h.refused i) ?_ (h.settled i) fun r hr => h.told i r hr
  · intro row' _ hrow'
    cases hrow'
    obtain ⟨claim, hclaim, hposition, hhash⟩ := hrow
    rw [hposition] at hclear
    have hempty := (h.cleared i claim hopen hclaim hclear).2
    refine ⟨by simp, hlocked, ⟨claim, hclaim, hposition, hhash⟩, ?_⟩
    rw [hposition]
    exact hempty
  · intro hm claim hclaim
    obtain ⟨-, -, row', hrow', -⟩ := h.ready i hm claim hclaim
    rw [hinserted] at hrow'
    cases hrow'

theorem not_refused (hopen : w.opened i = true)
    (hmay : (commandContract runner (specs i)).may (w.calls i) (.insertClaim row)) :
    w.visible i row.position = none := by
  obtain ⟨-, hinserted, hclear, claim, hclaim, hposition, -⟩ := hmay
  rw [hposition] at hclear ⊢
  rw [visible_of_not_inserted (by simp [hinserted]), Option.filter_eq_none_iff]
  intro row' hrow'
  simpa using (h.cleared i claim hopen hclaim hclear).2 row' hrow'

theorem finalize {status : Int} {body : Json} {resourceId : Option String} :
    CommandInv runner specs initial (w.see i (.finalize status body resourceId) (.ok ())) := by
  refine h.update (fun hopen hl => h.locked i hopen hl) ?_
    (fun claim hopen hc hmem => h.cleared i claim hopen hc hmem) (fun row hrow => h.found i row hrow)
    (fun m hm => hm) (h.refused i) ?_ (h.settled i) fun r hr => h.told i r hr
  · intro row hopen hrow
    obtain ⟨old, hold, rfl⟩ := Option.map_eq_some_iff.mp hrow
    exact h.pending i old hopen hold
  · intro hm claim hclaim
    obtain ⟨hlocked, hclear, row, hrow, hposition⟩ := h.ready i hm claim hclaim
    exact ⟨hlocked, hclear, answeredRow status body resourceId row, by simp [AdminCall.record, hrow],
      hposition⟩

end

end CommandInv

/-! ## Every step -/

theorem respond_calls (h : w.respond i o x = some w') : w'.calls = w.calls := by
  unfold World.respond at h
  split at h <;> (try split at h) <;> (try split at h) <;> cases h <;> rfl

/-- Every step of a call keeps the invariant. -/
theorem commandInv_act (h : CommandInv runner specs initial w)
    (hmay : (commandContract runner (specs i)).may (w.calls i) o)
    (hrespond : w.respond i o x = some w') : CommandInv runner specs initial (w'.see i o x) := by
  cases o with
  | begin =>
    cases x with
    | error err =>
      cases hrespond
      exact h.noted rfl
    | ok =>
      cases hrespond
      exact (h.begin_ hmay.1 hmay.2.1 hmay.2.2).noted rfl
  | utcNow =>
    simp only [World.respond] at hrespond
    split at hrespond <;> cases hrespond
    exact h.noted rfl
  | tryLock key =>
    cases x with
    | error err =>
      cases hrespond
      exact h.noted rfl
    | ok acquired =>
      simp only [World.respond] at hrespond
      split at hrespond
      · next hanswer =>
        cases hrespond
        cases acquired with
        | true =>
          obtain ⟨claim, hclaim, rfl⟩ := hmay
          exact h.acquire hclaim hanswer.2.symm
        | false => exact h.noted rfl
      · cases hrespond
  | sweepExpired positions =>
    cases x with
    | error err =>
      cases hrespond
      exact h.noted rfl
    | ok =>
      simp only [World.respond] at hrespond
      split at hrespond <;> cases hrespond
      exact (h.sweepExpired positions).noted rfl
  | load p =>
    cases x with
    | error err =>
      cases hrespond
      exact h.noted rfl
    | ok row =>
      simp only [World.respond] at hrespond
      split at hrespond
      · next hanswer =>
        cases hrespond
        cases row with
        | none => exact h.loadNone hmay.1 hmay.2.1 hanswer.2.symm
        | some row => exact h.loadSome hmay hanswer.2.symm
      · cases hrespond
  | insertClaim row =>
    cases x with
    | failed err =>
      cases hrespond
      exact h.noted rfl
    | duplicate =>
      simp only [World.respond] at hrespond
      split at hrespond
      · next hanswer => exact absurd (h.not_refused hanswer.1 hmay) hanswer.2
      · cases hrespond
    | inserted =>
      simp only [World.respond] at hrespond
      split at hrespond
      · next hanswer =>
        cases hrespond
        exact h.insertClaim hanswer.1 hmay hanswer.2.2
      · cases hrespond
  | savepoint =>
    cases x with
    | error err =>
      cases hrespond
      exact h.noted rfl
    | ok =>
      simp only [World.respond] at hrespond
      split at hrespond <;> cases hrespond
      exact h.noted rfl
  | releaseSavepoint =>
    cases x with
    | error err =>
      cases hrespond
      exact h.noted rfl
    | ok =>
      simp only [World.respond] at hrespond
      split at hrespond <;> cases hrespond
      exact h.noted rfl
  | rollbackSavepoint =>
    cases x with
    | error err =>
      cases hrespond
      exact h.noted rfl
    | ok =>
      simp only [World.respond] at hrespond
      split at hrespond <;> cases hrespond
      exact h.quiet rfl rfl rfl rfl (fun m hm => hm) rfl (h.ready i) (h.settled i) fun r hr =>
        h.told i r hr
  | mutate =>
    have hsame : w' = w := by
      cases x with
      | error err =>
        cases hrespond
        rfl
      | ok result =>
        simp only [World.respond] at hrespond
        split at hrespond <;> cases hrespond
        rfl
    subst hsame
    obtain ⟨hnone, hreply, hready⟩ := hmay
    refine h.quiet rfl rfl rfl rfl (fun m hm => ?_) rfl (fun _ => hready) (h.settled i) fun r hr => ?_
    · rw [hnone] at hm
      cases hm
    · have hr : (w'.calls i).reply = some r := hr
      rw [hreply] at hr
      cases hr
  | finalize status body resourceId =>
    cases x with
    | error err =>
      cases hrespond
      exact h.noted rfl
    | ok =>
      simp only [World.respond] at hrespond
      split at hrespond <;> cases hrespond
      exact h.finalize
  | commit =>
    obtain ⟨result, committed⟩ := x
    cases result with
    | ok =>
      simp only [World.respond] at hrespond
      split at hrespond
      · next hanswer =>
        cases hrespond
        refine (h.commit hanswer.1 hmay.1).quiet rfl rfl rfl rfl (fun m hm => hm) rfl (h.ready i) ?_ ?_
        · intro row mutated hcommitted
          cases hcommitted
          exact ⟨_, List.mem_cons_self .., rfl, rfl, rfl⟩
        · intro r hr
          have hr : (w.calls i).reply = some r := hr
          rw [hmay.2] at hr
          cases hr
      · cases hrespond
    | error err =>
      simp only [World.respond] at hrespond
      split at hrespond
      · split at hrespond
        · next hopen =>
          cases hrespond
          exact (h.commit hopen hmay.1).noted rfl
        · cases hrespond
      · cases hrespond
        exact (h.close i).noted rfl
  | rollback =>
    have hclosed : w' = w.close i := by
      cases x <;> cases hrespond <;> rfl
    subst hclosed
    exact (h.close i).noted (by cases x <;> rfl)
  | drop =>
    cases hrespond
    exact (h.close i).noted rfl
  | reply r =>
    cases hrespond
    refine h.quiet rfl rfl rfl rfl (fun m hm => hm) rfl (h.ready i) (h.settled i) fun r' hr' => ?_
    cases hr'
    exact hmay
  | pastDeadline =>
    cases hrespond
    exact h.noted rfl
  | sleep =>
    cases hrespond
    exact h.noted rfl

/-- Every move of the world keeps the invariant. -/
theorem commandInv_nature (h : CommandInv runner specs initial w) {e : WorldEvent}
    (hnature : nature w e = some w') : CommandInv runner specs initial w' := by
  cases e with
  | wait seconds =>
    cases hnature
    exact h.wait seconds
  | sweep p =>
    cases hnature
    refine h.lose (fun q row hrow => ?_) fun q row hrow => ?_
    · by_cases hq : q = p
      · subst hq
        simp only [Ledger.sweep, Function.update_self] at hrow
        exact (Option.filter_eq_some_iff.mp hrow).1
      · rwa [Ledger.sweep_of_ne hq] at hrow
    · by_cases hlive : w.now ≤ row.expiresAt
      · exact .inl (Ledger.sweep_eq hrow hlive)
      · exact .inr (by omega)
  | disconnect i =>
    cases hnature
    exact h.close i

/-- The proof outline: each call knows what it was answered. -/
def commandsOutline (runner : AdminCommandRunner T) (specs : Nat → AdminCommandSpec)
    (initial : Ledger) : System.Outline (commands runner specs) where
  Ghost _ := AdminCall T
  contract i := commandContract runner (specs i)
  at_ i point call := AtPoint runner (specs i) call point
  shared w γ := CommandInv runner specs initial w ∧ w.calls = γ
  code_ok i _ _ h := settles_code h
  act_ok i w o x w' γ h _ hmay hgrant := by
    obtain ⟨hinv, rfl⟩ := h
    obtain ⟨w₁, hrespond, rfl⟩ := Option.map_eq_some_iff.mp hgrant
    refine ⟨trivial, commandInv_act hinv hmay hrespond, ?_⟩
    have hcalls : w₁.calls = w.calls := respond_calls hrespond
    simp only [World.see, hcalls]
    rfl
  nature_ok w e w' γ h hnature := by
    obtain ⟨hinv, rfl⟩ := h
    refine ⟨commandInv_nature hinv hnature, ?_⟩
    cases e <;> cases hnature <;> rfl

/-! ## Exactly once -/

/-- What holds of the commits and of the answers after any run. -/
structure ExactlyOnce (runner : AdminCommandRunner T) (specs : Nat → AdminCommandSpec)
    (initial : Ledger) (w : World T) : Prop where
  /-- Until a record has expired, no mutation of its position commits. -/
  once : w.commits.Pairwise fun later earlier => ∀ row claim, earlier.row = some row →
    commandClaim runner (specs later.call) = some claim → claim.position = row.position →
    later.mutated = true → row.expiresAt ≤ later.committedAt
  /-- The effects of a command with a key commit with its record. -/
  recorded : ∀ c ∈ w.commits, c.mutated = true → ∀ claim,
    commandClaim runner (specs c.call) = some claim → ∃ row, c.row = some row ∧
      row.position = claim.position
  /-- A mutation that fails commits no effect, and a record only for a failure that is stored. -/
  failed : ∀ c ∈ w.commits, ∀ err, (w.calls c.call).mutation = some (.error err) →
    c.mutated = false ∧ (c.row.isSome = true → err.isCacheableAdminFailure = true)
  /-- The unique index refuses no claim. -/
  refused : ∀ i, (w.calls i).refused = false
  /-- A call with a key runs its mutation only with the lock, when it has found every position of the
  key empty and has inserted its row. -/
  ready : ∀ i, (w.calls i).mutation.isSome = true → Ready runner (specs i) (w.calls i)
  /-- A call that meets no error is told of its own mutation, and has committed it. -/
  ran : ∀ i r m, (w.calls i).reply = some r → (w.calls i).failed = false →
    (w.calls i).mutation = some m → r = ownAnswer m ∧
      match m with
      | .ok _ => ∃ row, HasCommit w i row true
      | .error err => ∀ claim, commandClaim runner (specs i) = some claim →
        err.isCacheableAdminFailure = true →
        ∃ row, row.position = claim.position ∧ HasCommit w i (some row) false
  /-- A call with a key that meets no error and does not give up waiting runs its mutation, or is
  answered from a record: as the call that stored it, if the envelope is the same. -/
  answered : ∀ i r claim, commandClaim runner (specs i) = some claim →
    (w.calls i).reply = some r → (w.calls i).failed = false → (w.calls i).mutation = none →
    ∃ row, row.position ∈ claim.positions ∧
      ((initial row.position = some row ∧ r = answerFrom runner (specs i) row) ∨
        ∃ c ∈ w.commits, c.row = some row ∧ ∃ m, (w.calls c.call).mutation = some m ∧
          r = if envelopeBytes runner (specs c.call) = envelopeBytes runner (specs i) then
              replayOf runner m
            else .error idempotencyConflict)

theorem Commits.row_of_mutated {spec : AdminCommandSpec}
    {mutation : Option (Except AppError (AdminCommandMutation T))}
    {row : Option IdempotencyRecord} (h : Commits runner spec mutation row true)
    (hclaim : commandClaim runner spec = some claim) :
    ∃ r, row = some r ∧ r.position = claim.position := by
  rcases h with ⟨-, hmutated⟩ | ⟨m, -, -, ⟨hunkeyed, -⟩ | ⟨r, hrow, hclaimed, -⟩⟩
  · cases hmutated
  · simp [commandClaim, hunkeyed] at hclaim
  · obtain ⟨claim', hclaim', hposition, -⟩ := hclaimed
    obtain rfl := Option.some.inj (hclaim.symm.trans hclaim')
    exact ⟨r, hrow, hposition⟩

theorem Commits.position_of_row {spec : AdminCommandSpec} {mutated : Bool}
    {mutation : Option (Except AppError (AdminCommandMutation T))}
    {row : Option IdempotencyRecord} (h : Commits runner spec mutation row mutated)
    {r : IdempotencyRecord} (hrow : row = some r) (hclaim : commandClaim runner spec = some claim) :
    r.position = claim.position := by
  subst hrow
  rcases h with ⟨hnone, -⟩ | ⟨m, -, -, ⟨-, hnone⟩ | ⟨r', hrow, ⟨claim', hclaim', hposition, -⟩, -⟩⟩
  · cases hnone
  · cases hnone
  · cases hrow
    obtain rfl := Option.some.inj (hclaim.symm.trans hclaim')
    exact hposition

theorem CommandInv.exactlyOnce (h : CommandInv runner specs initial w)
    (hmac : ∀ i j, runner.hasher.mac (envelopeBytes runner (specs i)) =
        runner.hasher.mac (envelopeBytes runner (specs j)) →
      envelopeBytes runner (specs i) = envelopeBytes runner (specs j)) :
    ExactlyOnce runner specs initial w where
  once := by
    refine h.apart.imp_of_mem fun {later earlier} hlater _ hfollows => ?_
    intro row claim hrow hclaim hposition hmutated
    have hcommits := h.commits later hlater
    rw [hmutated] at hcommits
    obtain ⟨row', hrow', hposition'⟩ := hcommits.row_of_mutated hclaim
    exact hfollows row' row hrow' hrow (hposition'.trans hposition)
  recorded c hc hmutated claim hclaim := by
    have hcommits := h.commits c hc
    rw [hmutated] at hcommits
    exact hcommits.row_of_mutated hclaim
  failed c hc err herr := by
    rcases h.commits c hc with ⟨hrow, hmutated⟩ | ⟨m, hm, hfailure, -⟩
    · exact ⟨hmutated, by simp [hrow]⟩
    · obtain rfl := Option.some.inj (hm.symm.trans herr)
      obtain ⟨hmutated, hcacheable⟩ := hfailure err rfl
      exact ⟨hmutated, fun _ => hcacheable⟩
  refused := h.refused
  ready := h.ready
  ran i r m hreply hfailed hmutation := by
    rcases h.told i r hreply with hfailed' | ⟨m', hm', rfl, hsettled⟩ | ⟨hnone, -⟩
    · rw [hfailed] at hfailed'
      cases hfailed'
    · obtain rfl := Option.some.inj (hmutation.symm.trans hm')
      refine ⟨rfl, ?_⟩
      cases m with
      | ok result =>
        obtain ⟨row, hcommitted⟩ := hsettled
        exact ⟨row, h.settled i row true hcommitted⟩
      | error err =>
        intro claim hclaim hcacheable
        have hkeyed : (specs i).idempotency.isSome = true := by
          obtain ⟨_, hidempotency, -⟩ := Option.map_eq_some_iff.mp hclaim
          simp [hidempotency]
        obtain ⟨row, hcommitted⟩ := hsettled hkeyed hcacheable
        obtain ⟨c, hc, rfl, hrow, hmutated⟩ := h.settled i (some row) false hcommitted
        exact ⟨row, (h.commits c hc).position_of_row hrow hclaim, c, hc, rfl, hrow, hmutated⟩
    · rw [hmutation] at hnone
      cases hnone
  answered i r claim hclaim hreply hfailed hmutation := by
    rcases h.told i r hreply with hfailed' | ⟨m, hm, -⟩ | ⟨-, row, hfound, rfl⟩
    · rw [hfailed] at hfailed'
      cases hfailed'
    · rw [hmutation] at hm
      cases hm
    · obtain ⟨⟨claim', hclaim', hposition⟩, hrecorded⟩ := h.found i row hfound
      obtain rfl := Option.some.inj (hclaim.symm.trans hclaim')
      refine ⟨row, hposition, ?_⟩
      rcases hrecorded with hinitial | ⟨c, hc, hrow⟩
      · exact .inl ⟨hinitial, rfl⟩
      · refine .inr ⟨c, hc, hrow, ?_⟩
        rcases h.commits c hc with ⟨hnone, -⟩ | ⟨m, hm, hfailure, ⟨-, hnone⟩ | ⟨row', hrow', hown, hstored⟩⟩
        · rw [hrow] at hnone
          cases hnone
        · rw [hrow] at hnone
          cases hnone
        · obtain rfl := Option.some.inj (hrow.symm.trans hrow')
          exact ⟨m, hm, answerFrom_stored hown hstored (fun err he => (hfailure err he).2)
            (hmac c.call i)⟩

theorem commandsOutline_initial (hplaced : initial.Placed) :
    (commandsOutline runner specs initial).Holds (commandsInitial runner specs initial) := by
  refine ⟨fun _ => {}, ⟨⟨hplaced, ?_, ?_, ?_, ?_, ?_, ?_, ?_, ?_, ?_, ?_, ?_, ?_, ?_, ?_⟩, rfl⟩, ?_⟩
  · intro p row hrow
    exact .inl (hplaced p row hrow ▸ hrow)
  · exact fun _ => Nat.le_refl _
  · exact fun _ _ hrow => nomatch hrow
  · exact fun _ hopen => nomatch hopen
  · exact fun _ _ hopen => nomatch hopen
  · exact fun _ _ hopen => nomatch hopen
  · exact fun _ _ hfound => nomatch hfound
  · exact fun _ hc => nomatch hc
  · exact fun _ hc => nomatch hc
  · exact List.Pairwise.nil
  · exact fun _ => rfl
  · exact fun _ hmutation => nomatch hmutation
  · exact fun _ _ _ hcommitted => nomatch hcommitted
  · exact fun _ _ hreply => nomatch hreply
  · exact fun i => settles_code rfl

/--
**Admin commands are exactly once**, over every interleaving of any number of calls. The mac does
not collide on the envelopes of the calls.
-/
theorem adminCommands_exactlyOnce (hplaced : initial.Placed)
    (hmac : ∀ i j, runner.hasher.mac (envelopeBytes runner (specs i)) =
        runner.hasher.mac (envelopeBytes runner (specs j)) →
      envelopeBytes runner (specs i) = envelopeBytes runner (specs j))
    {moves : List (commands runner specs).Move} {t : (commands runner specs).State}
    (hrun : runFrom (commands runner specs).step (commandsInitial runner specs initial)
      moves = some t) : ExactlyOnce runner specs initial t.world := by
  obtain ⟨γ, ⟨hinv, -⟩, -⟩ := (commandsOutline runner specs initial).invariant
    (fun _ _ _ => trivial) (commandsOutline_initial hplaced) hrun
  exact hinv.exactlyOnce hmac

end

/-! ## Two calls of one command -/

namespace Sample

def spec : AdminCommandSpec where
  operation := "application.create"
  path := .obj []
  request := .obj [("display_name", .str "demo")]
  idempotency := some { key := "key-1", actorIdentity := "actor-1" }

def rendered : String :=
  "\x7b\"expected_version\":null,\"operation\":\"application.create\",\"path\":\x7b\x7d,\"request\":\x7b\"display_name\":\"demo\"\x7d,\"version\":1\x7d"

/-- The libraries on the values of this command, under the pepper `command-pepper`. -/
def runner : AdminCommandRunner Json where
  hasher :=
    { pepperVersion := "v1"
      mac := fun bytes =>
        if bytes = "key-1" then "f_-5z-W9yxj2eqicMCQsemY-bB_DeixQvsYT6kl_4g4" else if bytes = "actor-1" then "07PTW93keUDlY8FZ9IdLFUPZKlXRPfFiKWjNpjj6hOk" else "ds6udVAeLFg-ORGvugf0y0rGjMIL4d0OqkSq6TNKG7A"
      secretFingerprint := fun bytes =>
        if bytes = "key-1" then "vil0VGl443OebW2oXEvp8zTOMt8rn9S2_xtVwNV-nUQ" else if bytes = "actor-1" then "yqzKh2-_k2awt9isL4CZsEp-9HzXPUZ8CgptojJeuRw" else "8_IQ84PkisEEPFcTMdBamlym0tJDkC38kfZtLaiHr50"
      version_plain := defaultVersion_plain }
  acceptLegacyHashes := true
  render _ := rendered
  decode := .ok
  advisoryLockKey _ := 6221112659309936323

/-- Every call is the same command. -/
abbrev same : Nat → AdminCommandSpec := fun _ => spec

abbrev system : System Nat := commands runner same

def empty : Ledger := fun _ => none

abbrev initial : system.State := commandsInitial runner same empty

def created : AdminCommandMutation Json where
  clientResponse := .obj [("id", .str "app-1")]
  replayResponse := .obj [("id", .str "app-1")]
  status := 201
  resourceId := some "app-1"

/-- A database that works; a call that waits for the lock gives up at once. -/
def databaseAnswer (w : World Json) (i : Nat) : (o : AdminOp Json) → o.Ans
  | .begin => .ok ()
  | .utcNow => w.now
  | .tryLock key => .ok ((w.locks key).all (· = i))
  | .pastDeadline => true
  | .sleep => ()
  | .sweepExpired _ => .ok ()
  | .load p => .ok (w.visible i p)
  | .insertClaim _ => .inserted
  | .savepoint => .ok ()
  | .releaseSavepoint => .ok ()
  | .rollbackSavepoint => .ok ()
  | .mutate => .ok created
  | .finalize .. => .ok ()
  | .commit => ⟨.ok (), true⟩
  | .rollback => .ok ()
  | .drop => ()
  | .reply _ => ()

/-- The next move of a call. -/
def moveOf (s : system.State) (i : Nat) : system.Move :=
  match s.proc i with
  | .ret _ => .jump i
  | _ => .act i (databaseAnswer s.world i)

def perform : List Nat → system.State → List system.Move
  | [], _ => []
  | i :: rest, s => moveOf s i :: ((system.step s (moveOf s i)).map (perform rest)).getD []

/-- One call from begin to reply, then the other. -/
def inTurn : List system.Move :=
  perform (List.replicate 17 0 ++ List.replicate 9 1) initial

/-- The second call comes while the first has the lock. -/
def waiting : List system.Move :=
  perform (List.replicate 4 0 ++ List.replicate 7 1 ++ List.replicate 13 0) initial

def errorOf {α : Type} : Except AppError α → Option AppError
  | .ok _ => none
  | .error err => some err

theorem noRows : empty.Placed := by
  intro p row hrow
  cases hrow

end Sample

/-- The second call is answered as the first one was, and only the first one commits an effect. -/
theorem adminCommands_exactlyOnce_inTurn :
    ∃ t, runFrom Sample.system.step Sample.initial Sample.inTurn = some t ∧
      (t.world.commits.map fun c => (c.call, c.mutated)) = [(1, false), (0, true)] ∧
      (t.world.calls 1).reply.bind Except.toOption =
        some { response := .obj [("id", .str "app-1")], status := 201, resourceId := some "app-1"
               replayed := true } ∧
      ExactlyOnce Sample.runner Sample.same Sample.empty t.world := by
  have hmoves : (runFrom Sample.system.step Sample.initial Sample.inTurn).map (fun t =>
      ((t.world.commits.map fun c => (c.call, c.mutated)),
        (t.world.calls 1).reply.bind Except.toOption)) =
      some ([(1, false), (0, true)],
        some { response := .obj [("id", .str "app-1")], status := 201, resourceId := some "app-1"
               replayed := true }) := by
    decide +kernel
  obtain ⟨t, hrun, hworld⟩ := Option.map_eq_some_iff.mp hmoves
  simp only [Prod.mk.injEq] at hworld
  exact ⟨t, hrun, hworld.1, hworld.2,
    adminCommands_exactlyOnce Sample.noRows (fun _ _ _ => rfl) hrun⟩

/-- A call of the same command that does not get the lock in time is not answered from the record.
-/
theorem in_progress_waiting :
    ∃ t, runFrom Sample.system.step Sample.initial Sample.waiting = some t ∧
      Sample.same 1 = Sample.same 0 ∧
      (t.world.calls 1).reply.bind Sample.errorOf = some idempotencyInProgress ∧
      (t.world.commits.map fun c => (c.call, c.mutated, c.row.bind (·.responseStatus))) =
        [(0, true, some 201)] := by
  have hmoves : (runFrom Sample.system.step Sample.initial Sample.waiting).map (fun t =>
      ((t.world.calls 1).reply.bind Sample.errorOf,
        t.world.commits.map fun c => (c.call, c.mutated, c.row.bind (·.responseStatus)))) =
      some (some idempotencyInProgress, [(0, true, some 201)]) := by
    decide +kernel
  obtain ⟨t, hrun, hworld⟩ := Option.map_eq_some_iff.mp hmoves
  simp only [Prod.mk.injEq] at hworld
  exact ⟨t, hrun, rfl, hworld⟩

end Moira.Admin
