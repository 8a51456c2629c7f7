import Moira.Workers.Jobs

/-!
# The pending-depth cap

**`pending_capped`**: under `Uncrowded` the cap holds in every state of every run. One start that is
not `Uncrowded` is enough for a run over the cap, and two clients make one (`two_clients_one_slot`).
-/

namespace Moira.Workers

open Transition

/-- A statement that finds room does not count a slot that an earlier one is about to fill. -/
def Uncrowded (maxPending : Int) (s : EnqueueWorld) : EnqueueMove → Prop
  | .start _ _ => (s.table.pendingDepth : Int) < maxPending →
    (s.table.pendingDepth + s.inFlight.length : Int) < maxPending
  | _ => True

instance (maxPending : Int) (s : EnqueueWorld) : ∀ m, Decidable (Uncrowded maxPending s m)
  | .start _ _ => inferInstanceAs (Decidable (_ → _))
  | .commit .. | .fail _ | .claimBatch .. | .complete _ | .deadLetter .. | .pruneTerminal _ | .elapse _ =>
    isTrue trivial

/-- Everything in flight may still commit. -/
def Capped (maxPending : Int) (s : EnqueueWorld) : Prop :=
  (s.table.pendingDepth + s.inFlight.length : Int) ≤ maxPending

section

variable {maxPending : Int} {s s' : EnqueueWorld} {m : EnqueueMove} {table : JobTable}

/-! ## The depth after each statement -/

variable {now : Int}

theorem pendingDepth_insert {job : WorkerJobInsert} {id : Uuid}
    (hfresh : id ∉ table.rows.map JobRow.id) :
    (table.insert job now id hfresh).pendingDepth = table.pendingDepth + 1 := by
  simp [JobTable.pendingDepth, JobTable.insert, List.countP_append]

theorem pendingDepth_update_le {f : JobRow → JobRow} {hid : ∀ row, (f row).id = row.id}
    (hf : ∀ row, (f row).status = .pending → row.status = .pending) :
    (table.update f hid).pendingDepth ≤ table.pendingDepth := by
  unfold JobTable.pendingDepth JobTable.update
  simp only
  rw [List.countP_map]
  apply List.countP_mono_left
  intro row _ hrow
  exact decide_eq_true (hf row (of_decide_eq_true hrow))

theorem pendingDepth_claimBatch_le {claimedBy : Uuid} {jobs : List ClaimedJob} :
    (table.claimBatch now claimedBy jobs).pendingDepth ≤ table.pendingDepth := by
  apply pendingDepth_update_le
  intro row hrow
  split at hrow
  · cases hrow
  · exact hrow

theorem pendingDepth_settle_le {id : Uuid} {f : JobRow → JobRow} {hid : ∀ row, (f row).id = row.id}
    (hf : ∀ row, (f row).status ≠ .pending) : (table.settle id f hid).pendingDepth ≤ table.pendingDepth := by
  apply pendingDepth_update_le
  intro row hrow
  split at hrow
  · exact absurd hrow (hf row)
  · exact hrow

theorem pendingDepth_pruneTerminal_le {retentionHours : Nat} :
    (table.pruneTerminal now retentionHours).pendingDepth ≤ table.pendingDepth :=
  List.filter_sublist.countP_le

/-! ## Statements in flight -/

theorem length_ended {client : Nat} {statement : EnqueueStatement}
    (h : s.statement client = some statement) :
    (s.ended client).inFlight.length + 1 = s.inFlight.length := by
  have hmem := List.mem_of_find?_eq_some h
  have hlength := List.length_eraseP_of_mem hmem (List.find?_some h)
  have hpos := List.length_pos_of_mem hmem
  unfold EnqueueWorld.ended
  simp only
  omega

theorem capped_of_pendingDepth_le (h : Capped maxPending s)
    (hdepth : table.pendingDepth ≤ s.table.pendingDepth) :
    Capped maxPending { s with table } := by
  unfold Capped at h ⊢
  simp only
  omega

/-- An uncrowded start keeps the cap. -/
theorem capped_step (h : Capped maxPending s) (hroom : Uncrowded maxPending s m)
    (hstep : enqueueStep maxPending s m = some s') : Capped maxPending s' := by
  cases m with
  | start client job =>
    simp only [enqueueStep] at hstep
    split at hstep
    · cases hstep
      unfold EnqueueWorld.start
      split
      · next hfound =>
        have hleft := hroom hfound
        unfold Capped
        simp only [List.length_cons]
        omega
      · exact h
    · cases hstep
  | commit client id =>
    obtain ⟨statement, hstatement, hstep⟩ := Option.bind_eq_some_iff.mp hstep
    split at hstep
    · cases hstep
      -- the row moves from the statements in flight to the table
      have hlength := length_ended hstatement
      unfold Capped at h ⊢
      simp only [pendingDepth_insert]
      omega
    · cases hstep
  | fail client =>
    obtain ⟨statement, hstatement, hstep⟩ := Option.bind_eq_some_iff.mp hstep
    cases hstep
    have hlength := length_ended hstatement
    unfold Capped at h ⊢
    simp only [EnqueueWorld.ended] at hlength ⊢
    omega
  | claimBatch claimedBy limit jobs =>
    simp only [enqueueStep] at hstep
    split at hstep
    · cases hstep
      exact capped_of_pendingDepth_le h pendingDepth_claimBatch_le
    · cases hstep
  | complete id =>
    cases hstep
    exact capped_of_pendingDepth_le h (pendingDepth_settle_le fun _ => nofun)
  | deadLetter id error =>
    cases hstep
    exact capped_of_pendingDepth_le h (pendingDepth_settle_le fun _ => nofun)
  | pruneTerminal retentionHours =>
    cases hstep
    exact capped_of_pendingDepth_le h pendingDepth_pruneTerminal_le
  | elapse micros =>
    cases hstep
    exact h

/-! ## A start that is crowded -/

theorem exists_fresh (ids : List Uuid) : ∃ id, id ∉ ids := by
  refine ⟨ids.foldr max 0 + 1, fun hmem => ?_⟩
  have hle : ∀ (l : List Nat), ∀ a ∈ l, a ≤ l.foldr max 0 := by
    intro l
    induction l with
    | nil => exact nofun
    | cons b l ih =>
      intro a ha
      rcases List.mem_cons.mp ha with rfl | ha
      · exact Nat.le_max_left ..
      · exact Nat.le_trans (ih a ha) (Nat.le_max_right ..)
  have := hle ids _ hmem
  omega

theorem commit_all (maxPending : Int) (n : Nat) (s : EnqueueWorld) (hn : s.inFlight.length = n) :
    ∃ moves t, runFrom (enqueueStep maxPending) s moves = some t ∧
      t.table.pendingDepth = s.table.pendingDepth + n := by
  induction n generalizing s with
  | zero => exact ⟨[], s, rfl, rfl⟩
  | succ n ih =>
    obtain ⟨statement, rest, hflight⟩ := List.exists_cons_of_length_eq_add_one hn
    have hfind : s.statement statement.client = some statement := by
      unfold EnqueueWorld.statement
      rw [hflight]
      exact List.find?_cons_of_pos (by simp)
    obtain ⟨id, hfresh⟩ := exists_fresh (s.table.rows.map JobRow.id)
    have hlength := length_ended hfind
    obtain ⟨moves, t, hrun, hdepth⟩ := ih
      { s.ended statement.client with table := s.table.insert statement.job statement.startedAt id hfresh }
      (by simp only; omega)
    refine ⟨.commit statement.client id :: moves, t, ?_, ?_⟩
    · refine runFrom_cons.mpr ⟨_, ?_, hrun⟩
      simp only [enqueueStep, hfind, Option.bind_eq_bind, Option.bind_some, dif_pos hfresh]
    · rw [hdepth, pendingDepth_insert]
      omega

end

/--
**The cap, exactly**: while every start is `Uncrowded` the pending rows never exceed `max_pending`;
and from any state, a start that is not leads to a run that does.
-/
theorem pending_capped (maxPending : Int) :
    (∀ (s t : EnqueueWorld) (moves : List EnqueueMove), s.inFlight = [] →
      (s.table.pendingDepth : Int) ≤ maxPending →
      runFrom (enqueueStep maxPending) s moves = some t →
      Meets (enqueueStep maxPending) (Uncrowded maxPending) s moves →
      (t.table.pendingDepth : Int) ≤ maxPending) ∧
    ∀ (s s' : EnqueueWorld) (client : Nat) (job : WorkerJobInsert),
      enqueueStep maxPending s (.start client job) = some s' →
      ¬Uncrowded maxPending s (.start client job) →
      ∃ moves t, runFrom (enqueueStep maxPending) s' moves = some t ∧
        maxPending < t.table.pendingDepth := by
  constructor
  · intro s t moves hidle hbelow hrun hmeets
    have hstart : Capped maxPending s := by
      unfold Capped
      rw [hidle, List.length_nil]
      omega
    have hend : Capped maxPending t :=
      runFrom_guarded hrun hmeets hstart fun _ _ _ h hroom => capped_step h hroom
    unfold Capped at hend
    omega
  · intro s s' client job hstep hcrowded
    have hfound : (s.table.pendingDepth : Int) < maxPending :=
      Classical.byContradiction fun h => hcrowded fun hfound => absurd hfound h
    have hover : maxPending ≤ (s.table.pendingDepth + s.inFlight.length : Int) :=
      Int.not_lt.mp fun h => hcrowded fun _ => h
    simp only [enqueueStep] at hstep
    split at hstep
    · cases hstep
      obtain ⟨moves, t, hrun, hdepth⟩ := commit_all maxPending _ (s.start maxPending client job) rfl
      refine ⟨moves, t, hrun, ?_⟩
      rw [hdepth]
      unfold EnqueueWorld.start
      rw [if_pos hfound]
      simp only [List.length_cons]
      omega
    · cases hstep

namespace Sample

def retentionJob : WorkerJobInsert where
  jobName := "retention-cleanup"
  payload := .null
  runAt := none
  maxAttempts := 5
  maxAttempts_pos := by decide

/-- Two clients count before either commits. -/
def overlapping : List EnqueueMove :=
  [.start 1 retentionJob, .start 2 retentionJob, .commit 1 10, .commit 2 11]

/-- The second client counts after the first has committed. -/
def oneByOne : List EnqueueMove :=
  [.start 1 retentionJob, .commit 1 10, .start 2 retentionJob]

end Sample

open Sample in
/-- Both find room for the last slot. -/
theorem two_clients_one_slot : ∃ t,
    runFrom (enqueueStep 1) {} overlapping = some t ∧ (1 : Int) < t.table.pendingDepth :=
  ⟨_, rfl, by decide⟩

open Sample in
theorem pending_capped_oneByOne : ∃ t,
    runFrom (enqueueStep 1) {} oneByOne = some t ∧ (t.table.pendingDepth : Int) ≤ 1 :=
  ⟨_, rfl, (pending_capped 1).1 {} _ oneByOne rfl (by decide) rfl (by decide)⟩

end Moira.Workers
