import Moira.ClaudeRunners.Properties.Protocol

/-!
# The mirror and the credential of a runner

- **`mirror_and_credential_agree`** — over the runs that meet `LinksReady`
-/

namespace Moira.ClaudeRunners

open Transition (runFrom)
open Prog

/-! ## Rows -/

/-- What a row may become. -/
structure Follows (row row' : ClaudeRunnerRow) : Prop where
  id : row'.record.id = row.record.id
  terminal : row.record.state.isTerminal = true →
    row'.record.state = row.record.state ∧ row'.record.credentialId = row.record.credentialId

theorem Follows.refl (row : ClaudeRunnerRow) : Follows row row :=
  ⟨rfl, fun _ => ⟨rfl, rfl⟩⟩

theorem Follows.trans {a b c : ClaudeRunnerRow} (h : Follows a b) (h' : Follows b c) : Follows a c where
  id := h'.id.trans h.id
  terminal hterminal := by
    obtain ⟨hstate, hcredential⟩ := h.terminal hterminal
    obtain ⟨hstate', hcredential'⟩ := h'.terminal (by rw [hstate]; exact hterminal)
    exact ⟨hstate'.trans hstate, hcredential'.trans hcredential⟩

/-- Every row is there, as what it may become. -/
def RowsFollow (rows rows' : List ClaudeRunnerRow) : Prop :=
  ∀ row ∈ rows, ∃ row' ∈ rows', Follows row row'

theorem RowsFollow.refl (rows : List ClaudeRunnerRow) : RowsFollow rows rows :=
  fun row hrow => ⟨row, hrow, .refl row⟩

theorem RowsFollow.trans {a b c : List ClaudeRunnerRow} (h : RowsFollow a b) (h' : RowsFollow b c) :
    RowsFollow a c := by
  intro row hrow
  obtain ⟨row', hrow', hfollows⟩ := h row hrow
  obtain ⟨row'', hrow'', hfollows'⟩ := h' row' hrow'
  exact ⟨row'', hrow'', hfollows.trans hfollows'⟩

/-- A credential is set exactly where the state is `linked`. -/
def Marked (record : ClaudeRunnerRecord) : Prop :=
  record.credentialId.isSome = true ↔ record.state = .linked

/-- The rows are of different runners, and each is marked. -/
structure Table (rows : List ClaudeRunnerRow) : Prop where
  ids : (rows.map (·.record.id)).Nodup
  marked : ∀ row ∈ rows, Marked row.record

variable {rows rows' : List ClaudeRunnerRow} {id : Uuid}

section Rows

variable {row : ClaudeRunnerRow}

theorem findRow_some (h : findRow rows id = some row) :
    row ∈ rows ∧ row.record.id = id ∧ row.deleted = false := by
  have hfound := List.find?_some h
  simp only [Bool.and_eq_true, decide_eq_true_eq, Bool.not_eq_true'] at hfound
  exact ⟨List.mem_of_find?_eq_some h, hfound⟩

theorem Table.eq_of_id (h : Table rows) {a b : ClaudeRunnerRow} (ha : a ∈ rows) (hb : b ∈ rows)
    (hid : a.record.id = b.record.id) : a = b :=
  List.inj_on_of_nodup_map h.ids ha hb hid

theorem updateRow_of_found (h : Table rows) (hfind : findRow rows id = some row)
    (f : ClaudeRunnerRow → ClaudeRunnerRow) :
    updateRow rows id f = rows.map fun other => if other = row then f row else other := by
  obtain ⟨hmem, hid, hlive⟩ := findRow_some hfind
  refine List.map_congr_left fun other hother => ?_
  by_cases heq : other = row
  · subst heq
    rw [if_pos rfl, if_pos (by simp [hid, hlive])]
  · rw [if_neg heq, if_neg]
    simp only [Bool.and_eq_true, decide_eq_true_eq, not_and]
    intro hother'
    exact absurd (h.eq_of_id hother hmem (hother'.trans hid.symm)) heq

theorem rowsFollow_updateRow (h : Table rows) (hfind : findRow rows id = some row)
    {f : ClaudeRunnerRow → ClaudeRunnerRow} (hfollows : Follows row (f row)) :
    RowsFollow rows (updateRow rows id f) := by
  rw [updateRow_of_found h hfind]
  intro other hother
  refine ⟨_, List.mem_map_of_mem hother, ?_⟩
  by_cases heq : other = row
  · rw [if_pos heq, heq]
    exact hfollows
  · rw [if_neg heq]
    exact .refl other

theorem Table.updateRow (h : Table rows) (hfind : findRow rows id = some row)
    {f : ClaudeRunnerRow → ClaudeRunnerRow} (hid : (f row).record.id = row.record.id)
    (hmarked : Marked (f row).record) : Table (updateRow rows id f) := by
  rw [updateRow_of_found h hfind]
  refine ⟨?_, fun other' hother' => ?_⟩
  · have hids : (rows.map fun other => if other = row then f row else other).map (·.record.id) =
        rows.map (·.record.id) := by
      rw [List.map_map]
      refine List.map_congr_left fun other _ => ?_
      show (if other = row then f row else other).record.id = other.record.id
      by_cases heq : other = row
      · rw [if_pos heq, heq, hid]
      · rw [if_neg heq]
    rw [hids]
    exact h.ids
  · obtain ⟨other, hother, rfl⟩ := List.mem_map.mp hother'
    by_cases heq : other = row
    · rw [if_pos heq]
      exact hmarked
    · rw [if_neg heq]
      exact h.marked other hother

end Rows

/-! ## What a step does to the rows -/

variable {update : RunnerStateUpdate} {record : ClaudeRunnerRecord}

variable {o : MirrorOp}

variable {w : World} {x : o.Ans}

section Steps

variable {requests : Nat → Request} {request : Request} {seen : Seen} {w' : World} {i : Nat}

theorem settle_cases {α : Type} [DecidableEq α] {possible : Bool}
    {outcome : Except AppError (α × List ClaudeRunnerRow)} {ended : Ended α}
    (h : w.settle possible outcome ended = some w') :
    (∃ a rows, outcome = .ok (a, rows) ∧ ended.committed = true ∧ w' = { w with rows } ∧
      (ended.result.isOk = true ∨ w.down = true)) ∨
      (w' = w ∧ ended.committed = false ∧ ended.result.isOk = false ∧
        (w.down = true ∨ possible = false ∨ ∃ err, outcome = .error err)) := by
  unfold World.settle at h
  split at h
  · split at h
    · exact .inl ⟨_, _, rfl, rfl, (Option.some.inj h).symm, .inl rfl⟩
    · cases h
  · split at h
    · next hreason => exact .inl ⟨_, _, rfl, rfl, (Option.some.inj h).symm, .inr hreason.2⟩
    · cases h
  · split at h
    · next hreason => exact .inr ⟨(Option.some.inj h).symm, rfl, rfl, hreason.imp_right .inl⟩
    · cases h
  · split at h
    · exact .inr ⟨(Option.some.inj h).symm, rfl, rfl, .inr (.inr ⟨_, rfl⟩)⟩
    · cases h
  · cases h

theorem transitionRow_of_found {row : ClaudeRunnerRow} {«from» : List ClaudeRunnerState}
    (hfind : findRow rows id = some row) (hstate : row.record.state ∈ «from») :
    transitionRow rows id «from» update =
      .ok (update.apply row.record,
        updateRow rows id fun row => { row with record := update.apply row.record }) := by
  simp only [transitionRow, hfind]
  exact if_pos hstate

theorem transitionRow_ok {«from» : List ClaudeRunnerState}
    (h : transitionRow rows id «from» update = .ok (record, rows')) :
    ∃ row, findRow rows id = some row ∧ row.record.state ∈ «from» ∧ record = update.apply row.record ∧
      rows' = updateRow rows id fun row => { row with record := update.apply row.record } := by
  unfold transitionRow at h
  split at h
  · cases h
  · next row hfind =>
    split at h
    · next hstate =>
      cases h
      exact ⟨row, hfind, hstate, rfl, rfl⟩
    · cases h

theorem softDelete_ok {expectedVersion : Int}
    (h : softDelete rows id expectedVersion = .ok ((), rows')) :
    ∃ row, findRow rows id = some row ∧ rows' = updateRow rows id fun row =>
      { row with deleted := true, record := { row.record with version := row.record.version + 1 } } := by
  unfold softDelete at h
  split at h
  · cases h
  · next row hfind =>
    split at h
    · cases h
    · cases h
      exact ⟨row, hfind, rfl⟩

theorem apply_state (update : RunnerStateUpdate) (record : ClaudeRunnerRecord) :
    (update.apply record).state = update.state.getD record.state :=
  rfl

theorem apply_credentialId (update : RunnerStateUpdate) (record : ClaudeRunnerRecord) :
    (update.apply record).credentialId = (update.credentialId <|> record.credentialId) :=
  rfl

theorem Marked.none_of_moving (h : Marked record) (hmoving : record.state.isTerminal = false) :
    record.credentialId = none := by
  cases hcredential : record.credentialId with
  | none => rfl
  | some c =>
    have hlinked : record.state = .linked := h.mp (by rw [hcredential]; rfl)
    rw [hlinked] at hmoving
    cases hmoving

theorem marked_apply {«from» : List ClaudeRunnerState}
    (hdoes : Does request seen (.transition id «from» update)) (hstate : record.state ∈ «from»)
    (h : Marked record) : Marked (update.apply record) := by
  have hmoving := mem_nonTerminalStates.mp (hdoes.1 hstate)
  have hnone := h.none_of_moving hmoving
  have hcredential := hdoes.2
  unfold Marked
  rw [apply_state, apply_credentialId, hnone]
  cases hupdate : update.credentialId with
  | none =>
    rw [hupdate] at hcredential
    -- neither the row nor the update is linked
    have hunlinked : update.state.getD record.state ≠ .linked := by
      cases hnew : update.state with
      | none =>
        intro hlinked
        rw [show record.state = .linked from hlinked] at hmoving
        cases hmoving
      | some state =>
        rw [hnew] at hcredential
        exact fun hlinked => hcredential (congrArg some hlinked)
    simp [hunlinked]
  | some c =>
    rw [hupdate] at hcredential
    have hlinks : Links request seen id «from» update c := hcredential
    simp [hlinks.update]

theorem close_cases {outcome : Except AppError CredentialRecord} {ended : Ended Unit}
    (h : w.close i outcome ended = some w') : w'.rows = w.rows ∧ w'.seen = w.seen ∧
      ((w'.credentials = w.credentials ∧ ∀ record, outcome = .ok record →
          ended.committed = false ∧ ended.result.isOk = false ∧ w.down = true) ∨
        ∃ record, outcome = .ok record ∧ ended.committed = true ∧
          w'.credentials = { record, call := i } :: w.credentials ∧
          (ended.result.isOk = true ∨ w.down = true)) := by
  unfold World.close at h
  split at h
  · split at h
    · next hreason =>
      cases h
      exact ⟨rfl, rfl, .inr ⟨_, rfl, rfl, rfl, hreason⟩⟩
    · cases h
  · split at h
    · next hdown =>
      cases h
      exact ⟨rfl, rfl, .inl ⟨rfl, fun _ _ => ⟨rfl, rfl, hdown⟩⟩⟩
    · cases h
  · cases h
  · split at h
    · cases h
      exact ⟨rfl, rfl, .inl ⟨rfl, fun _ hok => (nomatch hok)⟩⟩
    · cases h

/-- A row or a credential may be written. -/
def MirrorOp.writes : MirrorOp → Bool
  | transition .. | softDelete .. | closeCommand _ => true
  | _ => false

theorem respond_plain (hplain : o.writes = false) (h : w.respond i o x = some w') : w' = w := by
  cases o with
  | transition _ _ _ | softDelete _ _ | closeCommand _ => cases hplain
  | select id | providerIsActive id | insertCredential id =>
    cases x with
    | ok found =>
      simp only [World.respond] at h
      split at h
      · exact (Option.some.inj h).symm
      · cases h
    | error err =>
      simp only [World.respond] at h
      first
        | exact (Option.some.inj h).symm
        | split at h
          · exact (Option.some.inj h).symm
          · cases h
  | status _ | submitCode _ _ | fetchToken _ | deleteContainer _ | claimCommand _ _ _ | newId | encrypt _ _
  | answer _ => exact (Option.some.inj h).symm

theorem rows_respond (h : Table w.rows) (hdoes : Does request seen o)
    (hrespond : w.respond i o x = some w') : Table w'.rows ∧ RowsFollow w.rows w'.rows := by
  cases o with
  | transition id «from» update =>
    rcases settle_cases hrespond with ⟨record, rows, hok, -, rfl, -⟩ | ⟨rfl, -⟩
    · obtain ⟨row, hfind, hstate, -, rfl⟩ := transitionRow_ok hok
      obtain ⟨hmem, -⟩ := findRow_some hfind
      have hmoving := mem_nonTerminalStates.mp (hdoes.1 hstate)
      refine ⟨h.updateRow hfind rfl (marked_apply hdoes hstate (h.marked row hmem)),
        rowsFollow_updateRow h hfind ⟨rfl, fun hterminal => ?_⟩⟩
      rw [hmoving] at hterminal
      cases hterminal
    · exact ⟨h, .refl _⟩
  | softDelete id expectedVersion =>
    rcases settle_cases hrespond with ⟨_, rows, hok, -, rfl, -⟩ | ⟨rfl, -⟩
    · obtain ⟨row, hfind, rfl⟩ := softDelete_ok hok
      obtain ⟨hmem, -⟩ := findRow_some hfind
      exact ⟨h.updateRow hfind rfl (h.marked row hmem),
        rowsFollow_updateRow h hfind ⟨rfl, fun _ => ⟨rfl, rfl⟩⟩⟩
    · exact ⟨h, .refl _⟩
  | closeCommand outcome =>
    rw [(close_cases hrespond).1]
    exact ⟨h, .refl _⟩
  | select _ | status _ | submitCode _ _ | fetchToken _ | deleteContainer _ | claimCommand _ _ _
  | providerIsActive _ | newId | encrypt _ _ | insertCredential _ | answer _ =>
    rw [respond_plain rfl hrespond]
    exact ⟨h, .refl _⟩

theorem seen_of_respond (h : w.respond i o x = some w') : w'.seen = w.seen := by
  cases o with
  | transition _ _ _ | softDelete _ _ =>
    rcases settle_cases h with ⟨_, _, _, _, rfl, _⟩ | ⟨rfl, _⟩ <;> rfl
  | closeCommand _ => exact (close_cases h).2.1
  | select _ | status _ | submitCode _ _ | fetchToken _ | deleteContainer _ | claimCommand _ _ _
  | providerIsActive _ | newId | encrypt _ _ | insertCredential _ | answer _ => rw [respond_plain rfl h]

theorem credentials_of_respond (h : w.respond i o x = some w')
    (hother : ∀ record, o ≠ .closeCommand (.ok record)) : w'.credentials = w.credentials := by
  cases o with
  | transition _ _ _ | softDelete _ _ =>
    rcases settle_cases h with ⟨_, _, _, _, rfl, _⟩ | ⟨rfl, _⟩ <;> rfl
  | closeCommand outcome =>
    rcases (close_cases h).2.2 with ⟨hsame, _⟩ | ⟨record, rfl, _⟩
    · exact hsame
    · exact absurd rfl (hother record)
  | select _ | status _ | submitCode _ _ | fetchToken _ | deleteContainer _ | claimCommand _ _ _
  | providerIsActive _ | newId | encrypt _ _ | insertCredential _ | answer _ => rw [respond_plain rfl h]

/-! ## What a call has shown -/

/-- The operations after which a call has stored, linked or answered something. -/
def MirrorOp.shows : MirrorOp → Bool
  | transition _ _ update => update.credentialId.isSome
  | closeCommand (.ok _) | answer _ => true
  | _ => false

/-- The call has stored, linked and answered the same. -/
structure SameHand (seen seen' : Seen) : Prop where
  stored : seen'.stored = seen.stored
  linked : seen'.linked = seen.linked
  broken : seen'.broken = seen.broken
  answered : seen'.answered = seen.answered

theorem sameHand_record (h : o.shows = false) : SameHand seen (seen.record o x) := by
  cases o with
  | transition _ _ update =>
    have hnone : update.credentialId = none := by simpa [MirrorOp.shows] using h
    simp only [Seen.record, hnone]
    exact ⟨rfl, rfl, rfl, rfl⟩
  | closeCommand outcome =>
    cases outcome with
    | ok _ => cases h
    | error _ => exact ⟨rfl, rfl, rfl, rfl⟩
  | answer _ => cases h
  | select _ =>
    cases x with
    | ok found => cases found <;> exact ⟨rfl, rfl, rfl, rfl⟩
    | error _ => exact ⟨rfl, rfl, rfl, rfl⟩
  | claimCommand _ _ _ => cases x <;> exact ⟨rfl, rfl, rfl, rfl⟩
  | status _ | submitCode _ _ | fetchToken _ | deleteContainer _ | softDelete _ _
  | providerIsActive _ | newId
  | encrypt _ _ | insertCredential _ => exact ⟨rfl, rfl, rfl, rfl⟩

theorem mayAnswer_record {result : Except AppError (Option ClaudeRunnerRecord)}
    (h : MayAnswer request seen result) :
    MayAnswer request { seen with answered := some result } result := by
  unfold MayAnswer at h ⊢
  split at h
  · exact h
  · exact ⟨⟨h.1.rights, h.1.missing, h.1.state, h.1.chain⟩, h.2⟩
  · exact h

theorem answers_of_respond (h : w.respond i o x = some w') : Answers o x := by
  cases o with
  | transition _ _ _ =>
    intro hok
    rcases settle_cases h with ⟨_, _, _, hcommitted, _⟩ | ⟨_, _, herr, _⟩
    · exact hcommitted
    · rw [herr] at hok
      cases hok
  | closeCommand outcome =>
    cases outcome with
    | error _ => trivial
    | ok record =>
      intro hok
      rcases (close_cases h).2.2 with ⟨_, hnot⟩ | ⟨_, _, hcommitted, _⟩
      · rw [(hnot record rfl).2.1] at hok
        cases hok
      · exact hcommitted
  | select _ | status _ | submitCode _ _ | fetchToken _ | deleteContainer _ | softDelete _ _
  | claimCommand _ _ _ | providerIsActive _ | newId | encrypt _ _ | insertCredential _ | answer _ => trivial

end Steps

/-! ## The invariant -/

/-- A finalize finds its row still ready when it links it, and the database does not fail it. -/
def LinksReady (w : World) : MirrorOp → Prop
  | .closeCommand (.ok _) => w.down = false
  | .transition id _ update => update.credentialId.isSome = true →
      w.down = false ∧ (findRow w.rows id).any (fun row => row.record.state = .ready) = true
  | _ => True

instance instDecidableLinksReady (w : World) : ∀ o, Decidable (LinksReady w o)
  | .closeCommand (.ok _) => inferInstanceAs (Decidable (_ = _))
  | .transition _ _ _ => inferInstanceAs (Decidable (_ → _))
  | .closeCommand (.error _) | .select _ | .status _ | .submitCode .. | .fetchToken _ | .deleteContainer _
  | .softDelete .. | .claimCommand .. | .providerIsActive _ | .newId | .encrypt .. | .insertCredential _
  | .answer _ => isTrue trivial

/-- The row of a finalize is linked to the credential. -/
def LinkedTo (requests : Nat → Request) (rows : List ClaudeRunnerRow) (i : Nat) (c : Uuid) : Prop :=
  ∃ id finalizeRequest, (requests i).call = .finalize id finalizeRequest ∧
    ∃ row ∈ rows, row.record.id = id ∧ row.record.state = .linked ∧ row.record.credentialId = some c

/-- What holds in every state that is reached from one with the rows `base`. -/
structure MirrorKept (requests : Nat → Request) (strict : Prop) (base : List ClaudeRunnerRow)
    (w : World) : Prop where
  table : Table w.rows
  follow : RowsFollow base w.rows
  stored : ∀ c ∈ w.credentials, (w.seen c.call).stored = some c.record.id
  linked : ∀ i c, (w.seen i).linked = some c → LinkedTo requests w.rows i c
  answered : ∀ i result, (w.seen i).answered = some result → MayAnswer (requests i) (w.seen i) result
  /-- In the runs that meet `LinksReady`. -/
  unbroken : strict → ∀ i, (w.seen i).broken = false

variable {base : List ClaudeRunnerRow}

section Invariant

variable {requests : Nat → Request} {strict : Prop} {w' : World} {i : Nat}

theorem LinkedTo.follow {c : Uuid} (h : LinkedTo requests rows i c)
    (hfollow : RowsFollow rows rows') : LinkedTo requests rows' i c := by
  obtain ⟨id, finalizeRequest, hcall, row, hrow, hid, hstate, hcredential⟩ := h
  obtain ⟨row', hrow', hfollows⟩ := hfollow row hrow
  obtain ⟨hstate', hcredential'⟩ := hfollows.terminal (by rw [hstate]; rfl)
  exact ⟨id, finalizeRequest, hcall, row', hrow', hfollows.id.trans hid, hstate'.trans hstate,
    hcredential'.trans hcredential⟩

theorem forall_see {P : Nat → Seen → Prop} (hself : P i ((w.seen i).record o x))
    (hother : ∀ j, j ≠ i → P j (w.seen j)) (j : Nat) : P j ((w.see i o x).seen j) := by
  by_cases hj : j = i
  · subst hj
    simpa [World.see] using hself
  · simpa [World.see, hj] using hother j hj

theorem linkedTo_transition {«from» : List ClaudeRunnerState} {seen : Seen} {c : Uuid}
    (hlinks : Links (requests i) seen id «from» update c)
    (hok : transitionRow rows id «from» update = .ok (record, rows')) :
    LinkedTo requests rows' i c := by
  obtain ⟨finalizeRequest, hcall⟩ := hlinks.call
  obtain ⟨row, hfind, -, -, rfl⟩ := transitionRow_ok hok
  obtain ⟨hmem, hid, hlive⟩ := findRow_some hfind
  refine ⟨id, finalizeRequest, hcall, _, List.mem_map_of_mem hmem, ?_⟩
  rw [if_pos (by simp [hid, hlive]), hlinks.update]
  exact ⟨hid, rfl, rfl⟩

theorem stored_respond (h : ∀ c ∈ w.credentials, (w.seen c.call).stored = some c.record.id)
    (hdoes : Does (requests i) (w.seen i) o) (hrespond : w.respond i o x = some w') :
    ∀ c ∈ w'.credentials, ((w'.see i o x).seen c.call).stored = some c.record.id := by
  have hseen := seen_of_respond hrespond
  have hkept : ∀ c ∈ w.credentials, (w.seen i).stored = none ∨
      ((w.seen i).record o x).stored = (w.seen i).stored →
        ((w'.see i o x).seen c.call).stored = some c.record.id := by
    intro c hc hreason
    refine forall_see (P := fun j seen => j = c.call → seen.stored = some c.record.id) ?_ ?_ c.call rfl
    · rintro rfl
      rw [hseen]
      rcases hreason with hnone | hsame
      · cases (h c hc).symm.trans hnone
      · exact hsame.trans (h c hc)
    · rintro j - rfl
      rw [hseen]
      exact h c hc
  by_cases hclose : ∃ record, o = .closeCommand (.ok record)
  · obtain ⟨record, rfl⟩ := hclose
    obtain ⟨hnone, -⟩ := hdoes
    rcases (close_cases hrespond).2.2 with ⟨hsame, -⟩ | ⟨record', hrecord, hcommitted, hcredentials, -⟩
    · rw [hsame]
      exact fun c hc => hkept c hc (.inl hnone)
    · cases hrecord
      rw [hcredentials]
      intro c hc
      rcases List.mem_cons.mp hc with rfl | hc
      · simp [World.see, Seen.record, hcommitted]
      · exact hkept c hc (.inl hnone)
  · rw [credentials_of_respond hrespond fun record heq => hclose ⟨record, heq⟩]
    refine fun c hc => hkept c hc (.inr ?_)
    cases o with
    | transition _ _ update => cases hupdate : update.credentialId <;> simp only [Seen.record, hupdate]
    | closeCommand outcome =>
      cases outcome with
      | ok record => exact absurd ⟨record, rfl⟩ hclose
      | error _ => rfl
    | answer _ => rfl
    | select _ | status _ | submitCode _ _ | fetchToken _ | deleteContainer _ | softDelete _ _
    | claimCommand _ _ _ | providerIsActive _ | newId | encrypt _ _ | insertCredential _ =>
      exact (sameHand_record rfl).stored

theorem linked_respond (htable : Table w.rows)
    (h : ∀ j c, (w.seen j).linked = some c → LinkedTo requests w.rows j c)
    (hdoes : Does (requests i) (w.seen i) o) (hrespond : w.respond i o x = some w') :
    ∀ j c, ((w'.see i o x).seen j).linked = some c → LinkedTo requests w'.rows j c := by
  have hfollow := (rows_respond htable hdoes hrespond).2
  have hkept : ∀ j c, (w.seen j).linked = some c → LinkedTo requests w'.rows j c :=
    fun j c hlinked => (h j c hlinked).follow hfollow
  refine forall_see (P := fun j seen => ∀ c, seen.linked = some c → LinkedTo requests w'.rows j c) ?_
    fun j _ => by rw [seen_of_respond hrespond]; exact hkept j
  rw [seen_of_respond hrespond]
  intro c hlinked
  cases o with
  | transition id «from» update =>
    cases hupdate : update.credentialId with
    | none =>
      simp only [Seen.record, hupdate] at hlinked
      exact hkept i c hlinked
    | some credentialId =>
      have hlinks : Links (requests i) (w.seen i) id «from» update credentialId := by
        have hcredential := hdoes.2
        rw [hupdate] at hcredential
        exact hcredential
      simp only [Seen.record, hupdate] at hlinked
      rcases settle_cases hrespond with ⟨record, rows, hok, hcommitted, rfl, -⟩ | ⟨rfl, hnot, -⟩
      · rw [hcommitted, if_pos rfl] at hlinked
        cases hlinked
        exact linkedTo_transition hlinks hok
      · rw [hnot, if_neg Bool.false_ne_true, hlinks.linked] at hlinked
        cases hlinked
  | closeCommand outcome => cases outcome <;> exact hkept i c hlinked
  | answer _ => exact hkept i c hlinked
  | select _ | status _ | submitCode _ _ | fetchToken _ | deleteContainer _ | softDelete _ _
  | claimCommand _ _ _ | providerIsActive _ | newId | encrypt _ _ | insertCredential _ =>
    rw [(sameHand_record rfl).linked] at hlinked
    exact hkept i c hlinked

theorem unbroken_respond (h : (w.seen i).broken = false) (hguard : LinksReady w o)
    (hdoes : Does (requests i) (w.seen i) o) (hrespond : w.respond i o x = some w') :
    ((w.seen i).record o x).broken = false := by
  cases o with
  | transition id «from» update =>
    cases hupdate : update.credentialId with
    | none =>
      simp only [Seen.record, hupdate]
      exact h
    | some credentialId =>
      obtain ⟨hup, hready⟩ := hguard (by rw [hupdate]; rfl)
      have hlinks : Links (requests i) (w.seen i) id «from» update credentialId := by
        have hcredential := hdoes.2
        rw [hupdate] at hcredential
        exact hcredential
      have hfits : update.fits = true := by
        rw [hlinks.update]
        rfl
      obtain ⟨row, hfind, hstate⟩ := (Option.any_eq_true _ _).mp hready
      have hok : x.result.isOk = true := by
        rcases settle_cases hrespond with ⟨-, -, -, -, -, hok | hdown⟩ |
            ⟨-, -, -, hdown | hunfit | ⟨err, herr⟩⟩
        · exact hok
        · cases hup.symm.trans hdown
        · cases hup.symm.trans hdown
        · cases hfits.symm.trans hunfit
        · -- the row is found in the state that the link is from
          have hmem : row.record.state ∈ «from» := by
            rw [hlinks.from]
            exact List.mem_singleton.mpr (by simpa using hstate)
          cases (transitionRow_of_found hfind hmem).symm.trans herr
      simp only [Seen.record, hupdate]
      rw [h, hok]
      rfl
  | closeCommand outcome =>
    cases outcome with
    | error _ => exact h
    | ok record =>
      have hup : w.down = false := hguard
      have hok : x.result.isOk = true := by
        rcases (close_cases hrespond).2.2 with ⟨-, hnot⟩ | ⟨-, -, -, -, hok | hdown⟩
        · rw [(hnot record rfl).2.2] at hup
          cases hup
        · exact hok
        · rw [hdown] at hup
          cases hup
      show ((w.seen i).broken || !x.result.isOk) = false
      rw [h, hok]
      rfl
  | answer _ => exact h
  | select _ | status _ | submitCode _ _ | fetchToken _ | deleteContainer _ | softDelete _ _
  | claimCommand _ _ _ | providerIsActive _ | newId | encrypt _ _ | insertCredential _ =>
    rw [(sameHand_record rfl).broken]
    exact h

theorem kept_respond (h : MirrorKept requests strict base w) (hguard : strict → LinksReady w o)
    (hmay : (protocol (requests i)).may (w.seen i) o) (hrespond : w.respond i o x = some w') :
    MirrorKept requests strict base (w'.see i o x) where
  table := (rows_respond h.table hmay.2 hrespond).1
  follow := h.follow.trans (rows_respond h.table hmay.2 hrespond).2
  stored := stored_respond h.stored hmay.2 hrespond
  linked := linked_respond h.table h.linked hmay.2 hrespond
  answered := by
    have hseen := seen_of_respond hrespond
    refine forall_see (P := fun j seen => ∀ result, seen.answered = some result →
      MayAnswer (requests j) seen result) ?_ fun j _ => by rw [hseen]; exact h.answered j
    rw [hseen]
    intro result hanswered
    cases o with
    | answer given =>
      obtain rfl : given = result := Option.some.inj hanswered
      exact mayAnswer_record hmay.2
    | transition _ _ update =>
      have hnone : ((w.seen i).record (.transition _ _ update) x).answered = none := by
        cases hupdate : update.credentialId <;> simp only [Seen.record, hupdate] <;> exact hmay.1
      cases hnone.symm.trans hanswered
    | closeCommand outcome => cases outcome <;> cases (show _ = none from hmay.1).symm.trans hanswered
    | select _ | status _ | submitCode _ _ | fetchToken _ | deleteContainer _ | softDelete _ _
    | claimCommand _ _ _ | providerIsActive _ | newId | encrypt _ _ | insertCredential _ =>
      rw [(sameHand_record rfl).answered, hmay.1] at hanswered
      cases hanswered
  unbroken hstrict := by
    have hseen := seen_of_respond hrespond
    refine forall_see (P := fun _ seen => seen.broken = false) ?_ fun j _ => by
      rw [hseen]; exact h.unbroken hstrict j
    rw [hseen]
    exact unbroken_respond (h.unbroken hstrict i) (hguard hstrict) hmay.2 hrespond

theorem kept_nature {e : WorldEvent} (h : MirrorKept requests strict base w)
    (hnature : nature w e = some w') :
    MirrorKept requests strict base w' := by
  cases e with
  | provision id label runnerReference scope expiresAt metadata =>
    simp only [nature] at hnature
    split at hnature
    · next hnew =>
      cases hnature
      have hmore : RowsFollow w.rows ({ record :=
          { id, label, runnerReference, scope, expiresAt, metadata } } :: w.rows) :=
        fun row hrow => ⟨row, List.mem_cons_of_mem _ hrow, .refl row⟩
      exact
        { table := by
            refine ⟨List.nodup_cons.mpr ⟨fun hmem => ?_, h.table.ids⟩, fun row hrow => ?_⟩
            · obtain ⟨row, hrow, hid⟩ := List.mem_map.mp hmem
              simpa [hid] using List.all_eq_true.mp hnew row hrow
            · rcases List.mem_cons.mp hrow with rfl | hrow
              · exact ⟨fun h => (nomatch h), fun h => (nomatch h)⟩
              · exact h.table.marked row hrow
          follow := h.follow.trans hmore
          stored := h.stored
          linked := fun i c hlinked => (h.linked i c hlinked).follow hmore
          answered := h.answered
          unbroken := h.unbroken }
    · cases hnature
  | providers _ | database _ =>
    cases hnature
    exact ⟨h.table, h.follow, h.stored, h.linked, h.answered, h.unbroken⟩

end Invariant

/-! ## Runs -/

section Runs

variable (deployment : Deployment) (requests : Nat → Request)

/-- Over the runs that meet `guard`, which is `LinksReady` where the outline is strict. -/
def mirrorsOutline (strict : Prop) (guard : World → MirrorOp → Prop)
    (hguard : strict → ∀ w o, guard w o → LinksReady w o) (base : List ClaudeRunnerRow) :
    System.Outline (mirrors deployment requests) where
  Ghost _ := Seen
  contract i := protocol (requests i)
  at_ _ _ seen := seen = {}
  shared w γ := γ = w.seen ∧ MirrorKept requests strict base w
  guard _ := guard
  code_ok i _ seen hseen := by
    subst hseen
    refine wp_mono (wp_code deployment (requests i)) (fun seen next hnext l hl => ?_) fun _ _ _ => trivial
    rw [hnext] at hl
    cases hl
  act_ok i w o x w' γ := by
    rintro ⟨rfl, hkept⟩ hmet hmay hgrant
    obtain ⟨w₁, hrespond, rfl⟩ := Option.map_eq_some_iff.mp hgrant
    refine ⟨answers_of_respond hrespond, ?_,
      kept_respond hkept (fun hstrict => hguard hstrict _ _ hmet) hmay hrespond⟩
    show _ = Function.update w₁.seen i ((w₁.seen i).record o x)
    rw [seen_of_respond hrespond]
    rfl
  nature_ok w e w' γ := by
    rintro ⟨rfl, hkept⟩ hnature
    refine ⟨?_, kept_nature hkept hnature⟩
    cases e with
    | provision _ _ _ _ _ _ =>
      simp only [mirrors, nature] at hnature
      split at hnature
      · cases hnature
        rfl
      · cases hnature
    | providers _ | database _ =>
      cases hnature
      rfl

variable {deployment requests} {strict : Prop} {guard : World → MirrorOp → Prop}
  {hguard : strict → ∀ w o, guard w o → LinksReady w o}
  {s t : (mirrors deployment requests).State}
  {moves more : List (mirrors deployment requests).Move}

theorem holds_initial : (mirrorsOutline deployment requests strict guard hguard []).Holds
    (mirrorsInitial deployment requests) := by
  refine ⟨fun _ => {}, ⟨rfl, ?_⟩, fun i => ?_⟩
  · exact
      { table := ⟨List.nodup_nil, fun _ hrow => absurd hrow List.not_mem_nil⟩
        follow := .refl []
        stored := fun _ hc => absurd hc List.not_mem_nil
        linked := fun _ _ hlinked => (nomatch hlinked)
        answered := fun _ _ hanswered => (nomatch hanswered)
        unbroken := fun _ _ => rfl }
  · exact (mirrorsOutline deployment requests strict guard hguard []).code_ok i () {} rfl

theorem holds_rebase (h : (mirrorsOutline deployment requests strict guard hguard base).Holds s) :
    (mirrorsOutline deployment requests strict guard hguard s.world.rows).Holds s := by
  obtain ⟨γ, ⟨hseen, hkept⟩, hproc⟩ := h
  exact ⟨γ, ⟨hseen, { hkept with follow := .refl _ }⟩, hproc⟩

/-- What a finalize that is refused has left alone, in every run. -/
theorem refused_finalize_keeps_the_token {i : Nat} {id : Uuid}
    {finalizeRequest : ClaudeRunnerFinalizeRequest} {err : AppError}
    (hcall : (requests i).call = .finalize id finalizeRequest)
    (hrun : runFrom (mirrors deployment requests).step (mirrorsInitial deployment requests)
      moves = some t) (hanswered : (t.world.seen i).answered = some (.error err)) :
    RefusedFinalize (requests i).actor (t.world.seen i) ∧
      ∀ refusal, (t.world.seen i).refusal = some refusal → ∀ c ∈ t.world.credentials, c.call ≠ i := by
  obtain ⟨_, ⟨-, hkept⟩, -⟩ := System.Outline.invariant
    (mirrorsOutline deployment requests False (fun _ _ => True) (fun h => h.elim) []) (fun _ _ _ => trivial)
    holds_initial hrun
  have hmay := hkept.answered i _ hanswered
  simp only [MayAnswer, hcall] at hmay
  refine ⟨hmay.1, fun refusal hrefusal c hc hci => ?_⟩
  have hstored := hkept.stored c hc
  rw [hci, (hmay.1.chain refusal hrefusal).2.1] at hstored
  cases hstored

/-- What is said of the mirror and the credentials. -/
structure Agrees (requests : Nat → Request) (w : World) : Prop where
  /-- A credential is set exactly on the rows that have reached `linked`. -/
  marked : ∀ row ∈ w.rows, row.record.credentialId.isSome = true ↔ row.record.state = .linked
  /-- No credential is stored behind an error. -/
  settled : ∀ c ∈ w.credentials, ∀ result, (w.seen c.call).answered = some result →
    result.isOk = true ∧ LinkedTo requests w.rows c.call c.record.id

theorem MirrorKept.agrees (h : MirrorKept requests strict base w) (hstrict : strict) :
    Agrees requests w where
  marked := h.table.marked
  settled c hc result hanswered := by
    have hmay := h.answered c.call result hanswered
    have hstored := h.stored c hc
    unfold MayAnswer at hmay
    split at hmay
    · exact ⟨rfl, h.linked c.call _ (hmay.2 _ hstored)⟩
    · have hbroken := hmay.2 (by rw [hstored]; rfl)
      cases (h.unbroken hstrict c.call).symm.trans hbroken
    · -- no other call stores a credential
      cases (show (w.seen c.call).stored = none from hmay.stored).symm.trans hstored

/--
**Mirror and credential agree**, in every run whose commits and links meet `LinksReady`; what is
terminal stays.
-/
theorem mirror_and_credential_agree
    (hmeets : Transition.Meets (mirrors deployment requests).step
      (System.Guarded fun _ w o => LinksReady w o) (mirrorsInitial deployment requests) moves)
    (hrun : runFrom (mirrors deployment requests).step (mirrorsInitial deployment requests)
      moves = some s)
    (hmore : Transition.Meets (mirrors deployment requests).step
      (System.Guarded fun _ w o => LinksReady w o) s more)
    (hrunMore : runFrom (mirrors deployment requests).step s more = some t) :
    Agrees requests t.world ∧ RowsFollow s.world.rows t.world.rows := by
  have hholds := System.Outline.guarded
    (mirrorsOutline deployment requests True LinksReady (fun _ _ _ h => h) []) holds_initial hmeets hrun
  obtain ⟨_, ⟨-, hkept⟩, -⟩ := System.Outline.guarded
    (mirrorsOutline deployment requests True LinksReady (fun _ _ _ h => h) s.world.rows)
    (holds_rebase hholds) hmore hrunMore
  exact ⟨hkept.agrees trivial, hkept.follow⟩

/-- **What is terminal stays**, in every run, and a credential is set exactly where a runner is
linked. -/
theorem marked_and_terminal
    (hrun : runFrom (mirrors deployment requests).step (mirrorsInitial deployment requests)
      moves = some s) (hrunMore : runFrom (mirrors deployment requests).step s more = some t) :
    (∀ row ∈ t.world.rows, Marked row.record) ∧ RowsFollow s.world.rows t.world.rows := by
  have hholds := System.Outline.invariant
    (mirrorsOutline deployment requests False (fun _ _ => True) (fun h => h.elim) []) (fun _ _ _ => trivial)
    holds_initial hrun
  obtain ⟨_, ⟨-, hkept⟩, -⟩ := System.Outline.invariant
    (mirrorsOutline deployment requests False (fun _ _ => True) (fun h => h.elim) s.world.rows)
    (fun _ _ _ => trivial) (holds_rebase hholds) hrunMore
  exact ⟨hkept.table.marked, hkept.follow⟩

end Runs

/-! ### Samples -/

namespace Sample

def operator : Actor where
  actorType := .systemKey
  scopes := ["moira:admin"]

def enabled : Deployment where
  controlEnabled := true
  parseRfc3339 _ := none

/-- A finalize of runner 1 and a poll of it. -/
def finalizeAndGet (providerId : Uuid) (i : Nat) : Request where
  actor := operator
  call := if i = 0 then .finalize 1 { providerId } else .get 1

abbrev system (requests : Nat → Request) : System Nat :=
  mirrors enabled requests

def endedAs {α : Type} : Except AppError (α × List ClaudeRunnerRow) → Ended α
  | .ok (a, _) => ⟨.ok a, true⟩
  | .error err => ⟨.error err, false⟩

/-- A database that works; the poll is told of an earlier state. -/
def reply (w : World) (i : Nat) : (o : MirrorOp) → o.Ans
  | .select id => .ok ((findRow w.rows id).map (·.record))
  | .status _ => .ok { state := if i = 0 then "ready" else "exchanging" }
  | .transition id «from» update => endedAs (transitionRow w.rows id «from» update)
  | .softDelete id expectedVersion => endedAs (softDelete w.rows id expectedVersion)
  | .fetchToken _ => .ok "token"
  | .claimCommand .. => .ok none
  | .providerIsActive id => .ok (decide (id ∈ w.providers))
  | .newId => 100 + i
  | .closeCommand _ => ⟨.ok (), true⟩
  | .submitCode .. | .deleteContainer _ | .encrypt .. | .insertCredential _ => .ok ()
  | .answer _ => ()

variable {requests : Nat → Request}

/-- The calls move in the order of the schedule. -/
def perform : List Nat → (system requests).State → List (system requests).Move
  | [], _ => []
  | i :: rest, s =>
    match (system requests).step s (.act i (reply s.world i)) with
    | some s' => .act i (reply s.world i) :: perform rest s'
    | none => perform rest s

/-- Runner 1 is provisioned, and provider 7 is there. -/
def prepared (requests : Nat → Request) : List (system requests).Move :=
  [.nature (.provision 1 "demo" "ref-1" .global none .null), .nature (.providers [7])]

def scheduled (requests : Nat → Request) (schedule : List Nat) : List (system requests).Move :=
  prepared requests ++ match runFrom (system requests).step (mirrorsInitial enabled requests)
      (prepared requests) with
    | some s => perform schedule s
    | none => []

/-- The poll is over before the finalize begins. -/
def pollFirst : List Nat :=
  List.replicate 4 1 ++ List.replicate 12 0

/-- The poll has asked the runner service before the finalize, and writes before the link. -/
def pollBetween : List Nat :=
  List.replicate 2 1 ++ List.replicate 9 0 ++ List.replicate 2 1 ++ List.replicate 4 0

/-- The state of each row, its credential, the credentials and whether the finalize was answered. -/
def summary (w : World) :
    List (ClaudeRunnerState × Option Uuid) × List (Nat × Uuid) × Option Bool :=
  (w.rows.map fun row => (row.record.state, row.record.credentialId),
    w.credentials.map fun c => (c.call, c.record.id),
    (w.seen 0).answered.map Except.isOk)

instance instDecidableLinkMove (requests : Nat → Request) (s : (system requests).State)
    (m : (system requests).Move) :
    Decidable (System.Guarded (M := system requests) (fun _ w o => LinksReady w o) s m) :=
  @System.instDecidableGuarded _ (system requests) (fun _ w o => LinksReady w o)
    (fun _ => instDecidableLinksReady) s m

end Sample

open Sample in
theorem mirror_and_credential_agree_pollFirst :
    ∃ t : (system (finalizeAndGet 7)).State,
      runFrom (system (finalizeAndGet 7)).step (mirrorsInitial enabled (finalizeAndGet 7))
        (scheduled (finalizeAndGet 7) pollFirst) = some t ∧
      summary t.world = ([(.linked, some 100)], [(0, 100)], some true) ∧
      Agrees (finalizeAndGet 7) t.world := by
  have hsummary : (runFrom (system (finalizeAndGet 7)).step
      (mirrorsInitial enabled (finalizeAndGet 7)) (scheduled (finalizeAndGet 7) pollFirst)).map
        (fun t => summary t.world) = some ([(.linked, some 100)], [(0, 100)], some true) := by
    decide +kernel
  have hmeets : Transition.Meets (system (finalizeAndGet 7)).step
      (System.Guarded fun _ w o => LinksReady w o) (mirrorsInitial enabled (finalizeAndGet 7))
        (scheduled (finalizeAndGet 7) pollFirst) := by
    decide +kernel
  obtain ⟨t, hrun, hworld⟩ := Option.map_eq_some_iff.mp hsummary
  have hstays : Transition.Meets (system (finalizeAndGet 7)).step
      (System.Guarded fun _ w o => LinksReady w o) t [] := trivial
  exact ⟨t, hrun, hworld, (mirror_and_credential_agree hmeets hrun hstays rfl).1⟩

open Sample in
/-- A runner that is linked stays so when it is read again. -/
theorem marked_and_terminal_readAgain :
    ∃ s t : (system (finalizeAndGet 7)).State,
      runFrom (system (finalizeAndGet 7)).step (mirrorsInitial enabled (finalizeAndGet 7))
        (scheduled (finalizeAndGet 7) pollFirst) = some s ∧
      runFrom (system (finalizeAndGet 7)).step s (perform (List.replicate 4 2) s) = some t ∧
      s.world.rows.map (·.record.credentialId) = [some 100] ∧ (t.world.seen 2).answered.isSome ∧
      (∀ row ∈ t.world.rows, Marked row.record) ∧ RowsFollow s.world.rows t.world.rows := by
  have hruns : ((runFrom (system (finalizeAndGet 7)).step
      (mirrorsInitial enabled (finalizeAndGet 7)) (scheduled (finalizeAndGet 7) pollFirst)).bind
      fun s => (runFrom (system (finalizeAndGet 7)).step s (perform (List.replicate 4 2) s)).map
        fun t => (s.world.rows.map (·.record.credentialId), (t.world.seen 2).answered.isSome)) =
        some ([some 100], true) := by
    decide +kernel
  obtain ⟨s, hrun, hmore⟩ := Option.bind_eq_some_iff.mp hruns
  obtain ⟨t, hrunMore, hworlds⟩ := Option.map_eq_some_iff.mp hmore
  obtain ⟨hlinked, hanswered⟩ := Prod.mk.inj hworlds
  exact ⟨s, t, hrun, hrunMore, hlinked, hanswered, marked_and_terminal hrun hrunMore⟩

open Sample in
/-- A poll that writes an earlier state between the commit of the credential and the link. -/
theorem credential_is_stored_behind_an_error :
    ¬∀ (moves : List (system (finalizeAndGet 7)).Move) (t : (system (finalizeAndGet 7)).State),
      runFrom (system (finalizeAndGet 7)).step (mirrorsInitial enabled (finalizeAndGet 7)) moves =
        some t → Agrees (finalizeAndGet 7) t.world := by
  intro hall
  have hsummary : (runFrom (system (finalizeAndGet 7)).step
      (mirrorsInitial enabled (finalizeAndGet 7)) (scheduled (finalizeAndGet 7) pollBetween)).map
        (fun t => summary t.world) = some ([(.exchanging, none)], [(0, 100)], some false) := by
    decide +kernel
  obtain ⟨t, hrun, hworld⟩ := Option.map_eq_some_iff.mp hsummary
  simp only [summary, Prod.mk.injEq] at hworld
  obtain ⟨-, hcredentials, hanswered⟩ := hworld
  obtain ⟨c, hc, hcall⟩ := List.mem_map.mp (hcredentials ▸ List.mem_singleton_self (0, 100))
  obtain ⟨result, hresult, herror⟩ := Option.map_eq_some_iff.mp hanswered
  have hsettled := (hall _ t hrun).settled c hc result (by rw [(Prod.mk.inj hcall).1]; exact hresult)
  rw [herror] at hsettled
  cases hsettled.1

open Sample in
theorem refused_finalize_keeps_the_token_unknownProvider :
    ∃ t : (system (finalizeAndGet 9)).State,
      (t.world.seen 0).answered = some (.error (.notFound "provider 9")) ∧
      RefusedFinalize operator (t.world.seen 0) := by
  have hanswered : (runFrom (system (finalizeAndGet 9)).step
      (mirrorsInitial enabled (finalizeAndGet 9)) (scheduled (finalizeAndGet 9) pollFirst)).map
        (fun t => (t.world.seen 0).answered) = some (some (.error (.notFound "provider 9"))) := by
    decide +kernel
  obtain ⟨t, hrun, hworld⟩ := Option.map_eq_some_iff.mp hanswered
  exact ⟨t, hworld, (refused_finalize_keeps_the_token (i := 0) rfl hrun hworld).1⟩

open Sample in
/-- The provider is looked for when the token has been read. -/
theorem unknown_provider_burns_the_token :
    ¬∀ (moves : List (system (finalizeAndGet 9)).Move) (t : (system (finalizeAndGet 9)).State),
      runFrom (system (finalizeAndGet 9)).step (mirrorsInitial enabled (finalizeAndGet 9)) moves =
        some t → (t.world.seen 0).answered = some (.error (.notFound "provider 9")) →
          (t.world.seen 0).tokenRead = false := by
  intro hall
  have hanswered : (runFrom (system (finalizeAndGet 9)).step
      (mirrorsInitial enabled (finalizeAndGet 9)) (scheduled (finalizeAndGet 9) pollFirst)).map
        (fun t => ((t.world.seen 0).answered, (t.world.seen 0).tokenRead)) =
      some (some (.error (.notFound "provider 9")), true) := by
    decide +kernel
  obtain ⟨t, hrun, hworld⟩ := Option.map_eq_some_iff.mp hanswered
  obtain ⟨hanswered, hread⟩ := Prod.mk.inj hworld
  cases hread.symm.trans (hall _ t hrun hanswered)

end Moira.ClaudeRunners
