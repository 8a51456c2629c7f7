import Mathlib.Tactic.Common
import Moira.Runtime.Creates

/-!
# Rows that are created for one key

- `OneRow` — at most one row is created for a key

**`one_row_for_key`**
-/

namespace Moira

open Prog System Transition

/-! ## What one call does -/

structure CreateGhost where
  asked : Bool := false
  /-- It does not insert any more. -/
  done : Bool := false

def CreateGhost.next (g : CreateGhost) : (o : CreateOp) → o.Ans → CreateGhost
  | .getIdempotencyRecord _, .ok found =>
    { asked := true, done := g.done || found.any fun record => record.responseBody.isSome }
  | .getIdempotencyRecord _, .error _ => { asked := true, done := true }
  | .insert _ _, _ => { g with done := true }
  | _, _ => g

def CreateMay (position : Option Position) (g : CreateGhost) : CreateOp → Prop
  | .getIdempotencyRecord p => g.done = false ∧ (g.asked = false → position = some p)
  | .insert _ _ => g.done = false ∧ (position ≠ none → g.asked = true)
  | _ => True

/-- A call inserts at most once, and not after the ledger has answered for it. -/
def createContract (position : Option Position) : Contract createSig CreateGhost where
  may := CreateMay position
  answers _ _ _ := True
  next := CreateGhost.next

variable {g : CreateGhost}

section

variable {position : Option Position} {ε α β : Type}

abbrev Creates (position : Option Position) (p : Prog createSig ε α) (g : CreateGhost)
    (Q : CreateGhost → α → Prop) : Prop :=
  p.wp (createContract position) g Q (fun _ _ => True)

theorem creates_ofExcept {result : Except ε α} {f : α → Prog createSig ε β} {Q : CreateGhost → β → Prop}
    (hf : ∀ a, Creates position (f a) g Q) : Creates position (ofExcept result >>= f) g Q :=
  wp_ofExcept_bind (fun a _ => hf a) fun _ _ => trivial

theorem creates_findRecord_asked (positions : List Position) (hdone : g.done = false)
    (hasked : g.asked = true) :
    Creates position (findRecord positions) g fun g' found =>
      g'.asked = true ∧ g'.done = found.any fun record => record.responseBody.isSome := by
  induction positions generalizing g with
  | nil => exact ⟨hasked, hdone⟩
  | cons p rest ih =>
    refine ⟨⟨hdone, fun h => by simp [hasked] at h⟩, fun found _ => ?_⟩
    rcases found with err | (_ | record)
    · trivial
    · exact ih (by simp [createContract, CreateGhost.next, hdone]) rfl
    · exact ⟨rfl, by simp [createContract, CreateGhost.next, hdone]⟩

theorem creates_findRecord {p : Position} (rest : List Position) (hp : position = some p) :
    Creates position (findRecord (p :: rest)) {} fun g' found =>
      g'.asked = true ∧ g'.done = found.any fun record => record.responseBody.isSome := by
  refine ⟨⟨rfl, fun _ => hp⟩, fun found _ => ?_⟩
  rcases found with err | (_ | record)
  · trivial
  · exact creates_findRecord_asked rest rfl rfl
  · exact ⟨rfl, rfl⟩

end

variable {service : RuntimeAdminService}

section

variable {call : CreateCall}

theorem creates_idempotencyReplay :
    Creates (call.position service) (idempotencyReplay service call) {} fun g' replay =>
      replay = none → g'.done = false ∧ (call.position service ≠ none → g'.asked = true) := by
  unfold idempotencyReplay
  cases hkey : call.idempotencyKey with
  | none =>
    intro _
    exact ⟨rfl, fun h => by simp [CreateCall.position, hkey] at h⟩
  | some key =>
    have hposition : call.position service =
        some (service.hasher.writtenPosition service.render call.actor key call.request.operation) := by
      simp [CreateCall.position, hkey]
    obtain ⟨older, hsweep⟩ :=
      service.hasher.runtimePositions_eq service.render call.actor key call.request.operation
    simp only [hsweep]
    refine wp_bind_mono (creates_findRecord older hposition) fun g' found hfound => ?_
    obtain ⟨hasked, hdone⟩ := hfound
    cases found with
    | none => exact fun _ => ⟨hdone, fun _ => hasked⟩
    | some record =>
      dsimp only
      refine wp_ite (fun _ => trivial) fun _ => ?_
      cases hbody : record.responseBody with
      | none => exact fun _ => ⟨by simpa [hbody] using hdone, fun _ => hasked⟩
      | some body =>
        dsimp only
        cases service.fromValue call.request.table body with
        | ok replay => exact fun h => absurd h (Option.some_ne_none replay)
        | error err => trivial

theorem creates_recordIdempotency (response : RuntimeRecord) (g : CreateGhost) :
    Creates (call.position service) (recordIdempotency service call response) g fun _ _ => True := by
  unfold recordIdempotency
  cases call.idempotencyKey with
  | none => trivial
  | some key =>
    refine ⟨trivial, fun now _ => ⟨trivial, fun written _ => ?_⟩⟩
    exact wp_ofExcept (fun _ _ => trivial) fun _ _ => trivial

/-- What the checks of the three creates ask. -/
def asksForModel : CreateOp → Prop
  | .providerModelBelongsToProvider _ _ => True
  | _ => False

theorem only_checks (key name rest : Except AppError Unit) :
    Prog.Only (S := createSig) asksForModel (do ofExcept key; ofExcept name; ofExcept rest) :=
  only_bind (only_ofExcept key) fun _ => only_bind (only_ofExcept name) fun _ => only_ofExcept rest

theorem creates_record (requiredScope : String) {check : Prog createSig AppError Unit}
    (hcheck : check.Only asksForModel) :
    Creates (call.position service) (createRecord service call requiredScope check) {}
      fun _ _ => True := by
  unfold createRecord
  refine creates_ofExcept fun _ => ?_
  refine wp_bind_mono creates_idempotencyReplay fun g replay hreplay => ?_
  cases replay with
  | some replay => trivial
  | none =>
    obtain ⟨hdone, hasked⟩ := hreplay rfl
    have hrest : Creates (call.position service) check g fun g' _ => g' = g := by
      induction check with
      | ret a => rfl
      | fail e => trivial
      | op o k ih =>
        cases o with
        | providerModelBelongsToProvider _ _ => exact ⟨trivial, fun x _ => ih x (hcheck.2 x)⟩
        | _ => exact hcheck.1.elim
    refine wp_bind_mono hrest fun g' _ hsame => ?_
    subst hsame
    refine ⟨trivial, fun id _ => ⟨⟨hdone, hasked⟩, fun written _ => ?_⟩⟩
    refine creates_ofExcept fun record => ⟨trivial, fun _ _ => ?_⟩
    show Creates (call.position service) (recordIdempotency service call record >>= fun _ => .ret record) _ _
    exact wp_bind_mono (creates_recordIdempotency record _) fun _ _ _ => trivial

theorem creates_routeDefinition (request : RouteDefinitionCreateRequest) :
    Creates (call.position service) (createRouteDefinition service call request) {} fun _ _ => True := by
  unfold createRouteDefinition
  exact creates_record _ (only_checks _ _ _)

theorem creates_routingPolicy (request : RoutingPolicyCreateRequest) :
    Creates (call.position service) (createRoutingPolicy service call request) {} fun _ _ => True := by
  unfold createRoutingPolicy
  refine creates_record _ ?_
  refine only_bind (only_ofExcept _) fun _ => ?_
  refine ⟨trivial, fun belongs => ?_⟩
  rcases belongs with err | (_ | _) <;> trivial

theorem creates_agentProfile (request : AgentProfileCreateRequest) :
    Creates (call.position service) (createAgentProfile service call request) {} fun _ _ => True := by
  unfold createAgentProfile
  exact creates_record _ (only_checks _ _ _)

theorem creates_code : Creates (call.position service) (call.code service) {} fun _ next => next = none := by
  unfold CreateCall.code
  refine wp_bind.mpr (wp_attempt.mpr ?_)
  refine wp_mono (Q := fun _ _ => True) (E := fun _ _ => True) ?_
    (fun _ _ _ => ⟨trivial, fun _ _ => rfl⟩) fun _ _ _ => ⟨trivial, fun _ _ => rfl⟩
  split
  · exact creates_routeDefinition _
  · exact creates_routingPolicy _
  · exact creates_agentProfile _

end

theorem CreateGhost.done_next (h : g.done = true) (o : CreateOp) (x : o.Ans) :
    (g.next o x).done = true := by
  cases o with
  | getIdempotencyRecord p => cases x <;> simp [CreateGhost.next, h]
  | insert id request => rfl
  | _ => exact h

theorem not_stillInserts {position : Option Position} {ε α : Type} {p : Prog createSig ε α}
    {Q : CreateGhost → α → Prop} (hwp : Creates position p g Q) (hdone : g.done = true) :
    ¬StillInserts p := by
  intro h
  induction h generalizing g with
  | insert =>
    have hmay := hwp.1.1
    rw [hdone] at hmay
    cases hmay
  | later x hrest ih => exact ih (hwp.2 x trivial) (CreateGhost.done_next hdone _ x)

/-! ## What a statement does -/

def looksUp : CreateOp → Bool
  | .getIdempotencyRecord _ => true
  | _ => false

inductive CreateEffect (i : Nat) (w : CreateWorld) : (o : CreateOp) → o.Ans → CreateWorld → Prop
  | looked (p : Position) (found : Except AppError (Option IdempotencyRecord))
      (hfound : ∀ record, found = .ok record → record = w.ledger.get w.now p) :
      CreateEffect i w (.getIdempotencyRecord p) found { w with asked := i :: w.asked }
  | inserted (id : Uuid) (request : CreateRequest) (written : Committed RuntimeRecord) :
      CreateEffect i w (.insert id request) written (w.insertRow i id request)
  | recorded (record : IdempotencyRecord) (written : Committed Unit) :
      CreateEffect i w (.putIdempotencyRecord record) written { w with ledger := w.ledger.put record }
  | same (o : CreateOp) (x : o.Ans) (h : looksUp o = false) : CreateEffect i w o x w

variable {i : Nat} {w w' : CreateWorld}

theorem effect_of_grantCreate {o : CreateOp} {x : o.Ans} (h : grantCreate i w o x = some w') :
    i ∉ w.lost ∧ CreateEffect i w o x w' := by
  unfold grantCreate at h
  split at h
  · cases h
  next hrunning =>
  refine ⟨hrunning, ?_⟩
  cases o with
  | getIdempotencyRecord p =>
    cases x with
    | error err =>
      cases h
      exact .looked p _ fun _ hfound => nomatch hfound
    | ok found =>
      simp only [grantStatement] at h
      split at h
      · next heq =>
        cases h
        exact .looked p _ fun _ hfound => by cases hfound; exact heq
      · cases h
  | insert id request =>
    obtain ⟨result, committed⟩ := x
    cases result <;> cases committed <;> simp only [grantStatement] at h
    · cases h
      exact .same _ _ rfl
    · split at h
      · cases h
        exact .inserted id request _
      · cases h
    · cases h
    · split at h
      · cases h
        exact .inserted id request _
      · cases h
  | now =>
    simp only [grantStatement] at h
    split at h
    · cases h
      exact .same _ _ rfl
    · cases h
  | putIdempotencyRecord record =>
    obtain ⟨result, committed⟩ := x
    cases result <;> cases committed <;> simp only [grantStatement] at h
    · cases h
      exact .same _ _ rfl
    · cases h
      exact .recorded record _
    · cases h
    · cases h
      exact .recorded record _
  | _ =>
    cases h
    exact .same _ _ rfl

/-! ## Runs -/

section

variable {calls : Nat → CreateCall}

/-- The ghost state of a call beside what an observer has written down. -/
structure CreateShared (service : RuntimeAdminService) (calls : Nat → CreateCall) (w : CreateWorld)
    (γ : Nat → CreateGhost) : Prop where
  asked : ∀ i, (γ i).asked = true ↔ i ∈ w.asked
  created : ∀ i id, (i, id) ∈ w.created →
    (γ i).done = true ∧ ((calls i).position service ≠ none → i ∈ w.asked)

theorem createShared_act {o : CreateOp} {x : o.Ans} {γ : Nat → CreateGhost}
    (h : CreateShared service calls w γ) (hmay : CreateMay ((calls i).position service) (γ i) o)
    (heffect : CreateEffect i w o x w') :
    CreateShared service calls w' (Function.update γ i ((γ i).next o x)) := by
  refine ⟨fun j => ?_, fun j id hcreated => ?_⟩
  · by_cases hj : j = i
    · subst hj
      rw [Function.update_self]
      cases heffect with
      | looked p found _ => cases found <;> simp [CreateGhost.next]
      | inserted id request written => exact h.asked j
      | recorded record written => exact h.asked j
      | same _ _ ho =>
        cases o with
        | getIdempotencyRecord p => cases ho
        | _ => exact h.asked j
    · rw [Function.update_of_ne hj]
      cases heffect with
      | looked p found _ => simpa [hj] using h.asked j
      | _ => exact h.asked j
  · by_cases hj : j = i
    · subst hj
      rw [Function.update_self]
      cases heffect with
      | looked p found _ =>
        -- it looks only before it inserts
        have hdone := (h.created j id hcreated).1
        rw [hmay.1] at hdone
        cases hdone
      | inserted newId request written => exact ⟨rfl, fun hposition => (h.asked j).mp (hmay.2 hposition)⟩
      | recorded record written => exact h.created j id hcreated
      | same _ _ ho => exact ⟨CreateGhost.done_next (h.created j id hcreated).1 _ _, (h.created j id hcreated).2⟩
    · rw [Function.update_of_ne hj]
      cases heffect with
      | looked p found _ =>
        obtain ⟨hdone, hasked⟩ := h.created j id hcreated
        exact ⟨hdone, fun hposition => List.mem_cons_of_mem i (hasked hposition)⟩
      | inserted newId request written =>
        rcases List.mem_cons.mp hcreated with heq | hold
        · exact absurd (congrArg Prod.fst heq) hj
        · exact h.created j id hold
      | recorded record written => exact h.created j id hcreated
      | same _ _ ho => exact h.created j id hcreated

def createOutline (service : RuntimeAdminService) (calls : Nat → CreateCall) :
    Outline (createTraffic service calls) where
  Ghost _ := CreateGhost
  contract i := createContract ((calls i).position service)
  at_ _ _ _ := False
  shared := CreateShared service calls
  code_ok _ _ _ h := h.elim
  act_ok _ _ _ _ _ _ h _ hmay hgrant := ⟨trivial, createShared_act h hmay (effect_of_grantCreate hgrant).2⟩
  nature_ok := by
    intro w e w' γ h hnature
    cases e <;> cases hnature <;> exact ⟨h.asked, h.created⟩

variable {s s' : (createTraffic service calls).State}

/-- What holds between two moves of the calls of one key. -/
structure OneAtATime (s : (createTraffic service calls).State) : Prop where
  alone : ∀ i j p, (calls i).position service = some p → (calls j).position service = some p →
    Underway s i → Underway s j → i = j
  before : ∀ i p, (calls i).position service = some p → Underway s i →
    s.world.createdAt service calls p = []
  one : ∀ p, (s.world.createdAt service calls p).length ≤ 1

theorem createdAt_eq (h : w'.created = w.created) (p : Position) :
    w'.createdAt service calls p = w.createdAt service calls p := by
  unfold CreateWorld.createdAt
  rw [h]

theorem OneAtATime.of_fewer (h : OneAtATime s) (hcreated : s'.world.created = s.world.created)
    (hfewer : ∀ i, Underway s' i → Underway s i) : OneAtATime s' where
  alone i j p hi hj hui huj := h.alone i j p hi hj (hfewer i hui) (hfewer j huj)
  before i p hi hui := by
    rw [createdAt_eq hcreated]
    exact h.before i p hi (hfewer i hui)
  one p := by
    rw [createdAt_eq hcreated]
    exact h.one p

/-- The call `i` has looked, and what the others have in hand has not changed. -/
structure Looked (s s' : (createTraffic service calls).State) (i : Nat) : Prop where
  created : s'.world.created = s.world.created
  others : ∀ j, j ≠ i → Underway s' j → Underway s j

theorem OneAtATime.of_looked (h : OneAtATime s) {p : Position}
    (hp : (calls i).position service = some p) (hlooked : Looked s s' i)
    (halone : ∀ j, j ≠ i → (calls j).position service = some p → ¬Underway s j)
    (hnone : Underway s' i → s.world.createdAt service calls p = []) : OneAtATime s' where
  alone j k q hj hk huj huk := by
    by_cases hji : j = i
    · subst hji
      obtain rfl : p = q := Option.some.inj (hp.symm.trans hj)
      by_contra hne
      exact halone k (Ne.symm hne) hk (hlooked.others k (Ne.symm hne) huk)
    · by_cases hki : k = i
      · subst hki
        obtain rfl : p = q := Option.some.inj (hp.symm.trans hk)
        exact absurd (hlooked.others j hji huj) (halone j hji hj)
      · exact h.alone j k q hj hk (hlooked.others j hji huj) (hlooked.others k hki huk)
  before j q hj huj := by
    rw [createdAt_eq hlooked.created]
    by_cases hji : j = i
    · subst hji
      obtain rfl : p = q := Option.some.inj (hp.symm.trans hj)
      exact hnone huj
    · exact h.before j q hj (hlooked.others j hji huj)
  one q := by
    rw [createdAt_eq hlooked.created]
    exact h.one q

theorem createdAt_insert {id : Uuid} (h : w'.created = (i, id) :: w.created) (p : Position) :
    w'.createdAt service calls p =
      if (calls i).position service = some p then (i, id) :: w.createdAt service calls p
      else w.createdAt service calls p := by
  unfold CreateWorld.createdAt
  rw [h, List.filter_cons]
  simp only [decide_eq_true_eq]

theorem OneAtATime.of_inserted (h : OneAtATime s) {id : Uuid}
    (hcreated : s'.world.created = (i, id) :: s.world.created)
    (hunderway : (calls i).position service ≠ none → Underway s i) (hdone : ¬Underway s' i)
    (hothers : ∀ j, j ≠ i → Underway s' j → Underway s j) : OneAtATime s' where
  alone j k q hj hk huj huk := by
    have hji : j ≠ i := fun heq => hdone (heq ▸ huj)
    have hki : k ≠ i := fun heq => hdone (heq ▸ huk)
    exact h.alone j k q hj hk (hothers j hji huj) (hothers k hki huk)
  before j q hj huj := by
    have hji : j ≠ i := fun heq => hdone (heq ▸ huj)
    have hold := hothers j hji huj
    rw [createdAt_insert hcreated, if_neg]
    · exact h.before j q hj hold
    · intro hi
      have hui : Underway s i := hunderway (by rw [hi]; exact Option.some_ne_none q)
      exact hji (h.alone j i q hj hi hold hui)
  one q := by
    rw [createdAt_insert hcreated]
    by_cases hi : (calls i).position service = some q
    · have hui : Underway s i := hunderway (by rw [hi]; exact Option.some_ne_none q)
      rw [if_pos hi, h.before i q hi hui]
      exact Nat.le_refl 1
    · rw [if_neg hi]
      exact h.one q

theorem underway_of_continue {j : Nat} {o : ((createTraffic service calls).sig i).Op}
    {k : ((createTraffic service calls).sig i).Ans o → (createTraffic service calls).Proc i}
    {x : ((createTraffic service calls).sig i).Ans o} (hproc : s.proc i = .op o k)
    (heffect : CreateEffect i s.world o x w) (hj : Underway (s.continue i w (k x)) j)
    (hlooks : looksUp o = false ∨ j ≠ i) : Underway s j := by
  obtain ⟨hasked, hrunning, hinserts⟩ := hj
  by_cases hji : j = i
  · subst hji
    have hstill : StillInserts (s.proc j) := by
      rw [hproc]
      refine .later x ?_
      simpa [State.continue] using hinserts
    cases heffect with
    | looked p found _ => exact absurd rfl (hlooks.resolve_left Bool.noConfusion)
    | inserted id request written => exact ⟨hasked, hrunning, hstill⟩
    | recorded record written => exact ⟨hasked, hrunning, hstill⟩
    | same _ _ _ => exact ⟨hasked, hrunning, hstill⟩
  · have hstill : StillInserts (s.proc j) := by simpa [State.continue, hji] using hinserts
    cases heffect with
    | looked p found _ => exact ⟨(List.mem_cons.mp hasked).resolve_left hji, hrunning, hstill⟩
    | inserted id request written => exact ⟨hasked, hrunning, hstill⟩
    | recorded record written => exact ⟨hasked, hrunning, hstill⟩
    | same _ _ _ => exact ⟨hasked, hrunning, hstill⟩

theorem OneAtATime.step {m : (createTraffic service calls).Move} (h : OneAtATime s)
    (houtline : (createOutline service calls).Holds s) (hmeets : AsksAlone s m)
    (hstep : (createTraffic service calls).step s m = some s') : OneAtATime s' := by
  obtain ⟨γ, hshared, hwp⟩ := houtline
  rcases step_cases hstep with ⟨i, answer, o, k, w, rfl, hproc, hgrant, rfl⟩ | ⟨i, l, hproc, rfl⟩ |
    ⟨e, w, hnature, rfl⟩
  · have hpre := hwp i
    rw [hproc] at hpre
    obtain ⟨hrunning, heffect⟩ := effect_of_grantCreate hgrant
    have hnext := hpre.2 (answer o) trivial
    have hfewer := fun j hj => underway_of_continue hproc heffect (j := j) hj
    generalize hx : answer o = x at heffect hnext hfewer hgrant
    cases heffect with
    | looked p found hfound =>
      by_cases hasked : i ∈ s.world.asked
      · -- it has looked before, at another spelling
        refine h.of_fewer rfl fun j hj => ?_
        by_cases hji : j = i
        · subst hji
          refine ⟨hasked, hrunning, ?_⟩
          rw [hproc]
          refine .later found ?_
          simpa [State.continue] using hj.inserts
        · exact hfewer j hj (.inr hji)
      · have hp : (calls i).position service = some p := by
          refine hpre.1.2 ?_
          rw [← Bool.not_eq_true, hshared.asked i]
          exact hasked
        simp only [AsksAlone, hproc] at hmeets
        have halone := hmeets hasked
        refine h.of_looked hp ⟨rfl, fun j hji hj => hfewer j hj (.inr hji)⟩
          (fun j hji hj => (halone j hji (hj.trans hp.symm)).1) fun hui => ?_
        -- the ledger did not answer for the key
        have hinserts : StillInserts (k found) := by simpa [State.continue] using hui.inserts
        have hundone : (CreateGhost.next (γ i) (.getIdempotencyRecord p) found).done ≠ true :=
          fun hdone => not_stillInserts hnext hdone hinserts
        refine List.filter_eq_nil_iff.mpr ?_
        rintro ⟨j, id⟩ hcreated hj
        have hj : (calls j).position service = some p := of_decide_eq_true hj
        by_cases hji : j = i
        · subst hji
          exact hasked ((hshared.created j id hcreated).2 (by rw [hp]; exact Option.some_ne_none p))
        · obtain ⟨row, hrow, hbody⟩ := (halone j hji (hj.trans hp.symm)).2 id hcreated
          cases found with
          | ok record =>
            obtain rfl := hfound record rfl
            exact hundone (by simp [CreateGhost.next, hrow, hbody])
          | error err => exact hundone rfl
    | inserted id request written =>
      have hunderway : (calls i).position service ≠ none → Underway s i := by
        intro hposition
        refine ⟨(hshared.asked i).mp (hpre.1.2 hposition), hrunning, ?_⟩
        rw [hproc]
        exact .insert
      refine h.of_inserted rfl hunderway (fun hui => ?_) fun j hji hj => hfewer j hj (.inr hji)
      have hinserts : StillInserts (k written) := by simpa [State.continue] using hui.inserts
      exact not_stillInserts hnext rfl hinserts
    | recorded record written => exact h.of_fewer rfl fun j hj => hfewer j hj (.inl rfl)
    | same _ _ ho => exact h.of_fewer rfl fun j hj => hfewer j hj (.inl ho)
  · have hret := hwp i
    rw [hproc] at hret
    exact (hret l rfl).elim
  · refine h.of_fewer ?_ fun j hj => ?_
    · cases e <;> cases hnature <;> rfl
    · obtain ⟨hasked, hrunning, hinserts⟩ := hj
      cases e with
      | crash call =>
        cases hnature
        exact ⟨hasked, fun hlost => hrunning (List.mem_cons_of_mem call hlost), hinserts⟩
      | _ =>
        cases hnature
        exact ⟨hasked, hrunning, hinserts⟩

theorem createOutline_atStart {now : Nat} {ledger : Ledger} {rows : List RuntimeRow} :
    (createOutline service calls).Holds (createsAtStart service calls now ledger rows) := by
  refine ⟨fun _ => {}, ⟨fun i => by simp [createsAtStart], fun i id h => nomatch h⟩, fun i => ?_⟩
  refine wp_mono creates_code (fun _ next hnext l hl => ?_) fun _ _ h => h
  rw [hnext] at hl
  cases hl

theorem oneAtATime_atStart {now : Nat} {ledger : Ledger} {rows : List RuntimeRow} :
    OneAtATime (createsAtStart service calls now ledger rows) where
  alone _ _ _ _ _ hui := nomatch hui.asked
  before _ _ _ hui := nomatch hui.asked
  one _ := Nat.zero_le 1

/--
**At most one row is created for a key**, in every run of any number of calls in which the calls of
one key look into the ledger one after another.
-/
theorem one_row_for_key (now : Nat) (ledger : Ledger) (rows : List RuntimeRow)
    {moves : List (createTraffic service calls).Move}
    (hmeets : Meets (createTraffic service calls).step AsksAlone
      (createsAtStart service calls now ledger rows) moves)
    (hrun : runFrom (createTraffic service calls).step (createsAtStart service calls now ledger rows)
      moves = some s) (p : Position) : (s.world.createdAt service calls p).length ≤ 1 := by
  have hboth := runFrom_guarded
    (I := fun s => (createOutline service calls).Holds s ∧ OneAtATime s) hrun hmeets
    ⟨createOutline_atStart, oneAtATime_atStart⟩ fun s m s' h hm hstep => by
      refine ⟨(createOutline service calls).holds_step h.1 ?_ hstep, h.2.step h.1 hm hstep⟩
      cases m with
      | act i answer => cases hi : s.proc i <;> simp [Guarded, hi, createOutline]
      | jump i => trivial
      | nature e => trivial
  exact hboth.2.one p

end

/-! ## Two calls with one key -/

namespace Trial

def policyAdmin : Actor where
  actorType := .systemKey
  scopes := ["moira:routing-policies:write"]

def weightedPolicy : RoutingPolicyCreateRequest where
  routeId := 7
  providerId := 1
  providerModelId := 2

/-- A call and its retry. -/
def sameCreate : Nat → CreateCall := fun _ =>
  { actor := policyAdmin
    idempotencyKey := some "create-1"
    request := .routingPolicy weightedPolicy }

def stored (id : Uuid) : RuntimeRecord where
  id := id
  request := .routingPolicy weightedPolicy
  createdAt := 0

def runtimeAdmin : RuntimeAdminService where
  hasher :=
    { pepperVersion := "v1"
      mac := fun bytes => bytes
      secretFingerprint := fun bytes => "unkeyed " ++ bytes
      version_plain := defaultVersion_plain }
  render :=
    { json := fun _ => "[\"system_key\",null,null,null,null,null,null,null,null,null]"
      uuid := fun id => toString id }
  normalizedRequestBytes := fun _ => "routing policy 7 1 2"
  toValue := fun record => .obj [("id", .num record.id)]
  fromValue := fun _ _ => .ok (stored 70)
  encodedBytes := fun _ => 4

/-- Every statement is answered; the ledger answers with `found`, and rows get the id `id`. -/
def createAnswers (found : Option IdempotencyRecord) (id : Uuid) : (o : CreateOp) → o.Ans
  | .getIdempotencyRecord _ => .ok found
  | .providerModelBelongsToProvider _ _ => .ok true
  | .newId => id
  | .insert _ _ => { result := .ok (stored id), committed := true }
  | .invalidateRuntime _ => ()
  | .now => 0
  | .putIdempotencyRecord _ => { result := .ok (), committed := true }
  | .respond _ => ()

def actsOf (i : Nat) (found : Option IdempotencyRecord) (n : Nat) :
    List (createTraffic runtimeAdmin sameCreate).Move :=
  List.replicate n (.act i (createAnswers found (70 + i)))

def noCreates : (createTraffic runtimeAdmin sameCreate).State :=
  createsAtStart runtimeAdmin sameCreate 0 (fun _ => none) []

/-- The first call from its first line to its answer, and then its retry. -/
def callThenRetry : List (createTraffic runtimeAdmin sameCreate).Move :=
  actsOf 0 none 13 ++
    actsOf 1 (some (idempotencyRecord runtimeAdmin (sameCreate 0) "create-1" (stored 70) 0)) 2

/-- The first call is lost after its insert, and then its retry. -/
def lostThenRetry : List (createTraffic runtimeAdmin sameCreate).Move :=
  actsOf 0 none 9 ++ .nature (.crash 0) :: actsOf 1 none 13

def sharedPosition : Position :=
  runtimeAdmin.hasher.writtenPosition runtimeAdmin.render policyAdmin "create-1" "routing_policy.create"

/-- Every other call that has looked is over, and the ledger answers for what others have created.
-/
def othersAreOver (s : (createTraffic runtimeAdmin sameCreate).State) :
    (createTraffic runtimeAdmin sameCreate).Move → Bool
  | .act i _ =>
    (s.world.asked.all fun j => j = i || match s.proc j with
      | .ret _ => true
      | _ => false) &&
    (s.world.created.all fun c => c.1 = i ||
      (s.world.ledger.get s.world.now sharedPosition).any fun row => row.responseBody.isSome) &&
    match s.proc i with
    | .op (.getIdempotencyRecord p) _ => p = sharedPosition || i ∈ s.world.asked
    | _ => true
  | _ => true

theorem asksAlone_of_othersAreOver (s : (createTraffic runtimeAdmin sameCreate).State)
    (m : (createTraffic runtimeAdmin sameCreate).Move) (h : othersAreOver s m = true) : AsksAlone s m := by
  cases m with
  | act i answer =>
    unfold AsksAlone
    dsimp only
    split
    · next p k hproc =>
      intro hasked j hj _
      simp only [othersAreOver, hproc, Bool.and_eq_true, List.all_eq_true, Bool.or_eq_true,
        decide_eq_true_eq] at h
      obtain ⟨⟨hover, hrecorded⟩, hp⟩ := h
      obtain rfl : p = sharedPosition := hp.resolve_right hasked
      refine ⟨fun hu => ?_, fun id hcreated => ?_⟩
      · have hret := (hover j hu.asked).resolve_left hj
        have hinserts := hu.inserts
        split at hret
        · next hproc => rw [hproc] at hinserts; cases hinserts
        · cases hret
      · obtain ⟨row, hrow, hbody⟩ :=
          (Option.any_eq_true _ _).mp ((hrecorded (j, id) hcreated).resolve_left hj)
        exact ⟨row, hrow, hbody⟩
    · trivial
  | jump i => trivial
  | nature e => trivial

end Trial

open Trial in
/-- The retry of a call that is over gets its row. -/
theorem one_row_for_key_retry : ∃ s,
    runFrom (createTraffic runtimeAdmin sameCreate).step noCreates callThenRetry = some s ∧
    (s.world.createdAt runtimeAdmin sameCreate sharedPosition).length ≤ 1 := by
  have hsome : (runFrom (createTraffic runtimeAdmin sameCreate).step noCreates callThenRetry).isSome = true := by
    decide +kernel
  obtain ⟨s, hrun⟩ := Option.isSome_iff_exists.mp hsome
  have hquiet : Meets (createTraffic runtimeAdmin sameCreate).step (fun s m => othersAreOver s m = true)
      noCreates callThenRetry := by decide +kernel
  exact ⟨s, hrun, one_row_for_key 0 (fun _ => none) [] (hquiet.mono asksAlone_of_othersAreOver) hrun _⟩

open Trial in
/-- The retry of a call that was lost between its insert and its record creates a second row. -/
theorem two_rows_for_one_key : ∃ s,
    runFrom (createTraffic runtimeAdmin sameCreate).step noCreates lostThenRetry = some s ∧
    s.world.createdAt runtimeAdmin sameCreate sharedPosition = [(1, 71), (0, 70)] := by
  have hsome : ((runFrom (createTraffic runtimeAdmin sameCreate).step noCreates lostThenRetry).any fun s =>
      s.world.createdAt runtimeAdmin sameCreate sharedPosition = [(1, 71), (0, 70)]) = true := by
    decide +kernel
  obtain ⟨s, hrun, htwo⟩ := (Option.any_eq_true _ _).mp hsome
  exact ⟨s, hrun, of_decide_eq_true htwo⟩

end Moira
