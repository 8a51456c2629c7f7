import Moira.ClaudeRunners.Service

/-!
# What a runner call does
-/

namespace Moira.ClaudeRunners

open Prog Service

-- no rule looks into the texts of a request
seal trim validateOpaqueId Actor.require

/-! ## The protocol -/

/-- What a finalize requires of its actor. -/
def finalizeScopes : List String :=
  ["moira:runners:write", "moira:credentials:write", "moira:runners:read"]

def Entitled (actor : Actor) : Prop :=
  ∀ scope ∈ finalizeScopes, actor.require scope = .ok ()

/-- What a finalize that is refused has left alone. -/
structure RefusedFinalize (actor : Actor) (seen : Seen) : Prop where
  rights : ¬Entitled actor → seen.tokenRead = false
  /-- The row is missing when the call first reads it. -/
  missing : seen.missing = true → seen.tokenRead = false
  state : ∀ record, seen.mirror = some record → record.state ≠ .ready → seen.tokenRead = false
  /-- The credential chain refuses the request when the token has been read. -/
  chain : ∀ err, seen.refusal = some err →
    seen.tokenRead = true ∧ seen.stored = none ∧ seen.linked = none

/-- The call has not come to the token. -/
structure Early (seen : Seen) : Prop where
  tokenRead : seen.tokenRead = false
  refusal : seen.refusal = none
  stored : seen.stored = none
  linked : seen.linked = none
  broken : seen.broken = false
  answered : seen.answered = none

/-- The call was entitled to the token of a runner that is ready, and has asked for it. -/
structure Reached (actor : Actor) (seen : Seen) : Prop where
  entitled : Entitled actor
  ready : ∃ record, seen.mirror = some record ∧ record.state = .ready
  missing : seen.missing = false
  tokenRead : seen.tokenRead = true

/-- Nothing has gone wrong after that. -/
structure Bought (actor : Actor) (seen : Seen) : Prop extends Reached actor seen where
  refusal : seen.refusal = none
  linked : seen.linked = none
  broken : seen.broken = false
  answered : seen.answered = none

def MayAnswer (request : Request) (seen : Seen) (result : Except AppError (Option ClaudeRunnerRecord)) :
    Prop :=
  match request.call, result with
  | .finalize _ _, .ok _ => seen.linked.isSome = true ∧ ∀ c, seen.stored = some c → seen.linked = some c
  | .finalize _ _, .error _ =>
    RefusedFinalize request.actor seen ∧ (seen.stored.isSome = true → seen.broken = true)
  | _, _ => Early { seen with answered := none }

/-- The last write of a finalize. -/
structure Links (request : Request) (seen : Seen) (id : Uuid) («from» : List ClaudeRunnerState)
    (update : RunnerStateUpdate) (c : Uuid) : Prop where
  call : ∃ finalizeRequest, request.call = .finalize id finalizeRequest
  «from» : «from» = [.ready]
  update : update = { state := some .linked, credentialId := some c }
  stored : seen.stored = none ∨ seen.stored = some c
  linked : seen.linked = none

def Does (request : Request) (seen : Seen) : MirrorOp → Prop
  | .transition id «from» update => «from» ⊆ nonTerminalStates ∧
      match update.credentialId with
      | none => update.state ≠ some .linked
      | some c => Links request seen id «from» update c
  | .closeCommand (.ok _) => seen.stored = none ∧ seen.linked = none ∧
      ∃ id finalizeRequest, request.call = .finalize id finalizeRequest
  | .answer result => MayAnswer request seen result
  | _ => True

/-- What is reported as committed was committed. -/
def Answers : (o : MirrorOp) → o.Ans → Prop
  | .transition .., ended => ended.result.isOk = true → ended.committed = true
  | .closeCommand (.ok _), ended => ended.result.isOk = true → ended.committed = true
  | _, _ => True

/-- What a call has shown when it writes a row, commits a credential, asks for the token or answers.
-/
def protocol (request : Request) : Contract mirrorSig Seen where
  may seen o := seen.answered = none ∧ Does request seen o
  answers _ := Answers
  next := Seen.record

/-! ## Calls -/

variable {deployment : Deployment} {request : Request} {actor : Actor} {seen : Seen} {α β : Type}

theorem Early.refused (h : Early seen) : RefusedFinalize actor seen where
  rights _ := h.tokenRead
  missing _ := h.tokenRead
  state _ _ _ := h.tokenRead
  chain err hrefusal := by
    rw [h.refusal] at hrefusal
    cases hrefusal

variable {E : Seen → AppError → Prop}

theorem wp_ask {o : MirrorOp} {f : o.Ans → Service α} {Q : Seen → α → Prop}
    (hanswered : seen.answered = none) (hdoes : Does request seen o)
    (hanswer : ∀ x, Answers o x → wp (protocol request) (f x) (seen.record o x) Q E) :
    wp (protocol request) (Service.ask o >>= f) seen Q E :=
  ⟨⟨hanswered, hdoes⟩, hanswer⟩

theorem wp_control_bind {result : Except RunnerControlError α} {f : α → Service β}
    {Q : Seen → β → Prop} (hok : ∀ a, wp (protocol request) (f a) seen Q E)
    (herr : ∀ err, E seen err) : wp (protocol request) (Service.control result >>= f) seen Q E := by
  cases result with
  | ok a => exact hok a
  | error err => exact herr _

theorem wp_requireControl_bind {f : Unit → Service β} {Q : Seen → β → Prop}
    (hok : wp (protocol request) (f ()) seen Q E) (herr : ∀ err, E seen err) :
    wp (protocol request) (requireControl deployment >>= f) seen Q E := by
  unfold requireControl
  rw [wp_bind]
  exact wp_ite (fun _ => hok) fun _ => herr _

theorem Early.mirrored (h : Early seen) (mirror : Option ClaudeRunnerRecord) :
    Early { seen with mirror } :=
  ⟨h.tokenRead, h.refusal, h.stored, h.linked, h.broken, h.answered⟩

/-- What a call knows of the runner when it reads it. -/
structure Told (seen : Seen) (record : ClaudeRunnerRecord) : Prop extends Early seen where
  mirror : seen.mirror = some record
  missing : seen.missing = false

variable (id : Uuid)

theorem wp_selectRunner (h : Early seen) (hmissing : seen.missing = false) :
    wp (protocol request) (selectRunner id) seen Told fun seen _ => Early seen := by
  refine wp_ask (o := .select id) h.answered trivial fun answer _ => ?_
  cases answer with
  | error err => exact h
  | ok found =>
    cases found with
    | none => exact ⟨h.tokenRead, h.refusal, h.stored, h.linked, h.broken, h.answered⟩
    | some record => exact { toEarly := h.mirrored _, mirror := rfl, missing := hmissing }

theorem wp_transition {id : Uuid} {«from» : List ClaudeRunnerState} {update : RunnerStateUpdate}
    (h : Early seen) (hmissing : seen.missing = false) (hfrom : «from» ⊆ nonTerminalStates)
    (hcredential : update.credentialId = none) (hstate : update.state ≠ some .linked) :
    wp (protocol request) (transition id «from» update) seen Told fun seen _ => Early seen := by
  have hdoes : Does request seen (.transition id «from» update) := by
    refine ⟨hfrom, ?_⟩
    rw [hcredential]
    exact hstate
  have hrecord : ∀ ended, seen.record (.transition id «from» update) ended =
      { seen with mirror := ended.result.toOption <|> seen.mirror } := by
    intro ended
    simp only [Seen.record, hcredential]
  refine wp_ask (o := .transition ..) h.answered hdoes fun ended _ => ?_
  rw [hrecord]
  refine wp_ofExcept (fun record hresult => ?_) fun err hresult => ?_
  · exact { toEarly := h.mirrored _, mirror := by rw [hresult]; rfl, missing := hmissing }
  · exact h.mirrored _

theorem wp_get (h : Early seen) (hmissing : seen.missing = false) :
    wp (protocol request) (get deployment actor id) seen
      (fun seen record => Told seen record ∧ actor.require "moira:runners:read" = .ok ())
      fun seen _ => Early seen := by
  unfold get
  refine wp_ofExcept_bind (fun _ hrights => ?_) fun _ _ => h
  rw [wp_bind]
  refine wp_mono (wp_selectRunner id h hmissing) (fun seen record htold => ?_) fun _ _ he => he
  refine wp_ite (fun _ => ⟨htold, hrights⟩) fun _ => ?_
  · refine wp_ask (o := .status _) htold.answered trivial fun answer _ => ?_
    have hrights' : ∀ seen record, Told seen record → Told seen record ∧
        actor.require "moira:runners:read" = .ok () := fun _ _ htold => ⟨htold, hrights⟩
    cases answer with
    | ok status =>
      show wp _ (applyRefresh deployment record status) _ _ _
      cases hstate : stateFromContract status.state with
      | none =>
        simp only [applyRefresh, hstate]
        exact ⟨htold, hrights⟩
      | some state =>
        simp only [applyRefresh, hstate]
        refine wp_ite (fun _ => ⟨htold, hrights⟩) fun _ => ?_
        refine wp_mono (wp_transition htold.toEarly htold.missing (List.Subset.refl _) rfl ?_) hrights'
          fun _ _ he => he
        -- the contract has no state `linked`
        intro hlinked
        exact stateFromContract_ne_linked hstate (Option.some.inj hlinked)
    | error error =>
      show wp _ (if error.status = some 404 then _ else _) _ _ _
      refine wp_ite (fun _ => ?_) fun _ => htold.toEarly
      refine wp_mono (wp_transition htold.toEarly htold.missing (List.Subset.refl _) rfl ?_) hrights'
        fun _ _ he => he
      intro hlinked
      cases hlinked

theorem wp_submitAuthorizationCode (code : String) (h : Early seen)
    (hmissing : seen.missing = false) :
    wp (protocol request) (submitAuthorizationCode deployment actor id code) seen (fun seen _ => Early seen)
      fun seen _ => Early seen := by
  unfold submitAuthorizationCode
  refine wp_ofExcept_bind (fun _ _ => ?_) fun _ _ => h
  refine wp_ite (fun _ => h) fun _ => ?_
  rw [wp_bind]
  refine wp_mono (wp_selectRunner id h hmissing) (fun seen record htold => ?_) fun _ _ he => he
  refine wp_requireControl_bind ?_ fun _ => htold.toEarly
  refine wp_ite (fun _ => htold.toEarly) fun _ => ?_
  refine wp_ask (o := .submitCode ..) htold.answered trivial fun answer _ => ?_
  refine wp_control_bind (fun _ => ?_) fun _ => htold.toEarly
  refine wp_mono (wp_transition htold.toEarly htold.missing (by decide) rfl ?_)
    (fun _ _ htold => htold.toEarly) fun _ _ he => he
  intro hlinked
  cases hlinked

theorem wp_delete (expectedVersion : Int) (h : Early seen) (hmissing : seen.missing = false) :
    wp (protocol request) (delete deployment actor id expectedVersion) seen (fun seen _ => Early seen)
      fun seen _ => Early seen := by
  have hsoft : ∀ seen, Early seen → wp (protocol request)
      (Service.ask (.softDelete id expectedVersion) >>= fun ended => Service.orFail ended.result) seen
        (fun seen _ => Early seen) fun seen _ => Early seen := by
    intro seen h
    refine wp_ask (o := .softDelete ..) h.answered trivial fun ended _ => ?_
    exact wp_ofExcept (fun _ _ => h) fun _ _ => h
  unfold delete
  refine wp_ofExcept_bind (fun _ _ => ?_) fun _ _ => h
  rw [wp_bind]
  refine wp_mono (wp_selectRunner id h hmissing) (fun seen record htold => ?_) fun _ _ he => he
  refine wp_ite (fun _ => htold.toEarly) fun _ => wp_ite (fun _ => ?_) fun _ => hsoft _ htold.toEarly
  show wp _ (Service.ask (.deleteContainer _) >>= _) _ _ _
  refine wp_ask (o := .deleteContainer _) htold.answered trivial fun answer _ => ?_
  show wp _ (Service.control answer >>= _) _ _ _
  exact wp_control_bind (fun _ => hsoft _ htold.toEarly) fun _ => htold.toEarly

/-! ### Finalize -/

/-- A call whose chain has refused, or whose commit or link has come back as an error. -/
structure Lost (actor : Actor) (seen : Seen) : Prop where
  refused : RefusedFinalize actor seen
  broken : seen.stored.isSome = true → seen.broken = true
  answered : seen.answered = none

theorem Early.lost (h : Early seen) : Lost actor seen where
  refused := h.refused
  broken hstored := by
    rw [h.stored] at hstored
    cases hstored
  answered := h.answered

theorem Reached.refused (h : Reached actor seen)
    (hchain : ∀ err, seen.refusal = some err → seen.stored = none ∧ seen.linked = none) :
    RefusedFinalize actor seen where
  rights hnot := absurd h.entitled hnot
  missing hmissing := by
    rw [h.missing] at hmissing
    cases hmissing
  state record hmirror hstate := by
    obtain ⟨record', hmirror', hready⟩ := h.ready
    cases hmirror.symm.trans hmirror'
    exact absurd hready hstate
  chain err hrefusal := ⟨h.tokenRead, hchain err hrefusal⟩

theorem Bought.lost (h : Bought actor seen) (hstored : seen.stored = none) : Lost actor seen where
  refused := h.refused fun err hrefusal => by
    rw [h.refusal] at hrefusal
    cases hrefusal
  broken hsome := by
    rw [hstored] at hsome
    cases hsome
  answered := h.answered

theorem lost_of_broken (h : Reached actor seen) (hrefusal : seen.refusal = none)
    (hbroken : seen.broken = true) (hanswered : seen.answered = none) : Lost actor seen where
  refused := h.refused fun err hsome => by
    rw [hrefusal] at hsome
    cases hsome
  broken _ := hbroken
  answered := hanswered

theorem Bought.turned_down (h : Bought actor seen) (hstored : seen.stored = none) (err : AppError) :
    Lost actor { seen with refusal := some err } where
  refused := Reached.refused ⟨h.entitled, h.ready, h.missing, h.tokenRead⟩ fun _ _ => ⟨hstored, h.linked⟩
  broken hsome := by
    rw [show seen.stored.isSome = false by rw [hstored]; rfl] at hsome
    cases hsome
  answered := h.answered

theorem wp_insertedCredential (credentialRequest : CredentialCreateRequest)
    (hanswered : seen.answered = none) :
    wp (protocol request) (insertedCredential actor credentialRequest) seen
      (fun seen' _ => seen' = seen) fun seen' _ => seen' = seen := by
  unfold insertedCredential
  refine wp_ask (o := .providerIsActive _) hanswered trivial fun active _ => ?_
  refine wp_ofExcept_bind (fun active _ => ?_) fun _ _ => rfl
  refine wp_ite (fun _ => ?_) fun _ => rfl
  refine wp_ofExcept_bind (fun _ _ => ?_) fun _ _ => rfl
  refine wp_ofExcept_bind (fun _ _ => ?_) fun _ _ => rfl
  refine wp_ofExcept_bind (fun _ _ => ?_) fun _ _ => rfl
  refine wp_ask (o := .newId) hanswered trivial fun id _ => ?_
  refine wp_ask (o := .encrypt ..) hanswered trivial fun encrypted _ => ?_
  refine wp_ofExcept_bind (fun _ _ => ?_) fun _ _ => rfl
  refine wp_ask (o := .insertCredential _) hanswered trivial fun inserted _ => ?_
  exact wp_ofExcept_bind (fun _ _ => rfl) fun _ _ => rfl

theorem wp_createCredential {id : Uuid} {finalizeRequest : ClaudeRunnerFinalizeRequest}
    (hcall : request.call = .finalize id finalizeRequest) (idempotencyKey : Option String)
    (credentialRequest : CredentialCreateRequest) (h : Bought actor seen) (hstored : seen.stored = none) :
    wp (protocol request) (createCredential actor idempotencyKey credentialRequest) seen
      (fun seen credential => Bought actor seen ∧ (seen.stored = none ∨ seen.stored = some credential.id))
      fun seen _ => Lost actor seen := by
  unfold createCredential
  refine wp_ofExcept_bind (fun _ _ => ?_) fun _ _ => h.lost hstored
  refine wp_ask (o := .claimCommand ..) h.answered trivial fun claim _ => ?_
  cases claim with
  | error err => exact h.turned_down hstored err
  | ok found =>
    cases found with
    | some replayed => exact ⟨h, .inl hstored⟩
    | none =>
      show wp _ ((insertedCredential actor credentialRequest).attempt >>= _) _ _ _
      rw [wp_bind, wp_attempt]
      refine wp_mono (wp_insertedCredential credentialRequest h.answered) (fun seen' credential hsame => ?_)
        fun seen' err hsame => ?_
      · subst hsame
        refine wp_ask (o := .closeCommand _) h.answered ⟨hstored, h.linked, id, finalizeRequest, hcall⟩
          fun ended hended => ?_
        obtain ⟨result, committed⟩ := ended
        cases result with
        | error err =>
          -- the commit is reported as an error: it may have been made
          exact lost_of_broken ⟨h.entitled, h.ready, h.missing, h.tokenRead⟩ h.refusal (Bool.or_true _)
            h.answered
        | ok _ =>
          refine ⟨⟨⟨h.entitled, h.ready, h.missing, h.tokenRead⟩, h.refusal, h.linked, ?_, h.answered⟩, ?_⟩
          · show (seen'.broken || false) = false
            rw [h.broken, Bool.or_false]
          · obtain rfl : committed = true := hended rfl
            exact .inr rfl
      · subst hsame
        refine wp_ask (o := .closeCommand _) h.answered trivial fun ended _ => ?_
        exact wp_ofExcept_bind (fun _ _ => h.turned_down hstored err) fun _ _ => h.turned_down hstored err

theorem wp_finalize (finalizeRequest : ClaudeRunnerFinalizeRequest)
    (hcall : request.call = .finalize id finalizeRequest) :
    wp (protocol request) (finalize deployment request.actor request.idempotencyKey id finalizeRequest) {}
      (fun seen _ => seen.answered = none ∧ seen.linked.isSome = true ∧
        ∀ c, seen.stored = some c → seen.linked = some c)
      fun seen _ => Lost request.actor seen := by
  have hearly : Early {} := ⟨rfl, rfl, rfl, rfl, rfl, rfl⟩
  unfold finalize
  refine wp_ofExcept_bind (fun _ hwrite => ?_) fun _ _ => hearly.lost
  refine wp_ofExcept_bind (fun _ hcredentials => ?_) fun _ _ => hearly.lost
  rw [wp_bind]
  refine wp_mono (wp_get id hearly rfl) (fun seen record hgot => ?_) fun _ _ he => he.lost
  obtain ⟨htold, hread⟩ := hgot
  have hentitled : Entitled request.actor := by
    intro scope hscope
    rcases List.mem_cons.mp hscope with rfl | hscope
    · exact hwrite
    · rcases List.mem_cons.mp hscope with rfl | hscope
      · exact hcredentials
      · rw [List.mem_singleton.mp hscope]
        exact hread
  by_cases hstate : record.state ≠ .ready
  · rw [if_pos hstate]
    exact htold.toEarly.lost
  · rw [if_neg hstate]
    refine wp_requireControl_bind ?_ fun _ => htold.toEarly.lost
    refine wp_ask (o := .fetchToken _) htold.answered trivial fun fetched _ => ?_
    have hbought : Bought request.actor (seen.record (.fetchToken record.runnerReference) fetched) :=
      { entitled := hentitled, ready := ⟨record, htold.mirror, not_not.mp hstate⟩, missing := htold.missing
        tokenRead := rfl, refusal := htold.refusal, linked := htold.linked, broken := htold.broken
        answered := htold.answered }
    refine wp_control_bind (fun token => ?_) fun _ => hbought.lost htold.stored
    rw [wp_bind]
    refine wp_mono (wp_createCredential hcall _ _ hbought htold.stored) (fun seen credential hpaid => ?_)
      fun _ _ hlost => hlost
    obtain ⟨hbought, hstored⟩ := hpaid
    -- the row is linked to the credential, or the link has come back as an error
    refine wp_ask (o := .transition ..) hbought.answered ⟨by decide, ?_⟩ fun ended hended => ?_
    · exact ⟨⟨finalizeRequest, hcall⟩, rfl, rfl, hstored, hbought.linked⟩
    · obtain ⟨result, committed⟩ := ended
      cases result with
      | error err =>
        exact lost_of_broken ⟨hbought.entitled, hbought.ready, hbought.missing, hbought.tokenRead⟩
          hbought.refusal (Bool.or_true _) hbought.answered
      | ok linked =>
        obtain rfl : committed = true := hended rfl
        refine ⟨hbought.answered, rfl, fun c hc => ?_⟩
        rcases hstored with hnone | hsome
        · cases hnone.symm.trans hc
        · exact hsome.symm.trans hc

/-- What a call has shown when it is over. -/
def Ends (request : Request) (seen : Seen) (result : Except AppError (Option ClaudeRunnerRecord)) : Prop :=
  seen.answered = none ∧ MayAnswer request seen result

theorem wp_run (deployment : Deployment) (request : Request) :
    wp (protocol request) (run deployment request) {} (fun seen response => Ends request seen (.ok response))
      fun seen err => Ends request seen (.error err) := by
  have hearly : Early {} := ⟨rfl, rfl, rfl, rfl, rfl, rfl⟩
  -- a call that is no finalize ends as it began
  have hplain : ∀ {seen : Seen} {result : Except AppError (Option ClaudeRunnerRecord)},
      (∀ id finalizeRequest, request.call ≠ .finalize id finalizeRequest) → Early seen →
        Ends request seen result := by
    intro seen result hcall h
    refine ⟨h.answered, ?_⟩
    unfold MayAnswer
    split
    · next heq => exact absurd heq (hcall _ _)
    · next heq => exact absurd heq (hcall _ _)
    · exact ⟨h.tokenRead, h.refusal, h.stored, h.linked, h.broken, rfl⟩
  cases hcall : request.call with
  | get id =>
    simp only [run, hcall]
    have hother : ∀ id finalizeRequest, request.call ≠ .finalize id finalizeRequest := by
      intro _ _ h
      cases hcall.symm.trans h
    exact wp_bind_mono (wp_mono (wp_get id hearly rfl) (fun _ _ h => h) fun _ _ h => hplain hother h)
      fun _ _ h => hplain hother h.1.toEarly
  | submitAuthorizationCode id code =>
    simp only [run, hcall]
    have hother : ∀ id finalizeRequest, request.call ≠ .finalize id finalizeRequest := by
      intro _ _ h
      cases hcall.symm.trans h
    exact wp_bind_mono (wp_mono (wp_submitAuthorizationCode id code hearly rfl) (fun _ _ h => h)
      fun _ _ h => hplain hother h) fun _ _ h => hplain hother h
  | finalize id finalizeRequest =>
    simp only [run, hcall]
    refine wp_bind_mono (wp_mono (wp_finalize id finalizeRequest hcall) (fun _ _ h => h)
      fun seen err h => ?_) fun seen record h => ?_
    · refine ⟨h.answered, ?_⟩
      simpa only [MayAnswer, hcall] using And.intro h.refused h.broken
    · refine ⟨h.1, ?_⟩
      simpa only [MayAnswer, hcall] using h.2
  | delete id expectedVersion =>
    simp only [run, hcall]
    have hother : ∀ id finalizeRequest, request.call ≠ .finalize id finalizeRequest := by
      intro _ _ h
      cases hcall.symm.trans h
    exact wp_bind_mono (wp_mono (wp_delete id expectedVersion hearly rfl) (fun _ _ h => h)
      fun _ _ h => hplain hother h) fun _ _ h => hplain hother h

/-- **Every call keeps the protocol.** -/
theorem wp_code (deployment : Deployment) (request : Request) :
    wp (protocol request) (code deployment request ()) {} (fun _ next => next = none) fun _ _ => False := by
  unfold code
  rw [wp_bind, wp_attempt]
  refine wp_mono (wp_run deployment request) (fun seen response hends => ?_) fun seen err hends => ?_
  · exact ⟨hends, fun _ _ => rfl⟩
  · exact ⟨hends, fun _ _ => rfl⟩

end Moira.ClaudeRunners
