import Moira.Execution.Properties.Attempts
import Moira.Runtime.Candidates

/-!
# Candidates

Candidates are policies, so a model that two policies name can be tried again as a fallback of
itself.

The query orders and limits before the hints and the capabilities are looked at, so a policy that
names the hinted model is not found when the limit is used up before it.

- **`no_model_twice_iff`**
- **`hinted_model_found_iff`**
-/

namespace Moira

namespace Routing

open Prog Exec

variable {row : JoinedPolicy} {policy : EffectiveExecutionPolicy}

variable {tables : RoutingTables} {formats : ResponseFormats} {query : CandidateQuery}
  {command : ExecutionCommand} {limit : Nat}

/-! ## The join -/

/-- The provider and the model of a row. -/
def JoinedPolicy.pair (row : JoinedPolicy) : Uuid × Uuid :=
  (row.provider.id, row.model.id)

def ModelCandidate.pair (candidate : ModelCandidate) : Uuid × Uuid :=
  (candidate.providerId, candidate.providerModelId)

theorem join_eq_some {row : RoutingPolicyRow} {joined : JoinedPolicy} (h : row.join tables = some joined) :
    joined.policy = row ∧
    Rows.find ProviderRow.id tables.providers joined.provider.id = some joined.provider ∧
    Rows.find ProviderModelRow.id tables.models joined.model.id = some joined.model := by
  obtain ⟨provider, hprovider, h⟩ := Option.bind_eq_some_iff.mp h
  obtain ⟨model, hmodel, h⟩ := Option.bind_eq_some_iff.mp h
  obtain ⟨-, h⟩ := Option.ite_none_right_eq_some.mp h
  obtain rfl := Option.some.inj h
  refine ⟨rfl, ?_, ?_⟩
  · rw [(Rows.find_some hprovider).2]
    exact hprovider
  · rw [(Rows.find_some hmodel).2]
    exact hmodel

theorem mem_applicable (h : row ∈ tables.applicable query) :
    ∃ policy ∈ tables.policies, policy.join tables = some row :=
  List.mem_filterMap.mp (List.mem_filter.mp h).1

/-- No policy applies twice. -/
theorem applicable_nodup : (tables.applicable query).Nodup := by
  have hpolicies : tables.policies.Nodup := tables.policies_key.of_map
  refine (List.Nodup.filterMap ?_ hpolicies).filter _
  intro a b row ha hb
  rw [← (join_eq_some ha).1, ← (join_eq_some hb).1]

/-- Rows of one rank are of one model. -/
theorem pair_of_rankKey {a b : JoinedPolicy} (h : a.rankKey = b.rankKey) : a.pair = b.pair := by
  have hkey := congrArg (fun key : RankKey => (ofLex (ofLex (ofLex (ofLex key).2).2).2)) h
  exact congrArg ofLex hkey

/-- Rows with one model pass alike. -/
theorem passes_of_pair {a b : JoinedPolicy} (ha : a ∈ tables.applicable query)
    (hb : b ∈ tables.applicable query) (h : a.pair = b.pair) :
    a.passes formats command policy = b.passes formats command policy := by
  obtain ⟨_, -, hja⟩ := mem_applicable ha
  obtain ⟨_, -, hjb⟩ := mem_applicable hb
  obtain ⟨-, hpa, hma⟩ := join_eq_some hja
  obtain ⟨-, hpb, hmb⟩ := join_eq_some hjb
  obtain ⟨hprovider, hmodel⟩ := Prod.ext_iff.mp h
  have hp : a.provider = b.provider := by
    rw [show a.provider.id = b.provider.id from hprovider, hpb] at hpa
    exact (Option.some.inj hpa).symm
  have hm : a.model = b.model := by
    rw [show a.model.id = b.model.id from hmodel, hmb] at hma
    exact (Option.some.inj hma).symm
  unfold JoinedPolicy.passes
  rw [hp, hm]

/-! ## The selection -/

/--
Two policies that apply name one model that passes, and the later one is within the first `limit`
that apply and the first `cap` that pass.
-/
def NamedTwice (tables : RoutingTables) (formats : ResponseFormats) (limit : Nat)
    (command : ExecutionCommand) (policy : EffectiveExecutionPolicy) (query : CandidateQuery) : Prop :=
  ∃ first ∈ tables.applicable query, ∃ second ∈ tables.applicable query,
    first ≠ second ∧ first.pair = second.pair ∧ second.passes formats command policy = true ∧
    Rows.Reached JoinedPolicy.rankKey (JoinedPolicy.passes formats command policy) limit
      (maxCandidates policy) (tables.applicable query) first second

/-- The candidates an execution is left with. -/
def ranked (tables : RoutingTables) (formats : ResponseFormats) (limit : Nat)
    (command : ExecutionCommand) (policy : EffectiveExecutionPolicy) (query : CandidateQuery) :
    List ModelCandidate :=
  ((selectedRows tables formats limit command policy query).map JoinedPolicy.candidate).take
    (maxCandidates policy)

theorem not_nodup_ranked_iff :
    ¬ ((ranked tables formats limit command policy query).map ModelCandidate.pair).Nodup ↔
      NamedTwice tables formats limit command policy query := by
  have hranked : (ranked tables formats limit command policy query).map ModelCandidate.pair =
      (Rows.selected JoinedPolicy.rankKey (JoinedPolicy.passes formats command policy) limit
        (maxCandidates policy) (tables.applicable query)).map JoinedPolicy.pair := by
    rw [ranked, ← List.map_take, List.map_map]
    rfl
  rw [hranked, Rows.not_nodup_selected_iff applicable_nodup (fun a _ b _ => pair_of_rankKey)
    (fun a ha b hb => passes_of_pair ha hb)]
  rfl

/-! ## Runs -/

/-- A model is tried as two candidates. -/
def triesTwice (j : Journal) : Prop :=
  ∃ v ∈ j.visits, ∃ w ∈ j.visits, v.rank ≠ w.rank ∧
    ∃ c d, j.candidates[v.rank]? = some c ∧ j.candidates[w.rank]? = some d ∧
      ModelCandidate.pair c = ModelCandidate.pair d

/-- What a command is matched with on a route. -/
def queryOf (command : ExecutionCommand) (externalTenantId : Option String) (route : RouteDecision) :
    CandidateQuery where
  routeId := route.routeId
  applicationId := command.applicationId.or command.identity.applicationId
  externalTenantId := externalTenantId

/-- The candidates come from the tables, or their lookup fails. -/
def Selects (tables : RoutingTables) (formats : ResponseFormats) (limit : Nat)
    (command : ExecutionCommand) (externalTenantId : Option String) : Exchange execSig → Prop
  | ⟨.selectCandidates policy route, x⟩ =>
    x = selectCandidates tables formats limit command policy (queryOf command externalTenantId route) ∨
    x = .error (.new .noEligibleModel "model candidate lookup failed")
  | _ => True

variable {settings : RuntimeSettings} {externalTenantId : Option String} {α : Type}

/-- The journal has the candidates of one selection. -/
def CandidatesOf (tables : RoutingTables) (formats : ResponseFormats) (limit : Nat)
    (command : ExecutionCommand) (externalTenantId : Option String)
    (policy : EffectiveExecutionPolicy) (j : Journal) : Prop :=
  j.candidates = [] ∨ ∃ route, j.candidates =
    ranked tables formats limit command policy (queryOf command externalTenantId route)

variable {o : ExecOp}

variable {j : Journal}

theorem candidates_record {x : o.Ans}
    (h : CandidatesOf tables formats limit command externalTenantId policy j)
    (hmay : MayAsk settings policy j o)
    (hselects : Selects tables formats limit command externalTenantId ⟨o, x⟩) :
    CandidatesOf tables formats limit command externalTenantId policy (j.record o x) := by
  cases o with
  | selectCandidates policy' route =>
    obtain ⟨-, rfl⟩ := hmay
    cases x with
    | error failure => exact h
    | ok candidates =>
      rcases hselects with hselected | hfailed
      · refine .inr ⟨route, ?_⟩
        unfold selectCandidates at hselected
        split at hselected
        · cases hselected
        · cases hselected
          rfl
      · cases hfailed
  | beforeCall rank c => cases x <;> exact h
  | insertAttemptStarted row => cases x <;> exact h
  | updateAttempt id update => cases x <;> exact h
  | persistenceTick => cases x <;> exact h
  | _ => exact h

/-- An execution visits candidates of one selection. -/
theorem candidates_run {tr : List (Exchange execSig)} {q : Exec ExecutionOutcome}
    (hpolicy : evaluate settings command = .ok policy)
    (hrun : After (executeWithEvents settings command) tr q)
    (hdb : (attemptContract settings policy).Honest {} tr)
    (hselects : ∀ e ∈ tr, Selects tables formats limit command externalTenantId e) :
    CandidatesOf tables formats limit command externalTenantId policy (journalOf tr) := by
  have hpolicy' : ∀ p, evaluate settings command = .ok p → p = policy := by
    intro p hp
    rw [hp] at hpolicy
    exact Except.ok.inj hpolicy
  rw [journalOf_eq_track]
  exact wp_invariant_of hrun hdb hselects (establishes_executeWithEvents hpolicy' ⟨rfl⟩) (.inl rfl)
    fun j o x h hmay _ hx => candidates_record h hmay hx

theorem not_nodup_of_triesTwice (h : triesTwice j) :
    ¬ (j.candidates.map ModelCandidate.pair).Nodup := by
  obtain ⟨v, -, w, -, hne, c, d, hc, hd, hpair⟩ := h
  intro hnodup
  have hv : v.rank < (j.candidates.map ModelCandidate.pair).length := by
    simpa using (List.getElem?_eq_some_iff.mp hc).1
  refine hne ((List.getElem?_inj hv hnodup).mp ?_)
  rw [List.getElem?_map, List.getElem?_map, hc, hd]
  exact congrArg some hpair

/-! ## A run that tries every candidate -/

variable {P : Exchange execSig → Prop}

section

variable {β : Type} {j' j'' : Journal}

/-- From the journal `j`, the program can become `q` with the journal `j'`. -/
def Reaches (settings : RuntimeSettings) (policy : EffectiveExecutionPolicy)
    (P : Exchange execSig → Prop) (p : Exec α) (j : Journal) (q : Exec α) (j' : Journal) : Prop :=
  ∃ tr, After p tr q ∧ (attemptContract settings policy).Honest j tr ∧ (∀ e ∈ tr, P e) ∧
    (attemptContract settings policy).track j tr = j'

theorem reaches_refl (p : Exec α) : Reaches settings policy P p j p j :=
  ⟨[], .refl p, trivial, by simp, rfl⟩

theorem reaches_op {k : o.Ans → Exec α} {q : Exec α} (x : o.Ans) (hdb : dbAnswers j o x = true)
    (hP : P ⟨o, x⟩) (h : Reaches settings policy P (k x) (j.record o x) q j') :
    Reaches settings policy P (.op o k) j q j' := by
  obtain ⟨tr, hrun, hhonest, hPs, htrack⟩ := h
  exact ⟨⟨o, x⟩ :: tr, @After.step execSig AppError α o k tr q x hrun, ⟨hdb, hhonest⟩,
      List.forall_mem_cons.mpr ⟨hP, hPs⟩, htrack⟩

theorem reaches_bind {p : Exec α} {f : α → Exec β} {a : α} {q : Exec β}
    (hp : Reaches settings policy P p j (.ret a) j')
    (hf : Reaches settings policy P (f a) j' q j'') :
    Reaches settings policy P (p >>= f) j q j'' := by
  obtain ⟨tr, hrun, hhonest, hPs, htrack⟩ := hp
  generalize hq : (Prog.ret a : Exec α) = last at hrun
  induction hrun generalizing j with
  | refl p =>
    subst hq htrack
    exact hf
  | @step o k tr q x _ ih =>
    obtain ⟨hanswers, hrest⟩ := hhonest
    obtain ⟨hhead, htail⟩ := List.forall_mem_cons.mp hPs
    exact reaches_op x hanswers hhead (ih hrest htail htrack hq)

theorem reaches_ask {f : o.Ans → Exec β} {q : Exec β} (x : o.Ans) (hdb : dbAnswers j o x = true)
    (hP : P ⟨o, x⟩) (h : Reaches settings policy P (f x) (j.record o x) q j') :
    Reaches settings policy P (Exec.ask o >>= f) j q j' :=
  reaches_bind (reaches_op x hdb hP (reaches_refl _)) h

end

section

variable {ctx : ExecContext}

/-- No credential is found for a candidate. -/
def credentialMissing : ExecutionFailure :=
  .new .credentialNotFound "no credential is available"

/-- The candidate is not refused before its credential is looked up. -/
def LooksUp (ctx : ExecContext) : Prop :=
  0 < ctx.deadline ∧ (ctx.command.credentialHint.isSome &&
    !hasRuntimeScope ctx.command "moira:execution:override-credential") = false

theorem reaches_prepareCandidate (hctx : LooksUp ctx) (rank : Nat) (c : ModelCandidate)
    (hP : ∀ o x, (∀ policy route, o ≠ .selectCandidates policy route) → P ⟨o, x⟩) :
    Reaches settings policy P (prepareCandidate ctx rank c) j
      (.ret (.error (credentialMissing, true)))
      (j.onVisit rank fun v => { v with setback := some credentialMissing }) := by
  have htime : remainingExecutionTime ctx.deadline 0 = some ctx.deadline := if_pos hctx.1
  unfold prepareCandidate boundedPhase resolveCredential
  refine reaches_bind (a := .error credentialMissing) ?_ (reaches_refl _)
  refine reaches_op (0 : Nat) rfl (hP _ _ (by simp)) ?_
  dsimp only [Prog.bind]
  rw [htime, hctx.2]
  exact reaches_op (o := .resolveCredential rank c) (.done (.error credentialMissing)) rfl
    (hP _ _ (by simp)) (reaches_refl _)

theorem reaches_candidateLoop (hctx : LooksUp ctx) (hallow : ctx.policy.allowFallback = true)
    (hP : ∀ o x, (∀ policy route, o ≠ .selectCandidates policy route) → P ⟨o, x⟩)
    (candidates : List ModelCandidate) (rank : Nat) (last : Option ExecutionFailure) (pr : Progress)
    (hranks : j.visits.map Visit.rank = (List.range rank).reverse) :
    ∃ outcome j', Reaches settings policy P (candidateLoop ctx rank candidates last pr) j
        (.ret outcome) j' ∧ j'.candidates = j.candidates ∧
      j'.visits.map Visit.rank = (List.range (rank + candidates.length)).reverse := by
  induction candidates generalizing rank last j with
  | nil =>
    exact ⟨_, j, reaches_op (.ok ()) rfl (hP _ _ (by simp))
      (reaches_op () rfl (hP _ _ (by simp)) (reaches_refl _)), rfl, hranks⟩
  | cons c rest ih =>
    let j₁ := j.onVisit rank fun v => { v with setback := some credentialMissing }
    have hfresh : ∀ v ∈ j.visits, v.rank ≠ rank := by
      intro v hv he
      have hmem : rank ∈ j.visits.map Visit.rank := he ▸ List.mem_map_of_mem hv
      simp [hranks] at hmem
    have hvisits : j₁.visits.map Visit.rank = (List.range (rank + 1)).reverse := by
      show (onVisit rank _ j.visits).map Visit.rank = _
      rw [onVisit_fresh hfresh, List.map_cons, hranks, List.range_succ, List.reverse_append]
      rfl
    obtain ⟨outcome, j', hrest, hcandidates, hranks'⟩ := ih (j := j₁) (rank + 1)
      (some credentialMissing) hvisits
    refine ⟨outcome, j', ?_, hcandidates, ?_⟩
    · unfold candidateLoop
      refine reaches_ask () rfl (hP _ _ (by simp)) ?_
      refine reaches_bind (reaches_prepareCandidate hctx rank c hP) ?_
      have hgoes : mayFallBack ctx credentialMissing = true := by
        rw [mayFallBack, hallow]
        rfl
      show Reaches settings policy P (if mayFallBack ctx credentialMissing = true then _ else _) _ _ _
      rw [if_pos hgoes, when, if_pos rfl]
      exact reaches_ask () rfl (hP _ _ (by simp)) hrest
    · rw [hranks', List.length_cons, Nat.add_assoc, Nat.add_comm 1]

end

/-- The command is not refused before its candidates are looked at. -/
structure ComesToCandidates (settings : RuntimeSettings) (command : ExecutionCommand) : Prop where
  messages : command.messages.isEmpty = false
  bound : ∀ a b, command.identity.applicationId = some a →
    command.applicationId.or command.identity.applicationId = some b → a = b
  time : 0 < min (command.options.timeoutMs.getD settings.defaultExecutionTimeoutMs)
    settings.maximumExecutionTimeoutMs
  credential : (command.credentialHint.isSome &&
    !hasRuntimeScope command "moira:execution:override-credential") = false

section

theorem reaches_validateCommand (hcommand : ComesToCandidates settings command)
    (hP : ∀ o x, (∀ policy route, o ≠ .selectCandidates policy route) → P ⟨o, x⟩) :
    Reaches settings policy P (validateCommand command) j (.ret ({ command with
      applicationId := command.applicationId.or command.identity.applicationId }, none)) j := by
  have hactive : ∀ c id, Reaches settings policy P (validateCommand.ensureActive c id) j
      (.ret (c, none)) j := fun c id =>
    reaches_op (o := .ensureApplicationActive id) (.ok ()) rfl (hP _ _ (by simp)) (reaches_refl _)
  unfold validateCommand
  rw [hcommand.messages]
  simp only [Bool.false_eq_true, if_false]
  cases hidentity : command.identity.applicationId with
  | none =>
    cases hrequested : command.applicationId.or none with
    | none => exact reaches_refl _
    | some requested => exact hactive _ _
  | some a =>
    cases hrequested : command.applicationId.or (some a) with
    | none => simp at hrequested
    | some requested =>
      have hsame := hcommand.bound a requested hidentity (by rw [hidentity, hrequested])
      simp only [hsame, ne_eq, not_true_eq_false, if_false]
      exact hactive _ _

/-- Where no credential is found, an execution visits every candidate of its selection. -/
theorem reaches_executeWithEvents (P : Exchange execSig → Prop)
    (hcommand : ComesToCandidates settings command)
    (hpolicy : evaluate settings command = .ok policy) (hallow : policy.allowFallback = true)
    (route : RouteDecision) (candidates : List ModelCandidate)
    (hP : ∀ o x, (∀ policy route, o ≠ .selectCandidates policy route) → P ⟨o, x⟩)
    (hselected : P ⟨.selectCandidates policy route, .ok candidates⟩) :
    ∃ outcome j', Reaches settings policy P (executeWithEvents settings command) {} (.ret outcome) j' ∧
      j'.candidates = candidates.take (maxCandidates policy) ∧
      j'.visits.map Visit.rank = (List.range j'.candidates.length).reverse := by
  let command' : ExecutionCommand :=
    { command with applicationId := command.applicationId.or command.identity.applicationId }
  have hpolicy' : evaluate settings command' = .ok policy := hpolicy
  let ctx : ExecContext :=
    { settings, command := command', policy, route, hasTools := false
      deadline := 0 + min (command.options.timeoutMs.getD settings.defaultExecutionTimeoutMs)
        settings.maximumExecutionTimeoutMs }
  have hctx : LooksUp ctx := ⟨by simpa [ctx] using hcommand.time, hcommand.credential⟩
  let ranked := candidates.take (maxCandidates policy)
  obtain ⟨outcome, j', hloop, hcandidates, hranks⟩ : ∃ outcome j', Reaches settings policy P
      (candidateLoop ctx 0 ranked none {}) { candidates := ranked } (.ret outcome) j' ∧
      j'.candidates = ranked ∧
      j'.visits.map Visit.rank = (List.range (0 + ranked.length)).reverse :=
    reaches_candidateLoop hctx hallow hP ranked 0 none {} rfl
  refine ⟨outcome, j', ?_, hcandidates, by rw [hranks, hcandidates, Nat.zero_add]⟩
  have hselect : ∀ profile, Reaches settings policy P
      (selectAndRun settings command' ctx.deadline policy route profile) {} (.ret outcome) j' := by
    intro profile
    unfold selectAndRun
    refine reaches_ask (.ok false) rfl (hP _ _ (by simp)) ?_
    refine reaches_ask (o := .selectCandidates policy route) (.ok candidates) rfl hselected ?_
    exact reaches_ask () rfl (hP _ _ (by simp)) hloop
  have hprofile : Reaches settings policy P
      (resolveProfile settings command' ctx.deadline policy route) {} (.ret outcome) j' := by
    unfold resolveProfile
    cases command'.agentProfileHint.or route.agentProfileId with
    | none => exact hselect none
    | some id =>
      exact reaches_ask (o := .findAgentProfileReference id) (.ok (.active "")) rfl (hP _ _ (by simp))
        (hselect (some id))
  have haudit : ∀ action, Reaches settings policy P (audit action .success none none) {} (.ret ()) {} :=
    fun action => reaches_ask (o := .audit action .success none none) (.ok ()) rfl (hP _ _ (by simp))
      (reaches_refl _)
  unfold executeWithEvents executeInner
  refine reaches_ask () rfl (hP _ _ (by simp)) ?_
  refine reaches_ask (o := .now) (0 : Nat) rfl (hP _ _ (by simp)) ?_
  refine reaches_bind (reaches_validateCommand hcommand hP) ?_
  refine reaches_bind (haudit _) ?_
  rw [show evaluate settings
    { command with applicationId := command.applicationId.or command.identity.applicationId } = _ from hpolicy']
  refine reaches_ask () rfl (hP _ _ (by simp)) ?_
  refine reaches_ask (o := .selectRoute) (.ok route) rfl (hP _ _ (by simp)) ?_
  refine reaches_ask () rfl (hP _ _ (by simp)) ?_
  exact reaches_bind (haudit _) hprofile

end

/-! ## Models that are tried twice -/

/-- No run of the execution of the command tries a model as two candidates. -/
def TriesOnce (tables : RoutingTables) (formats : ResponseFormats) (limit : Nat)
    (settings : RuntimeSettings) (command : ExecutionCommand) (externalTenantId : Option String) : Prop :=
  ∀ policy, evaluate settings command = .ok policy → ∀ tr q,
    After (executeWithEvents settings command) tr q →
    (attemptContract settings policy).Honest {} tr →
    (∀ e ∈ tr, Selects tables formats limit command externalTenantId e) → ¬ triesTwice (journalOf tr)

/-- No two policies name one model within the limits, on any route. -/
def NamesOnce (tables : RoutingTables) (formats : ResponseFormats) (limit : Nat)
    (settings : RuntimeSettings) (command : ExecutionCommand) (externalTenantId : Option String) : Prop :=
  ∀ policy, evaluate settings command = .ok policy → ∀ route,
    ¬ NamedTwice tables formats limit command policy (queryOf command externalTenantId route)

theorem exists_triesTwice (hcommand : ComesToCandidates settings command)
    (hpolicy : evaluate settings command = .ok policy) {route : RouteDecision}
    (h : NamedTwice tables formats limit command policy (queryOf command externalTenantId route)) :
    ∃ tr q, After (executeWithEvents settings command) tr q ∧
      (attemptContract settings policy).Honest {} tr ∧
      (∀ e ∈ tr, Selects tables formats limit command externalTenantId e) ∧
      triesTwice (journalOf tr) := by
  have hdup := not_nodup_ranked_iff.mpr h
  have hallow : policy.allowFallback = true := by
    -- one candidate alone is not two
    by_contra hallow
    have hshort : (ranked tables formats limit command policy
        (queryOf command externalTenantId route)).length ≤ 1 := by
      refine (List.length_take_le _ _).trans ?_
      simp [maxCandidates, hallow]
    match hlist : ranked tables formats limit command policy
        (queryOf command externalTenantId route), hshort with
    | [], _ => simp [hlist] at hdup
    | [c], _ => simp [hlist] at hdup
  have hothers : ∀ (o : ExecOp) (x : execSig.Ans o), (∀ p r, o ≠ .selectCandidates p r) →
      Selects tables formats limit command externalTenantId ⟨o, x⟩ := by
    intro o x ho
    cases o with
    | selectCandidates p r => exact absurd rfl (ho p r)
    | _ => trivial
  have hselected : selectCandidates tables formats limit command policy
      (queryOf command externalTenantId route) =
        .ok ((selectedRows tables formats limit command policy
          (queryOf command externalTenantId route)).map JoinedPolicy.candidate) := by
    unfold selectCandidates
    split
    · next hnone =>
      rw [ranked, hnone] at hdup
      simp at hdup
    · rfl
  obtain ⟨outcome, j', hreaches, hcandidates, hranks⟩ := reaches_executeWithEvents
    (Selects tables formats limit command externalTenantId) hcommand hpolicy hallow route
    ((selectedRows tables formats limit command policy
      (queryOf command externalTenantId route)).map JoinedPolicy.candidate) hothers (.inl hselected.symm)
  obtain ⟨tr, hrun, hhonest, hselects, htrack⟩ := hreaches
  refine ⟨tr, _, hrun, hhonest, hselects, ?_⟩
  rw [journalOf_eq_track tr, htrack]
  have hdup' : ¬ (j'.candidates.map ModelCandidate.pair).Nodup := by
    rw [hcandidates]
    exact hdup
  obtain ⟨front, c, between, d, rest, hcut, hpair⟩ := Rows.not_nodup_map_iff.mp hdup'
  have hvisit : ∀ rank < j'.candidates.length, ∃ v ∈ j'.visits, v.rank = rank := by
    intro rank hrank
    have hmem : rank ∈ j'.visits.map Visit.rank := by
      rw [hranks]
      simpa using hrank
    exact List.mem_map.mp hmem
  have hlength : j'.candidates.length = front.length + (between.length + 1) + (rest.length + 1) := by
    rw [hcut]
    simp
    omega
  obtain ⟨v, hv, hvrank⟩ := hvisit front.length (by omega)
  obtain ⟨w, hw, hwrank⟩ := hvisit (front.length + (between.length + 1)) (by omega)
  refine ⟨v, hv, w, hw, by omega, c, d, ?_, ?_, hpair⟩
  · rw [hvrank, hcut]
    simp
  · rw [hwrank, hcut, List.getElem?_append_right (by simp)]
    simp

/--
**A model is tried as one candidate** when no two of the policies that apply name it within the
limits; and for a command that comes to its candidates, only then.
-/
theorem no_model_twice_iff (tables : RoutingTables) (formats : ResponseFormats) (limit : Nat)
    (settings : RuntimeSettings) (command : ExecutionCommand) (externalTenantId : Option String) :
    (NamesOnce tables formats limit settings command externalTenantId →
      TriesOnce tables formats limit settings command externalTenantId) ∧
    (ComesToCandidates settings command →
      (TriesOnce tables formats limit settings command externalTenantId ↔
        NamesOnce tables formats limit settings command externalTenantId)) := by
  have henough : NamesOnce tables formats limit settings command externalTenantId →
      TriesOnce tables formats limit settings command externalTenantId := by
    intro hnames policy hpolicy tr q hrun hdb hselects htwice
    have hdup := not_nodup_of_triesTwice htwice
    rcases candidates_run hpolicy hrun hdb hselects with hnone | ⟨route, hcandidates⟩
    · simp [hnone] at hdup
    · rw [hcandidates] at hdup
      exact hnames policy hpolicy route (not_nodup_ranked_iff.mp hdup)
  refine ⟨henough, fun hcommand => ⟨fun honce policy hpolicy route hnamed => ?_, henough⟩⟩
  obtain ⟨tr, q, hrun, hdb, hselects, htwice⟩ := exists_triesTwice hcommand hpolicy hnamed
  exact honce policy hpolicy tr q hrun hdb hselects htwice

end Routing

namespace Trial

open Routing

def generalPolicy : RoutingPolicyRow where
  id := 1
  routeId := 20
  providerId := 11
  providerModelId := 12

def tenantPolicy : RoutingPolicyRow :=
  { generalPolicy with id := 2, externalTenantId := some "t" }

/-- The general policy and one for tenant `t` name one model. -/
def overlapping : RoutingTables where
  policies := [generalPolicy, tenantPolicy]
  providers := [{ id := 11, providerType := .openAi }]
  models := [{ id := 12, providerId := 11, modelKey := "model" }]

def defaultRoute : RouteDecision := { routeId := 20, routeKey := "default", agentProfileId := none }

def joined (policy : RoutingPolicyRow) : JoinedPolicy where
  policy := policy
  provider := { id := 11, providerType := .openAi }
  model := { id := 12, providerId := 11, modelKey := "model" }
  runtimePolicy := none

end Trial

open Prog Routing in
/-- Tenant `t` is given the model a second time, as the fallback of itself. -/
theorem overlapping_triesTwice : ∃ tr q,
    After (executeWithEvents Trial.settings Trial.command) tr q ∧
    (attemptContract Trial.settings Trial.policy).Honest {} tr ∧
    (∀ e ∈ tr, Selects Trial.overlapping ⟨true, true, false⟩ 20 Trial.command (some "t") e) ∧
    triesTwice (journalOf tr) := by
  have happly : Trial.overlapping.applicable
      (queryOf Trial.command (some "t") Trial.defaultRoute) =
        [Trial.joined Trial.generalPolicy, Trial.joined Trial.tenantPolicy] := by decide +kernel
  have hnamed : NamedTwice Trial.overlapping ⟨true, true, false⟩ 20 Trial.command Trial.policy
      (queryOf Trial.command (some "t") Trial.defaultRoute) := by
    unfold NamedTwice
    rw [happly]
    refine ⟨Trial.joined Trial.tenantPolicy, by simp, Trial.joined Trial.generalPolicy, by simp,
      by decide +kernel, rfl, rfl, ?_⟩
    exact ⟨by decide +kernel, by decide +kernel, by decide +kernel⟩
  have hcommand : ComesToCandidates Trial.settings Trial.command :=
    ⟨rfl, by simp [Trial.command], by decide, rfl⟩
  exact exists_triesTwice hcommand rfl hnamed

/-! ## Hints -/

namespace Routing

variable {row : JoinedPolicy} {policy : EffectiveExecutionPolicy}

variable {tables : RoutingTables} {formats : ResponseFormats} {query : CandidateQuery}
  {command : ExecutionCommand} {limit : Nat}

/-- The candidate is of the provider and the model the command asks for. -/
def MatchesHints (command : ExecutionCommand) (candidate : ModelCandidate) : Prop :=
  (∀ provider, command.providerHint = some provider → candidate.providerId = provider) ∧
    (∀ model, command.modelHint = some model → candidate.providerModelId = model)

/-- A policy of the route applies, and names what the command asks for with the capabilities that
its own policy requires. -/
def Names (tables : RoutingTables) (formats : ResponseFormats) (command : ExecutionCommand)
    (policy : EffectiveExecutionPolicy) (query : CandidateQuery) : Prop :=
  ∃ row ∈ tables.applicable query, row.passes formats command policy = true

/-- Such a policy has fewer than `limit` others that apply strictly ahead of it. -/
def NamesWithin (tables : RoutingTables) (formats : ResponseFormats) (limit : Nat)
    (command : ExecutionCommand) (policy : EffectiveExecutionPolicy) (query : CandidateQuery) : Prop :=
  ∃ row ∈ tables.applicable query, row.passes formats command policy = true ∧
    Rows.before JoinedPolicy.rankKey row.rankKey (tables.applicable query) < limit

theorem matchesHints_of_passes (h : row.passes formats command policy = true) :
    MatchesHints command row.candidate := by
  unfold JoinedPolicy.passes at h
  rw [Bool.and_eq_true, Bool.and_eq_true] at h
  obtain ⟨⟨hprovider, hmodel⟩, -⟩ := h
  constructor
  · intro provider hhint
    rw [hhint] at hprovider
    show row.provider.id = provider
    simpa using hprovider
  · intro model hhint
    rw [hhint] at hmodel
    show row.model.id = model
    simpa using hmodel

theorem mem_selectedRows :
    row ∈ selectedRows tables formats limit command policy query ↔
      row ∈ Rows.top JoinedPolicy.rankKey limit (tables.applicable query) ∧
        row.passes formats command policy = true :=
  List.mem_filter

theorem selectedRows_ne_nil_iff :
    selectedRows tables formats limit command policy query ≠ [] ↔
      NamesWithin tables formats limit command policy query := by
  have htop : (∃ row ∈ Rows.top JoinedPolicy.rankKey limit (tables.applicable query),
      row.passes formats command policy = true) ↔
        NamesWithin tables formats limit command policy query :=
    Rows.exists_mem_top_iff fun a ha b hb hkey => passes_of_pair ha hb (pair_of_rankKey hkey)
  rw [← htop]
  constructor
  · intro hne
    obtain ⟨row, hrow⟩ := List.exists_mem_of_ne_nil _ hne
    exact ⟨row, mem_selectedRows.mp hrow⟩
  · rintro ⟨row, hrow⟩
    exact List.ne_nil_of_mem (mem_selectedRows.mpr hrow)

theorem selectCandidates_finds_iff :
    (∃ candidates, selectCandidates tables formats limit command policy query = .ok candidates ∧
      ∃ candidate ∈ candidates, MatchesHints command candidate) ↔
      NamesWithin tables formats limit command policy query := by
  rw [← selectedRows_ne_nil_iff]
  unfold selectCandidates
  cases hrows : selectedRows tables formats limit command policy query with
  | nil => simp
  | cons row rest =>
    have hrow : row ∈ selectedRows tables formats limit command policy query := by
      rw [hrows]
      exact List.mem_cons_self
    refine iff_of_true ⟨_, rfl, row.candidate, List.mem_cons_self, ?_⟩ (List.cons_ne_nil row rest)
    exact matchesHints_of_passes (mem_selectedRows.mp hrow).2

/-- **When a hint that is named is found.** -/
theorem hinted_model_found_iff (tables : RoutingTables) (formats : ResponseFormats) (limit : Nat)
    (command : ExecutionCommand) (policy : EffectiveExecutionPolicy) (query : CandidateQuery) :
    (Names tables formats command policy query →
      ∃ candidates, selectCandidates tables formats limit command policy query = .ok candidates ∧
        ∃ candidate ∈ candidates, MatchesHints command candidate) ↔
      (Names tables formats command policy query →
        NamesWithin tables formats limit command policy query) := by
  rw [selectCandidates_finds_iff]

end Routing

namespace Trial

open Routing

/-- A tenant's policy for one model, ahead of a general policy for another. -/
def tenantFirst : RoutingTables where
  policies := [{ tenantPolicy with id := 2 }, { generalPolicy with id := 3, providerModelId := 13 }]
  providers := [{ id := 11, providerType := .openAi }]
  models := [{ id := 12, providerId := 11, modelKey := "small" },
    { id := 13, providerId := 11, modelKey := "large" }]

def hinted : ExecutionCommand :=
  { command with modelHint := some 13 }

end Trial

open Routing in
/-- With a limit of one, a hint for the second model finds nothing. -/
theorem hinted_model_not_found :
    ¬∀ (tables : RoutingTables) (formats : ResponseFormats) (limit : Nat) (command : ExecutionCommand)
      (policy : EffectiveExecutionPolicy) (query : CandidateQuery),
      Names tables formats command policy query →
        ∃ candidates, selectCandidates tables formats limit command policy query = .ok candidates ∧
          ∃ candidate ∈ candidates, MatchesHints command candidate := by
  intro hall
  have hnames : Names Trial.tenantFirst ⟨true, true, false⟩ Trial.hinted Trial.policy
      (queryOf Trial.hinted (some "t") Trial.defaultRoute) := by
    have hany : (Trial.tenantFirst.applicable
        (queryOf Trial.hinted (some "t") Trial.defaultRoute)).any
          (JoinedPolicy.passes ⟨true, true, false⟩ Trial.hinted Trial.policy) = true := by
      decide +kernel
    exact List.any_eq_true.mp hany
  obtain ⟨candidates, hselect, -⟩ := hall _ _ 1 _ _ _ hnames
  have herror : selectCandidates Trial.tenantFirst ⟨true, true, false⟩ 1 Trial.hinted Trial.policy
      (queryOf Trial.hinted (some "t") Trial.defaultRoute) =
        .error (.new .noEligibleModel "no eligible model candidate matched policy") := by
    decide +kernel
  rw [herror] at hselect
  cases hselect

end Moira
