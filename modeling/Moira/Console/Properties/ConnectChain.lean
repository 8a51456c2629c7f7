import Mathlib.Tactic.Common
import Moira.Console.ConnectChain

/-!
# What a failed chain reports

- **`report_iff`** — a failed chain reports its completed steps, unless a call has thrown behind a
  completed routing policy
-/

namespace Moira.Console

namespace Connect

open Identity (ResourceStatus)
open Prog (Lockstep Ends)

/-! ## Completed steps -/

/-- A step that is completed, with the row that was found, created or enabled. -/
inductive Done
  | provider (id : String) (outcome : StepOutcome)
  | model (id modelKey : String) (outcome : StepOutcome)
  | credential (id : String) (outcome : StepOutcome)
  | enable (id : Option String) (outcome : StepOutcome)
  | policy (id : String) (outcome : StepOutcome)

/-- The entry of a step in the trace. -/
def Done.view : Done → LlmConnectStepView
  | .provider id outcome => ⟨.provider, outcome, some id⟩
  | .model _ modelKey outcome => ⟨.providerModel, outcome, some modelKey⟩
  | .credential id outcome => ⟨.providerCredential, outcome, some id⟩
  | .enable id outcome => ⟨.providerEnable, outcome, id⟩
  | .policy id outcome => ⟨.routingPolicy, outcome, some id⟩

def ConnectState.add (state : ConnectState) : Done → ConnectState
  | .provider id _ => { state with providerId := some id }
  | .model id _ _ => { state with providerModelIds := state.providerModelIds ++ [id] }
  | .credential id _ => { state with keyRowId := some id }
  | .enable _ _ => { state with providerEnabled := true }
  | .policy id _ => { state with routingPolicyIds := state.routingPolicyIds ++ [id] }

/-- The rows of the completed steps. -/
def stateOf (done : List Done) : ConnectState :=
  done.foldl ConnectState.add {}

theorem stateOf_concat (done : List Done) (d : Done) : stateOf (done ++ [d]) = (stateOf done).add d := by
  rw [stateOf, List.foldl_append]
  rfl

/-! ## The chain -/

/-- A chain that stopped, after the completed steps. -/
structure Stopped where
  step : ConnectStepName
  messageKey : String
  cause : Option String := none
  done : List Done

section Chain

variable (options : ConnectChainOptions)

abbrev Chain (α : Type) := Prog sig Stopped α

/-- A call whose error stops the chain. -/
def issue (step : ConnectStepName) (done : List Done) (o : Op) : Chain o.Row :=
  Prog.ask (S := sig) o >>= fun
    | .ok row => .ret row
    | .error cause => .fail ⟨step, "console.llm.connect_step_failed", some cause, done⟩

/-- The row on the page; a page that is truncated stops the chain. -/
def found {ρ : Type} (page : ListResponse ρ) (isMatch : ρ → Bool) (step : ConnectStepName)
    (done : List Done) :
    Chain (Option ρ) :=
  match page.data.find? isMatch with
  | some hit => .ret (some hit)
  | none =>
    if page.hasMore then .fail ⟨step, "console.llm.list_truncated", none, done⟩ else .ret none

/-- The row itself when it is active, and else what enabling it gives. -/
def active (step : ConnectStepName) (done : List Done) (o : Op) (status : ResourceStatus)
    (existing : o.Row) :
    Chain o.Row :=
  if status = .active then .ret existing else issue step done o

def chooseProvider : Chain (ProviderRecord × List Done) := do
  let page ← issue .provider [] (.listProviders listPageLimit)
  match ← found page (fun row => row.baseUrl = some options.baseUrl && row.status ≠ .deleted) .provider [] with
  | some existing => .ret (existing, [.provider existing.id .reused])
  | none => do
    let created ← issue .provider []
      (.createProvider "open_ai_compatible" options.displayName options.baseUrl
        ("llm-provider:" ++ options.baseUrl))
    .ret (created, [.provider created.id .created])

variable (provider : ProviderRecord)

def chooseModels (page : ListResponse ProviderModelRecord) : List String → List Done → Chain (List Done)
  | [], done => .ret done
  | modelKey :: modelKeys, done => do
    match ← found page (fun row => row.modelKey = modelKey && row.status ≠ .deleted) .providerModel done with
    | some existing => do
      let repaired ← active .providerModel done (.enableProviderModel existing.id existing.version)
          existing.status existing
      chooseModels page modelKeys (done ++ [.model repaired.id modelKey (foundOutcome existing.status)])
    | none => do
      let created ← issue .providerModel done
        (.createProviderModel provider.id modelKey ("llm-model:" ++ provider.id ++ ":" ++ modelKey))
      chooseModels page modelKeys (done ++ [.model created.id modelKey .created])

def chooseModelsOf (done : List Done) : Chain (List Done) := do
  let models ← issue .providerModel done (.listProviderModels provider.id listPageLimit)
  chooseModels provider models options.modelKeys done

def chooseCredential (done : List Done) : Chain (List Done) := do
  let page ← issue .providerCredential done (.listProviderCredentials provider.id listPageLimit)
  match ← found page (fun row => row.providerId = provider.id && row.status ≠ .deleted) .providerCredential
      done with
  | some existing => do
    let repaired ← active .providerCredential done (.enableProviderCredential existing.id
        existing.version) existing.status existing
    .ret (done ++ [.credential repaired.id (foundOutcome existing.status)])
  | none => do
    let created ← issue .providerCredential done
      (.createProviderCredential provider.id options.placeholderKey ("llm-credential:" ++ provider.id))
    .ret (done ++ [.credential created.id .created])

def enableChosen (done : List Done) : Chain (ProviderRecord × List Done) :=
  if provider.status = .active then .ret (provider, done ++ [.enable none .skipped])
  else do
    let enabled ← issue .providerEnable done (.enableProvider provider.id provider.version)
    .ret (enabled, done ++ [.enable (some enabled.id) .created])

def choosePolicies (routeId : String) (page : ListResponse RoutingPolicyRecord) :
    List String → List Done → Chain (List Done)
  | [], done => .ret done
  | providerModelId :: modelIds, done => do
    match ← found page
        (fun row => row.routeId = routeId && row.providerId = provider.id &&
          row.providerModelId = providerModelId && row.status ≠ .deleted) .routingPolicy done with
    | some existing => do
      let repaired ← active .routingPolicy done (.enableRoutingPolicy existing.id existing.version)
          existing.status existing
      choosePolicies routeId page modelIds (done ++ [.policy repaired.id (foundOutcome existing.status)])
    | none => do
      let created ← issue .routingPolicy done
        (.createRoutingPolicy routeId provider.id providerModelId 100 1
          ("llm-policy:" ++ routeId ++ ":" ++ provider.id ++ ":" ++ providerModelId))
      choosePolicies routeId page modelIds (done ++ [.policy created.id .created])

/-- A policy on the route that is there for every application; no route is created. -/
def choosePoliciesOf (done : List Done) : Chain (List Done) := do
  match ← issue .routingPolicy done (.findRouteByKey generalRouteKey) with
  | none => .fail ⟨.routingPolicy, "console.llm.general_route_missing", none, done⟩
  | some route => do
    let policies ← issue .routingPolicy done (.listRoutingPolicies listPageLimit)
    choosePolicies provider route.id policies (stateOf done).providerModelIds done

/-- The steps one after another; what is kept is the record of those that are completed. -/
def chain : Chain (String × List Done) := do
  let (provider, done) ← chooseProvider options
  let done ← chooseModelsOf options provider done
  if (stateOf done).providerModelIds.isEmpty then
    .fail ⟨.providerModel, "console.llm.model_required", none, done⟩
  else do
    let done ← chooseCredential options provider done
    let (provider, done) ← enableChosen provider done
    let done ← choosePoliciesOf provider done
    .ret (provider.id, done)

end Chain

/-! ## The record and the calls -/

/-- The row that an exchange has created or enabled. -/
def written : Prog.Exchange sig → Option (ConnectStepName × String)
  | ⟨.createProvider .., .ok row⟩ => some (.provider, row.id)
  | ⟨.createProviderModel .., .ok row⟩ => some (.providerModel, row.id)
  | ⟨.enableProviderModel .., .ok row⟩ => some (.providerModel, row.id)
  | ⟨.createProviderCredential .., .ok row⟩ => some (.providerCredential, row.id)
  | ⟨.enableProviderCredential .., .ok row⟩ => some (.providerCredential, row.id)
  | ⟨.enableProvider .., .ok row⟩ => some (.providerEnable, row.id)
  | ⟨.createRoutingPolicy .., .ok row⟩ => some (.routingPolicy, row.id)
  | ⟨.enableRoutingPolicy .., .ok row⟩ => some (.routingPolicy, row.id)
  | _ => none

/-- A row that was there already, or was created or enabled. -/
def ifWritten (outcome : StepOutcome) (row : ConnectStepName × String) : Option (ConnectStepName × String) :=
  if outcome = .created ∨ outcome = .enabled then some row else none

/-- The row that a step has created or enabled. -/
def Done.written : Done → Option (ConnectStepName × String)
  | .provider id outcome => ifWritten outcome (.provider, id)
  | .model id _ outcome => ifWritten outcome (.providerModel, id)
  | .credential id outcome => ifWritten outcome (.providerCredential, id)
  | .enable id outcome => id.bind fun id => ifWritten outcome (.providerEnable, id)
  | .policy id outcome => ifWritten outcome (.routingPolicy, id)

/-- The record at the end of a run. -/
def recordOf : Except Stopped (String × List Done) → List Done
  | .ok a => a.2
  | .error f => f.done

/-- The exchanges so far are kept, and nothing is asked of them. -/
abbrev Calls : Contract sig (List (Prog.Exchange sig)) := Contract.keeping fun _ => True

/-- The rows that the calls have created or enabled are those of the record. -/
def Recorded (tr : List (Prog.Exchange sig)) (done : List Done) : Prop :=
  tr.filterMap written = done.filterMap Done.written

variable {d : Done}

variable {step : ConnectStepName}

section Recorded

open Prog

variable {tr : List (Exchange sig)} {done : List Done} {α : Type}
  {Q : List (Exchange sig) → α → Prop}

/-- A chain that stopped has recorded what its calls have written. -/
def RecordedUntil (tr : List (Exchange sig)) (f : Stopped) : Prop :=
  Recorded tr f.done

theorem Recorded.concat {e : Exchange sig} (h : Recorded tr done) (hd : written e = d.written) :
    Recorded (tr ++ [e]) (done ++ [d]) := by
  rw [Recorded, List.filterMap_append, List.filterMap_append, show tr.filterMap written = _ from h]
  simp [List.filterMap_cons, hd]

theorem Recorded.skip {e : Exchange sig} (h : Recorded tr done) (he : written e = none) :
    Recorded (tr ++ [e]) done := by
  rw [Recorded, List.filterMap_append, show tr.filterMap written = _ from h]
  simp [he]

theorem Recorded.found (h : Recorded tr done) (hd : d.written = none) :
    Recorded tr (done ++ [d]) := by
  rw [Recorded, List.filterMap_append, ← show tr.filterMap written = _ from h]
  simp [hd]

theorem wp_issue {o : Op} {k : o.Row → Chain α} (h : Recorded tr done)
    (hthrown : ∀ cause, written ⟨o, .error cause⟩ = none)
    (hk : ∀ row, wp Calls (k row) (tr ++ [⟨o, .ok row⟩]) Q RecordedUntil) :
    wp Calls (issue step done o >>= k) tr Q RecordedUntil := by
  refine wp_bind.mpr ⟨fun _ => trivial, fun answer _ => ?_⟩
  cases answer with
  | ok row => exact hk row
  | error cause => exact h.skip (hthrown cause)

theorem wp_found {ρ : Type} {page : ListResponse ρ} {isMatch : ρ → Bool} {k : Option ρ → Chain α}
    (h : Recorded tr done) (hk : ∀ existing, wp Calls (k existing) tr Q RecordedUntil) :
    wp Calls (found page isMatch step done >>= k) tr Q RecordedUntil := by
  unfold found
  cases page.data.find? isMatch with
  | some hit => exact hk (some hit)
  | none =>
    by_cases hmore : page.hasMore = true
    · simp only [hmore, if_true]
      exact h
    · simp only [hmore]
      exact hk none

theorem wp_active {o : Op} {status : ResourceStatus} {existing : o.Row} {k : o.Row → Chain α}
    (d : o.Row → Done)
    (h : Recorded tr done) (hthrown : ∀ cause, written ⟨o, .error cause⟩ = none)
    (hactive : status = .active → (d existing).written = none)
    (henabled : status ≠ .active → ∀ row, written ⟨o, .ok row⟩ = (d row).written)
    (hk : ∀ tr' row, Recorded tr' (done ++ [d row]) → wp Calls (k row) tr' Q RecordedUntil) :
    wp Calls (active step done o status existing >>= k) tr Q RecordedUntil := by
  unfold active
  by_cases hstatus : status = .active
  · rw [if_pos hstatus]
    exact hk _ _ (h.found (hactive hstatus))
  · rw [if_neg hstatus]
    exact wp_issue h hthrown fun row => hk _ _ (h.concat (henabled hstatus row))

variable (options : ConnectChainOptions) (provider : ProviderRecord)

theorem wp_chooseProvider :
    wp Calls (chooseProvider options) [] (fun tr a => Recorded tr a.2) RecordedUntil := by
  refine wp_issue rfl (fun _ => rfl) fun page => wp_found rfl fun existing => ?_
  cases existing with
  | some existing => exact rfl
  | none => exact wp_issue rfl (fun _ => rfl) fun created => rfl

theorem wp_chooseModels (page : ListResponse ProviderModelRecord) (modelKeys : List String) :
    ∀ (tr : List (Exchange sig)) (done : List Done), Recorded tr done →
      wp Calls (chooseModels provider page modelKeys done) tr Recorded RecordedUntil := by
  induction modelKeys with
  | nil => exact fun tr done h => h
  | cons modelKey modelKeys ih =>
    intro tr done h
    rw [chooseModels]
    refine wp_found h fun existing => ?_
    cases existing with
    | some existing =>
      refine wp_active (fun row => .model row.id modelKey (foundOutcome existing.status)) h (fun _ => rfl) ?_ ?_
        fun tr' row h' => ih _ _ h'
      · intro hstatus
        simp [Done.written, ifWritten, foundOutcome, hstatus]
      · intro hstatus row
        simp [Done.written, ifWritten, foundOutcome, hstatus, written]
    | none => exact wp_issue h (fun _ => rfl) fun created => ih _ _ (h.concat rfl)

theorem wp_chooseCredential (h : Recorded tr done) :
    wp Calls (chooseCredential options provider done) tr Recorded RecordedUntil := by
  refine wp_issue h (fun _ => rfl) fun page => ?_
  have hread := h.skip (e := ⟨.listProviderCredentials provider.id listPageLimit, .ok page⟩) rfl
  refine wp_found hread fun existing => ?_
  cases existing with
  | some existing =>
    refine wp_active (fun row => .credential row.id (foundOutcome existing.status)) hread (fun _ => rfl) ?_ ?_
      fun tr' row h' => h'
    · intro hstatus
      simp [Done.written, ifWritten, foundOutcome, hstatus]
    · intro hstatus row
      simp [Done.written, ifWritten, foundOutcome, hstatus, written]
  | none => exact wp_issue hread (fun _ => rfl) fun created => hread.concat rfl

theorem wp_enableChosen (h : Recorded tr done) :
    wp Calls (enableChosen provider done) tr (fun tr a => Recorded tr a.2) RecordedUntil := by
  unfold enableChosen
  by_cases hactive : provider.status = .active
  · rw [if_pos hactive]
    exact h.found rfl
  · rw [if_neg hactive]
    exact wp_issue h (fun _ => rfl) fun enabled => h.concat rfl

theorem wp_choosePolicies (routeId : String) (page : ListResponse RoutingPolicyRecord)
    (modelIds : List String) :
    ∀ (tr : List (Exchange sig)) (done : List Done), Recorded tr done →
      wp Calls (choosePolicies provider routeId page modelIds done) tr Recorded RecordedUntil := by
  induction modelIds with
  | nil => exact fun tr done h => h
  | cons modelId modelIds ih =>
    intro tr done h
    rw [choosePolicies]
    refine wp_found h fun existing => ?_
    cases existing with
    | some existing =>
      refine wp_active (fun row => .policy row.id (foundOutcome existing.status)) h (fun _ => rfl) ?_ ?_
        fun tr' row h' => ih _ _ h'
      · intro hstatus
        simp [Done.written, ifWritten, foundOutcome, hstatus]
      · intro hstatus row
        simp [Done.written, ifWritten, foundOutcome, hstatus, written]
    | none => exact wp_issue h (fun _ => rfl) fun created => ih _ _ (h.concat rfl)

/-- **The rows that the calls have created or enabled are those of the record**, also when the chain
stops. -/
theorem wp_chain : wp Calls (chain options) [] (fun tr a => Recorded tr a.2) RecordedUntil := by
  refine wp_bind_mono (wp_chooseProvider options) ?_
  rintro tr ⟨provider, done⟩ h
  refine wp_bind_mono (P := Recorded) (wp_issue h (fun _ => rfl) fun page =>
    wp_chooseModels provider page options.modelKeys _ _ (h.skip rfl)) ?_
  intro tr done h
  refine wp_ite (fun _ => h) fun _ => ?_
  refine wp_bind_mono (wp_chooseCredential options provider h) ?_
  intro tr done h
  refine wp_bind_mono (wp_enableChosen provider h) ?_
  rintro tr ⟨provider, done⟩ h
  refine wp_bind_mono (P := Recorded) (wp_issue h (fun _ => rfl) fun route => ?_) fun tr done h => h
  have hread := h.skip (e := ⟨.findRouteByKey generalRouteKey, .ok route⟩) rfl
  cases route with
  | none => exact hread
  | some route =>
    exact wp_issue hread (fun _ => rfl) fun page =>
      wp_choosePolicies provider route.id page _ _ _ (hread.skip rfl)

theorem chain_recorded {σ : Type} (env : σ → (o : sig.Op) → sig.Ans o × σ) (s : σ) :
    Recorded ((chain options).runWith env s).1 (recordOf ((chain options).runWith env s).2) := by
  have hrun := (keeping_run (after_runWith env (chain options) s) (wp_chain options) trivial).2
  cases hend : ((chain options).runWith env s).2 with
  | ok a => rwa [hend] at hrun
  | error f => rwa [hend] at hrun

end Recorded

/-! ## The code and the chain -/

/-- The locals stand for the completed steps: `rel` says how they hold the state that the steps
amount to. -/
structure At (rel : Locals → ConnectState → Prop) (l : Locals) (done : List Done) : Prop where
  trace_eq : l.trace = done.map Done.view
  state_rel : rel l (stateOf done)

/-- What is thrown inside of a step stands for a chain that stopped. -/
def Caught (step : ConnectStepName) (rel : Locals → ConnectState → Prop) : Locals × Thrown → Stopped → Prop
  | (_, .provisioning error), f =>
    error = ⟨f.step, f.messageKey, stateOf f.done, f.done.map Done.view, none⟩ ∧ f.cause = none
  | (l, .client cause), f =>
    f.step = step ∧ f.messageKey = "console.llm.connect_step_failed" ∧ f.cause = some cause ∧ At rel l f.done

section Steps

variable {rel : Locals → ConnectState → Prop} {l : Locals} {done : List Done}

theorem call_lockstep (h : At rel l done) (o : Op) :
    Lockstep Eq (Caught step rel) (call l o) (issue step done o) := by
  refine .op fun answer => ?_
  cases answer with
  | ok row => exact .ret rfl
  | error cause => exact .fail ⟨rfl, rfl, rfl, h⟩

theorem found_lockstep {ρ : Type} {page : ListResponse ρ} {isMatch : ρ → Bool} {current : ConnectState}
    {trace : List LlmConnectStepView} (hstate : current = stateOf done)
    (htrace : trace = done.map Done.view) :
    Lockstep Eq (Caught step rel) (orThrow l (findOnPage page isMatch step current trace))
      (found page isMatch step done) := by
  unfold findOnPage found
  cases page.data.find? isMatch with
  | some hit => exact .ret rfl
  | none =>
    by_cases hmore : page.hasMore = true
    · simp only [hmore, if_true]
      exact .fail ⟨by rw [hstate, htrace], rfl⟩
    · simp only [hmore]
      exact .ret rfl

theorem repair_lockstep (h : At rel l done) (o : Op) (status : ResourceStatus) (existing : o.Row) :
    Lockstep Eq (Caught step rel) (repair l o status existing) (active step done o status existing) := by
  unfold repair active
  by_cases hactive : status = .active
  · rw [if_pos hactive, if_pos hactive]
    exact .ret rfl
  · rw [if_neg hactive, if_neg hactive]
    exact call_lockstep h o

theorem At.concat {next : Locals} (h : At rel l done) (htrace : next.trace = l.trace ++ [d.view])
    (hstate : ∀ s, rel l s → rel next (s.add d)) : At rel next (done ++ [d]) where
  trace_eq := by rw [htrace, h.trace_eq, List.map_append, List.map_singleton]
  state_rel := by
    rw [stateOf_concat]
    exact hstate _ h.state_rel

/-! ## Each step -/

variable (options : ConnectChainOptions) (provider : ProviderRecord)

/-- Between the steps the state is in one local. -/
def inState (l : Locals) (s : ConnectState) : Prop :=
  l.state = s

/-- The models so far are in a local of their own. -/
def inModels (l : Locals) (s : ConnectState) : Prop :=
  { l.state with providerModelIds := l.modelIds } = s

/-- The policies so far are in a local of their own, and the state has none. -/
def inPolicies (l : Locals) (s : ConnectState) : Prop :=
  { l.state with routingPolicyIds := l.policyIds } = s ∧ l.state.routingPolicyIds = []

theorem At.models (h : At inState l done) (hmodels : l.modelIds = l.state.providerModelIds) :
    At inModels l done where
  trace_eq := h.trace_eq
  state_rel := by
    rw [inModels, hmodels]
    exact h.state_rel

theorem At.policies (h : At inState l done) (hpolicies : l.policyIds = [])
    (hstate : l.state.routingPolicyIds = []) :
    At inPolicies l done where
  trace_eq := h.trace_eq
  state_rel := by
    rw [inPolicies, hpolicies, ← hstate]
    exact ⟨h.state_rel, rfl⟩

theorem providerStep_lockstep :
    Lockstep (fun a a' => a.1 = a'.1 ∧ a.2.modelIds = [] ∧ a.2.policyIds = [] ∧
        At inState { a.2 with state := { a.2.state with providerId := some a.1.id } } a'.2 ∧
        a.2.state.routingPolicyIds = [] ∧ a.2.state.providerModelIds = [])
      (Caught .provider inState) (providerStep options {}) (chooseProvider options) := by
  have hstart : At inState {} [] := ⟨rfl, rfl⟩
  refine (call_lockstep hstart _).bind ?_
  rintro page _ rfl
  refine (found_lockstep hstart.state_rel hstart.trace_eq).bind ?_
  rintro existing _ rfl
  cases existing with
  | some existing => exact .ret ⟨rfl, rfl, rfl, ⟨rfl, rfl⟩, rfl, rfl⟩
  | none =>
    refine (call_lockstep hstart _).bind ?_
    rintro created _ rfl
    exact .ret ⟨rfl, rfl, rfl, ⟨rfl, rfl⟩, rfl, rfl⟩

theorem modelsLoop_lockstep (page : ListResponse ProviderModelRecord) (modelKeys : List String) :
    ∀ (l : Locals) (done : List Done), At inModels l done →
      Lockstep (fun l' done' => At inModels l' done' ∧ l'.state = l.state ∧ l'.policyIds = l.policyIds)
        (Caught .providerModel inModels) (modelsLoop provider page modelKeys l)
        (chooseModels provider page modelKeys done) := by
  induction modelKeys with
  | nil => exact fun l done h => .ret ⟨h, rfl, rfl⟩
  | cons modelKey modelKeys ih =>
    intro l done h
    have hnext : ∀ id outcome, At inModels (l.pushModel id modelKey outcome)
        (done ++ [.model id modelKey outcome]) := fun id outcome =>
      h.concat rfl fun s hs => by rw [← show _ = s from hs]; rfl
    rw [modelsLoop, chooseModels]
    refine (found_lockstep h.state_rel h.trace_eq).bind ?_
    rintro existing _ rfl
    cases existing with
    | some existing =>
      refine (repair_lockstep h _ _ _).bind ?_
      rintro repaired _ rfl
      exact ih (l.pushModel _ _ _) _ (hnext _ _)
    | none =>
      refine (call_lockstep h _).bind ?_
      rintro created _ rfl
      exact ih (l.pushModel _ _ _) _ (hnext _ _)

theorem modelsStep_lockstep (h : At inModels l done) :
    Lockstep (fun l' done' => At inModels l' done' ∧ l'.state = l.state ∧ l'.policyIds = l.policyIds)
      (Caught .providerModel inModels) (modelsStep options provider l) (chooseModelsOf options provider done) := by
  refine (call_lockstep h _).bind ?_
  rintro page _ rfl
  exact modelsLoop_lockstep provider page options.modelKeys l done h

theorem credentialStep_lockstep (h : At inState l done) :
    Lockstep (fun l' done' => At inState l' done' ∧ l'.modelIds = l.modelIds ∧ l'.policyIds = l.policyIds ∧
        l'.state.providerModelIds = l.state.providerModelIds ∧
        l'.state.routingPolicyIds = l.state.routingPolicyIds)
      (Caught .providerCredential inState) (credentialStep options provider l)
      (chooseCredential options provider done) := by
  have hnext : ∀ id outcome, At inState (l.setKeyRow id outcome) (done ++ [.credential id outcome]) :=
    fun id outcome => h.concat rfl fun s hs => by rw [← show _ = s from hs]; rfl
  refine (call_lockstep h _).bind ?_
  rintro page _ rfl
  refine (found_lockstep h.state_rel h.trace_eq).bind ?_
  rintro existing _ rfl
  cases existing with
  | some existing =>
    refine (repair_lockstep h _ _ _).bind ?_
    rintro repaired _ rfl
    exact .ret ⟨hnext _ _, rfl, rfl, rfl, rfl⟩
  | none =>
    refine (call_lockstep h _).bind ?_
    rintro created _ rfl
    exact .ret ⟨hnext _ _, rfl, rfl, rfl, rfl⟩

theorem enableStep_lockstep (h : At inState l done) :
    Lockstep (fun a a' => a.1 = a'.1 ∧ At inState a.2 a'.2 ∧ a.2.modelIds = l.modelIds ∧
        a.2.policyIds = l.policyIds ∧ a.2.state.providerModelIds = l.state.providerModelIds ∧
        a.2.state.routingPolicyIds = l.state.routingPolicyIds)
      (Caught .providerEnable inState) (enableStep provider l) (enableChosen provider done) := by
  have hnext : ∀ id outcome, At inState (l.setEnabled outcome id) (done ++ [.enable id outcome]) :=
    fun id outcome => h.concat rfl fun s hs => by rw [← show _ = s from hs]; rfl
  unfold enableStep enableChosen
  by_cases hactive : provider.status = .active
  · rw [if_pos hactive, if_pos hactive]
    exact .ret ⟨rfl, hnext _ _, rfl, rfl, rfl, rfl⟩
  · rw [if_neg hactive, if_neg hactive]
    refine (call_lockstep h _).bind ?_
    rintro enabled _ rfl
    exact .ret ⟨rfl, hnext _ _, rfl, rfl, rfl, rfl⟩

theorem policiesLoop_lockstep (routeId : String) (page : ListResponse RoutingPolicyRecord)
    (modelIds : List String) : ∀ (l : Locals) (done : List Done), At inPolicies l done →
      Lockstep (At inPolicies) (Caught .routingPolicy inPolicies)
        (policiesLoop provider routeId page modelIds l) (choosePolicies provider routeId page modelIds done) := by
  induction modelIds with
  | nil => exact fun l done h => .ret h
  | cons modelId modelIds ih =>
    intro l done h
    have hnext : ∀ id outcome, At inPolicies (l.pushPolicy id outcome) (done ++ [.policy id outcome]) :=
      fun id outcome => h.concat rfl fun s hs => ⟨by rw [← hs.1]; rfl, hs.2⟩
    rw [policiesLoop, choosePolicies]
    refine (found_lockstep h.state_rel.1 h.trace_eq).bind ?_
    rintro existing _ rfl
    cases existing with
    | some existing =>
      refine (repair_lockstep h _ _ _).bind ?_
      rintro repaired _ rfl
      exact ih (l.pushPolicy _ _) _ (hnext _ _)
    | none =>
      refine (call_lockstep h _).bind ?_
      rintro created _ rfl
      exact ih (l.pushPolicy _ _) _ (hnext _ _)

theorem policiesStep_lockstep (h : At inState l done) (hmodels : l.modelIds = l.state.providerModelIds)
    (hpolicies : l.policyIds = []) (hstate : l.state.routingPolicyIds = []) :
    Lockstep (At inState) (Caught .routingPolicy inPolicies) (policiesStep provider l)
      (choosePoliciesOf provider done) := by
  have hAt : At inPolicies l done := h.policies hpolicies hstate
  have hids : (stateOf done).providerModelIds = l.modelIds := by
    rw [hmodels, ← show l.state = stateOf done from h.state_rel]
  refine (call_lockstep hAt _).bind ?_
  rintro route _ rfl
  cases route with
  | none => exact .fail ⟨by rw [← show l.state = stateOf done from h.state_rel, h.trace_eq], rfl⟩
  | some route =>
    refine (call_lockstep hAt _).bind ?_
    rintro page _ rfl
    rw [hids]
    rw [← Prog.bind_ret (choosePolicies provider route.id page l.modelIds done)]
    refine (policiesLoop_lockstep provider route.id page l.modelIds l done hAt).bind ?_
    rintro l' done' h'
    exact .ret ⟨h'.trace_eq, h'.state_rel.1⟩

end Steps

/-! ## Reports -/

/-- A call has thrown after a routing policy was completed. -/
def Stopped.BehindPolicy (f : Stopped) : Prop :=
  f.cause ≠ none ∧ f.step = .routingPolicy ∧ (stateOf f.done).routingPolicyIds ≠ []

/-- The error tells the completed steps of the chain. -/
structure Reports (e : LlmProvisioningError) (f : Stopped) : Prop where
  state_eq : e.state = stateOf f.done
  trace_eq : e.trace = f.done.map Done.view

/-- What is thrown out of the chain: where and why it stopped, and what it tells. -/
structure Reported (e : LlmProvisioningError) (f : Stopped) : Prop where
  step_eq : e.step = f.step
  messageKey_eq : e.messageKey = f.messageKey
  cause_eq : e.cause = f.cause
  trace_eq : e.trace = f.done.map Done.view
  state_iff : e.state = stateOf f.done ↔ ¬f.BehindPolicy

theorem reported_of_caught {rel : Locals → ConnectState → Prop} {state : Locals → ConnectState}
    (hstep : step ≠ .routingPolicy) (hrel : ∀ l s, rel l s → state l = s)
    {thrown : Locals × Thrown} {f : Stopped} (h : Caught step rel thrown f) :
    Reported (rethrowAsStep step state thrown) f := by
  obtain ⟨l, error | cause⟩ := thrown
  · obtain ⟨rfl, hcause⟩ := h
    exact ⟨rfl, rfl, hcause.symm, rfl, iff_of_true rfl fun hbehind => hbehind.1 hcause⟩
  · obtain ⟨hfstep, hkey, hcause, hAt⟩ := h
    exact ⟨hfstep.symm, hkey.symm, hcause.symm, hAt.trace_eq,
      iff_of_true (hrel _ _ hAt.state_rel) fun hbehind => hstep (hfstep.symm.trans hbehind.2.1)⟩

theorem reported_of_policies {thrown : Locals × Thrown} {f : Stopped}
    (h : Caught .routingPolicy inPolicies thrown f) :
    Reported (rethrowAsStep .routingPolicy (fun l => l.state) thrown) f := by
  obtain ⟨l, error | cause⟩ := thrown
  · obtain ⟨rfl, hcause⟩ := h
    exact ⟨rfl, rfl, hcause.symm, rfl, iff_of_true rfl fun hbehind => hbehind.1 hcause⟩
  · obtain ⟨hfstep, hkey, hcause, hAt⟩ := h
    obtain ⟨hstate, hnone⟩ := hAt.state_rel
    refine ⟨hfstep.symm, hkey.symm, hcause.symm, hAt.trace_eq, ?_⟩
    show l.state = stateOf f.done ↔ _
    constructor
    · rintro heq ⟨-, -, hpolicies⟩
      exact hpolicies (by rw [← heq, hnone])
    · intro hbehind
      have hpolicies : (stateOf f.done).routingPolicyIds = [] := by
        by_contra hne
        exact hbehind ⟨by rw [hcause]; exact Option.some_ne_none _, hfstep, hne⟩
      have hids : l.policyIds = l.state.routingPolicyIds := by rw [hnone, ← hpolicies, ← hstate]
      rw [← hstate, hids]

/-- A chain that ends has the state and the trace of its steps. -/
def Finished (result : ConnectChainResult) (a : String × List Done) : Prop :=
  result = ⟨a.1, stateOf a.2, a.2.map Done.view⟩

/-- **The code makes the calls of the chain and ends as it does.** -/
theorem runConnectChain_lockstep (options : ConnectChainOptions) :
    Lockstep Finished Reported (runConnectChain options) (chain options) := by
  have hplain : ∀ l s, inState l s → l.state = s := fun _ _ h => h
  refine ((providerStep_lockstep options).mapFail fun _ _ =>
    reported_of_caught (by decide) hplain).bind ?_
  rintro ⟨provider, l⟩ ⟨_, done⟩ ⟨rfl, hmodels, hpolicies, hAt, hnopolicy, hnomodel⟩
  have hstart := hAt.models (hmodels.trans hnomodel.symm)
  refine ((modelsStep_lockstep options provider hstart).mapFail fun _ _ =>
    reported_of_caught (by decide) fun _ _ h => h).bind ?_
  rintro l₂ done₂ ⟨hAt₂, hstate₂, hpolicies₂⟩
  have hids : (stateOf done₂).providerModelIds = l₂.modelIds := by
    rw [← show _ = stateOf done₂ from hAt₂.state_rel]
  rw [hids]
  by_cases hempty : l₂.modelIds.isEmpty = true
  · simp only [hempty, if_true]
    refine .fail ⟨rfl, rfl, rfl, hAt₂.trace_eq, iff_of_true hAt₂.state_rel fun hbehind => hbehind.1 rfl⟩
  · simp only [hempty]
    have hAt₃ : At inState { l₂ with state := { l₂.state with providerModelIds := l₂.modelIds } } done₂ :=
      ⟨hAt₂.trace_eq, hAt₂.state_rel⟩
    refine ((credentialStep_lockstep options provider hAt₃).mapFail fun _ _ =>
      reported_of_caught (by decide) hplain).bind ?_
    rintro l₄ done₄ ⟨hAt₄, hmodels₄, hpolicies₄, hids₄, hnone₄⟩
    refine ((enableStep_lockstep provider hAt₄).mapFail fun _ _ =>
      reported_of_caught (by decide) hplain).bind ?_
    rintro ⟨enabled, l₅⟩ ⟨_, done₅⟩ ⟨rfl, hAt₅, hmodels₅, hpolicies₅, hids₅, hnone₅⟩
    have hsame : l₅.modelIds = l₅.state.providerModelIds := by
      rw [hmodels₅, hmodels₄, hids₅, hids₄]
    have hempty₅ : l₅.policyIds = [] := by
      rw [hpolicies₅, hpolicies₄, hpolicies₂, hpolicies]
    have hnone : l₅.state.routingPolicyIds = [] := by
      rw [hnone₅, hnone₄, hstate₂, hnopolicy]
    refine ((policiesStep_lockstep enabled hAt₅ hsame hempty₅ hnone).mapFail fun _ _ =>
      reported_of_policies).bind ?_
    rintro l₆ done₆ hAt₆
    refine .ret ?_
    rw [Finished, ← hAt₆.trace_eq, ← show l₆.state = stateOf done₆ from hAt₆.state_rel]

/-- **A failed chain reports its completed steps, unless a call has thrown behind a completed
policy**: in every environment the code makes the calls of the chain, whose record has the rows that
these calls have written, and what it throws tells the record exactly when no call has thrown after
a routing policy was found, enabled or created. -/
theorem report_iff {σ : Type} (env : σ → (o : sig.Op) → sig.Ans o × σ) (s : σ)
    (options : ConnectChainOptions) :
    ((runConnectChain options).runWith env s).1 = ((chain options).runWith env s).1 ∧
      Recorded ((chain options).runWith env s).1 (recordOf ((chain options).runWith env s).2) ∧
      Ends Finished (fun e f => Reports e f ↔ ¬f.BehindPolicy) ((runConnectChain options).runWith env s).2
        ((chain options).runWith env s).2 := by
  obtain ⟨hexchanges, hends⟩ := (runConnectChain_lockstep options).runWith env s
  refine ⟨hexchanges, chain_recorded options env s, ?_⟩
  generalize ((runConnectChain options).runWith env s).2 = result at hends ⊢
  generalize ((chain options).runWith env s).2 = result' at hends ⊢
  cases result with
  | ok a =>
    cases result' with
    | ok a' => exact hends
    | error f => exact hends
  | error e =>
    cases result' with
    | ok a' => exact hends
    | error f =>
      obtain ⟨-, -, -, htrace, hstate⟩ := (hends : Reported e f)
      exact ⟨fun h => hstate.mp h.state_eq, fun h => ⟨hstate.mpr h, htrace⟩⟩

namespace Sample

def connected : ConnectChainOptions where
  baseUrl := "http://vllm:8000/v1"
  displayName := "vLLM"
  modelKeys := ["llama", "qwen"]

/-- Tables with an active provider, its two models and its credential; the second policy cannot be
created. The state is the number of policies that were created. -/
def refusing (created : Nat) : (o : sig.Op) → sig.Ans o × Nat
  | .listProviders _ => (.ok { data := [{ id := "p", baseUrl := some "http://vllm:8000/v1" }] }, created)
  | .listProviderModels .. =>
    (.ok { data := [{ id := "m1", modelKey := "llama" }, { id := "m2", modelKey := "qwen" }] }, created)
  | .listProviderCredentials .. => (.ok { data := [{ id := "k", providerId := "p" }] }, created)
  | .findRouteByKey _ => (.ok (some { id := "r" }), created)
  | .listRoutingPolicies _ => (.ok { data := [] }, created)
  | .createRoutingPolicy routeId providerId providerModelId _ _ _ =>
    if created = 0 then (.ok { id := "y", routeId, providerId, providerModelId }, 1)
    else (.error "503", created)
  | .createProvider .. => (.error "503", created)
  | .createProviderModel .. => (.error "503", created)
  | .enableProviderModel .. => (.error "503", created)
  | .createProviderCredential .. => (.error "503", created)
  | .enableProviderCredential .. => (.error "503", created)
  | .enableProvider .. => (.error "503", created)
  | .enableRoutingPolicy .. => (.error "503", created)

def lost : LlmProvisioningError where
  step := .routingPolicy
  messageKey := "console.llm.connect_step_failed"
  state :=
    { providerId := some "p"
      providerModelIds := ["m1", "m2"]
      keyRowId := some "k"
      providerEnabled := true
      routingPolicyIds := [] }
  trace :=
    [⟨.provider, .reused, some "p"⟩, ⟨.providerModel, .reused, some "llama"⟩,
      ⟨.providerModel, .reused, some "qwen"⟩, ⟨.providerCredential, .reused, some "k"⟩,
      ⟨.providerEnable, .skipped, none⟩, ⟨.routingPolicy, .created, some "y"⟩]
  cause := some "503"

def stopped : Stopped where
  step := .routingPolicy
  messageKey := "console.llm.connect_step_failed"
  cause := some "503"
  done :=
    [.provider "p" .reused, .model "m1" "llama" .reused, .model "m2" "qwen" .reused,
      .credential "k" .reused, .enable none .skipped, .policy "y" .created]

end Sample

open Sample in
/-- The first policy was created and the second one was not: the trace tells of the first, the state
does not. -/
theorem created_policy_lost : ∃ e f,
    ((runConnectChain connected).runWith refusing 0).2 = .error e ∧
      ((chain connected).runWith refusing 0).2 = .error f ∧
      f.done.getLast? = some (.policy "y" .created) ∧ e.trace = f.done.map Done.view ∧
      e.state.routingPolicyIds = [] ∧ ¬Reports e f :=
  ⟨lost, stopped, rfl, rfl, rfl, rfl, rfl, fun h => absurd h.state_eq (by decide)⟩

end Connect

end Moira.Console
