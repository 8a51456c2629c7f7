import Moira.Runner.System

/-!
# What a call of the runner service does

- **`runner_run`** — what the answers and the world keep holds at the end of every run
-/

namespace Moira.Runner

open Prog Service

/-! ## The protocol -/

section Protocol

variable (lib : Libraries) (config : RunnerConfig)

/-- The runner is in the last list of the call. -/
def Found (seen : Seen) (id : Uuid) (identity : RunnerIdentity) : Prop :=
  ∃ records, seen.listed = some records ∧
    identity ∈ records.filterMap (RunnerIdentity.fromRecord lib) ∧ identity.id = id

/-- The engine has failed the call with this error. -/
def EngineFailed (seen : Seen) (err : ServiceError) : Prop :=
  ∃ failure ∈ seen.failures, err = .ofEngine failure

/-- The list of the call does not have the runner. -/
def Missing (seen : Seen) (id : Uuid) : Prop :=
  ∃ records, seen.listed = some records ∧
    ∀ identity ∈ records.filterMap (RunnerIdentity.fromRecord lib), identity.id ≠ id

/-- A call that has not touched the stdin of a container. -/
structure Unwritten (seen : Seen) : Prop where
  attached : seen.attached = false
  wrote : seen.wrote = false
  recorded : seen.recorded = false
  answered : seen.answered = none

/-- What a code is submitted with. -/
structure Submits (call : Call) (seen : Seen) (container : ContainerId) (bytes : String) : Prop where
  found : ∃ id code identity, call = .submitCode id code ∧ Found lib seen id identity ∧
    identity.containerId = container ∧ bytes = code ++ "\r" ∧ seen.absent = some id
  clear : seen.clear = true
  wrote : seen.wrote = false
  recorded : seen.recorded = false
  answered : seen.answered = none

/-- Why a token is not handed out. -/
inductive TakeRefused (seen : Seen) (id : Uuid) : ServiceError → Prop
  | taken : TakeRefused seen id .tokenAlreadyRetrieved
  | missing : TakeRefused seen id .notFound
  | engine {err : ServiceError} (h : EngineFailed seen err) : TakeRefused seen id err
  /-- The call has found the runner with its token still in it. -/
  | other {err : ServiceError} (identity : RunnerIdentity) (hfound : Found lib seen id identity)
      (h : identity.consumed = false) : TakeRefused seen id err

/-- Why a code is not accepted. -/
inductive SubmitRefused (seen : Seen) (id : Uuid) (code : String) : ServiceError → Prop
  | invalid {err : ServiceError} (h : validateAuthorizationCode code = .error err)
      (hwrote : seen.wrote = false) : SubmitRefused seen id code err
  | missing (h : Missing lib seen id) (hwrote : seen.wrote = false) : SubmitRefused seen id code .notFound
  | engine {err : ServiceError} (h : EngineFailed seen err) : SubmitRefused seen id code err
  | wrongState (current : RunnerState) (hwrote : seen.wrote = false) :
      SubmitRefused seen id code (.wrongState current)

def MayAnswer (seen : Seen) : Call → Except ServiceError RunnerResponse → Prop
  | .takeToken id, .ok response => (∃ token, response = .token token) ∧
      ∃ identity, Found lib seen id identity ∧ seen.renamed = some identity.containerId
  | .takeToken id, .error err => TakeRefused lib seen id err
  | .submitCode _ _, .ok _ => seen.wrote = true ∧ seen.recorded = true
  | .submitCode id code, .error err => seen.recorded = false ∧ SubmitRefused lib seen id code err
  | _, .ok (.token _) => False
  | _, _ => True

def May (call : Call) (seen : Seen) : RunnerOp → Prop
  | .begin => seen.listed = none ∧ seen.renamed = none ∧ seen.answered = none
  | .listRunners => seen.answered = none ∧ seen.removed = none
  | .newId => seen.issued = none ∧ seen.created = false
  | .create spec => seen.created = false ∧ ∃ id expiresAt, seen.issued = some id ∧
      spec.labels = runnerLabels lib id expiresAt
  | .transcript _ => ∀ id code, call = .submitCode id code → seen.absent = none
  | .containsExchanging id => (∀ id' code, call = .submitCode id' code → id = id') ∧ Unwritten seen
  | .attach container => ∃ bytes, Submits lib call seen container bytes
  | .writeStdin container bytes => Submits lib call seen container bytes ∧ seen.attached = true
  | .insertExchanging id => seen.wrote = true ∧ seen.recorded = false ∧ seen.answered = none ∧
      seen.absent = some id ∧ ∃ code, call = .submitCode id code
  | .removeExchanging id => (∃ identity, Found lib seen id identity ∧
      (seen.token = some identity.containerId ∨ seen.removed = some identity.containerId)) ∧
      ∀ id' code, call ≠ .submitCode id' code
  | .rename container newName => seen.renamed = none ∧ ∃ id identity, call = .takeToken id ∧
      Found lib seen id identity ∧ identity.consumed = false ∧ identity.containerId = container ∧
      newName = consumedName identity.containerName
  | .answer result => seen.answered = none ∧ MayAnswer lib seen call result
  | _ => True

/-- A change that is reported was made. -/
def Answers : (o : RunnerOp) → o.Ans → Prop
  | .writeStdin .., reply => reply.result.isOk = true → reply.effective = true
  | _, _ => True

/-- What a call has shown when it renames a container, writes to one, forgets a code or answers. -/
def protocol (call : Call) : Contract runnerSig Seen where
  may := May lib call
  answers _ := Answers
  next := Seen.record config

end Protocol

/-! ## Calls -/

variable {lib : Libraries} {config : RunnerConfig} {call : Call} {seen : Seen} {α : Type}

variable {o : RunnerOp} {E : Seen → ServiceError → Prop}

theorem wp_ask {f : o.Ans → Service α} {Q : Seen → α → Prop} (hmay : May lib call seen o)
    (hanswer : ∀ x, Answers o x → wp (protocol lib config call) (f x) (seen.record config o x) Q E) :
    wp (protocol lib config call) (Service.ask o >>= f) seen Q E :=
  ⟨hmay, hanswer⟩

theorem wp_engine {result : Except EngineError α} {Q : Seen → α → Prop}
    (hok : ∀ a, result = .ok a → Q seen a)
    (herr : ∀ err, result = .error err → E seen (.ofEngine err)) :
    wp (protocol lib config call) (Service.engine result) seen Q E := by
  cases result with
  | ok a => exact hok a rfl
  | error err => exact herr err rfl

theorem wp_list {Q : Seen → List RunnerIdentity → Prop}
    (hnone : seen.answered = none ∧ seen.removed = none)
    (hok : ∀ records, Q { seen with listed := some records }
      (records.filterMap (RunnerIdentity.fromRecord lib)))
    (herr : ∀ err, E { seen with listed := none, failures := err :: seen.failures } (.ofEngine err)) :
    wp (protocol lib config call) (list lib) seen Q E := by
  refine wp_ask (o := .listRunners) hnone fun answer _ => ?_
  rw [wp_bind]
  cases answer with
  | ok records => exact hok records
  | error err => exact herr err

theorem wp_find {id : Uuid} {Q : Seen → RunnerIdentity → Prop}
    (hnone : seen.answered = none ∧ seen.removed = none)
    (hok : ∀ records identity, Found lib { seen with listed := some records } id identity →
      Q { seen with listed := some records } identity)
    (hmissing : ∀ records, Missing lib { seen with listed := some records } id →
      E { seen with listed := some records } .notFound)
    (herr : ∀ err, E { seen with listed := none, failures := err :: seen.failures } (.ofEngine err)) :
    wp (protocol lib config call) (find lib id) seen Q E := by
  unfold find
  rw [wp_bind]
  refine wp_list hnone (fun records => ?_) herr
  cases hfind : (records.filterMap (RunnerIdentity.fromRecord lib)).find? fun identity =>
      identity.id = id with
  | none =>
    refine wp_ofExcept (fun _ h => (nomatch h)) fun err h => ?_
    cases h
    refine hmissing records ⟨records, rfl, fun identity hmem => ?_⟩
    simpa using List.find?_eq_none.mp hfind identity hmem
  | some identity =>
    have hid : identity.id = id := by simpa using List.find?_some hfind
    exact hok records identity ⟨records, rfl, List.mem_of_find?_eq_some hfind, hid⟩

theorem record_transcript (config : RunnerConfig) (seen : Seen) (c : ContainerId)
    (transcript : TtyTranscript) :
    ∃ token, seen.record config (.transcript c) (.ok transcript) =
        { seen with token, clear := !showsOutcome config transcript } ∧
      ((extractToken transcript config.tokenPrefix).isSome = true → token = some c) :=
  ⟨_, rfl, fun htoken => if_pos htoken⟩

theorem wp_viewOf {identity : RunnerIdentity} {Q : Seen → RunnerView → Prop}
    (hid : ∀ id code, call = .submitCode id code → identity.id = id) (hunwritten : Unwritten seen)
    (habsent : seen.absent = none)
    (hok : ∀ token clear absent view,
      (view.state = .awaitingAuthorization → clear = true ∧ absent = some identity.id) →
        Q { seen with token, clear, absent } view)
    (herr : ∀ err, E { seen with failures := err :: seen.failures } (.ofEngine err)) :
    wp (protocol lib config call) (viewOf lib config identity) seen Q E := by
  refine wp_ask (o := .transcript _) (fun _ _ _ => habsent) fun answer _ => ?_
  rw [wp_bind]
  cases answer with
  | error err => exact herr err
  | ok transcript =>
    obtain ⟨token, hrecord, -⟩ := record_transcript config seen identity.containerId transcript
    rw [hrecord]
    refine wp_engine (fun a ha => ?_) fun err h => (nomatch h)
    cases ha
    refine wp_ask (o := .containsExchanging _)
      ⟨hid, hunwritten.attached, hunwritten.wrote, hunwritten.recorded, hunwritten.answered⟩
      fun submitted _ => ?_
    refine wp_ask (o := .utcNow) trivial fun now _ => ?_
    refine hok token _ _ _ fun hawaiting => ?_
    -- a code is awaited only of a runner that shows no outcome and is not in the set
    obtain ⟨htoken, hmarker, hsubmitted⟩ := deriveState_awaiting hawaiting
    refine ⟨?_, by rw [hsubmitted]; rfl⟩
    rw [showsOutcome, htoken, hmarker]
    rfl

/-- What a call has shown when it is over. -/
def Ends (lib : Libraries) (call : Call) (seen : Seen) (result : Except ServiceError RunnerResponse) :
    Prop :=
  seen.answered = none ∧ MayAnswer lib seen call result

/-- A call that leaves nothing to show. -/
def Call.isPlain : Call → Bool
  | .takeToken _ | .submitCode .. => false
  | _ => true

theorem ends_error (hplain : call.isPlain = true) (hanswered : seen.answered = none)
    (err : ServiceError) : Ends lib call seen (.error err) := by
  refine ⟨hanswered, ?_⟩
  cases call with
  | takeToken _ | submitCode _ _ => cases hplain
  | create _ _ | view _ | delete _ | reap _ => trivial

variable (id : Uuid)

theorem wp_submitCode (code : String) :
    wp (protocol lib config (.submitCode id code)) (submitCode lib config id code) {}
      (fun seen view => Ends lib (.submitCode id code) seen (.ok (.view view)))
      fun seen err => Ends lib (.submitCode id code) seen (.error err) := by
  unfold submitCode
  rw [wp_bind]
  refine wp_ofExcept (fun _ _ => ?_) fun err hinvalid => ⟨rfl, rfl, .invalid hinvalid rfl⟩
  rw [wp_bind]
  refine wp_find ⟨rfl, rfl⟩ (fun records identity hfound => ?_) (fun records hmissing => ?_) fun err => ?_
  · have hid : identity.id = id := by
      obtain ⟨_, _, _, hid⟩ := hfound
      exact hid
    rw [wp_bind]
    refine wp_viewOf (fun id' code' hcall => ?_) ⟨rfl, rfl, rfl, rfl⟩ rfl (fun token clear absent view hview => ?_)
      fun err => ⟨rfl, rfl, .engine ⟨err, List.mem_cons_self, rfl⟩⟩
    · cases hcall
      exact hid
    · by_cases hstate : view.state ≠ .awaitingAuthorization
      · rw [if_pos hstate]
        refine wp_ofExcept (fun _ h => (nomatch h)) fun err herr => ?_
        cases herr
        exact ⟨rfl, rfl, .wrongState _ rfl⟩
      · rw [if_neg hstate]
        obtain ⟨rfl, habsent⟩ := hview (not_not.mp hstate)
        rw [hid] at habsent
        subst habsent
        have hsubmits : ∀ attached, Submits lib (.submitCode id code)
            ({ listed := some records, token, clear := true, absent := some id, attached } : Seen)
              identity.containerId (code ++ "\r") :=
          fun attached => ⟨⟨id, code, identity, rfl, hfound, rfl, rfl, rfl⟩, rfl, rfl, rfl, rfl⟩
        show wp _ (Service.ask (.attach _) >>= _) _ _ _
        refine wp_ask (o := .attach _) ⟨_, hsubmits false⟩ fun attached _ => ?_
        cases attached with
        | error err => exact ⟨rfl, rfl, .engine ⟨err, List.mem_cons_self, rfl⟩⟩
        | ok _ =>
          refine wp_ask (o := .writeStdin ..) ⟨hsubmits true, rfl⟩ fun reply hreply => ?_
          obtain ⟨result, effective⟩ := reply
          cases result with
          | error err => exact ⟨rfl, rfl, .engine ⟨err, List.mem_cons_self, rfl⟩⟩
          | ok _ =>
            obtain rfl : effective = true := hreply rfl
            refine wp_ask (o := .insertExchanging _) ⟨rfl, rfl, rfl, rfl, code, rfl⟩ fun _ _ => ?_
            exact ⟨rfl, rfl, rfl⟩
  · exact ⟨rfl, rfl, .missing hmissing rfl⟩
  · exact ⟨rfl, rfl, .engine ⟨err, List.mem_cons_self, rfl⟩⟩

theorem wp_takeTokenGated :
    wp (protocol lib config (.takeToken id)) (takeTokenGated lib config id) {}
      (fun seen token => Ends lib (.takeToken id) seen (.ok (.token token)))
      fun seen err => Ends lib (.takeToken id) seen (.error err) := by
  unfold takeTokenGated
  rw [wp_bind]
  refine wp_find ⟨rfl, rfl⟩ (fun records identity hfound => ?_) (fun records hmissing => ⟨rfl, .missing⟩)
    fun err => ⟨rfl, .engine ⟨err, List.mem_cons_self, rfl⟩⟩
  cases hconsumed : identity.consumed with
  | true =>
    rw [if_pos rfl]
    refine wp_ofExcept (fun _ h => (nomatch h)) fun err herr => ?_
    cases herr
    exact ⟨rfl, .taken⟩
  | false =>
    rw [if_neg Bool.false_ne_true, wp_bind]
    refine wp_viewOf (fun _ _ hcall => (nomatch hcall)) ⟨rfl, rfl, rfl, rfl⟩ rfl (fun token clear absent view _ => ?_)
      fun err => ⟨rfl, .engine ⟨err, List.mem_cons_self, rfl⟩⟩
    by_cases hstate : view.state ≠ .ready
    · rw [if_pos hstate]
      exact wp_ofExcept (fun _ h => (nomatch h)) fun err _ => ⟨rfl, .other identity hfound hconsumed⟩
    · rw [if_neg hstate]
      refine wp_ask (o := .transcript _) (fun _ _ hcall => (nomatch hcall)) fun answer _ => ?_
      rw [wp_bind]
      cases answer with
      | error err => exact ⟨rfl, .engine ⟨err, List.mem_cons_self, rfl⟩⟩
      | ok transcript =>
        obtain ⟨token', hrecord, htoken⟩ := record_transcript config
          ({ listed := some records, token, clear, absent } : Seen) identity.containerId transcript
        rw [hrecord]
        refine wp_engine (fun a ha => ?_) fun err h => (nomatch h)
        cases ha
        cases hextract : extractToken transcript config.tokenPrefix with
        | none => exact wp_ofExcept (fun _ h => (nomatch h)) fun err _ => ⟨rfl, .other identity hfound hconsumed⟩
        | some minted =>
          obtain rfl := htoken (by rw [hextract]; rfl)
          refine wp_ask (o := .rename ..) ⟨rfl, id, identity, rfl, hfound, hconsumed, rfl, rfl⟩
            fun reply _ => ?_
          obtain ⟨result, effective⟩ := reply
          cases result with
          | error err => exact ⟨rfl, .engine ⟨err, List.mem_cons_self, rfl⟩⟩
          | ok _ =>
            refine wp_ask (o := .removeExchanging _)
              ⟨⟨identity, hfound, .inl rfl⟩, fun _ _ hcall => (nomatch hcall)⟩ fun _ _ => ?_
            exact ⟨rfl, ⟨minted, rfl⟩, identity, hfound, rfl⟩

theorem wp_takeToken :
    wp (protocol lib config (.takeToken id)) (takeToken lib config id) {}
      (fun seen token => Ends lib (.takeToken id) seen (.ok (.token token)))
      fun seen err => Ends lib (.takeToken id) seen (.error err) := by
  refine wp_ask (o := .lockGate) trivial fun _ _ => ?_
  rw [wp_bind, wp_attempt]
  refine wp_mono (wp_takeTokenGated id) (fun seen token hends => ?_) fun seen err hends => ?_
  · exact wp_ask (o := .unlockGate) trivial fun _ _ => hends
  · exact wp_ask (o := .unlockGate) trivial fun _ _ => hends

theorem wp_reapEach (now : Nat) (identities : List RunnerIdentity) (reaped : Nat)
    (hfound : ∀ identity ∈ identities, Found lib seen identity.id identity)
    (hcall : ∀ id code, call ≠ .submitCode id code) {Q : Seen → Nat → Prop}
    (hok : ∀ removed failures n, Q { seen with removed, failures } n) :
    wp (protocol lib config call) (reapEach now identities reaped) seen Q E := by
  induction identities generalizing seen reaped with
  | nil => exact hok seen.removed seen.failures reaped
  | cons identity rest ih =>
    have hrest : ∀ identity ∈ rest, Found lib seen identity.id identity :=
      fun identity hmem => hfound identity (List.mem_cons_of_mem _ hmem)
    unfold reapEach
    split
    · exact ih reaped hrest hok
    · refine wp_ask (o := .remove _) trivial fun reply _ => ?_
      obtain ⟨result, effective⟩ := reply
      cases result with
      | error err => exact ih reaped hrest fun removed failures n => hok removed failures n
      | ok _ =>
        refine wp_ask (o := .removeExchanging _)
          ⟨⟨identity, hfound identity List.mem_cons_self, .inr rfl⟩, hcall⟩ fun _ _ => ?_
        exact ih (reaped + 1) hrest fun removed failures n => hok removed failures n

theorem wp_delete :
    wp (protocol lib config (.delete id)) (delete lib id) {}
      (fun seen _ => Ends lib (.delete id) seen (.ok .deleted))
      fun seen err => Ends lib (.delete id) seen (.error err) := by
  unfold delete
  rw [wp_bind, wp_attempt]
  refine wp_find ⟨rfl, rfl⟩ (fun records identity hfound => ?_) (fun records _ => ⟨rfl, trivial⟩) fun err => ?_
  · refine wp_ask (o := .remove _) trivial fun reply _ => ?_
    rw [wp_bind]
    obtain ⟨result, effective⟩ := reply
    refine wp_engine (fun _ hresult => ?_) fun err hresult => ?_
    · cases hresult
      exact ⟨⟨⟨identity, hfound, .inr rfl⟩, fun _ _ hcall => (nomatch hcall)⟩, fun _ _ => ⟨rfl, trivial⟩⟩
    · cases hresult
      exact ends_error rfl rfl _
  · cases err with
    | notFound => exact ⟨rfl, trivial⟩
    | unavailable _ | conflict | failed _ => exact ends_error rfl rfl _

theorem wp_create (label : String) (ttlSeconds : Option Nat) :
    wp (protocol lib config (.create label ttlSeconds)) (create lib config label ttlSeconds) {}
      (fun seen view => Ends lib (.create label ttlSeconds) seen (.ok (.view view)))
      fun seen err => Ends lib (.create label ttlSeconds) seen (.error err) := by
  unfold create
  rw [wp_bind]
  refine wp_ofExcept (fun _ _ => ?_) fun err _ => ends_error rfl rfl err
  rw [wp_bind]
  refine wp_ofExcept (fun ttl _ => ?_) fun err _ => ends_error rfl rfl err
  refine wp_ask (o := .newId) ⟨rfl, rfl⟩ fun id _ => ?_
  refine wp_ask (o := .utcNow) trivial fun now _ => ?_
  rw [wp_bind]
  refine wp_ofExcept (fun duration _ => ?_) fun err _ => ends_error rfl rfl err
  refine wp_ask (o := .create _) ⟨rfl, id, _, rfl, rfl⟩ fun created _ => ?_
  obtain ⟨containerId, result, effective⟩ := created
  cases result with
  | error err => exact ends_error rfl rfl _
  | ok _ =>
    refine wp_ask (o := .start _) trivial fun reply _ => ?_
    obtain ⟨result, effective⟩ := reply
    cases result with
    | error err =>
      refine wp_ask (o := .remove _) trivial fun removed _ => ends_error rfl ?_ _
      obtain ⟨result, effective⟩ := removed
      cases result <;> rfl
    | ok _ => exact ⟨rfl, trivial⟩

theorem wp_view :
    wp (protocol lib config (.view id)) (view lib config id) {}
      (fun seen view => Ends lib (.view id) seen (.ok (.view view)))
      fun seen err => Ends lib (.view id) seen (.error err) := by
  unfold view
  rw [wp_bind]
  refine wp_find ⟨rfl, rfl⟩ (fun records identity hfound => ?_) (fun records _ => ends_error rfl rfl _)
    fun err => ends_error rfl rfl _
  exact wp_viewOf (fun _ _ hcall => (nomatch hcall)) ⟨rfl, rfl, rfl, rfl⟩ rfl
    (fun token clear absent view _ => ⟨rfl, trivial⟩) fun err => ends_error rfl rfl _

theorem wp_reap (now : Nat) :
    wp (protocol lib config (.reap now)) (reap lib now) {}
      (fun seen count => Ends lib (.reap now) seen (.ok (.reaped count)))
      fun seen err => Ends lib (.reap now) seen (.error err) := by
  unfold reap
  rw [wp_bind]
  refine wp_list ⟨rfl, rfl⟩ (fun records => ?_) fun err => ends_error rfl rfl _
  have hcall : ∀ id code, Call.reap now ≠ .submitCode id code := fun _ _ hcall => (nomatch hcall)
  exact wp_reapEach now _ 0 (fun identity hmem => ⟨records, rfl, hmem, rfl⟩) hcall
    fun removed failures n => ⟨rfl, trivial⟩

theorem wp_run (call : Call) :
    wp (protocol lib config call) (run lib config call) {}
      (fun seen response => Ends lib call seen (.ok response))
      fun seen err => Ends lib call seen (.error err) := by
  cases call with
  | create label ttlSeconds =>
    exact wp_bind.mpr (wp_mono (wp_create label ttlSeconds) (fun _ _ h => h) fun _ _ h => h)
  | view id => exact wp_bind.mpr (wp_mono (wp_view id) (fun _ _ h => h) fun _ _ h => h)
  | submitCode id code =>
    exact wp_bind.mpr (wp_mono (wp_submitCode id code) (fun _ _ h => h) fun _ _ h => h)
  | takeToken id => exact wp_bind.mpr (wp_mono (wp_takeToken id) (fun _ _ h => h) fun _ _ h => h)
  | delete id => exact wp_bind.mpr (wp_mono (wp_delete id) (fun _ _ h => h) fun _ _ h => h)
  | reap now => exact wp_bind.mpr (wp_mono (wp_reap now) (fun _ _ h => h) fun _ _ h => h)

/-- **Every call keeps the protocol.** -/
theorem wp_code (call : Call) :
    wp (protocol lib config call) (code lib config call ()) {} (fun _ next => next = none)
      fun _ _ => True := by
  refine ⟨⟨rfl, rfl, rfl⟩, fun _ _ => ?_⟩
  show wp _ ((run lib config call).attempt >>= _) _ _ _
  rw [wp_bind, wp_attempt]
  refine wp_mono (wp_run call) (fun seen response hends => ?_) fun seen err hends => ?_
  · exact ⟨hends, fun _ _ => rfl⟩
  · exact ⟨hends, fun _ _ => rfl⟩

/-! ## What an answer does to the world -/

/-- The engine answers an error and has changed nothing. -/
def Fails : (o : RunnerOp) → o.Ans → Prop
  | .listRunners, answer => answer.isOk = false
  | .transcript _, answer => answer.isOk = false
  | .attach _, answer => answer.isOk = false
  | .writeStdin .., reply | .rename .., reply | .remove _, reply | .start _, reply
  | .create _, (_, reply) => reply.effective = false ∧ reply.result.isOk = false
  | _, _ => False

/-- What a granted answer does to the world. -/
inductive Responds (lib : Libraries) (requests : Nat → Request) (w : World) (i : Nat) :
    (o : RunnerOp) → o.Ans → World → Prop
  | begin : Responds lib requests w i .begin ()
      { w with before := Function.update w.before i w.handed }
  | locked (gate : Nat → Option Nat) : Responds lib requests w i .lockGate () { w with gate }
  | unlocked (gate : Nat → Option Nat) : Responds lib requests w i .unlockGate () { w with gate }
  | listed (records : List ContainerRecord) (h : records.Perm w.records) :
      Responds lib requests w i .listRunners (.ok records) w
  | transcript {c : ContainerId} {k : Container} (h : w.present c = some k) :
      Responds lib requests w i (.transcript c) (.ok k.transcript) w
  | attached (c : ContainerId) : Responds lib requests w i (.attach c) (.ok ()) w
  | wrote {c : ContainerId} {k : Container} (bytes : String) (result : Except EngineError Unit)
      (h : w.present c = some k) :
      Responds lib requests w i (.writeStdin c bytes) ⟨result, true⟩ (w.write i c bytes)
  | renamed {c : ContainerId} {k : Container} {newName : String} (result : Except EngineError Unit)
      (h : w.present c = some k) (hname : w.nameTaken newName = false) :
      Responds lib requests w i (.rename c newName) ⟨result, true⟩
        (w.modify c fun k => { k with name := newName })
  | removed (c : ContainerId) (result : Except EngineError Unit) :
      Responds lib requests w i (.remove c) ⟨result, true⟩
        (w.modify c fun k => { k with removed := true })
  | created {spec : ContainerSpec} {id : ContainerId} (result : Except EngineError Unit)
      (hid : ∀ c ∈ w.containers, c.id ≠ id) :
      Responds lib requests w i (.create spec) (id, ⟨result, true⟩)
        { w with containers := { id, name := spec.name, labels := spec.labels } :: w.containers }
  | started (c : ContainerId) (result : Except EngineError Unit) :
      Responds lib requests w i (.start c) ⟨result, true⟩
        (w.modify c fun k => { k with running := true })
  | contains (id : Uuid) : Responds lib requests w i (.containsExchanging id)
      ((w.exchanging (requests i).process).contains id) w
  | inserted (id : Uuid) : Responds lib requests w i (.insertExchanging id) ()
      (w.insertExchanging (requests i).process id)
  | forgot (id : Uuid) : Responds lib requests w i (.removeExchanging id) ()
      (w.removeExchanging (requests i).process id)
  | utcNow : Responds lib requests w i .utcNow w.now w
  | issued {id : Uuid} (h : w.freshId lib id = true) :
      Responds lib requests w i .newId id { w with issued := id :: w.issued }
  | handed {id : Uuid} (hcall : (requests i).call = .takeToken id) (token : MintedToken) :
      Responds lib requests w i (.answer (.ok (.token token))) () { w with handed := id :: w.handed }
  | answered (result : Except ServiceError RunnerResponse)
      (h : ∀ token id, result = .ok (.token token) → (requests i).call ≠ .takeToken id) :
      Responds lib requests w i (.answer result) () w
  | failed {o : RunnerOp} {x : o.Ans} (h : Fails o x) : Responds lib requests w i o x w

variable {requests : Nat → Request}

section Responds

variable {w w' : World} {i : Nat}

theorem change_cases {reply : EngineReply} {possible : Bool} {changed : World}
    (h : w.change reply possible changed = some w') :
    (reply.effective = true ∧ possible = true ∧ w' = changed) ∨
      (reply.effective = false ∧ reply.result.isOk = false ∧ w' = w) := by
  obtain ⟨result, effective⟩ := reply
  unfold World.change at h
  cases effective with
  | true =>
    simp only [if_true] at h
    split at h
    · next hpossible => exact .inl ⟨rfl, hpossible, (Option.some.inj h).symm⟩
    · cases h
  | false =>
    cases result with
    | ok _ => cases h
    | error err => exact .inr ⟨rfl, rfl, (Option.some.inj h).symm⟩

variable {x : o.Ans}

/-- **What a granted answer can be.** -/
theorem responds_of_respond (h : w.respond lib requests i o x = some w') :
    Responds lib requests w i o x w' := by
  cases o with
  | begin =>
    cases h
    exact .begin
  | lockGate =>
    simp only [World.respond] at h
    split at h
    · cases h
      exact .locked _
    · cases h
  | unlockGate =>
    cases h
    exact .unlocked _
  | listRunners =>
    cases x with
    | ok records =>
      simp only [World.respond] at h
      split at h
      · next hperm =>
        cases h
        exact .listed records hperm
      · cases h
    | error err =>
      cases h
      exact .failed rfl
  | transcript c =>
    cases x with
    | ok transcript =>
      simp only [World.respond] at h
      split at h
      · next hany =>
        cases h
        obtain ⟨k, hk, htranscript⟩ := (Option.any_eq_true ..).mp hany
        obtain rfl : k.transcript = transcript := by simpa using htranscript
        exact .transcript hk
      · cases h
    | error err =>
      cases h
      exact .failed rfl
  | attach c =>
    cases x with
    | ok _ =>
      simp only [World.respond] at h
      split at h
      · cases h
        exact .attached c
      · cases h
    | error err =>
      cases h
      exact .failed rfl
  | writeStdin c bytes =>
    obtain ⟨result, effective⟩ := x
    rcases change_cases h with ⟨heffective, hpossible, rfl⟩ | ⟨heffective, hresult, rfl⟩
    · obtain ⟨k, hk⟩ := Option.isSome_iff_exists.mp hpossible
      obtain rfl : effective = true := heffective
      exact .wrote bytes result hk
    · exact .failed ⟨heffective, hresult⟩
  | rename c newName =>
    obtain ⟨result, effective⟩ := x
    rcases change_cases h with ⟨heffective, hpossible, rfl⟩ | ⟨heffective, hresult, rfl⟩
    · rw [Bool.and_eq_true, Bool.not_eq_true'] at hpossible
      obtain ⟨k, hk⟩ := Option.isSome_iff_exists.mp hpossible.1
      obtain rfl : effective = true := heffective
      exact .renamed result hk hpossible.2
    · exact .failed ⟨heffective, hresult⟩
  | remove c =>
    obtain ⟨result, effective⟩ := x
    rcases change_cases h with ⟨heffective, -, rfl⟩ | ⟨heffective, hresult, rfl⟩
    · obtain rfl : effective = true := heffective
      exact .removed c result
    · exact .failed ⟨heffective, hresult⟩
  | create spec =>
    obtain ⟨id, result, effective⟩ := x
    rcases change_cases h with ⟨heffective, hpossible, rfl⟩ | ⟨heffective, hresult, rfl⟩
    · rw [Bool.and_eq_true, List.all_eq_true] at hpossible
      obtain rfl : effective = true := heffective
      exact .created result fun c hc => by simpa using hpossible.2 c hc
    · exact .failed ⟨heffective, hresult⟩
  | start c =>
    obtain ⟨result, effective⟩ := x
    rcases change_cases h with ⟨heffective, -, rfl⟩ | ⟨heffective, hresult, rfl⟩
    · obtain rfl : effective = true := heffective
      exact .started c result
    · exact .failed ⟨heffective, hresult⟩
  | containsExchanging id =>
    simp only [World.respond] at h
    split at h
    · next hcontains =>
      cases h
      subst hcontains
      exact .contains id
    · cases h
  | insertExchanging id =>
    cases h
    exact .inserted id
  | removeExchanging id =>
    cases h
    exact .forgot id
  | utcNow =>
    simp only [World.respond] at h
    split at h
    · next hnow =>
      cases h
      subst hnow
      exact .utcNow
    · cases h
  | newId =>
    simp only [World.respond] at h
    split at h
    · next hfresh =>
      cases h
      exact .issued hfresh
    · cases h
  | answer result =>
    cases result with
    | error err =>
      cases h
      exact .answered _ fun _ _ hok => (nomatch hok)
    | ok response =>
      cases response with
      | token token =>
        simp only [World.respond] at h
        split at h
        · next id hcall =>
          cases h
          exact .handed hcall token
        · next hcall =>
          cases h
          exact .answered _ fun _ id _ => hcall id
      | view _ | deleted | reaped _ =>
        cases h
        exact .answered _ fun _ _ hok => (nomatch hok)

theorem seen_of_responds (h : Responds lib requests w i o x w') : w'.seen = w.seen := by
  cases h <;> rfl

theorem answers_of_responds (h : Responds lib requests w i o x w') : Answers o x := by
  cases h with
  | wrote bytes result _ => exact fun _ => rfl
  | failed hfails =>
    cases o with
    | writeStdin c bytes =>
      intro hok
      rw [hfails.2] at hok
      cases hok
    | begin | lockGate | unlockGate | listRunners | transcript _ | attach _ | rename _ _ | remove _
    | create _ | start _ | containsExchanging _ | insertExchanging _ | removeExchanging _ | utcNow
    | newId | answer _ => trivial
  | begin | locked | unlocked | listed | transcript | attached | renamed | removed | created | started
  | contains | inserted | forgot | utcNow | issued | handed | answered => trivial

end Responds

/-! ## Runs -/

variable {G : Nat → World → RunnerOp → Prop} {I : World → Prop}

/-- An assertion that the answers keep under the guard, and the world on its own. -/
structure Keeps (lib : Libraries) (config : RunnerConfig) (requests : Nat → Request)
    (G : Nat → World → RunnerOp → Prop) (I : World → Prop) : Prop where
  act : ∀ i w o x w', I w → G i w o → May lib (requests i).call (w.seen i) o →
    (w.gone i = false ∨ o.detached = true) → Responds lib requests w i o x w' →
      I (w'.see config i o x)
  nature : ∀ w e w', I w → nature config w e = some w' → I w'

/-- What a call has seen decides what it does next. -/
def AtStart (seen : Seen) : Prop :=
  seen = {}

def runnerOutline (h : Keeps lib config requests G I) :
    System.Outline (runner lib config requests) where
  Ghost _ := Seen
  contract i := protocol lib config (requests i).call
  at_ _ _ := AtStart
  shared w γ := (∀ i, γ i = w.seen i) ∧ I w
  guard := G
  code_ok i l g hl := by
    obtain rfl : g = {} := hl
    refine wp_mono (wp_code (requests i).call) (fun _ next hnone l' hsome => ?_) fun _ _ h => h
    rw [hnone] at hsome
    cases hsome
  act_ok i w o x w' γ hshared hguard hmay hgrant := by
    obtain ⟨hγ, hI⟩ := hshared
    rw [hγ i] at hmay
    have hgrant : (if w.dead (requests i).process || (w.gone i && !o.detached) then none
        else (w.respond lib requests i o x).map fun w' => w'.see config i o x) = some w' := hgrant
    split at hgrant
    · cases hgrant
    · next hlive =>
      obtain ⟨w₁, hrespond, rfl⟩ := Option.map_eq_some_iff.mp hgrant
      have hresponds := responds_of_respond hrespond
      have hgone : w.gone i = false ∨ o.detached = true := by
        cases hgone : w.gone i <;> cases hdetached : o.detached <;> simp [hgone, hdetached] at hlive ⊢
      refine ⟨answers_of_responds hresponds, fun j => ?_,
        h.act i w o x w₁ hI hguard hmay hgone hresponds⟩
      show Function.update γ i ((γ i).record config o x) j =
        Function.update w₁.seen i ((w₁.seen i).record config o x) j
      rw [seen_of_responds hresponds, hγ i, funext hγ]
  nature_ok w e w' γ hshared hnature := by
    refine ⟨fun j => ?_, h.nature w e w' hshared.2 hnature⟩
    rw [hshared.1 j]
    cases e <;> cases hnature <;> rfl

/-- **The proof rule**: what the answers and the world keep under the guard holds at the end of
every run that meets it. -/
theorem runner_run (h : Keeps lib config requests G I) {containers : List Container}
    {s : (runner lib config requests).State} {moves : List (runner lib config requests).Move}
    (hI : I { containers })
    (hmeets : Transition.Meets (runner lib config requests).step (System.Guarded G)
      (runnerInitial lib config requests containers) moves)
    (hrun : Transition.runFrom (runner lib config requests).step
      (runnerInitial lib config requests containers) moves = some s) : I s.world := by
  have hholds : (runnerOutline h).Holds (runnerInitial lib config requests containers) :=
    ⟨fun _ => {}, ⟨fun _ => rfl, hI⟩, fun i => (runnerOutline h).code_ok i () {} rfl⟩
  obtain ⟨γ, ⟨-, hI'⟩, -⟩ := (runnerOutline h).guarded hholds hmeets hrun
  exact hI'

/-- What is kept holds after every run. -/
theorem runner_invariant (h : Keeps lib config requests (fun _ _ _ => True) I)
    {containers : List Container} {s : (runner lib config requests).State}
    {moves : List (runner lib config requests).Move} (hI : I { containers })
    (hrun : Transition.runFrom (runner lib config requests).step
      (runnerInitial lib config requests containers) moves = some s) : I s.world := by
  have hholds : (runnerOutline h).Holds (runnerInitial lib config requests containers) :=
    ⟨fun _ => {}, ⟨fun _ => rfl, hI⟩, fun i => (runnerOutline h).code_ok i () {} rfl⟩
  obtain ⟨γ, ⟨-, hI'⟩, -⟩ := (runnerOutline h).invariant (fun _ _ _ => trivial) hholds hrun
  exact hI'

end Moira.Runner
