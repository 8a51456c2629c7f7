import Moira.Conversations.Properties.Protocol
import Moira.Conversations.Properties.Tables

/-!
# Steps of conversation calls
-/

namespace Moira.Conversations

open Prog Transition

/-! ## What a step does -/

variable {i : Nat}

section Steps

variable {deployment : Deployment} {w w' : World}

theorem gives_of_run {s : Statement} {moment : Moment} {t t' : Tables} {a : s.Value}
    (h : s.run deployment.distance moment t = .ok (a, t')) : Gives s a := by
  cases s with
  | conversation s =>
    obtain ⟨tables, hrun, -⟩ := Statement.run_conversation h
    cases s with
    | findConversationAuthorized id access =>
      obtain ⟨row, hrow, hread⟩ := Fallible.bind_eq_ok.mp hrun
      cases hread
      obtain ⟨hlive, hsees⟩ := ConversationTables.findConversationAuthorized_ok hrow
      exact ⟨(Rows.find_some (ConversationTables.liveConversation_ok hlive).1).2, hsees⟩
    | findConversationContextAnchor id =>
      cases hrun
      intro anchor hanchor
      unfold ConversationTables.findConversationContextAnchor at hanchor
      split at hanchor
      · next conversation hlive =>
        obtain rfl := Option.some.inj hanchor
        exact (Rows.find_some (ConversationTables.liveConversation_ok hlive).1).2
      · cases hanchor
    | _ => trivial
  | memory s =>
    obtain ⟨tables, hrun, -⟩ := Statement.run_memory h
    cases s with
    | createMemory insert =>
      have hcreated := (MemoryTables.createMemory_ok hrun).1
      exact ⟨hcreated.id, hcreated.owner, congrArg Digest.text hcreated.contentHash⟩
    | insertExtractedMemory insert =>
      have hextracted := (MemoryTables.insertExtractedMemory_ok hrun).1
      exact ⟨hextracted.id, hextracted.owner, hextracted.contentHash⟩
    | _ => trivial
  | document s =>
    obtain ⟨tables, hrun, -⟩ := Statement.run_document h
    cases s with
    | findCollectionTarget id =>
      obtain ⟨target, htarget, hread⟩ := Fallible.bind_eq_ok.mp hrun
      cases hread
      obtain ⟨collection, hlive, hid, -⟩ := DocumentTables.findCollectionTarget_ok htarget
      exact hid.trans (Rows.find_some (DocumentTables.liveCollection_ok hlive).1).2
    | _ => trivial
  | policy s => trivial

theorem perform_cases {s : Statement} {x : Except AppError s.Value}
    (h : w.perform deployment s x = some w') :
    (∃ a tables, x = .ok a ∧ s.run deployment.distance w.moment w.tables = .ok (a, tables) ∧
      w' = { w with tables }) ∨ (∃ err, x = .error err) ∧ w' = w := by
  cases x with
  | ok a =>
    simp only [World.perform] at h
    split at h
    · next b tables hrun =>
      split at h
      · next hvalue =>
        subst hvalue
        exact .inl ⟨a, tables, rfl, hrun, (Option.some.inj h).symm⟩
      · cases h
    · cases h
  | error err => exact .inr ⟨⟨err, rfl⟩, (Option.some.inj h).symm⟩

theorem grant_statement {s : Statement} {x : Except AppError s.Value}
    (h : grant deployment i w (.statement s) x = some w') :
    (∃ a, x = .ok a ∧ s.run deployment.distance w.moment w.tables = .ok (a, w'.tables)) ∨
      (∃ err, x = .error err) ∧ w'.tables = w.tables := by
  obtain ⟨next, hrespond, rfl⟩ := Option.map_eq_some_iff.mp h
  rcases perform_cases hrespond with ⟨a, tables, hx, hrun, rfl⟩ | ⟨herr, rfl⟩
  · exact .inl ⟨a, hx, hrun⟩
  · exact .inr ⟨herr, rfl⟩

theorem tryLock_cases {conversationId : Uuid} {acquired : Bool}
    (h : w.tryLock i conversationId acquired = some w') : ∃ locks, w' = { w with locks } := by
  unfold World.tryLock at h
  simp only at h
  split at h
  · obtain rfl := Option.some.inj h
    split
    · exact ⟨_, rfl⟩
    · exact ⟨w.locks, rfl⟩
  · cases h

theorem recordMemory_eq (seen : Seen) (s : MemoryStatement) (a : s.Value) :
    ∃ written looked, seen.recordMemory s a = { seen with written, looked } := by
  cases s with
  | findMemoryByContentHash scope contentHash => cases a <;> exact ⟨_, _, rfl⟩
  | _ => exact ⟨_, _, rfl⟩

theorem recordDocument_eq (seen : Seen) (s : DocumentStatement) (a : s.Value) :
    ∃ place target collection, seen.recordDocument s a = { seen with place, target, collection } := by
  cases s <;> exact ⟨_, _, _, rfl⟩

theorem recordPolicy_eq (seen : Seen) (s : PolicyStatement) (a : s.Value) :
    ∃ policy memoryPolicy retrieval target,
      seen.recordPolicy s a = { seen with policy, memoryPolicy, retrieval, target } := by
  cases s <;> exact ⟨_, _, _, _, rfl⟩

/-- What a call writes down without a statement. -/
inductive Idles (seen : Seen) : Seen → Prop
  | rest : Idles seen seen
  | asked (messages : List DomainMessage) : Idles seen { seen with asked := some messages }
  | answered : Idles seen {}

/-- A call that makes no statement has read nothing more. -/
theorem Idles.kept {seen seen' : Seen} {α : Type} {f : Seen → Option α} {a : α} (h : Idles seen seen')
    (hempty : f {} = none) (hasked : ∀ messages, f { seen with asked := some messages } = f seen)
    (ha : f seen' = some a) : f seen = some a := by
  cases h with
  | rest => exact ha
  | asked messages => exact hasked messages ▸ ha
  | answered => exact nomatch hempty.symm.trans ha

/-- A step that makes no statement, or whose statement has come back with an error. -/
structure IdleStep (w w' : World) (i : Nat) (seen' : Seen) : Prop where
  tables : w'.tables = w.tables
  moment : w'.moment = w.moment
  idles : Idles (w.seen i) seen'
  seen : w'.seen = Function.update w.seen i seen'
  opened : w'.opened = (w.begin i).opened
  lookups : w'.lookups = w.lookupsWith i seen'

/-- A step that makes a statement. -/
structure StatementStep (deployment : Deployment) (w w' : World) (i : Nat) (s : Statement) (a : s.Value) :
    Prop where
  run : s.run deployment.distance w.moment w.tables = .ok (a, w'.tables)
  gives : Gives s a
  moment : w'.moment = w.moment
  seen : w'.seen = Function.update w.seen i ((w.seen i).recordStatement s a)
  opened : w'.opened = (w.begin i).opened
  lookups : w'.lookups = w.lookupsWith i ((w.seen i).recordStatement s a)

/-- A step makes a statement, or leaves the tables alone. -/
theorem grant_cases {o : ConversationOp} {x : o.Ans} (h : grant deployment i w o x = some w') :
    Answers o x ∧ (IdleStep w w' i ((w.seen i).record o x) ∨
      ∃ s a, (⟨o, x⟩ : Exchange conversationSig) = ⟨.statement s, .ok a⟩ ∧
        StatementStep deployment w w' i s a) := by
  obtain ⟨next, hrespond, rfl⟩ := Option.map_eq_some_iff.mp h
  -- what an operation that is no statement does to the world
  have hidle : next.tables = w.tables → next.moment = w.moment → next.seen = w.seen →
      next.opened = (w.begin i).opened → next.lookups = w.lookups →
          Idles (w.seen i) ((w.seen i).record o x) →
        IdleStep w (next.see i o x) i ((w.seen i).record o x) := by
    intro htables hmoment hseen hopened hlookups hidles
    refine ⟨htables, hmoment, hidles, ?_, hopened, ?_⟩
    · show Function.update next.seen i ((next.seen i).record o x) = _
      rw [hseen]
    · show next.lookupsWith i ((next.seen i).record o x) = _
      unfold World.lookupsWith
      rw [hseen, hlookups]
  cases o with
  | statement s =>
    rcases perform_cases hrespond with ⟨a, tables, rfl, hrun, rfl⟩ | ⟨⟨err, rfl⟩, rfl⟩
    · exact ⟨gives_of_run hrun, .inr ⟨s, a, rfl, hrun, gives_of_run hrun, rfl, rfl, rfl, rfl⟩⟩
    · exact ⟨trivial, .inl (hidle rfl rfl rfl rfl rfl .rest)⟩
  | tryLock conversationId =>
    refine ⟨trivial, .inl ?_⟩
    cases x with
    | ok acquired =>
      obtain ⟨locks, rfl⟩ := tryLock_cases hrespond
      exact hidle rfl rfl rfl rfl rfl .rest
    | error err =>
      obtain rfl := Option.some.inj hrespond
      exact hidle rfl rfl rfl rfl rfl .rest
  | unlock conversationId =>
    obtain rfl := Option.some.inj hrespond
    exact ⟨trivial, .inl (hidle rfl rfl rfl rfl rfl .rest)⟩
  | memoryContentHash content =>
    cases x with
    | ok contentHash =>
      simp only [World.respond] at hrespond
      split at hrespond
      · next htext =>
        obtain rfl := Option.some.inj hrespond
        exact ⟨htext, .inl (hidle rfl rfl rfl rfl rfl .rest)⟩
      · cases hrespond
    | error err =>
      obtain rfl := Option.some.inj hrespond
      exact ⟨trivial, .inl (hidle rfl rfl rfl rfl rfl .rest)⟩
  | canSeal =>
    simp only [World.respond] at hrespond
    split at hrespond
    · obtain rfl := Option.some.inj hrespond
      exact ⟨trivial, .inl (hidle rfl rfl rfl rfl rfl .rest)⟩
    · cases hrespond
  | embedTexts modelId texts =>
    cases x with
    | ok vectors =>
      simp only [World.respond] at hrespond
      split at hrespond
      · next hmodels =>
        obtain rfl := Option.some.inj hrespond
        obtain ⟨hmodels, htexts⟩ := hmodels
        refine ⟨⟨fun vector hvector => ?_, fun pair hpair => ?_⟩, .inl (hidle rfl rfl rfl rfl rfl .rest)⟩
        · simpa using List.all_eq_true.mp hmodels vector hvector
        · simpa using List.all_eq_true.mp htexts pair hpair
      · cases hrespond
    | error err =>
      obtain rfl := Option.some.inj hrespond
      exact ⟨trivial, .inl (hidle rfl rfl rfl rfl rfl .rest)⟩
  | execute messages =>
    obtain rfl := Option.some.inj hrespond
    exact ⟨trivial, .inl (hidle rfl rfl rfl rfl rfl (.asked messages))⟩
  | answer result =>
    obtain rfl := Option.some.inj hrespond
    exact ⟨trivial, .inl (hidle rfl rfl rfl rfl rfl .answered)⟩
  | newId | newIds | buildEmbeddingModel _ _ _ | extract _
  | openExtractionRun _ | completeExtractionRun _ | insertRetrievalRun _ | insertContextPlan _
  | claimCommand _ | audit _ =>
    obtain rfl := Option.some.inj hrespond
    exact ⟨trivial, .inl (hidle rfl rfl rfl rfl rfl .rest)⟩

end Steps

/-! ## Runs -/

section Runs

variable (deployment : Deployment) (requests : Nat → Request)

/-- Every call can only go on as the protocol has it. -/
def OnProtocol (s : (conversations deployment requests).State) : Prop :=
  ∀ i, (s.proc i).wp (protocol (requests i)) (s.world.seen i) (fun _ next => ∀ point, next = some point → False)
    fun _ _ => True

/-- Every statement of a call on the protocol that meets the guard keeps `I`, and so does all else.
-/
structure Preserved (guard : Nat → World → ConversationOp → Prop) (I : World → Prop) : Prop where
  statement : ∀ {i w w' s a}, I w → guard i w (.statement s) → Does (requests i) (w.seen i) (.statement s) →
    StatementStep deployment w w' i s a → I w'
  idle : ∀ {i w w' seen'}, I w → IdleStep w w' i seen' → I w'
  nature : ∀ {w moment}, I w → I { w with moment }

/-- The guard of all runs. -/
abbrev Always (_ : Nat) (_ : World) (_ : ConversationOp) : Prop := True

variable {deployment requests} {guard : Nat → World → ConversationOp → Prop}
  {I : World → Prop} {s t : (conversations deployment requests).State}
  {moves : List (conversations deployment requests).Move}

def Preserved.outline (h : Preserved deployment requests guard I) :
    System.Outline (conversations deployment requests) where
  Ghost _ := Seen
  contract i := protocol (requests i)
  at_ _ _ _ := False
  shared w γ := γ = w.seen ∧ I w
  guard := guard
  code_ok _ _ _ hat := hat.elim
  act_ok i w o x w' γ := by
    rintro ⟨rfl, hI⟩ hguard hmay hgrant
    obtain ⟨hanswers, hidle | ⟨s, a, hexchange, hstep⟩⟩ := grant_cases hgrant
    · exact ⟨hanswers, hidle.seen.symm, h.idle hI hidle⟩
    · cases hexchange
      exact ⟨hanswers, hstep.seen.symm, h.statement hI hguard hmay hstep⟩
  nature_ok w e w' γ := by
    rintro ⟨rfl, hI⟩ hnature
    simp only [conversations, Conversations.nature] at hnature
    split at hnature
    · obtain rfl := Option.some.inj hnature
      exact ⟨rfl, h.nature hI⟩
    · cases hnature

theorem Preserved.holds_iff (h : Preserved deployment requests guard I) :
    h.outline.Holds s ↔ OnProtocol deployment requests s ∧ I s.world := by
  constructor
  · rintro ⟨_, ⟨rfl, hI⟩, hproc⟩
    exact ⟨hproc, hI⟩
  · rintro ⟨hproc, hI⟩
    exact ⟨s.world.seen, ⟨rfl, hI⟩, hproc⟩

/-- **What every statement keeps holds at the end of a run.** -/
theorem Preserved.run (h : Preserved deployment requests guard I) (hs : OnProtocol deployment requests s)
    (hI : I s.world)
    (hmeets : Meets (conversations deployment requests).step (System.Guarded guard) s moves)
    (hrun : runFrom (conversations deployment requests).step s moves = some t) :
    OnProtocol deployment requests t ∧ I t.world :=
  h.holds_iff.mp (h.outline.guarded (h.holds_iff.mpr ⟨hs, hI⟩) hmeets hrun)

theorem Preserved.run_always (h : Preserved deployment requests Always I)
    (hs : OnProtocol deployment requests s) (hI : I s.world)
    (hrun : runFrom (conversations deployment requests).step s moves = some t) :
    OnProtocol deployment requests t ∧ I t.world :=
  h.holds_iff.mp (h.outline.invariant (fun _ _ _ => trivial) (h.holds_iff.mpr ⟨hs, hI⟩) hrun)

theorem onProtocol_initial : OnProtocol deployment requests (conversationsInitial deployment requests) := by
  intro i
  refine wp_mono (wp_code deployment (requests i) {}) (fun _ next hnext point hpoint => ?_) fun _ _ _ => trivial
  rw [hnext] at hpoint
  cases hpoint

/-! ## Assertions over one part of the tables -/

theorem Preserved.of_seen {J : Tables → (Nat → Seen) → Prop}
    (hstatement : ∀ {i w w' s a}, J w.tables w.seen → guard i w (.statement s) →
      Does (requests i) (w.seen i) (.statement s) → StatementStep deployment w w' i s a →
          J w'.tables w'.seen)
    (hidle : ∀ {t seen i seen'}, J t seen → Idles (seen i) seen' → J t (Function.update seen i seen')) :
    Preserved deployment requests guard fun w => J w.tables w.seen where
  statement := hstatement
  idle hJ hstep := by
    rw [hstep.tables, hstep.seen]
    exact hidle hJ hstep.idles
  nature hJ := hJ

theorem Preserved.of_conversation {J : ConversationTables → Prop}
    (h : ∀ {i w s a tables}, J w.tables.conversation → guard i w (.statement (.conversation s)) →
      DoesConversation (requests i) (w.seen i) s →
      s.run w.tables.policies w.moment w.tables.conversation = .ok (a, tables) → J tables) :
    Preserved deployment requests guard fun w => J w.tables.conversation where
  statement {i w w' s a} hJ hguard hdoes hstep := by
    cases s with
    | conversation s =>
      obtain ⟨tables, hrun, ht⟩ := Statement.run_conversation hstep.run
      rw [ht]
      exact h hJ hguard hdoes hrun
    | memory s | document s | policy s =>
      rw [Statement.conversation_kept hstep.run (by simp)]
      exact hJ
  idle hJ hstep := by
    rw [hstep.tables]
    exact hJ
  nature hJ := hJ

section

variable (h : Preserved deployment requests guard I)
include h

theorem Preserved.and {J : World → Prop} (h' : Preserved deployment requests guard J) :
    Preserved deployment requests guard fun w => I w ∧ J w where
  statement hIJ hguard hdoes hstep := ⟨h.statement hIJ.1 hguard hdoes hstep, h'.statement hIJ.2 hguard hdoes hstep⟩
  idle hIJ hstep := ⟨h.idle hIJ.1 hstep, h'.idle hIJ.2 hstep⟩
  nature hIJ := ⟨h.nature hIJ.1, h'.nature hIJ.2⟩

theorem Preserved.with_tables {J : Tables → Prop}
    (hstatement : ∀ {i w w' s a}, I w → J w.tables → guard i w (.statement s) →
      Does (requests i) (w.seen i) (.statement s) → StatementStep deployment w w' i s a → J w'.tables) :
    Preserved deployment requests guard fun w => I w ∧ J w.tables where
  statement hIJ hguard hdoes hstep :=
    ⟨h.statement hIJ.1 hguard hdoes hstep, hstatement hIJ.1 hIJ.2 hguard hdoes hstep⟩
  idle hIJ hstep := by
    refine ⟨h.idle hIJ.1 hstep, ?_⟩
    rw [hstep.tables]
    exact hIJ.2
  nature hIJ := ⟨h.nature hIJ.1, hIJ.2⟩

theorem Preserved.with_seen {P : Nat → Tables → Seen → Prop}
    (hother : ∀ {i w w' s a j}, I w → j ≠ i → guard i w (.statement s) →
      Does (requests i) (w.seen i) (.statement s) → StatementStep deployment w w' i s a →
        P j w.tables (w.seen j) → P j w'.tables (w.seen j))
    (hown : ∀ {i w w' s a}, I w → guard i w (.statement s) → Does (requests i) (w.seen i) (.statement s) →
      StatementStep deployment w w' i s a → P i w.tables (w.seen i) →
        P i w'.tables ((w.seen i).recordStatement s a))
    (hidle : ∀ {j t seen seen'}, P j t seen → Idles seen seen' → P j t seen') :
    Preserved deployment requests guard fun w => I w ∧ ∀ j, P j w.tables (w.seen j) where
  statement {i w w' s a} hIP hguard hdoes hstep := by
    refine ⟨h.statement hIP.1 hguard hdoes hstep, fun j => ?_⟩
    rw [hstep.seen]
    by_cases hij : j = i
    · subst hij
      rw [Function.update_self]
      exact hown hIP.1 hguard hdoes hstep (hIP.2 j)
    · rw [Function.update_of_ne hij]
      exact hother hIP.1 hij hguard hdoes hstep (hIP.2 j)
  idle {i w w' seen'} hIP hstep := by
    refine ⟨h.idle hIP.1 hstep, fun j => ?_⟩
    rw [hstep.tables, hstep.seen]
    by_cases hij : j = i
    · subst hij
      rw [Function.update_self]
      exact hidle (hIP.2 j) hstep.idles
    · rw [Function.update_of_ne hij]
      exact hIP.2 j
  nature hIP := ⟨h.nature hIP.1, hIP.2⟩

theorem Preserved.with_calls {P : Nat → Tables → Seen → Prop}
    (hkept : ∀ {i w w' s a j}, I w → guard i w (.statement s) → Does (requests i) (w.seen i) (.statement s) →
      StatementStep deployment w w' i s a → P j w.tables (w.seen j) → P j w'.tables (w.seen j))
    (hown : ∀ {i w w' s a}, I w → guard i w (.statement s) → Does (requests i) (w.seen i) (.statement s) →
      StatementStep deployment w w' i s a → P i w'.tables (w.seen i) →
        P i w'.tables ((w.seen i).recordStatement s a))
    (hidle : ∀ {j t seen seen'}, P j t seen → Idles seen seen' → P j t seen') :
    Preserved deployment requests guard fun w => I w ∧ ∀ j, P j w.tables (w.seen j) :=
  h.with_seen (fun hI _ hguard hdoes hstep hP => hkept hI hguard hdoes hstep hP)
    (fun hI hguard hdoes hstep hP => hown hI hguard hdoes hstep (hkept hI hguard hdoes hstep hP)) hidle

end

theorem Preserved.true : Preserved deployment requests guard fun _ => True where
  statement _ _ _ _ := trivial
  idle _ _ := trivial
  nature _ := trivial

theorem Preserved.mono {guard' : Nat → World → ConversationOp → Prop}
    (h : Preserved deployment requests guard I)
    (hguard : ∀ i w o, guard' i w o → guard i w o) : Preserved deployment requests guard' I where
  statement hI hmet := h.statement hI (hguard _ _ _ hmet)
  idle := h.idle
  nature := h.nature

/-! ## The steps of a run -/

/-- The move is one of a call that comes to a statement. -/
def Asks (s : (conversations deployment requests).State)
    (m : (conversations deployment requests).Move) (i : Nat)
    (st : Statement) : Prop :=
  ∃ answer k, m = .act i answer ∧ s.proc i = .op (.statement st) k

variable {m : (conversations deployment requests).Move} {st : Statement}

theorem Asks.does (h : Asks s m i st) (hs : OnProtocol deployment requests s) :
    Does (requests i) (s.world.seen i) (.statement st) := by
  obtain ⟨_, _, -, hproc⟩ := h
  have hmay := hs i
  rw [hproc] at hmay
  exact hmay.1

theorem Asks.meets (h : Asks s m i st) (hguard : System.Guarded guard s m) :
    guard i s.world (.statement st) := by
  obtain ⟨_, _, rfl, hproc⟩ := h
  simp only [System.Guarded, hproc] at hguard
  exact hguard

/-- A step of a run, on which a call makes a statement. -/
structure Made (deployment : Deployment) (requests : Nat → Request)
    (s t : (conversations deployment requests).State) (i : Nat) (st : Statement) (a : st.Value) : Prop where
  does : Does (requests i) (s.world.seen i) (.statement st)
  step : StatementStep deployment s.world t.world i st a

theorem nature_same {w w' : World} {moment : Moment} (h : nature w moment = some w') :
    w'.tables = w.tables ∧ w'.seen = w.seen := by
  unfold nature at h
  split at h
  · obtain rfl := Option.some.inj h
    exact ⟨rfl, rfl⟩
  · cases h

theorem Asks.made (h : Asks s m i st) (hs : OnProtocol deployment requests s)
    (hstep : (conversations deployment requests).step s m = some t) :
    t.world.tables = s.world.tables ∨ ∃ a, Made deployment requests s t i st a := by
  have hdoes := h.does hs
  obtain ⟨answer, k, rfl, hproc⟩ := h
  rcases System.step_cases hstep with ⟨j, answer', o, k', w, hmove, hproc', hgrant, rfl⟩ | ⟨j, l, -, rfl⟩ |
    ⟨e, w, hw, rfl⟩
  · cases hmove
    rw [hproc] at hproc'
    cases hproc'
    obtain ⟨-, hidle | ⟨st', a, hexchange, hmade⟩⟩ := grant_cases hgrant
    · exact .inl hidle.tables
    · have ho : ConversationOp.statement st = .statement st' := congrArg Sigma.fst hexchange
      cases ho
      exact .inr ⟨a, hdoes, hmade⟩
  · exact .inl rfl
  · exact .inl (nature_same hw).1

/-- What a step does to what a call has seen. -/
theorem step_seen (hs : OnProtocol deployment requests s)
    (hstep : (conversations deployment requests).step s m = some t) (j : Nat) :
    Idles (s.world.seen j) (t.world.seen j) ∨ ∃ st a, Made deployment requests s t j st a ∧
      t.world.seen j = (s.world.seen j).recordStatement st a := by
  rcases System.step_cases hstep with ⟨i, answer, o, k, w, rfl, hproc, hgrant, rfl⟩ | ⟨i, l, hproc, rfl⟩ |
    ⟨e, w, hw, rfl⟩
  · obtain ⟨-, hidle | ⟨st, a, hexchange, hmade⟩⟩ := grant_cases hgrant
    · rcases eq_or_ne j i with rfl | hji
      · have hseen : w.seen j = _ := congrFun hidle.seen j
        rw [Function.update_self] at hseen
        exact .inl (hseen ▸ hidle.idles)
      · have hseen : w.seen j = _ := congrFun hidle.seen j
        rw [Function.update_of_ne hji] at hseen
        exact .inl (hseen ▸ .rest)
    · rcases eq_or_ne j i with rfl | hji
      · have hseen : w.seen j = _ := congrFun hmade.seen j
        rw [Function.update_self] at hseen
        have hmay := hs j
        rw [hproc] at hmay
        have ho : o = .statement st := congrArg Sigma.fst hexchange
        exact .inr ⟨st, a, ⟨ho ▸ hmay.1, hmade⟩, hseen⟩
      · have hseen : w.seen j = _ := congrFun hmade.seen j
        rw [Function.update_of_ne hji] at hseen
        exact .inl (hseen ▸ .rest)
  · exact .inl .rest
  · have hseen : w.seen j = _ := congrFun (nature_same hw).2 j
    exact .inl (hseen ▸ .rest)

theorem step_made (hs : OnProtocol deployment requests s)
    (hstep : (conversations deployment requests).step s m = some t) :
    t.world.tables = s.world.tables ∨ ∃ i st a, Made deployment requests s t i st a ∧
      (System.Guarded guard s m → guard i s.world (.statement st)) := by
  rcases System.step_cases hstep with ⟨i, answer, o, k, w, rfl, hproc, hgrant, rfl⟩ | ⟨i, l, hproc, rfl⟩ |
    ⟨e, w, hw, rfl⟩
  · obtain ⟨-, hidle | ⟨st, a, hexchange, hmade⟩⟩ := grant_cases hgrant
    · exact .inl hidle.tables
    · have hmay := hs i
      rw [hproc] at hmay
      have ho : o = .statement st := congrArg Sigma.fst hexchange
      refine .inr ⟨i, st, a, ⟨?_, hmade⟩, fun hguard => ?_⟩
      · rw [← ho]
        exact hmay.1
      · simp only [System.Guarded, hproc] at hguard
        rw [← ho]
        exact hguard
  · exact .inl rfl
  · exact .inl (nature_same hw).1

end Runs

/-! ### Samples -/

namespace Sample

/-- A distance that tells vectors apart by their first coordinate. -/
def deployment : Deployment where
  distance a b := (a.headD 0 - b.headD 0) + (b.headD 0 - a.headD 0)
  nearDuplicateMaxDistance := 0
  chunk _ content := .ok [{ text := content }]
  rankMemories _ _ candidates := candidates
  rankChunks _ _ candidates := candidates
  assembleContext _ _ _ := .ok false

/-- A caller of application 1. -/
def caller : Actor where
  actorType := .trustedJwt
  scopes := ["moira:admin"]
  internalApplicationId := some 1
  externalUserId := some "user"

/-- What answers beside the database. -/
structure Backend where
  /-- What an extraction finds in its transcript. -/
  candidates : List AcceptedCandidate := []
  /-- The first coordinate of the vector of a text. -/
  coordinate : String → Nat := fun _ => 0

/-- An id that no row has. -/
def freshId (t : Tables) : Uuid :=
  1 + t.conversation.conversations.length + t.conversation.messages.length + t.conversation.summaries.length +
    t.memory.memories.length + t.document.collections.length + t.document.documents.length +
    t.document.versions.length + t.document.chunks.length

/-- A database that works, and services that answer. -/
def reply (backend : Backend) (w : World) : (o : ConversationOp) → o.Ans
  | .statement s => (s.run deployment.distance w.moment w.tables).map Prod.fst
  | .newId => freshId w.tables
  | .newIds => { document := freshId w.tables, version := freshId w.tables
                 chunk := fun position => freshId w.tables + position }
  | .memoryContentHash content => .ok ⟨content⟩
  | .canSeal => w.moment.sealing.isOk
  | .buildEmbeddingModel .. => .ready
  | .embedTexts modelId texts => .ok (texts.map fun text => ⟨[backend.coordinate text], modelId, text⟩)
  | .tryLock conversationId =>
    .ok (w.locks.all fun lock => lock.1 ≠ summarizationLockObject conversationId)
  | .execute _ => some "summary"
  | .extract _ => .ok (backend.candidates.map .ok)
  | .claimCommand _ => .ok false
  | .unlock _ | .completeExtractionRun _ | .answer _ => ()
  | .openExtractionRun _ | .insertRetrievalRun _ | .insertContextPlan _ | .audit _ => .ok ()

/-- The calls of a list, all of one caller. -/
def requestsOf (calls : List Call) (i : Nat) : Request where
  actor := caller
  call := calls.getD i (.getConversation 0)

abbrev system (calls : List Call) : System Nat :=
  conversations deployment (requestsOf calls)

/-- The calls move in the order of the schedule. -/
def perform (backend : Backend) (calls : List Call) :
    List Nat → (system calls).State → List (system calls).Move
  | [], _ => []
  | i :: rest, s =>
    match (system calls).step s (.act i fun o => reply backend s.world o) with
    | some s' => .act i (fun o => reply backend s.world o) :: perform backend calls rest s'
    | none => perform backend calls rest s

def scheduled (backend : Backend) (calls : List Call) (schedule : List Nat) : List (system calls).Move :=
  perform backend calls schedule (conversationsInitial deployment (requestsOf calls))

/-- The state after a schedule. -/
def after (backend : Backend) (calls : List Call) (schedule : List Nat) : Option (system calls).State :=
  runFrom (system calls).step (conversationsInitial deployment (requestsOf calls))
    (scheduled backend calls schedule)

/-- A schedule, and one step more. -/
def lastStep (backend : Backend) (calls : List Call) (schedule : List Nat) (i : Nat) :
    Option ((system calls).State × (system calls).Move × (system calls).State) :=
  (after backend calls schedule).bind fun s =>
    ((system calls).step s (.act i fun o => reply backend s.world o)).map fun t =>
      (s, .act i fun o => reply backend s.world o, t)

theorem lastStep_some {backend : Backend} {calls : List Call} {schedule : List Nat}
    {s t : (system calls).State} {m : (system calls).Move}
    (h : lastStep backend calls schedule i = some (s, m, t)) :
    runFrom (system calls).step (conversationsInitial deployment (requestsOf calls))
        (scheduled backend calls schedule) = some s ∧ (system calls).step s m = some t := by
  obtain ⟨s', hafter, h⟩ := Option.bind_eq_some_iff.mp h
  obtain ⟨t', hstep, heq⟩ := Option.map_eq_some_iff.mp h
  cases heq
  exact ⟨hafter, hstep⟩

/-- A guard that is computed can be looked at. -/
def decidableGuarded (calls : List Call) (g : Nat → World → ConversationOp → Bool)
    (s : (system calls).State) (m : (system calls).Move) :
    Decidable (System.Guarded (M := system calls) (fun i w o => g i w o = true) s m) :=
  @System.instDecidableGuarded _ (system calls) (fun i w o => g i w o = true)
    (fun i w o => inferInstanceAs (Decidable (g i w o = true))) s m

/-- A document under a policy that keeps no body. -/
def documentCalls : List Call :=
  [.putConversationPolicy 1 { conversationContentPersistence := some .none },
    .createRagCollection { applicationId := 1, collectionKey := "manual" },
    .createRagDocument 1 { title := "title", content := some "hello" }]

def oneByOne : List Nat :=
  List.replicate 3 0 ++ List.replicate 4 1 ++ List.replicate 5 2

/-- A memory with a vector, and another text for it. -/
def vectorCalls : List Call :=
  [.putMemoryPolicy 1 { enabled := some true, manualMemoryEnabled := some true },
    .putEmbeddingPolicy 1
      { embeddingProviderId := some 7, embeddingModelId := some 8, memoryEmbeddingsEnabled := some true },
    .createMemory { content := "tea" }, .patchMemory 1 { content := some "coffee" }]

/-- The memory has its vector. -/
def indexed : List Nat :=
  List.replicate 3 0 ++ List.replicate 3 1 ++ List.replicate 9 2

/-- What the caller may see. -/
def callerScope : RetrievalScope where
  applicationId := 1
  externalTenantId := none
  externalUserId := some "user"

/-- The texts of the vectors that a retrieval compares, and of their memories. -/
def comparedTexts (t : Tables) : List (String × String) :=
  (t.memory.joined callerScope fun row => row.status = .active).map fun pair =>
    (pair.1.embedding.text, pair.2.contentHash.text)

end Sample

end Moira.Conversations
