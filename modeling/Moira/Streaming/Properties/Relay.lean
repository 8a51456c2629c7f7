import Moira.Streaming.Supervisor

/-!
# What the supervisor does

The supervisor against the client's channel and the response row. `Session` follows what it has
done so far, and `sessionContract` is what it owes:

- public events are numbered 1, 2, 3, ... as they are accepted
- an event taken from the feed is relayed before the next one is taken
- a terminal event announces a status that was persisted, and nothing is sent after it
- `response.completed` is sent only to a client that was relayed the whole feed, for a successful
  outcome whose summary was persisted
-/

namespace Moira

open Supervisor Prog

/-- What the supervisor has done. -/
structure Session where
  sent : Nat := 0
  /-- Every event taken from the feed was accepted by the client's channel. -/
  connected : Bool := true
  inHand : Option Sent := none
  ended : Bool := false
  outcome : Option (Option (Except ExecutionFailure ExecutionOutcome)) := none
  persisted : Option (PublicResponseStatus × ResponseTerminalUpdate) := none
  terminal : Option PublicSse := none

variable (ctx : StreamContext)

namespace Session

/-- The outcome in hand is this successful one. -/
def Succeeded (g : Session) (outcome : ExecutionOutcome) : Prop :=
  g.outcome = some (some (.ok outcome)) ∧ outcome.status = .succeeded

/-- `response.completed` is true: all was relayed, and the outcome was persisted. -/
def Completed (g : Session) : Prop :=
  g.connected = true ∧ g.ended = true ∧ ∃ outcome, g.Succeeded outcome ∧
    g.persisted = some (.completed, terminalUpdateFromOutcome ctx.hasher ctx.persistenceMode outcome none)

/-- What an event announces is so. -/
def Justifies (g : Session) (e : PublicSse) : Prop :=
  ∀ status, e.event.terminalStatus = some status →
    (∃ update, g.persisted = some (status, update)) ∧ (status = .completed → g.Completed ctx)

/-- The event in hand has to be relayed; the supervisor's own events carry no output. -/
def Carries (g : Session) (e : PublicSse) : Prop :=
  match g.inHand with
  | some sent => mapRuntimeEvent sent e.sequence = some e
  | none => e.delta? = none

def may (g : Session) : SupervisorOp → Prop
  | .sendPublic e =>
    g.terminal = none ∧ e.sequence = g.sent + 1 ∧ g.Justifies ctx e ∧ g.Carries e
  | .nextEvent => g.connected = true ∧ g.inHand = none ∧ g.terminal = none
  | .drainEvent => g.connected = false
  | .awaitOutcome => g.outcome = none ∧ g.terminal = none
  | .persist .. => g.persisted = none ∧ g.terminal = none
  | .recordAssistant outputText => ∃ outcome, g.Succeeded outcome ∧ outputText = outcome.outputText
  | _ => True

def next (g : Session) : (o : SupervisorOp) → o.Ans → Session
  | .sendPublic e, true =>
    { g with
      sent := g.sent + 1, inHand := none
      terminal := if e.event.terminalStatus.isSome then some e else none }
  | .sendPublic _, false => { g with connected := false, inHand := none }
  | .nextEvent, .closed => { g with connected := false }
  | .nextEvent, .event sent =>
    { g with inHand := if (mapRuntimeEvent sent 0).isSome then some sent else none }
  | .nextEvent, .ended => { g with ended := true }
  | .awaitOutcome, outcome => { g with outcome := some outcome }
  | .persist status update, .ok _ => { g with persisted := some (status, update) }
  | _, _ => g

end Session

def sessionContract : Contract supervisorSig Session where
  may := Session.may ctx
  answers _ _ _ := True
  next := Session.next

variable {ctx : StreamContext} {g : Session} {α β : Type}

/-- The program keeps the contract and establishes `Q` when it returns. -/
abbrev Keeps (ctx : StreamContext) (p : Code α) (g : Session) (Q : Session → α → Prop) : Prop :=
  p.wp (sessionContract ctx) g Q (fun _ _ => True)

theorem keeps_bind {p : Code α} {f : α → Code β} {P : Session → α → Prop} {Q : Session → β → Prop}
    (hp : Keeps ctx p g P) (hf : ∀ g a, P g a → Keeps ctx (f a) g Q) : Keeps ctx (p >>= f) g Q :=
  wp_bind_mono hp hf

theorem keeps_ask (o : SupervisorOp) {f : o.Ans → Code β} {Q : Session → β → Prop}
    (hmay : g.may ctx o) (hf : ∀ x, Keeps ctx (f x) (g.next o x) Q) :
    Keeps ctx (Supervisor.ask o >>= f) g Q :=
  ⟨hmay, fun x _ => hf x⟩

/-! ## Relayed events -/

variable {sequence : Nat}

theorem mapRuntimeEvent_some {sent : Sent} {e : PublicSse}
    (h : mapRuntimeEvent sent sequence = some e) :
    e.delta? = sent.delta? ∧ e.attempt = sent.attempt ∧ e.sequence = sequence ∧
      e.event.terminalStatus = none := by
  unfold mapRuntimeEvent at h
  split at h
  · cases h
  · next envelope hitem =>
    obtain ⟨eventType, -, rfl⟩ := Option.map_eq_some_iff.mp h
    simp [PublicSse.delta?, Sent.delta?, hitem, PublicEvent.terminalStatus]

theorem mapRuntimeEvent_isSome (sent : Sent) (m n : Nat) :
    (mapRuntimeEvent sent m).isSome = (mapRuntimeEvent sent n).isSome := by
  unfold mapRuntimeEvent
  split <;> simp

theorem delta?_of_not_relayed {sent : Sent} (h : mapRuntimeEvent sent sequence = none) :
    sent.delta? = none := by
  unfold mapRuntimeEvent at h
  split at h
  · next hitem => simp [Sent.delta?, hitem]
  · next envelope hitem =>
    rw [Option.map_eq_none_iff] at h
    simp only [Sent.delta?, hitem]
    cases hevent : envelope.event <;> simp_all [RuntimeEvent.publicType, RuntimeEvent.delta?]

theorem justifies_of_not_terminal {e : PublicSse} (h : e.event.terminalStatus = none) :
    g.Justifies ctx e := by
  intro status hstatus
  rw [h] at hstatus
  cases hstatus

/-! ## Control points -/

/-- Between two turns of a loop, with the next number. -/
structure Between (sequence : Nat) (g : Session) : Prop where
  sequence_eq : sequence = g.sent + 1
  inHand : g.inHand = none
  outcome : g.outcome = none
  persisted : g.persisted = none
  terminal : g.terminal = none

/-- What holds at each control point. -/
def AtPoint (g : Session) : SupervisorPoint → Prop
  | .announce => g = {}
  | .forward sequence => Between sequence g ∧ g.connected = true ∧ g.ended = false
  | .drain sequence => Between sequence g ∧ g.connected = false
  | .settle sequence disconnected =>
    Between sequence g ∧ (disconnected = false → g.connected = true ∧ g.ended = true)

theorem Between.refused (h : Between sequence g) :
    AtPoint { g with connected := false, inHand := none } (.drain sequence) :=
  ⟨⟨h.sequence_eq, rfl, h.outcome, h.persisted, h.terminal⟩, rfl⟩

theorem keeps_announce (events : List PublicEvent)
    (hevents : ∀ event ∈ events, event.terminalStatus = none ∧
      ∀ sequence, PublicSse.delta? { sequence, event } = none) :
    ∀ {sequence : Nat} {g : Session}, AtPoint g (.forward sequence) →
      Keeps ctx (announce sequence events) g AtPoint := by
  induction events with
  | nil => exact fun h => h
  | cons event rest ih =>
    intro sequence g ⟨hbetween, hconnected, hended⟩
    obtain ⟨hterminal, hdelta⟩ := hevents event (by simp)
    refine ⟨⟨hbetween.terminal, hbetween.sequence_eq, justifies_of_not_terminal hterminal, ?_⟩,
      fun accepted _ => ?_⟩
    · simp only [Session.Carries, hbetween.inHand]
      exact hdelta sequence
    cases accepted with
    | false => exact ⟨trivial, fun _ _ => hbetween.refused⟩
    | true =>
      refine ih (fun event hevent => hevents event (by simp [hevent])) ⟨?_, hconnected, hended⟩
      refine ⟨?_, rfl, hbetween.outcome, hbetween.persisted, ?_⟩
      · simp [sessionContract, Session.next, hbetween.sequence_eq]
      · simp [sessionContract, Session.next, hterminal]

theorem keeps_forward (h : AtPoint g (.forward sequence)) :
    Keeps ctx (forward sequence) g AtPoint := by
  obtain ⟨hbetween, hconnected, hended⟩ := h
  refine keeps_ask .nextEvent ⟨hconnected, hbetween.inHand, hbetween.terminal⟩ fun relay => ?_
  cases relay with
  | closed =>
    exact ⟨trivial, fun _ _ => ⟨⟨hbetween.sequence_eq, hbetween.inHand, hbetween.outcome,
      hbetween.persisted, hbetween.terminal⟩, rfl⟩⟩
  | ended =>
    exact ⟨⟨hbetween.sequence_eq, hbetween.inHand, hbetween.outcome, hbetween.persisted,
      hbetween.terminal⟩, fun _ => ⟨hconnected, rfl⟩⟩
  | event sent =>
    have hrelayed := mapRuntimeEvent_isSome sent 0 sequence
    dsimp only [Session.next]
    rw [hrelayed]
    cases hmapped : mapRuntimeEvent sent sequence with
    | none =>
      exact ⟨⟨hbetween.sequence_eq, rfl, hbetween.outcome, hbetween.persisted,
        hbetween.terminal⟩, hconnected, hended⟩
    | some mapped =>
      obtain ⟨-, -, hsequence, hterminal⟩ := mapRuntimeEvent_some hmapped
      refine ⟨⟨hbetween.terminal, ?_, justifies_of_not_terminal hterminal, ?_⟩,
        fun accepted _ => ?_⟩
      · rw [hsequence, hbetween.sequence_eq]
      · show mapRuntimeEvent sent mapped.sequence = some mapped
        rw [hsequence, hmapped]
      cases accepted with
      | false =>
        exact ⟨trivial, fun _ _ => ⟨⟨hbetween.sequence_eq, rfl, hbetween.outcome,
          hbetween.persisted, hbetween.terminal⟩, rfl⟩⟩
      | true =>
        refine ⟨⟨?_, rfl, hbetween.outcome, hbetween.persisted, ?_⟩, hconnected, hended⟩
        · simp [sessionContract, Session.next, hbetween.sequence_eq]
        · simp [sessionContract, Session.next, hterminal]

theorem keeps_drain (h : AtPoint g (.drain sequence)) :
    Keeps ctx (Supervisor.drain sequence) g AtPoint := by
  refine ⟨h.2, fun more _ => ?_⟩
  cases more with
  | true => exact h
  | false => exact ⟨h.1, fun hconnected => by cases hconnected⟩

/-! ## Settling -/

/-- The outcome is in hand and nothing is persisted yet. -/
structure Settling (sequence : Nat) (g : Session) : Prop where
  sequence_eq : sequence = g.sent + 1
  inHand : g.inHand = none
  persisted : g.persisted = none
  terminal : g.terminal = none
  relayed : g.connected = true ∧ g.ended = true

/-- The terminal event may be sent. -/
def MayAnnounce (ctx : StreamContext) (g : Session) (terminal : Option PublicSse) : Prop :=
  ∀ e, terminal = some e → g.inHand = none ∧ g.terminal = none ∧ e.sequence = g.sent + 1 ∧
    e.delta? = none ∧ g.Justifies ctx e

theorem mayAnnounce_none : MayAnnounce ctx g none := by
  intro e he
  cases he

theorem Settling.persist (h : Settling sequence g) {status : PublicResponseStatus}
    {update : ResponseTerminalUpdate} {event : PublicEvent}
    (hevent : event.terminalStatus = some status) (hstatus : status ≠ .completed)
    (hdelta : PublicSse.delta? { sequence, event } = none) :
    MayAnnounce ctx { g with persisted := some (status, update) }
      (some { sequence, event }) := by
  intro e he
  cases he
  refine ⟨h.inHand, h.terminal, h.sequence_eq, hdelta, fun status' hstatus' => ?_⟩
  have hsame : status = status' := by
    have : some status = some status' := hevent.symm.trans hstatus'
    exact Option.some.inj this
  subst hsame
  exact ⟨⟨update, rfl⟩, fun hcompleted => absurd hcompleted hstatus⟩

theorem keeps_settleFailure (h : Settling sequence g) (failure : ExecutionFailure)
    (update : ResponseTerminalUpdate) :
    Keeps ctx (settleFailure sequence failure update) g (MayAnnounce ctx) := by
  refine ⟨⟨h.persisted, h.terminal⟩, fun result _ => ?_⟩
  cases result with
  | error err => exact mayAnnounce_none
  | ok => exact h.persist rfl (by decide) rfl

theorem keeps_cancelResponse (h : Settling sequence g) (update : ResponseTerminalUpdate)
    {f : Except AppError Unit → Code (Option PublicSse)}
    (herror : ∀ err, Keeps ctx (f (.error err)) g (MayAnnounce ctx))
    (hok : MayAnnounce ctx { g with persisted := some (.cancelled, update) }
        (some (terminalCancelled sequence)) →
      Keeps ctx (f (.ok ())) { g with persisted := some (.cancelled, update) }
        (MayAnnounce ctx)) : Keeps ctx (cancelResponse update >>= f) g (MayAnnounce ctx) := by
  refine ⟨⟨h.persisted, h.terminal⟩, fun result _ => ?_⟩
  cases result with
  | error err => exact herror err
  | ok => exact hok (h.persist rfl (by decide) rfl)

theorem keeps_recordConversationAssistant {outcome : ExecutionOutcome}
    (houtcome : g.Succeeded outcome) :
    Keeps ctx (recordConversationAssistant ctx outcome.outputText) g (fun g' _ => g' = g) := by
  unfold recordConversationAssistant
  split
  · exact ⟨⟨outcome, houtcome, rfl⟩, fun _ _ => rfl⟩
  · rfl

theorem keeps_settleSucceeded (h : Settling sequence g) {outcome : ExecutionOutcome}
    (houtcome : g.Succeeded outcome) :
    Keeps ctx (settleSucceeded ctx sequence outcome) g (MayAnnounce ctx) := by
  refine keeps_ask (.persist ..) ⟨h.persisted, h.terminal⟩ fun result => ?_
  cases result with
  | error err => exact keeps_settleFailure h _ _
  | ok =>
    have hannounce : MayAnnounce ctx
        { g with persisted := some (.completed, terminalUpdateFromOutcome ctx.hasher ctx.persistenceMode outcome none) }
        (some { sequence, event := .completed outcome.usage }) := by
      intro e he
      cases he
      refine ⟨h.inHand, h.terminal, h.sequence_eq, rfl, fun status hstatus => ?_⟩
      cases hstatus
      exact ⟨⟨_, rfl⟩, fun _ => ⟨h.relayed.1, h.relayed.2, outcome, houtcome, rfl⟩⟩
    refine keeps_bind (keeps_recordConversationAssistant
      (g := { g with persisted := some (.completed,
          terminalUpdateFromOutcome ctx.hasher ctx.persistenceMode outcome none) })
      houtcome) fun g' stored hg => ?_
    subst hg
    cases stored with
    | error err => exact ⟨trivial, fun _ _ => hannounce⟩
    | ok => exact ⟨trivial, fun _ _ => hannounce⟩

/-- **The terminal event announces what was persisted**, whatever the outcome. -/
theorem keeps_settleConnected (h : Settling sequence g)
    {outcome : Option (Except ExecutionFailure ExecutionOutcome)}
    (houtcome : g.outcome = some outcome) :
    Keeps ctx (settleConnected ctx sequence outcome) g (MayAnnounce ctx) := by
  unfold settleConnected
  split
  · next outcome =>
    split
    · next hstatus => exact keeps_settleSucceeded h ⟨houtcome, hstatus⟩
    · refine keeps_bind (keeps_settleFailure h _ _) fun g' terminal hterminal => ?_
      cases terminal with
      | none => exact hterminal
      | some terminal => exact ⟨trivial, fun _ _ => hterminal⟩
    · refine keeps_cancelResponse h _ (fun _ => mayAnnounce_none) fun hannounce => ?_
      exact ⟨trivial, fun _ _ => hannounce⟩
  · unfold settleError
    split
    · exact keeps_cancelResponse h _ (fun _ => mayAnnounce_none) fun hannounce => hannounce
    · exact keeps_settleFailure h _ _
  · exact keeps_settleFailure h _ _

theorem keeps_settleDisconnected (outcome : Option ExecutionOutcome) (hpersisted : g.persisted = none)
    (hterminal : g.terminal = none) :
    Keeps ctx (settleDisconnected ctx outcome) g (fun _ _ => True) := by
  refine ⟨⟨hpersisted, hterminal⟩, fun result _ => ?_⟩
  cases result with
  | error err => exact ⟨trivial, fun _ _ => trivial⟩
  | ok => exact ⟨trivial, fun _ _ => trivial⟩

theorem keeps_stillConnected (disconnected : Bool) :
    Keeps ctx (stillConnected disconnected) g
      (fun g' connected => g' = g ∧ (connected = true → disconnected = false)) := by
  unfold stillConnected
  split
  · exact ⟨rfl, fun h => by cases h⟩
  · next hconnected =>
    refine ⟨trivial, fun closed _ => ?_⟩
    cases closed with
    | true => exact ⟨trivial, fun _ _ => ⟨rfl, fun h => by cases h⟩⟩
    | false => exact ⟨rfl, fun _ => by simpa using hconnected⟩

theorem keeps_settle {disconnected : Bool} (h : AtPoint g (.settle sequence disconnected)) :
    Keeps ctx (settle ctx sequence disconnected) g (fun _ _ => True) := by
  obtain ⟨hbetween, hrelayed⟩ := h
  refine keeps_ask .awaitOutcome ⟨hbetween.outcome, hbetween.terminal⟩ fun outcome => ?_
  refine keeps_bind (keeps_stillConnected disconnected) fun g' connected hg => ?_
  obtain ⟨rfl, hconnected⟩ := hg
  cases connected with
  | false => exact keeps_settleDisconnected _ hbetween.persisted hbetween.terminal
  | true =>
    have hsettling : Settling sequence { g with outcome := some outcome } :=
      ⟨hbetween.sequence_eq, hbetween.inHand, hbetween.persisted, hbetween.terminal,
        hrelayed (hconnected rfl)⟩
    refine keeps_bind (keeps_settleConnected hsettling rfl) fun g'' terminal hterminal => ?_
    cases terminal with
    | none => trivial
    | some e =>
      obtain ⟨hhand, hnone, hsequence, hdelta, hjustified⟩ := hterminal e rfl
      refine ⟨⟨hnone, hsequence, hjustified, ?_⟩, fun _ _ => trivial⟩
      simp only [Session.Carries, hhand]
      exact hdelta

/-- **The supervisor keeps the session contract** at every control point. -/
theorem keeps_code {point : SupervisorPoint} (h : AtPoint g point) :
    Keeps ctx (code ctx point) g (fun g' next => ∀ point', next = some point' → AtPoint g' point') := by
  have hjump : ∀ g' point', AtPoint g' point' →
      Keeps ctx (pure (some point') : Code (Option SupervisorPoint)) g'
        (fun g' next => ∀ point', next = some point' → AtPoint g' point') := by
    intro g' point' hpoint point'' heq
    cases heq
    exact hpoint
  cases point with
  | announce =>
    have hg : g = {} := h
    subst hg
    refine keeps_bind (keeps_announce _ ?_ ⟨⟨rfl, rfl, rfl, rfl, rfl⟩, rfl, rfl⟩) hjump
    intro event hevent
    simp only [List.mem_cons, List.not_mem_nil, or_false] at hevent
    rcases hevent with rfl | rfl <;> exact ⟨rfl, fun _ => rfl⟩
  | forward sequence => exact keeps_bind (keeps_forward h) hjump
  | drain sequence => exact keeps_bind (keeps_drain h) hjump
  | settle sequence disconnected =>
    refine keeps_bind (keeps_settle h) fun g' _ _ => ⟨trivial, fun _ _ point' heq => ?_⟩
    cases heq

end Moira
