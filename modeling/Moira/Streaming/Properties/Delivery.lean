import Moira.Execution.Properties.Attempts
import Moira.Streaming.System
import Moira.Streaming.Properties.Output
import Moira.Streaming.Properties.Relay

/-!
# Exact delivery

The two contracts put together over the shared world.

**Main result**: `exactDelivery`, in every reachable state.
-/

namespace Moira.Streaming

variable {ctx : StreamContext} {w w' : World} {g : Output} {r : Session}

/-! ## The execution's side -/

/-- The feed and the outcome slot agree with what the execution has sent. -/
structure FeedInv (w : World) (g : Output) : Prop where
  deltas : w.feed.events.log.filterMap Sent.delta? = g.deltas
  attempt : ∀ sent ∈ w.feed.events.log, sent.delta? ≠ none → sent.attempt = w.feed.attempt
  taken : w.feed.events.taken ≤ w.feed.events.log.length
  marked : w.feed.collector.outputCommitted = g.marked
  delivery : ∀ failure, w.feed.collector.deliveryFailure = some failure → failure.Final
  outcome : ∀ result, w.outcome = .sent result → g.outcome = some result
  faithful : ∀ outcome, g.outcome = some (.ok outcome) → Faithful g.deltas outcome
  senderGone : w.feed.events.senderGone = true → g.closed = true ∨ w.dead .executor = true

/-- What a step of the execution does to the rest: the feed grows, unless its sender is gone. -/
structure Extends (w w' : World) : Prop where
  pub : w'.pub.log = w.pub.log
  row : w'.row = w.row
  messages : w'.messages = w.messages
  taken : w'.feed.events.taken = w.feed.events.taken
  senderGone : w.feed.events.senderGone = true → w'.feed.events.senderGone = true
  log : ∃ more, w'.feed.events.log = w.feed.events.log ++ more ∧
    (w.feed.events.senderGone = true → more = [])
  outcome : ∀ result, w.outcome = .sent result → w'.outcome = .sent result

theorem Extends.refl (w : World) : Extends w w :=
  ⟨rfl, rfl, rfl, rfl, id, ⟨[], by simp, fun _ => rfl⟩, fun _ h => h⟩

/-- A feed that differs in nothing the invariant reads but a delivery failure. -/
structure Alike (f f' : Feed) : Prop where
  events : f'.events = f.events
  attempt : f'.attempt = f.attempt
  committed : f'.collector.outputCommitted = f.collector.outputCommitted
  delivery : ∀ failure, f'.collector.deliveryFailure = some failure →
    f.collector.deliveryFailure = some failure ∨ failure.Final

theorem Alike.bump (f : Feed) : Alike f f.bump :=
  ⟨rfl, rfl, rfl, fun _ h => .inl h⟩

theorem Alike.giveUp (f : Feed) {failure : ExecutionFailure} (h : failure.Final) :
    Alike f (f.bump.giveUp failure) := by
  refine ⟨rfl, rfl, rfl, fun failure' h' => .inr ?_⟩
  cases h'
  exact h

theorem FeedInv.alike (h : FeedInv w g) {f : Feed} (hf : Alike w.feed f) :
    FeedInv (w.ofFeed f) g ∧ Extends w (w.ofFeed f) := by
  obtain ⟨hevents, hattempt, hcommitted, hdelivery⟩ := hf
  refine ⟨⟨?_, ?_, ?_, ?_, ?_, h.outcome, h.faithful, ?_⟩, ⟨rfl, rfl, rfl, ?_, ?_, ⟨[], ?_, ?_⟩, ?_⟩⟩
  · simpa [World.ofFeed, hevents] using h.deltas
  · simpa [World.ofFeed, hevents, hattempt] using h.attempt
  · simpa [World.ofFeed, hevents] using h.taken
  · simpa [World.ofFeed, hcommitted] using h.marked
  · intro failure hfailure
    rcases hdelivery failure hfailure with hold | hfinal
    · exact h.delivery failure hold
    · exact hfinal
  · simpa [World.ofFeed, hevents] using h.senderGone
  · simp [World.ofFeed, hevents]
  · simp [World.ofFeed, hevents]
  · simp [World.ofFeed, hevents]
  · simp
  · exact fun _ hresult => hresult

/-- The feed with one more message. -/
def sendInto (f : Feed) (event : RuntimeEvent) : Feed :=
  { f.bump with events := { f.events with log := f.events.log ++ [f.message event] } }

theorem message_delta? (f : Feed) (event : RuntimeEvent) :
    (f.message event).delta? = event.delta? := rfl

theorem FeedInv.send (h : FeedInv w g) {event : RuntimeEvent} (hgone : w.feed.events.senderGone = false)
    (hopen : event.delta? ≠ none → g.outcome = none) :
    FeedInv (w.ofFeed (sendInto w.feed event))
        { g with deltas := g.deltas ++ event.delta?.toList } ∧
      Extends w (w.ofFeed (sendInto w.feed event)) := by
  refine ⟨⟨?_, ?_, ?_, h.marked, h.delivery, h.outcome, ?_, h.senderGone⟩,
    ⟨rfl, rfl, rfl, rfl, id, ⟨[w.feed.message event], rfl, ?_⟩, fun _ hresult => hresult⟩⟩
  · have hdeltas := h.deltas
    simp only [World.ofFeed, sendInto, List.filterMap_append, hdeltas]
    cases hdelta : event.delta? <;> simp [message_delta?, hdelta]
  · intro sent hsent hdelta
    simp only [World.ofFeed, sendInto, List.mem_append, List.mem_singleton] at hsent
    rcases hsent with hold | rfl
    · exact h.attempt sent hold hdelta
    · rfl
  · have := h.taken
    simp only [World.ofFeed, sendInto, List.length_append, List.length_singleton]
    omega
  · intro outcome houtcome
    cases hdelta : event.delta? with
    | none => simpa using h.faithful outcome houtcome
    | some text => simp [hopen (by simp [hdelta])] at houtcome
  · simp [hgone]

/-! ### The operations of the feed -/

theorem push_cases (f : Feed) (event : RuntimeEvent) :
    f.push event = sendInto f event ∨ Alike f (f.push event) := by
  unfold Feed.push Feed.forwardNow
  split
  · exact .inr (Alike.bump f)
  split
  · next events hsent =>
    have := Channel.trySend_sent hsent
    subst this
    exact .inl rfl
  · exact .inr (Alike.giveUp f cancelledFailure_final)
  · exact .inr (Alike.giveUp f (streamBackpressure_final _))

theorem pushStream_cases {f f' : Feed} {event : RuntimeEvent} {ended : Pushed}
    (h : f.pushStream event ended = some f') :
    (ended = .accepted ∧ f' = sendInto f event) ∨
    (ended ≠ .accepted ∧ Alike f f' ∧ ∀ failure, ended = .refused failure →
      f.collector.deliveryFailure = some failure ∨ failure.Final) := by
  unfold Feed.pushStream at h
  split at h
  · next failure failure' hdelivery =>
    split at h
    · next hsame =>
      cases h
      refine .inr ⟨by simp, ⟨rfl, rfl, rfl, fun _ => .inl⟩, fun failure'' heq => .inl ?_⟩
      cases heq
      rw [hdelivery, hsame]
    · cases h
  · cases h
  · split at h
    · next events hsent =>
      cases h
      have := Channel.trySend_sent hsent
      subst this
      exact .inl ⟨rfl, rfl⟩
    · cases h
  · next failure hdelivery =>
    split at h
    · next hreason =>
      cases h
      refine .inr ⟨by simp, Alike.bump f, fun failure' heq => .inr ?_⟩
      cases heq
      rcases hreason with ⟨rfl, -⟩ | rfl
      · exact cancelledFailure_final
      · exact streamBackpressure_final _
    · cases h
  · split at h
    · cases h
      exact .inr ⟨by simp, Alike.bump f, by simp⟩
    · cases h
  · cases h
    exact .inr ⟨by simp, Alike.bump f, by simp⟩

theorem interruptible_eq {α : Type} {x : Interruptible α} (h : w.interruptible x = some w') :
    w' = w := by
  unfold World.interruptible at h
  split at h
  · split at h <;> cases h
    rfl
  · cases h
    rfl

/-- The execution's operations that leave the world as it is. -/
def Passive : ExecOp → Prop
  | .push _ | .pushStream .. | .markOutputCommitted | .insertAttemptStarted _ | .sendOutcome _
  | .dropEvents => False
  | _ => True

variable {o : ExecOp}

variable {x : o.Ans}

theorem grantExec_passive (ho : Passive o) (h : w.grantExec o x = some w') : w' = w := by
  cases o
  case push | pushStream | markOutputCommitted | insertAttemptStarted | sendOutcome | dropEvents =>
    exact ho.elim
  case outputCommitted | deliveryFailure | isCancelled =>
    simp only [World.grantExec] at h
    split at h <;> cases h
    rfl
  case sleep =>
    cases x with
    | slept => cases h; rfl
    | cancelled =>
      simp only [World.grantExec] at h
      split at h <;> cases h
      rfl
  case completion | runToolLoop | startStream | nextItem => exact interruptible_eq h
  all_goals
    cases h
    rfl

theorem next_passive (ho : Passive o) (x : o.Ans) : g.next o x = g := by
  cases o <;> first | exact ho.elim | rfl

theorem FeedInv.answers_passive (h : FeedInv w g) (ho : Passive o)
    (hgrant : w.grantExec o x = some w') : g.answers o x := by
  cases o
  case outputCommitted =>
    simp only [World.grantExec] at hgrant
    split at hgrant
    · next hsame => exact hsame.trans h.marked
    · cases hgrant
  case deliveryFailure =>
    simp only [World.grantExec] at hgrant
    split at hgrant
    · next hsame =>
      cases x with
      | none => trivial
      | some failure => exact h.delivery failure hsame.symm
    · cases hgrant
  all_goals trivial

/-- **A step of the execution keeps its side**, and only extends the other. -/
theorem FeedInv.exec (h : FeedInv w g) (hlive : w.dead .executor = false) (hmay : g.may o)
    (hgrant : w.grantExec o x = some w') :
    g.answers o x ∧ FeedInv w' (g.next o x) ∧ Extends w w' := by
  have hpresent : g.closed = false → w.feed.events.senderGone = false := by
    intro hclosed
    cases hgone : w.feed.events.senderGone with
    | false => rfl
    | true => simpa [hclosed, hlive] using h.senderGone hgone
  by_cases ho : Passive o
  · obtain rfl := grantExec_passive ho hgrant
    rw [next_passive ho]
    exact ⟨h.answers_passive ho hgrant, h, Extends.refl _⟩
  cases o
  case push event =>
    cases hgrant
    obtain ⟨hdelta, hclosed⟩ := hmay
    refine ⟨trivial, ?_⟩
    rcases push_cases w.feed event with hsent | halike
    · have hstep := h.send (hpresent hclosed) (fun hne : event.delta? ≠ none => absurd hdelta hne)
      simp only [hdelta, Option.toList_none, List.append_nil] at hstep
      rw [hsent]
      exact hstep
    · exact h.alike halike
  case pushStream event timeout =>
    obtain ⟨f', hf', rfl⟩ := Option.map_eq_some_iff.mp hgrant
    obtain ⟨houtcome, hclosed⟩ := hmay
    rcases pushStream_cases hf' with ⟨rfl, rfl⟩ | ⟨hne, halike, hrefused⟩
    · exact ⟨trivial, h.send (hpresent hclosed) fun _ => houtcome⟩
    · cases x with
      | accepted => exact absurd rfl hne
      | interrupted i => exact ⟨trivial, h.alike halike⟩
      | refused failure =>
        refine ⟨?_, h.alike halike⟩
        rcases hrefused failure rfl with hold | hfinal
        · exact h.delivery failure hold
        · exact hfinal
  case markOutputCommitted =>
    cases hgrant
    exact ⟨trivial, ⟨h.deltas, h.attempt, h.taken, rfl, h.delivery, h.outcome, h.faithful,
      h.senderGone⟩, ⟨rfl, rfl, rfl, rfl, id, ⟨[], by simp [World.ofFeed, Feed.markOutputCommitted],
      fun _ => rfl⟩, fun _ hresult => hresult⟩⟩
  case insertAttemptStarted row =>
    cases x with
    | error err =>
      cases hgrant
      exact ⟨trivial, h, Extends.refl _⟩
    | ok =>
      cases hgrant
      have hnone : g.deltas = [] := hmay
      -- nothing in the feed carries output, so no message changes its attempt
      have hquiet : ∀ sent ∈ w.feed.events.log, sent.delta? = none := by
        have hdeltas := h.deltas
        rw [hnone, List.filterMap_eq_nil_iff] at hdeltas
        exact hdeltas
      refine ⟨trivial, ⟨h.deltas, ?_, h.taken, h.marked, h.delivery, h.outcome, h.faithful,
        h.senderGone⟩, ⟨rfl, rfl, rfl, rfl, id, ⟨[], by simp [World.startAttempt, World.ofFeed],
        fun _ => rfl⟩, fun _ hresult => hresult⟩⟩
      exact fun sent hsent hdelta => absurd (hquiet sent hsent) hdelta
  case sendOutcome result =>
    cases hgrant
    obtain ⟨⟨hnone, -⟩, hfaithful⟩ := hmay
    refine ⟨trivial, ⟨h.deltas, h.attempt, h.taken, h.marked, h.delivery, ?_, ?_, h.senderGone⟩,
      ⟨rfl, rfl, rfl, rfl, id, ⟨[], by simp [World.sendOutcome], fun _ => rfl⟩, ?_⟩⟩
    · intro result' hresult
      cases hresult
      rfl
    · intro outcome houtcome
      exact hfaithful outcome (Option.some.inj houtcome)
    · intro result' hresult
      rw [h.outcome result' hresult] at hnone
      cases hnone
  case dropEvents =>
    cases hgrant
    exact ⟨trivial, ⟨h.deltas, h.attempt, h.taken, h.marked, h.delivery, h.outcome, h.faithful,
      fun _ => .inl rfl⟩, ⟨rfl, rfl, rfl, rfl, fun _ => rfl, ⟨[], by simp [World.dropEvents,
      World.ofFeed], fun _ => rfl⟩, fun _ hresult => hresult⟩⟩
  all_goals exact absurd trivial ho

/-! ## The supervisor's side -/

/-- The client's channel, the row and the messages agree with what the supervisor has done. -/
structure RelayInv (ctx : StreamContext) (w : World) (r : Session) : Prop where
  sequences : w.pub.log.map (·.sequence) = List.range' 1 r.sent
  relayed : r.connected = true →
    w.pub.log.filterMap PublicSse.delta? ++ (r.inHand.bind Sent.delta?).toList =
      w.feed.events.received.filterMap Sent.delta?
  origin : ∀ e ∈ w.pub.log, e.delta? ≠ none →
    ∃ sent ∈ w.feed.events.log, sent.delta? ≠ none ∧ sent.attempt = e.attempt
  inHand : ∀ sent, r.inHand = some sent → sent ∈ w.feed.events.log
  ended : r.ended = true →
    w.feed.events.log.length ≤ w.feed.events.taken ∧ w.feed.events.senderGone = true
  outcome : ∀ result, r.outcome = some (some result) → w.outcome = .sent result
  persisted : ∀ status update, r.persisted = some (status, update) →
    w.row = World.written status update
  none_terminal : r.terminal = none → ∀ e ∈ w.pub.log, e.event.terminalStatus = none
  last_terminal : ∀ e, r.terminal = some e → r.Justifies ctx e ∧ r.inHand = none ∧
    ∃ earlier, w.pub.log = earlier ++ [e] ∧ ∀ e' ∈ earlier, e'.event.terminalStatus = none
  messages : ∀ m ∈ w.messages, ∃ outcome, r.Succeeded outcome ∧ outcome.outputText = some m

theorem RelayInv.extend (h : RelayInv ctx w r)
    (htaken : w.feed.events.taken ≤ w.feed.events.log.length) (hext : Extends w w') :
    RelayInv ctx w' r := by
  obtain ⟨more, hlog, hmore⟩ := hext.log
  have hmem : ∀ sent, sent ∈ w.feed.events.log → sent ∈ w'.feed.events.log := by
    intro sent hsent
    rw [hlog]
    exact List.mem_append_left _ hsent
  have hreceived : w'.feed.events.received = w.feed.events.received := by
    simp only [Channel.received, hlog, hext.taken]
    exact List.take_append_of_le_length htaken
  refine ⟨?_, ?_, ?_, fun sent hsent => hmem sent (h.inHand sent hsent), ?_,
    fun result hresult => hext.outcome result (h.outcome result hresult), ?_, ?_, ?_, ?_⟩
  · rw [hext.pub]
    exact h.sequences
  · rw [hext.pub, hreceived]
    exact h.relayed
  · intro e he hdelta
    rw [hext.pub] at he
    obtain ⟨sent, hsent, hsame⟩ := h.origin e he hdelta
    exact ⟨sent, hmem sent hsent, hsame⟩
  · intro hended
    obtain ⟨hall, hgone⟩ := h.ended hended
    rw [hlog, hext.taken, hmore hgone, List.append_nil]
    exact ⟨hall, hext.senderGone hgone⟩
  · rw [hext.row]
    exact h.persisted
  · rw [hext.pub]
    exact h.none_terminal
  · rw [hext.pub]
    exact h.last_terminal
  · rw [hext.messages]
    exact h.messages

/-- What leaves the execution's side alone: at most, messages are taken from the feed. -/
structure Leaves (w w' : World) : Prop where
  log : w'.feed.events.log = w.feed.events.log
  taken : w'.feed.events.taken ≤ w.feed.events.log.length
  senderGone : w'.feed.events.senderGone = w.feed.events.senderGone
  collector : w'.feed.collector = w.feed.collector
  attempt : w'.feed.attempt = w.feed.attempt
  outcome : w'.outcome = w.outcome
  dead : w'.dead .executor = w.dead .executor

theorem Leaves.refl (h : FeedInv w g) : Leaves w w :=
  ⟨rfl, h.taken, rfl, rfl, rfl, rfl, rfl⟩

theorem FeedInv.leave (h : FeedInv w g) (hleaves : Leaves w w') : FeedInv w' g := by
  obtain ⟨hlog, htaken, hgone, hcollector, hattempt, houtcome, hdead⟩ := hleaves
  refine ⟨?_, ?_, ?_, ?_, ?_, ?_, h.faithful, ?_⟩
  · rw [hlog]
    exact h.deltas
  · rw [hlog, hattempt]
    exact h.attempt
  · rw [hlog]
    exact htaken
  · rw [hcollector]
    exact h.marked
  · rw [hcollector]
    exact h.delivery
  · rw [houtcome]
    exact h.outcome
  · rw [hgone, hdead]
    exact h.senderGone

/-! ### The operations of the supervisor -/

variable {e : PublicSse}

theorem carries_delta? (h : r.Carries e) : e.delta? = r.inHand.bind Sent.delta? := by
  unfold Session.Carries at h
  split at h
  · next sent hsent => simp [hsent, (mapRuntimeEvent_some h).1]
  · next hnone => simp [hnone, h]

theorem carries_attempt (h : r.Carries e) (hdelta : e.delta? ≠ none) :
    ∃ sent, r.inHand = some sent ∧ sent.delta? ≠ none ∧ sent.attempt = e.attempt := by
  unfold Session.Carries at h
  split at h
  · next sent hsent =>
    obtain ⟨hsame, hattempt, -, -⟩ := mapRuntimeEvent_some h
    exact ⟨sent, hsent, hsame ▸ hdelta, hattempt.symm⟩
  · exact absurd h hdelta

section

variable (h : RelayInv ctx w r)
include h

theorem RelayInv.accept (hmay : r.may ctx (.sendPublic e)) :
    RelayInv ctx { w with pub := { w.pub with log := w.pub.log ++ [e] } }
      (r.next (.sendPublic e) true) := by
  obtain ⟨hnone, hsequence, hjustified, hcarries⟩ := hmay
  refine ⟨?_, ?_, ?_, by simp [Session.next], h.ended, h.outcome, h.persisted, ?_, ?_, h.messages⟩
  · simp [Session.next, h.sequences, hsequence, List.range'_concat, Nat.add_comm]
  · intro hconnected
    have hrelayed := h.relayed hconnected
    rw [← carries_delta? hcarries] at hrelayed
    simp only [Session.next, List.filterMap_append, Option.bind_none, Option.toList_none,
      List.append_nil]
    rw [← hrelayed]
    cases hdelta : e.delta? <;> simp [hdelta]
  · intro e' he' hdelta
    rcases List.mem_append.mp he' with hold | hnew
    · exact h.origin e' hold hdelta
    · obtain rfl := List.mem_singleton.mp hnew
      obtain ⟨sent, hsent, hsame⟩ := carries_attempt hcarries hdelta
      exact ⟨sent, h.inHand sent hsent, hsame⟩
  · intro hterminal e' he'
    rcases List.mem_append.mp he' with hold | hnew
    · exact h.none_terminal hnone e' hold
    · obtain rfl := List.mem_singleton.mp hnew
      by_contra hstatus
      simp [Session.next, Option.isSome_iff_ne_none, hstatus] at hterminal
  · intro e' he'
    have hsame : e = e' := by
      simp only [Session.next] at he'
      split at he'
      · exact Option.some.inj he'
      · cases he'
    subst hsame
    exact ⟨hjustified, rfl, w.pub.log, rfl, h.none_terminal hnone⟩

theorem RelayInv.disconnect (hnone : r.terminal = none) {hand : Option Sent}
    (hhand : hand = none ∨ hand = r.inHand) :
    RelayInv ctx w { r with connected := false, inHand := hand } := by
  refine ⟨h.sequences, fun hconnected => Bool.noConfusion hconnected, h.origin, ?_, h.ended, h.outcome,
    h.persisted, h.none_terminal, ?_, h.messages⟩
  · intro sent hsent
    rcases hhand with rfl | rfl
    · cases hsent
    · exact h.inHand sent hsent
  · intro e he
    simp [hnone] at he

theorem RelayInv.take (hmay : r.may ctx .nextEvent) {sent : Sent}
    (hsent : w.feed.events.log[w.feed.events.taken]? = some sent) :
    RelayInv ctx
      (w.ofFeed { w.feed with
        events := { w.feed.events with taken := w.feed.events.taken + 1 } })
      (r.next .nextEvent (.event sent)) := by
  obtain ⟨hconnected, hhand, hnone⟩ := hmay
  refine ⟨h.sequences, fun _ => ?_, h.origin, ?_, ?_, h.outcome, h.persisted, h.none_terminal, ?_,
    h.messages⟩
  · have hrelayed := h.relayed hconnected
    rw [hhand, Option.bind_none, Option.toList_none, List.append_nil] at hrelayed
    have hreceived : List.take (w.feed.events.taken + 1) w.feed.events.log =
        List.take w.feed.events.taken w.feed.events.log ++ [sent] := by
      rw [List.take_add_one, hsent, Option.toList_some]
    simp only [World.ofFeed, Channel.received, hreceived, List.filterMap_append, Session.next]
    rw [show w.feed.events.log.take w.feed.events.taken = w.feed.events.received from rfl,
      ← hrelayed]
    cases hmapped : mapRuntimeEvent sent 0 with
    | none => simp [delta?_of_not_relayed hmapped]
    | some mapped => cases hdelta : sent.delta? <;> simp [hdelta]
  · intro sent' hsent'
    have hsame : sent = sent' := by
      simp only [Session.next] at hsent'
      split at hsent'
      · exact Option.some.inj hsent'
      · cases hsent'
    exact hsame ▸ List.mem_of_getElem? hsent
  · intro hended
    obtain ⟨hall, hgone⟩ := h.ended hended
    exact ⟨by simp only [World.ofFeed]; omega, hgone⟩
  · intro e he
    simp [Session.next, hnone] at he

theorem RelayInv.discard (hmay : r.connected = false) {taken : Nat}
    (htaken : w.feed.events.taken ≤ taken) :
    RelayInv ctx (w.ofFeed { w.feed with events := { w.feed.events with taken } }) r := by
  refine ⟨h.sequences, fun hconnected => absurd hconnected (by simp [hmay]), h.origin, h.inHand, ?_,
    h.outcome, h.persisted, h.none_terminal, h.last_terminal, h.messages⟩
  intro hended
  obtain ⟨hall, hgone⟩ := h.ended hended
  exact ⟨Nat.le_trans hall htaken, hgone⟩

theorem RelayInv.arrive (hmay : r.may ctx .awaitOutcome)
    {outcome : Option (Except ExecutionFailure ExecutionOutcome)}
    (hgrant : w.awaitOutcome outcome = some w') :
    w' = w ∧ RelayInv ctx w (r.next .awaitOutcome outcome) := by
  obtain ⟨hfresh, hnone⟩ := hmay
  have hslot : w' = w ∧ ∀ result, outcome = some result → w.outcome = .sent result := by
    cases outcome with
    | none =>
      simp only [World.awaitOutcome] at hgrant
      split at hgrant <;> cases hgrant
      exact ⟨rfl, by simp⟩
    | some result =>
      simp only [World.awaitOutcome] at hgrant
      split at hgrant
      · next result' hsent =>
        split at hgrant <;> cases hgrant
        next hsame =>
        refine ⟨rfl, fun result'' heq => ?_⟩
        cases heq
        rw [hsent, hsame]
      · cases hgrant
  refine ⟨hslot.1, h.sequences, h.relayed, h.origin, h.inHand, h.ended, ?_, h.persisted,
    h.none_terminal, ?_, ?_⟩
  · intro result hresult
    exact hslot.2 result (Option.some.inj hresult)
  · intro e he
    simp [Session.next, hnone] at he
  · -- no message was stored before the outcome was known
    intro m hm
    obtain ⟨outcome', ⟨houtcome, -⟩, -⟩ := h.messages m hm
    rw [hfresh] at houtcome
    cases houtcome

theorem RelayInv.persist {status : PublicResponseStatus} {update : ResponseTerminalUpdate}
    {result : Except AppError Unit} (hmay : r.may ctx (.persist status update))
    (hgrant : w.persist status update result = some w') :
    (w' = w ∨ w' = { w with row := World.written status update }) ∧
      RelayInv ctx w' (r.next (.persist status update) result) := by
  obtain ⟨hfresh, hnone⟩ := hmay
  have hrow : ∀ row, RelayInv ctx { w with row } r := by
    intro row
    refine ⟨h.sequences, h.relayed, h.origin, h.inHand, h.ended, h.outcome, ?_, h.none_terminal,
      h.last_terminal, h.messages⟩
    intro status' update' hpersisted
    rw [hfresh] at hpersisted
    cases hpersisted
  cases result with
  | error err =>
    simp only [World.persist] at hgrant
    split at hgrant <;> cases hgrant
    · exact ⟨.inr rfl, hrow _⟩
    · exact ⟨.inl rfl, h⟩
  | ok =>
    simp only [World.persist] at hgrant
    split at hgrant <;> cases hgrant
    refine ⟨.inr rfl, h.sequences, h.relayed, h.origin, h.inHand, h.ended, h.outcome, ?_,
      h.none_terminal, ?_, h.messages⟩
    · intro status' update' hpersisted
      cases hpersisted
      rfl
    · intro e he
      simp [Session.next, hnone] at he

theorem RelayInv.record {outputText : Option String}
    (hmay : r.may ctx (.recordAssistant outputText)) (result : Except AppError Unit) :
    RelayInv ctx (w.recordAssistant outputText result) r := by
  obtain ⟨outcome, hsucceeded, rfl⟩ := hmay
  have hstored : RelayInv ctx { w with messages := w.messages ++ outcome.outputText.toList } r := by
    refine ⟨h.sequences, h.relayed, h.origin, h.inHand, h.ended, h.outcome, h.persisted,
      h.none_terminal, h.last_terminal, fun m hm => ?_⟩
    rcases List.mem_append.mp hm with hold | hnew
    · exact h.messages m hold
    · exact ⟨outcome, hsucceeded, Option.mem_toList.mp hnew⟩
  cases result with
  | ok => exact hstored
  | error err =>
    simp only [World.recordAssistant]
    split
    · exact hstored
    · exact h

end

theorem recv_taken {α : Type} {ch ch' : Channel α} {x : Option α}
    (h : ch.recv = some (x, ch')) (hle : ch.taken ≤ ch.log.length) :
    ch' = { ch with taken := ch'.taken } ∧ ch.taken ≤ ch'.taken ∧ ch'.taken ≤ ch.log.length := by
  cases x with
  | none =>
    obtain ⟨-, -, rfl⟩ := Channel.recv_none h
    exact ⟨rfl, Nat.le_refl _, hle⟩
  | some a =>
    obtain ⟨hget, rfl⟩ := Channel.recv_some h
    obtain ⟨hlt, -⟩ := List.getElem?_eq_some_iff.mp hget
    exact ⟨rfl, Nat.le_succ _, hlt⟩

/-- **A step of the supervisor keeps both sides.** -/
theorem RelayInv.supervise (h : RelayInv ctx w r) (hfeed : FeedInv w g) {o : SupervisorOp}
    {x : o.Ans} (hmay : r.may ctx o) (hgrant : w.grantSupervisor o x = some w') :
    RelayInv ctx w' (r.next o x) ∧ Leaves w w' := by
  cases o with
  | sendPublic e =>
    cases x with
    | false =>
      cases hgrant
      exact ⟨h.disconnect hmay.1 (.inl rfl), Leaves.refl hfeed⟩
    | true =>
      simp only [World.grantSupervisor, World.sendPublic] at hgrant
      split at hgrant
      · next pub hsent =>
        cases hgrant
        have := Channel.trySend_sent hsent
        subst this
        exact ⟨h.accept hmay, ⟨rfl, hfeed.taken, rfl, rfl, rfl, rfl, rfl⟩⟩
      · cases hgrant
  | nextEvent =>
    cases x with
    | closed =>
      simp only [World.grantSupervisor, World.nextEvent] at hgrant
      split at hgrant <;> cases hgrant
      exact ⟨h.disconnect hmay.2.2 (.inr rfl), Leaves.refl hfeed⟩
    | event sent =>
      simp only [World.grantSupervisor, World.nextEvent] at hgrant
      split at hgrant
      · next sent' events hrecv =>
        split at hgrant
        · next hsame =>
          cases hgrant
          subst hsame
          obtain ⟨-, -, hle⟩ := recv_taken hrecv hfeed.taken
          obtain ⟨hget, rfl⟩ := Channel.recv_some hrecv
          exact ⟨h.take hmay hget, ⟨rfl, hle, rfl, rfl, rfl, rfl, rfl⟩⟩
        · cases hgrant
      · cases hgrant
    | ended =>
      simp only [World.grantSupervisor, World.nextEvent] at hgrant
      split at hgrant
      · next events hrecv =>
        cases hgrant
        obtain ⟨hall, hgone, -⟩ := Channel.recv_none hrecv
        refine ⟨⟨h.sequences, h.relayed, h.origin, h.inHand, fun _ => ⟨hall, hgone⟩, h.outcome,
          h.persisted, h.none_terminal, ?_, h.messages⟩, Leaves.refl hfeed⟩
        intro e he
        simp [Session.next, hmay.2.2] at he
      · cases hgrant
  | cancel =>
    cases hgrant
    exact ⟨⟨h.sequences, h.relayed, h.origin, h.inHand, h.ended, h.outcome, h.persisted,
      h.none_terminal, h.last_terminal, h.messages⟩, ⟨rfl, hfeed.taken, rfl, rfl, rfl, rfl, rfl⟩⟩
  | drainEvent =>
    simp only [World.grantSupervisor, World.drainEvent] at hgrant
    split at hgrant
    · next received events hrecv =>
      split at hgrant <;> cases hgrant
      obtain ⟨hevents, hmore, hle⟩ := recv_taken hrecv hfeed.taken
      rw [hevents]
      exact ⟨h.discard hmay hmore, ⟨rfl, hle, rfl, rfl, rfl, rfl, rfl⟩⟩
    · cases hgrant
  | awaitOutcome =>
    obtain ⟨rfl, harrived⟩ := h.arrive hmay hgrant
    exact ⟨harrived, Leaves.refl hfeed⟩
  | isClosed =>
    simp only [World.grantSupervisor] at hgrant
    split at hgrant <;> cases hgrant
    exact ⟨h, Leaves.refl hfeed⟩
  | persist status update =>
    obtain ⟨hw, hpersisted⟩ := h.persist hmay hgrant
    refine ⟨hpersisted, ?_⟩
    rcases hw with rfl | rfl
    · exact Leaves.refl hfeed
    · exact ⟨rfl, hfeed.taken, rfl, rfl, rfl, rfl, rfl⟩
  | recordAssistant outputText =>
    cases hgrant
    refine ⟨h.record hmay x, ?_⟩
    cases x with
    | ok => exact ⟨rfl, hfeed.taken, rfl, rfl, rfl, rfl, rfl⟩
    | error err =>
      simp only [World.recordAssistant]
      split <;> exact ⟨rfl, hfeed.taken, rfl, rfl, rfl, rfl, rfl⟩
  | audit action result =>
    cases hgrant
    exact ⟨h, Leaves.refl hfeed⟩
  | dropAll =>
    cases hgrant
    exact ⟨⟨h.sequences, h.relayed, h.origin, h.inHand, h.ended, h.outcome, h.persisted,
      h.none_terminal, h.last_terminal, h.messages⟩, ⟨rfl, hfeed.taken, rfl, rfl, rfl, rfl, rfl⟩⟩

/-! ## The outline -/

abbrev Ghost : Task → Type
  | .executor => Output
  | .supervisor => Session

def contract (ctx : StreamContext) : (i : Task) → Contract (sig i) (Ghost i)
  | .executor => outputContract
  | .supervisor => sessionContract ctx

def atPoint : (i : Task) → Point i → Ghost i → Prop
  | .executor, _, g => g = {}
  | .supervisor, point, r => AtPoint r point

/-- Both sides of the world. -/
def Both (ctx : StreamContext) (w : World) (γ : (i : Task) → Ghost i) : Prop :=
  FeedInv w (γ .executor) ∧ RelayInv ctx w (γ .supervisor)

theorem both_nature {γ : (i : Task) → Ghost i} (h : Both ctx w γ) {e : Event}
    (hnature : nature w e = some w') : Both ctx w' γ := by
  obtain ⟨hfeed, hrelay⟩ := h
  have hsame : Leaves w w' ∧ Extends w w' → Both ctx w' γ := fun ⟨hleaves, hext⟩ =>
    ⟨hfeed.leave hleaves, hrelay.extend hfeed.taken hext⟩
  have hnothing : ∃ more, w.feed.events.log = w.feed.events.log ++ more ∧
      (w.feed.events.senderGone = true → more = []) := ⟨[], by simp⟩
  cases e with
  | clientReceives =>
    simp only [nature] at hnature
    split at hnature
    · next received pub hrecv =>
      cases hnature
      obtain ⟨-, rfl⟩ := Channel.recv_some hrecv
      exact hsame ⟨⟨rfl, hfeed.taken, rfl, rfl, rfl, rfl, rfl⟩,
        ⟨rfl, rfl, rfl, rfl, id, hnothing, fun _ hresult => hresult⟩⟩
    · cases hnature
  | clientLeaves | sweep | toggleUnacked =>
    cases hnature
    exact hsame ⟨⟨rfl, hfeed.taken, rfl, rfl, rfl, rfl, rfl⟩,
      ⟨rfl, rfl, rfl, rfl, id, hnothing, fun _ hresult => hresult⟩⟩
  | kill i =>
    cases hnature
    cases i with
    | supervisor =>
      exact hsame ⟨⟨rfl, hfeed.taken, rfl, rfl, rfl, rfl, by simp [World.kill, World.dropAll]⟩,
        ⟨rfl, rfl, rfl, rfl, id, hnothing, fun _ hresult => hresult⟩⟩
    | executor =>
      have hslot : ∀ result, w.outcome.drop = .sent result ↔ w.outcome = .sent result := by
        intro result
        cases w.outcome <;> simp [OutcomeSlot.drop]
      refine ⟨⟨hfeed.deltas, hfeed.attempt, hfeed.taken, hfeed.marked, hfeed.delivery, ?_,
        hfeed.faithful, fun _ => .inr (by simp [World.kill])⟩,
        hrelay.extend hfeed.taken ⟨rfl, rfl, rfl, rfl, fun _ => rfl, hnothing, ?_⟩⟩
      · exact fun result hresult => hfeed.outcome result ((hslot result).mp hresult)
      · exact fun result hresult => (hslot result).mpr hresult

/-- The proof outline of a streamed response. -/
def outline (ctx : StreamContext) : System.Outline (system ctx) where
  Ghost := Ghost
  contract := contract ctx
  at_ := atPoint
  shared := Both ctx
  code_ok
    | .executor, _, _, h => by
      subst h
      refine Prog.wp_mono (wp_streamTask ctx.streamed) ?_ fun _ _ _ => trivial
      intro g next hnext point hpoint
      rw [hnext] at hpoint
      cases hpoint
    | .supervisor, _, _, h => keeps_code h
  act_ok
    | .executor, w, o, x, w', γ, h, _, hmay, hgrant => by
      obtain ⟨hfeed, hrelay⟩ := h
      cases hdead : w.dead .executor with
      | true => simp [system, grant, hdead] at hgrant
      | false =>
        have hexec : w.grantExec o x = some w' := by simpa [system, grant, hdead] using hgrant
        obtain ⟨hanswers, hfeed', hext⟩ := hfeed.exec hdead hmay hexec
        exact ⟨hanswers, by rw [Function.update_self]; exact hfeed',
          by simpa using hrelay.extend hfeed.taken hext⟩
    | .supervisor, w, o, x, w', γ, h, _, hmay, hgrant => by
      obtain ⟨hfeed, hrelay⟩ := h
      cases hdead : w.dead .supervisor with
      | true => simp [system, grant, hdead] at hgrant
      | false =>
        have hstep : w.grantSupervisor o x = some w' := by
          simpa [system, grant, hdead] using hgrant
        obtain ⟨hrelay', hleaves⟩ := hrelay.supervise hfeed hmay hstep
        exact ⟨trivial, by simpa using hfeed.leave hleaves,
          by rw [Function.update_self]; exact hrelay'⟩
  nature_ok _ _ _ _ h hnature := both_nature h hnature

theorem holds_initial (ctx : StreamContext) : (outline ctx).Holds (initial ctx) := by
  refine ⟨fun | .executor => {} | .supervisor => {}, ⟨?_, ?_⟩, ?_⟩
  · exact ⟨rfl, by simp [initial, World.initial], Nat.le_refl _, rfl, by simp [initial, World.initial],
      by simp [initial, World.initial], by simp, by simp [initial, World.initial]⟩
  · refine ⟨rfl, fun _ => rfl, ?_, ?_, ?_, ?_, ?_, ?_, ?_, ?_⟩ <;>
      simp [initial, World.initial]
  · intro i
    cases i with
    | executor => exact (outline ctx).code_ok .executor () _ rfl
    | supervisor => exact (outline ctx).code_ok .supervisor .announce _ rfl

/-! ## Exact delivery -/

/-- What is persisted of an output text: the row's summary, and the message if there is one. -/
def PersistedText (ctx : StreamContext) (w : World) (text : String) : Prop :=
  w.row.update.map (·.outputSummary) = some (outputSummaryOf ctx.hasher ctx.persistenceMode (some text)) ∧
    ∀ message ∈ w.messages, message = text

/-- What a client is owed for the events `out` it has been sent. -/
structure ExactDelivery (ctx : StreamContext) (w : World) (out : List PublicSse) : Prop where
  /-- All output comes from one attempt. -/
  oneAttempt : ∃ attempt, ∀ e ∈ out, e.delta? ≠ none → e.attempt = attempt
  /-- The sequence numbers are 1, 2, 3, ... -/
  sequences : out.map (·.sequence) = List.range' 1 out.length
  /-- Nothing follows a terminal event. -/
  terminalLast : ∀ earlier e later, out = earlier ++ e :: later →
    e.event.terminalStatus ≠ none → later = []
  /-- A terminal event announces the persisted status. -/
  persisted : ∀ e ∈ out, ∀ status, e.event.terminalStatus = some status → w.row.status = status
  /-- A completed response was delivered as it was persisted. -/
  completed : ∀ e ∈ out, e.event.terminalStatus = some .completed →
    PersistedText ctx w (String.join (out.filterMap PublicSse.delta?))

theorem ExactDelivery.take {out : List PublicSse} (h : ExactDelivery ctx w out) (n : Nat) :
    ExactDelivery ctx w (out.take n) := by
  have hmem : ∀ e ∈ out.take n, e ∈ out := fun e he => List.mem_of_mem_take he
  refine ⟨?_, ?_, ?_, fun e he => h.persisted e (hmem e he), ?_⟩
  · obtain ⟨attempt, hattempt⟩ := h.oneAttempt
    exact ⟨attempt, fun e he => hattempt e (hmem e he)⟩
  · rw [List.map_take, h.sequences, List.length_take]
    rcases Nat.le_total n out.length with hle | hle
    · rw [List.take_range'_of_length_ge hle, Nat.min_eq_left hle]
    · rw [List.take_range'_of_length_le hle, Nat.min_eq_right hle]
  · intro earlier e later htake hterminal
    have hout : out = earlier ++ e :: (later ++ out.drop n) := by
      calc out = out.take n ++ out.drop n := (List.take_append_drop n out).symm
        _ = earlier ++ e :: (later ++ out.drop n) := by rw [htake]; simp
    exact (List.append_eq_nil_iff.mp (h.terminalLast earlier e _ hout hterminal)).1
  · intro e he hcompleted
    -- nothing follows the terminal event, so it was delivered with all that was sent
    obtain ⟨earlier, later, htake⟩ := List.append_of_mem he
    have hout : out = earlier ++ e :: (later ++ out.drop n) := by
      calc out = out.take n ++ out.drop n := (List.take_append_drop n out).symm
        _ = earlier ++ e :: (later ++ out.drop n) := by rw [htake]; simp
    have hrest := h.terminalLast earlier e _ hout (by simp [hcompleted])
    have hall : out.take n = out := by
      have := List.take_append_drop n out
      rwa [(List.append_eq_nil_iff.mp hrest).2, List.append_nil] at this
    rw [hall]
    exact h.completed e (hmem e he) hcompleted

theorem RelayInv.completed (h : RelayInv ctx w r) (hfeed : FeedInv w g) (hhand : r.inHand = none)
    (hcompleted : r.Completed ctx) :
    PersistedText ctx w (String.join (w.pub.log.filterMap PublicSse.delta?)) := by
  obtain ⟨hconnected, hended, outcome, hsucceeded, hpersisted⟩ := hcompleted
  have hrelayed : w.pub.log.filterMap PublicSse.delta? = g.deltas := by
    have hall := h.relayed hconnected
    rw [hhand, Option.bind_none, Option.toList_none, List.append_nil, Channel.received,
      List.take_of_length_le (h.ended hended).1] at hall
    exact hall.trans hfeed.deltas
  have htext : outcome.outputText = some (String.join g.deltas) :=
    hfeed.faithful outcome (hfeed.outcome _ (h.outcome _ hsucceeded.1)) hsucceeded.2
  rw [hrelayed]
  refine ⟨?_, fun message hmessage => ?_⟩
  · rw [h.persisted _ _ hpersisted, ← htext]
    rfl
  · obtain ⟨outcome', hsucceeded', htext'⟩ := h.messages message hmessage
    have hsame : outcome' = outcome := by
      have := hsucceeded'.1.symm.trans hsucceeded.1
      simpa using this
    rw [hsame, htext] at htext'
    exact (Option.some.inj htext').symm

namespace Sample

def context : StreamContext where
  settings := Trial.settings
  command := { Trial.command with options := { stream := true } }
  streamed := rfl
  hasher :=
    { pepperVersion := "v1", mac := id, secretFingerprint := id
      version_plain := defaultVersion_plain }
  persistenceMode := "metadata_only"
  hasConversation := true

/-- The provider streams two deltas; every service agrees. -/
def execAnswer : (o : ExecOp) → o.Ans
  | .startStream => .done (.ok [.ok (.textDelta "Hel"), .ok (.textDelta "lo")])
  | o => (Trial.env (.ok { text := "" }) (.done ()) 0 o).1

/-- What the world has for the supervisor. -/
def supervisorAnswer (w : World) : (o : SupervisorOp) → o.Ans
  | .sendPublic _ => true
  | .nextEvent =>
    match w.feed.events.recv with
    | some (some sent, _) => .event sent
    | _ => .ended
  | .cancel => ()
  | .drainEvent => false
  | .awaitOutcome =>
    match w.outcome with
    | .sent result => some result
    | _ => none
  | .isClosed => false
  | .persist .. => .ok ()
  | .recordAssistant _ => .ok ()
  | .audit .. => .ok ()
  | .dropAll => ()

/-- The execution first, then the supervisor, then the client. -/
def moves : Nat → (system context).State → List (system context).Move
  | 0, _ => []
  | n + 1, s =>
    let candidates : List (system context).Move :=
      [.act .executor execAnswer, .act .supervisor (supervisorAnswer s.world), .jump .supervisor,
        .nature .clientReceives]
    match candidates.filterMap fun m => ((system context).step s m).map fun s' => (m, s') with
    | (m, s') :: _ => m :: moves n s'
    | [] => []

end Sample

end Moira.Streaming
