import Mathlib.Tactic.Common

/-!
# Bounded channels

A multi-producer channel of bounded capacity with one receiver. The channel keeps every message it
ever accepted (`log`) and how many of them were received (`taken`), so what was delivered is
always a prefix of what was sent, in order and without duplicates.
-/

/-- A bounded first-in first-out channel. -/
structure Channel (α : Type) where
  capacity : Nat
  log : List α := []
  taken : Nat := 0
  senderGone : Bool := false
  receiverGone : Bool := false

namespace Channel

variable {α : Type} {ch ch' : Channel α} {a : α}

inductive TrySend
  | sent
  | closed
  | full

/-- The messages that were received. -/
def received (ch : Channel α) : List α :=
  ch.log.take ch.taken

/-- The messages that wait to be received. -/
def pending (ch : Channel α) : List α :=
  ch.log.drop ch.taken

/-- Send without waiting. -/
def trySend (ch : Channel α) (a : α) : TrySend × Channel α :=
  if ch.receiverGone then (.closed, ch)
  else if ch.capacity ≤ ch.pending.length then (.full, ch)
  else (.sent, { ch with log := ch.log ++ [a] })

/-- Receive: the next message, the end of the channel, or `none` when there is nothing yet. -/
def recv (ch : Channel α) : Option (Option α × Channel α) :=
  match ch.pending with
  | a :: _ => some (some a, { ch with taken := ch.taken + 1 })
  | [] => if ch.senderGone then some (none, ch) else none

theorem trySend_sent (h : ch.trySend a = (.sent, ch')) :
    ch' = { ch with log := ch.log ++ [a] } := by
  unfold trySend at h
  split at h
  · cases h
  · split at h <;> cases h
    rfl

theorem recv_some (h : ch.recv = some (some a, ch')) :
    ch.log[ch.taken]? = some a ∧ ch' = { ch with taken := ch.taken + 1 } := by
  unfold recv at h
  split at h
  · next b rest hpending =>
    cases h
    refine ⟨?_, rfl⟩
    rw [← List.head?_drop]
    simp [show ch.log.drop ch.taken = a :: rest from hpending]
  · split at h <;> cases h

theorem recv_none (h : ch.recv = some (none, ch')) :
    ch.log.length ≤ ch.taken ∧ ch.senderGone = true ∧ ch' = ch := by
  unfold recv at h
  split at h
  · cases h
  · next hpending =>
    split at h
    · next hgone =>
      cases h
      exact ⟨List.drop_eq_nil_iff.mp hpending, hgone, rfl⟩
    · cases h

end Channel
