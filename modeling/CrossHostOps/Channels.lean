import Mathlib.Data.List.Basic
import CrossHostOps.Runs

/-!
Channels between tasks: what has been received, and what has been sent and waits. A sender of a
bounded channel waits until there is room.
-/

namespace CrossHostOps.Channels

open Runs

structure Channel (α : Type*) where
  received : List α
  queue : List α

namespace Channel

variable {α : Type*} {c c' : Channel α} {a : α} {capacity : ℕ}

def empty : Channel α := ⟨[], []⟩

def sent (c : Channel α) : List α := c.received ++ c.queue

def hasRoom (capacity : ℕ) (c : Channel α) : Prop := c.queue.length < capacity
  deriving Decidable

def push (c : Channel α) (a : α) : Channel α := { c with queue := c.queue ++ [a] }

/-- A send that need not wait. -/
def send (capacity : ℕ) (c : Channel α) (a : α) : Option (Channel α) :=
  if c.hasRoom capacity then some (c.push a) else none

def receive (c : Channel α) : Option (Channel α) :=
  match c.queue with
  | [] => none
  | a :: queue => some ⟨c.received ++ [a], queue⟩

@[simp] lemma sent_push (c : Channel α) (a : α) : (c.push a).sent = c.sent ++ [a] := by
  simp [sent, push]

lemma send_some (h : c.send capacity a = some c') : c.hasRoom capacity ∧ c' = c.push a := by
  unfold send at h
  split at h
  next hroom =>
    cases h
    exact ⟨hroom, rfl⟩
  · cases h

lemma map_send {β : Type*} {b : β} {f : Channel α → β}
    (h : (c.send capacity a).map f = some b) : b = f (c.push a) := by
  obtain ⟨c', hsend, rfl⟩ := Option.map_eq_some_iff.1 h
  rw [(send_some hsend).2]

lemma send_of_hasRoom (h : c.hasRoom capacity) : c.send capacity a = some (c.push a) := if_pos h

lemma sent_receive (h : c.receive = some c') : c'.sent = c.sent := by
  unfold receive at h
  split at h
  · cases h
  next hqueue =>
    cases h
    simp [sent, hqueue]

lemma length_receive (h : c.receive = some c') : c'.queue.length + 1 = c.queue.length := by
  unfold receive at h
  split at h
  · cases h
  next hqueue =>
    cases h
    rw [hqueue, List.length_cons]

lemma receive_cons {received queue : List α} :
    (⟨received, a :: queue⟩ : Channel α).receive = some ⟨received ++ [a], queue⟩ := rfl

lemma hasRoom_receive (h : c.receive = some c') (hroom : c.hasRoom capacity) :
    c'.hasRoom capacity := by
  have hlength := length_receive h
  unfold hasRoom at hroom ⊢
  omega

def flushed (c : Channel α) : Channel α := ⟨c.sent, []⟩

end Channel

section Flush

variable {α σ ε : Type*} {step : σ → ε → Option σ} {cond : σ → ε → Prop}

/-- **Flushing**: where a receiver can always take its turn, it can receive all that is on its way.
`get` and `set` are a channel in the state, and `I` is what the receiver's turn needs of it. -/
theorem leads_flushed (get : σ → Channel α) (set : σ → Channel α → σ) (I : σ → Prop) (e : ε)
    (get_set : ∀ s c, get (set s c) = c) (set_get : ∀ s, set s (get s) = s)
    (set_set : ∀ s c c', set (set s c) c' = set s c') (hI : ∀ s c, I s → I (set s c))
    (hcond : ∀ s, I s → cond s e)
    (hstep : ∀ s c, I s → (get s).receive = some c → step s e = some (set s c)) {s : σ}
    (hs : I s) : Leads step cond s (set s (get s).flushed) := by
  rcases hget : get s with ⟨received, queue⟩
  induction queue generalizing s received with
  | nil =>
    have hflushed : set s (Channel.flushed ⟨received, []⟩) = s := by
      rw [Channel.flushed, Channel.sent, List.append_nil, ← hget, set_get]
    rw [hflushed]
    exact .refl s
  | cons a queue ih =>
    have hreceive : (get s).receive = some ⟨received ++ [a], queue⟩ := by
      rw [hget, Channel.receive_cons]
    have hrest := ih (hI s ⟨received ++ [a], queue⟩ hs) (received ++ [a]) (get_set _ _)
    rw [set_set] at hrest
    have hsent : Channel.flushed ⟨received ++ [a], queue⟩ =
        Channel.flushed (⟨received, a :: queue⟩ : Channel α) := by
      simp [Channel.flushed, Channel.sent]
    rw [← hsent]
    exact .head (hcond s hs) (hstep s _ hs hreceive) hrest

end Flush

end CrossHostOps.Channels
