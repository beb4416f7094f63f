import Mathlib.Data.List.Basic

/-! # Bounded first-in first-out channels

A channel holds at most `n` items and remembers what was sent and what was
received. What was sent is what was received followed by what is still in the
channel, which is part of the type.
-/

namespace Queue

/-- The contents of a channel and its history. -/
structure Channel (α : Type*) (n : ℕ) where
  items : List α
  sent : List α
  received : List α
  length_le : items.length ≤ n
  history : sent = received ++ items

namespace Channel

variable {α : Type*} {n : ℕ}

def empty (α : Type*) (n : ℕ) : Channel α n := ⟨[], [], [], Nat.zero_le n, rfl⟩

def send? (q : Channel α n) (a : α) : Option (Channel α n) :=
  if h : q.items.length < n then
    some ⟨q.items ++ [a], q.sent ++ [a], q.received, by rw [List.length_append]; exact h, by
      rw [q.history, List.append_assoc]⟩
  else none

def receive? (q : Channel α n) : Option (α × Channel α n) :=
  match h : q.items with
  | [] => none
  | a :: items =>
    some (a, ⟨items, q.sent, q.received ++ [a], by
      have hle := q.length_le
      rw [h, List.length_cons] at hle
      exact Nat.le_of_succ_le hle, by
      rw [q.history, h, List.append_assoc, List.singleton_append]⟩)

variable {q q' : Channel α n} {a : α}

theorem of_send? (h : q.send? a = some q') :
    q'.items = q.items ++ [a] ∧ q'.sent = q.sent ++ [a] ∧ q'.received = q.received := by
  unfold send? at h
  split at h
  · cases h
    exact ⟨rfl, rfl, rfl⟩
  · cases h

theorem of_receive? (h : q.receive? = some (a, q')) :
    q.items = a :: q'.items ∧ q'.sent = q.sent ∧ q'.received = q.received ++ [a] := by
  unfold receive? at h
  split at h
  · cases h
  · next hitems =>
    cases h
    exact ⟨hitems, rfl, rfl⟩

theorem isSome_send? (h : q.items.length < n) : (q.send? a).isSome := by
  simp [send?, h]

theorem isSome_receive? (h : q.items ≠ []) : q.receive?.isSome := by
  unfold receive?
  split
  · next hitems => exact absurd hitems h
  · rfl

theorem received_prefix (q : Channel α n) : q.received <+: q.sent := ⟨q.items, q.history.symm⟩

end Channel

end Queue
