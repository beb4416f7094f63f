import Mathlib.Data.List.Infix

/-! # Slices of a memory

A memory gives every address a value. A slice is read as a list, and a list is stored
from an address on, leaving all other addresses alone.
-/

namespace Memory

variable {α : Type*}

def slice (m : ℕ → α) (base n : ℕ) : List α := (List.range n).map fun i => m (base + i)

def store (m : ℕ → α) (base : ℕ) (data : List α) : ℕ → α := fun i =>
  if base ≤ i then (data[i - base]?).getD (m i) else m i

section Rules

variable {m m' : ℕ → α} {base base' n i : ℕ} {data rest : List α}

@[simp] theorem length_slice (m : ℕ → α) (base n : ℕ) : (slice m base n).length = n := by
  simp [slice]

@[simp] theorem slice_zero (m : ℕ → α) (base : ℕ) : slice m base 0 = [] := rfl

theorem slice_congr (h : ∀ i < n, m (base + i) = m' (base' + i)) :
    slice m base n = slice m' base' n := by
  refine List.map_congr_left fun i hi => ?_
  exact h i (List.mem_range.mp hi)

theorem eq_of_slice_eq (h : slice m base n = slice m' base' n) (hi : i < n) :
    m (base + i) = m' (base' + i) :=
  List.map_inj_left.mp h i (List.mem_range.mpr hi)

theorem store_add (m : ℕ → α) (base : ℕ) (data : List α) (i : ℕ) :
    store m base data (base + i) = (data[i]?).getD (m (base + i)) := by
  simp [store]

theorem store_shift (m : ℕ → α) (base offset : ℕ) (data : List α) (i : ℕ) :
    store m (base + offset) data (base + i) = store (fun j => m (base + j)) offset data i := by
  simp only [store, Nat.add_le_add_iff_left, Nat.add_sub_add_left]

theorem store_congr (h : m i = m' i) (base : ℕ) (data : List α) :
    store m base data i = store m' base data i := by
  simp only [store, h]

theorem store_eq_of_lt (m m' : ℕ → α) (base : ℕ) (h : i < data.length) :
    store m base data (base + i) = store m' base data (base + i) := by
  rw [store_add, store_add, List.getElem?_eq_getElem h, Option.getD_some, Option.getD_some]

theorem store_of_notMem (h : i < base ∨ base + data.length ≤ i) : store m base data i = m i := by
  unfold store
  rcases h with h | h
  · exact if_neg (Nat.not_le.mpr h)
  · rw [if_pos (by omega), List.getElem?_eq_none (by omega)]
    rfl

/-- Two stores one behind the other are one store. -/
theorem store_store_append (m : ℕ → α) (base : ℕ) (data rest : List α) :
    store (store m base data) (base + data.length) rest = store m base (data ++ rest) := by
  ext i
  rcases Nat.lt_or_ge i base with hi | hi
  · rw [store_of_notMem (.inl (by omega)), store_of_notMem (.inl hi), store_of_notMem (.inl hi)]
  · obtain ⟨j, rfl⟩ := Nat.exists_eq_add_of_le hi
    rw [store_add]
    rcases Nat.lt_or_ge j data.length with hj | hj
    · rw [store_of_notMem (.inl (by omega)), store_add, List.getElem?_append_left hj]
    · obtain ⟨k, rfl⟩ := Nat.exists_eq_add_of_le hj
      rw [← Nat.add_assoc, store_add, Nat.add_assoc, store_add, List.getElem?_append_right hj,
        Nat.add_sub_cancel_left, List.getElem?_eq_none hj]
      rfl

/-- The front of a list that was stored is read back. -/
theorem slice_store_append (m : ℕ → α) (base : ℕ) (data rest : List α) :
    slice (store m base (data ++ rest)) base data.length = data := by
  refine List.ext_getElem (length_slice _ _ _) fun i hi hi' => ?_
  simp only [slice, List.getElem_map, List.getElem_range, store_add]
  rw [List.getElem?_append_left hi', List.getElem?_eq_getElem hi', Option.getD_some]

theorem slice_store (m : ℕ → α) (base : ℕ) (data : List α) :
    slice (store m base data) base data.length = data := by
  have h := slice_store_append m base data []
  rwa [List.append_nil] at h

end Rules

end Memory
