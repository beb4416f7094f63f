import Mathlib.Algebra.Order.Ring.Int
import Mathlib.Tactic.Positivity

/-! # Printing integers in C texts

A C text is the list of its characters up to the terminator. `%d` prints an
integer as an optional minus sign and its decimal digits.
-/

namespace CText

/-- What `%d` prints. -/
def decimal : ℤ → List Char
  | .ofNat n => Nat.toDigits 10 n
  | .negSucc n => '-' :: Nat.toDigits 10 (n + 1)

theorem digit_of_mem_toDigits {c : Char} {n : ℕ} (h : c ∈ Nat.toDigits 10 n) : c.isDigit :=
  Nat.isDigit_of_mem_toDigits (by decide) (by decide) h

theorem toNat_of_isDigit {c : Char} (h : c.isDigit = true) : 48 ≤ c.toNat ∧ c.toNat ≤ 57 := by
  simp only [Char.isDigit, Bool.and_eq_true, decide_eq_true_eq, ge_iff_le] at h
  exact h

theorem mem_decimal {c : Char} {v : ℤ} (h : c ∈ decimal v) : c = '-' ∨ c.isDigit := by
  cases v with
  | ofNat n => exact Or.inr (digit_of_mem_toDigits h)
  | negSucc n =>
    rcases List.mem_cons.mp h with h | h
    · exact Or.inl h
    · exact Or.inr (digit_of_mem_toDigits h)

theorem not_mem_decimal {c : Char} (hm : c ≠ '-') (hd : c.isDigit = false) (v : ℤ) :
    c ∉ decimal v := by
  intro h
  rcases mem_decimal h with h | h
  · exact hm h
  · simp [hd] at h

@[simp] theorem decimal_ne_nil (v : ℤ) : decimal v ≠ [] := by
  cases v <;> simp [decimal]

theorem length_decimal_le_iff {v : ℤ} {k : ℕ} (hk : 0 < k) :
    (decimal v).length ≤ k + 1 ↔ -10 ^ k < v ∧ v < 10 ^ (k + 1) := by
  cases v with
  | ofNat n =>
    have hlen : (decimal (.ofNat n)).length ≤ k + 1 ↔ n < 10 ^ (k + 1) :=
      Nat.length_toDigits_le_iff (by decide) (Nat.succ_pos k)
    have hneg : -10 ^ k < (n : ℤ) := by
      have : (0 : ℤ) < 10 ^ k := by positivity
      omega
    rw [hlen, Int.ofNat_eq_natCast, and_iff_right hneg]
    norm_cast
  | negSucc n =>
    have hlen : (decimal (.negSucc n)).length ≤ k + 1 ↔ n + 1 < 10 ^ k := by
      rw [← Nat.length_toDigits_le_iff (b := 10) (by decide) hk]
      simp only [decimal, List.length_cons, Nat.add_le_add_iff_right]
    have hpos : Int.negSucc n < 10 ^ (k + 1) := (Int.negSucc_lt_zero n).trans (by positivity)
    have hcast : -10 ^ k < Int.negSucc n ↔ (n : ℤ) + 1 < 10 ^ k := by
      rw [Int.negSucc_eq]
      omega
    rw [hlen, hcast, and_iff_left hpos]
    norm_cast

theorem length_decimal_int32 (v : Int32) : (decimal v.toInt).length ≤ 11 := by
  have hl := v.le_toInt
  have hu := v.toInt_lt
  exact (length_decimal_le_iff (by decide)).mpr ⟨by omega, by omega⟩

end CText
