import CSEL1.Text.Scan

/-! # Character arrays

A character array of fixed size. Printing into it is only possible when the text
and its terminator fit, and leaves the characters behind the terminator alone.
-/

namespace CText

@[ext] structure Buffer (n : ℕ) where
  chars : List Char
  length_eq : chars.length = n
  deriving DecidableEq, Repr

namespace Buffer

variable {n : ℕ}

def fill (n : ℕ) (c : Char) : Buffer n := ⟨List.replicate n c, by simp⟩

def print (b : Buffer n) (text : List Char) (h : text.length < n) : Buffer n :=
  ⟨text ++ '\x00' :: b.chars.drop (text.length + 1), by
    rw [List.length_append, List.length_cons, List.length_drop, b.length_eq]
    omega⟩

/-- Read a text into the array from its start on, as far as it fits. -/
def pread (b : Buffer n) (text : List Char) : Buffer n :=
  ⟨text.take n ++ b.chars.drop (text.take n).length, by
    rw [List.length_append, List.length_drop, List.length_take, b.length_eq]
    omega⟩

/-- Store one character, which has no effect on the array outside it. -/
def store (b : Buffer n) (i : ℕ) (c : Char) : Buffer n :=
  ⟨b.chars.set i c, by rw [List.length_set, b.length_eq]⟩

variable (b : Buffer n) {text : List Char} (h : text.length < n)

theorem cstring_print : cstring (b.print text h).chars = cstring text := by
  simp only [cstring, print]
  rw [List.takeWhile_append]
  split
  · next hlen =>
    simp only [bne_self_eq_false, Bool.false_eq_true, not_false_eq_true, List.takeWhile_cons_of_neg,
      List.append_nil]
    exact ((List.takeWhile_prefix _).eq_of_length hlen).symm
  · rfl

theorem cstring_print_of_notMem (h0 : '\x00' ∉ text) : cstring (b.print text h).chars = text :=
  cstring_append h0

theorem cstring_take_print (h0 : '\x00' ∉ text) {k : ℕ} (hk : text.length < k) :
    cstring ((b.print text h).chars.take k) = text := by
  obtain ⟨j, rfl⟩ := Nat.exists_eq_add_of_lt hk
  simp only [print]
  rw [show text.length + j + 1 = text.length + (j + 1) from rfl, List.take_length_add_append,
    List.take_succ_cons]
  exact cstring_append h0

theorem store_of_le {i : ℕ} (hi : n ≤ i) (c : Char) : b.store i c = b := by
  ext1
  exact List.set_eq_of_length_le (b.length_eq.trans_le hi)

theorem pread_of_length_eq (htext : text.length = n) : b.pread text = ⟨text, htext⟩ := by
  ext1
  simp only [pread, List.take_of_length_le htext.le, htext,
    List.drop_of_length_le b.length_eq.le, List.append_nil]

theorem pread_decimal {v : ℤ} (hn : (decimal v).length ≤ n) :
    ∃ rest, ((fill n '\x00').pread (decimal v ++ ['\n'])).chars = decimal v ++ rest ∧
      StopsDigits rest ∧ (rest ≠ [] ↔ (decimal v).length < n) := by
  have htake : (decimal v ++ ['\n']).take n =
      decimal v ++ ['\n'].take (n - (decimal v).length) := by
    rw [List.take_append, List.take_of_length_le hn]
  simp only [pread, htake, List.append_assoc]
  refine ⟨_, rfl, ?_⟩
  rcases Nat.eq_zero_or_pos (n - (decimal v).length) with h | h
  · -- the characters fill the array
    have hlen : (decimal v).length = n := by omega
    simp [fill, hlen]
  · have hlen : (decimal v).length < n := by omega
    obtain ⟨k, hk⟩ := Nat.exists_eq_succ_of_ne_zero h.ne'
    simp [hk, hlen]

/-- A printed number is read back from a zeroed array that has room for its characters. -/
theorem atoi_pread_decimal (v : Int32) (hn : (decimal v.toInt).length ≤ n) :
    atoi ((fill n '\x00').pread (decimal v.toInt ++ ['\n'])).chars = v := by
  obtain ⟨rest, hchars, hstops, -⟩ := pread_decimal hn
  rw [hchars]
  exact atoi_decimal v hstops

theorem afterNumeral_pread_decimal (v : ℤ) (hn : (decimal v).length ≤ n) :
    afterNumeral ((fill n '\x00').pread (decimal v ++ ['\n'])).chars ≠ [] ↔
      (decimal v).length < n := by
  obtain ⟨rest, hchars, hstops, hrest⟩ := pread_decimal hn
  rw [hchars, afterNumeral_decimal hstops]
  exact hrest

end Buffer

end CText
