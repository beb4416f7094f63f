import CSEL1.Text.Buffer

/-! # Reads into one array

Reads that all start at the front of one array leave in it the characters of several of
them. The search in the array ends at the first terminator, so it only sees characters
that were read if one of them is a terminator that is still there.
-/

namespace CText

variable {α : Type*}

def find (needle : List Char) : List Char → Option ℕ
  | [] => if needle = [] then some 0 else none
  | c :: text => if needle <+: c :: text then some 0 else (find needle text).map (· + 1)

inductive Overrun | overrun
  deriving DecidableEq, Repr

/-- `strstr`, on the C string of an array. -/
def strstr (array needle : List Char) : Except Overrun (Option ℕ) :=
  if '\x00' ∈ array then .ok (find needle (cstring array)) else .error .overrun

/-- What `n` reads into the front of one place have put there. -/
def received (read : ℕ → List α) : ℕ → List α
  | 0 => []
  | n + 1 => read n ++ (received read n).drop (read n).length

/-- The array after `i` reads into it. -/
def Buffer.after {n : ℕ} (b : Buffer n) (read : ℕ → List Char) : ℕ → Buffer n
  | 0 => b
  | i + 1 => (b.after read i).pread (read i)

section Search

variable {needle text array s t : List Char}

theorem find_isSome_iff : (find needle text).isSome ↔ needle <:+: text := by
  induction text with
  | nil =>
    rw [find, List.infix_nil]
    split
    · next h => simp [h]
    · next h => simp [h]
  | cons c text ih =>
    rw [find, List.infix_cons_iff]
    split
    · next h => simp [h]
    · next h => simp [h, ih]

theorem strstr_eq_some_iff : (∃ i, strstr array needle = .ok (some i)) ↔
    '\x00' ∈ array ∧ needle <:+: cstring array := by
  rw [← find_isSome_iff, Option.isSome_iff_exists, strstr]
  split
  · next h => simp [h]
  · next h => simp [h]

theorem strstr_eq_none_iff : strstr array needle = .ok none ↔
    '\x00' ∈ array ∧ ¬ needle <:+: cstring array := by
  rw [← find_isSome_iff, Option.not_isSome_iff_eq_none, strstr]
  split
  · next h => simp [h]
  · next h => simp [h]

theorem cstring_append_of_mem (h : '\x00' ∈ s) (t : List Char) : cstring (s ++ t) = cstring s := by
  obtain ⟨front, rest, rfl, hfront⟩ := List.eq_append_cons_of_mem h
  rw [List.append_assoc, List.cons_append, cstring_append hfront, cstring_append hfront]

end Search

section Received

variable {read : ℕ → List α} {n p : ℕ} {c : α}

theorem getElem?_received : (received read n)[p]? = some c ↔
    ∃ m < n, (read m)[p]? = some c ∧ ∀ l < n, m < l → (read l).length ≤ p := by
  induction n with
  | zero => simp [received]
  | succ n ih =>
    rw [received]
    rcases Nat.lt_or_ge p (read n).length with hlt | hge
    · rw [List.getElem?_append_left hlt]
      constructor
      · intro h
        exact ⟨n, Nat.lt_succ_self n, h, fun l hl hn => absurd hl (Nat.not_lt.mpr hn)⟩
      · rintro ⟨m, hm, hc, hlater⟩
        rcases Nat.lt_succ_iff_lt_or_eq.mp hm with hmn | rfl
        · exact absurd (hlater n (Nat.lt_succ_self n) hmn) (Nat.not_le.mpr hlt)
        · exact hc
    · rw [List.getElem?_append_right hge, List.getElem?_drop, Nat.add_sub_cancel' hge, ih]
      constructor
      · rintro ⟨m, hm, hc, hlater⟩
        refine ⟨m, Nat.lt_succ_of_lt hm, hc, fun l hl hml => ?_⟩
        rcases Nat.lt_succ_iff_lt_or_eq.mp hl with hln | rfl
        · exact hlater l hln hml
        · exact hge
      · rintro ⟨m, hm, hc, hlater⟩
        rcases Nat.lt_succ_iff_lt_or_eq.mp hm with hmn | rfl
        · exact ⟨m, hmn, hc, fun l hl => hlater l (Nat.lt_succ_of_lt hl)⟩
        · rw [List.getElem?_eq_none hge] at hc
          cases hc

theorem mem_received_iff : c ∈ received read n ↔
    ∃ m < n, ∃ p, (read m)[p]? = some c ∧ ∀ l < n, m < l → (read l).length ≤ p := by
  rw [List.mem_iff_getElem?]
  constructor
  · rintro ⟨p, hp⟩
    obtain ⟨m, hm, hc, hlater⟩ := getElem?_received.mp hp
    exact ⟨m, hm, p, hc, hlater⟩
  · rintro ⟨m, hm, p, hc, hlater⟩
    exact ⟨p, getElem?_received.mpr ⟨m, hm, hc, hlater⟩⟩

theorem exists_read_of_mem_received (h : c ∈ received read n) : ∃ m < n, c ∈ read m := by
  obtain ⟨m, hm, p, hc, -⟩ := mem_received_iff.mp h
  exact ⟨m, hm, List.mem_of_getElem? hc⟩

end Received

/-- The characters read, and behind them what the array held before. -/
theorem Buffer.chars_after {n : ℕ} (b : Buffer n) {read : ℕ → List Char}
    (hfits : ∀ i, (read i).length ≤ n) (i : ℕ) :
    (b.after read i).chars = received read i ++ b.chars.drop (received read i).length := by
  induction i with
  | zero => rfl
  | succ i ih =>
    have hlen : (received read i).length + ((read i).length - (received read i).length) =
        (read i).length + ((received read i).length - (read i).length) := by omega
    simp only [Buffer.after, Buffer.pread]
    rw [List.take_of_length_le (hfits i), ih, received, List.drop_append, List.drop_drop,
      List.append_assoc, List.length_append, List.length_drop, hlen]

end CText
