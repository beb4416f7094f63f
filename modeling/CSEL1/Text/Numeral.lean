import CSEL1.Text.Scan

/-! # The integers denoted by texts

A text denotes an integer in base 10 if it consists of an optional sign, at least one
digit and at most one newline. The kernel's `kstrtol` accepts exactly the texts that
denote a 64-bit integer, and returns what they denote.
-/

namespace CText

/-- A text of at least one digit, and the number it denotes. -/
inductive Digits : List Char → ℕ → Prop
  | digit {c : Char} (hc : c.isDigit = true) : Digits [c] (c.toNat - '0'.toNat)
  | snoc {ds : List Char} {n : ℕ} {c : Char} (h : Digits ds n) (hc : c.isDigit = true) :
    Digits (ds ++ [c]) (10 * n + (c.toNat - '0'.toNat))

inductive DigitsLine : List Char → ℕ → Prop
  | bare {ds : List Char} {n : ℕ} (h : Digits ds n) : DigitsLine ds n
  | newline {ds : List Char} {n : ℕ} (h : Digits ds n) : DigitsLine (ds ++ ['\n']) n

inductive Denotes : List Char → ℤ → Prop
  | plain {s : List Char} {n : ℕ} (h : DigitsLine s n) : Denotes s n
  | plus {s : List Char} {n : ℕ} (h : DigitsLine s n) : Denotes ('+' :: s) n
  | minus {s : List Char} {n : ℕ} (h : DigitsLine s n) : Denotes ('-' :: s) (-n)

section Grammar

variable {s : List Char} {n m : ℕ} {v w : ℤ}

theorem digits_iff :
    Digits s n ↔ s ≠ [] ∧ (∀ c ∈ s, c.isDigit = true) ∧ Nat.ofDigitChars 10 s 0 = n := by
  constructor
  · intro h
    induction h with
    | digit hc => simp [hc, Nat.ofDigitChars_cons]
    | snoc h hc ih =>
      obtain ⟨-, hall, hn⟩ := ih
      refine ⟨by simp, ?_, ?_⟩
      · simp only [List.mem_append, List.mem_singleton]
        rintro c (h | rfl)
        · exact hall c h
        · exact hc
      · rw [Nat.ofDigitChars_append, hn, Nat.ofDigitChars_cons, Nat.ofDigitChars_nil]
  · rintro ⟨hne, hall, rfl⟩
    induction s using List.reverseRecOn with
    | nil => exact absurd rfl hne
    | append_singleton ds c ih =>
      have hc : c.isDigit = true := hall c (by simp)
      rw [Nat.ofDigitChars_append, Nat.ofDigitChars_cons, Nat.ofDigitChars_nil]
      cases ds with
      | nil => simpa using Digits.digit hc
      | cons d ds => exact .snoc (ih (by simp) fun c hc => hall c (List.mem_append_left _ hc)) hc

theorem magnitude?_eq_some_iff : magnitude? s = some n ↔ Digits (s.takeWhile Char.isDigit) n := by
  have hall : ∀ c ∈ s.takeWhile Char.isDigit, c.isDigit = true :=
    List.all_eq_true.mp List.all_takeWhile
  rw [digits_iff, and_iff_right hall]
  unfold magnitude?
  split
  · next h => simp [h]
  · next hne => rw [and_iff_right hne, Option.some.injEq]

theorem digitsLine_iff : DigitsLine s n ↔ magnitude? s = some n ∧
    (s.dropWhile Char.isDigit = [] ∨ s.dropWhile Char.isDigit = ['\n']) := by
  rw [magnitude?_eq_some_iff]
  constructor
  · rintro (h | h)
    · have hall := (digits_iff.mp h).2.1
      have hs := takeWhile_append_digits hall stopsDigits_nil
      have hs' := dropWhile_append_digits hall stopsDigits_nil
      rw [List.append_nil] at hs hs'
      rw [hs, hs']
      exact ⟨h, .inl rfl⟩
    · have hall := (digits_iff.mp h).2.1
      have hstop : StopsDigits ['\n'] := stopsDigits_cons.mpr rfl
      rw [takeWhile_append_digits hall hstop, dropWhile_append_digits hall hstop]
      exact ⟨h, .inr rfl⟩
  · rintro ⟨h, hrest | hrest⟩
    · rw [← s.takeWhile_append_dropWhile (p := Char.isDigit), hrest, List.append_nil]
      exact .bare h
    · rw [← s.takeWhile_append_dropWhile (p := Char.isDigit), hrest]
      exact .newline h

theorem signed_of_digitsLine (h : DigitsLine s n) : signed s = (false, s) := by
  have hd := magnitude?_eq_some_iff.mp (digitsLine_iff.mp h).1
  have hne := (digits_iff.mp hd).1
  cases s with
  | nil => exact absurd rfl hne
  | cons c s =>
    have hc : c.isDigit = true := by
      by_contra hc
      exact hne (by simp [hc])
    unfold signed
    split
    · next he =>
      obtain ⟨rfl, -⟩ := List.cons.inj he
      exact absurd hc (by decide)
    · next he =>
      obtain ⟨rfl, -⟩ := List.cons.inj he
      exact absurd hc (by decide)
    · rfl

theorem denotes_iff : Denotes s v ↔
    ∃ n : ℕ, DigitsLine (signed s).2 n ∧ v = if (signed s).1 then -(n : ℤ) else n := by
  constructor
  · rintro (h | h | h)
    · rw [signed_of_digitsLine h]
      exact ⟨_, h, rfl⟩
    · exact ⟨_, h, rfl⟩
    · exact ⟨_, h, rfl⟩
  · rintro ⟨n, h, rfl⟩
    unfold signed at h ⊢
    split at h
    · exact .minus h
    · exact .plus h
    · exact .plain h

theorem Denotes.unique (h : Denotes s v) (h' : Denotes s w) : v = w := by
  obtain ⟨n, hn, rfl⟩ := denotes_iff.mp h
  obtain ⟨m, hm, rfl⟩ := denotes_iff.mp h'
  have heq := (digitsLine_iff.mp hn).1.symm.trans (digitsLine_iff.mp hm).1
  rw [Option.some.inj heq]

theorem kstrtoull_eq_ok_iff : kstrtoull s = .ok n ↔ DigitsLine s n ∧ n < 2 ^ 64 := by
  rw [digitsLine_iff]
  unfold kstrtoull
  cases magnitude? s with
  | none => simp
  | some m =>
    simp only [Option.getD_some, Option.some.injEq]
    split_ifs with hrange hend
    · simp only [false_iff]
      rintro ⟨⟨rfl, -⟩, hlt⟩
      omega
    · simp only [Except.ok.injEq, hend, and_true]
      constructor
      · rintro rfl
        exact ⟨rfl, by omega⟩
      · exact fun h => h.1
    · exact iff_of_false id fun h => hend h.1.2

/-- The kernel's conversion succeeds exactly on the texts that denote a `long`. -/
theorem kstrtol_eq_ok_iff : kstrtol s = .ok v ↔ Denotes s v ∧ -2 ^ 63 ≤ v ∧ v < 2 ^ 63 := by
  rw [denotes_iff]
  unfold kstrtol
  cases hs : kstrtoull (signed s).2 with
  | error e =>
    simp only [bind, Except.bind, reduceCtorEq, false_iff]
    rintro ⟨⟨n, hn, rfl⟩, hl, hu⟩
    have hlt : n < 2 ^ 64 := by split_ifs at hl hu <;> omega
    rw [kstrtoull_eq_ok_iff.mpr ⟨hn, hlt⟩] at hs
    cases hs
  | ok m =>
    obtain ⟨hm, -⟩ := kstrtoull_eq_ok_iff.mp hs
    have huniq : ∀ n, DigitsLine (signed s).2 n → n = m := fun n hn =>
      Option.some.inj ((digitsLine_iff.mp hn).1.symm.trans (digitsLine_iff.mp hm).1)
    have hex : (∃ n : ℕ, DigitsLine (signed s).2 n ∧
        v = if (signed s).1 then -(n : ℤ) else n) ↔ v = if (signed s).1 then -(m : ℤ) else m := by
      constructor
      · rintro ⟨n, hn, rfl⟩
        rw [huniq n hn]
      · exact fun h => ⟨m, hm, h⟩
    rw [hex]
    simp only [bind, Except.bind]
    split_ifs <;> simp only [Except.ok.injEq, false_iff] <;> omega

end Grammar

end CText
