import CSEL1.Text.Decimal

/-! # Scanning integers and words in C texts

The conversions of the C library and of the kernel that read a number: `strtol`
and `atoi` (base 10), the kernel's `kstrtol` (base 10) and the `"%s %d"` format
of `sscanf`. Each of them reads back what `%d` printed.
-/

namespace CText

/-- The C string held by an array: the characters in front of its first terminator. -/
def cstring (array : List Char) : List Char := array.takeWhile (· != '\x00')

/-- `isspace`: the blank and the characters 9 to 13. -/
def isSpace (c : Char) : Bool := c == ' ' || (9 ≤ c.toNat && c.toNat ≤ 13)

def skipSpace (s : List Char) : List Char := s.dropWhile isSpace

def magnitude? (s : List Char) : Option ℕ :=
  match s.takeWhile Char.isDigit with
  | [] => none
  | ds => some (Nat.ofDigitChars 10 ds 0)

def signed : List Char → Bool × List Char
  | '-' :: s => (true, s)
  | '+' :: s => (false, s)
  | s => (false, s)

/-- An optional sign and the digits after it. -/
def numeral? (s : List Char) : Option ℤ :=
  (magnitude? (signed s).2).map fun n : ℕ => if (signed s).1 then -(n : ℤ) else (n : ℤ)

/-- The part of a text behind the blanks, the sign and the digits that `strtol` reads. -/
def afterNumeral (s : List Char) : List Char :=
  (signed (skipSpace s)).2.dropWhile Char.isDigit

/-- The values of a 64-bit `long`, where out-of-range numbers saturate. -/
def saturate (v : ℤ) : ℤ := max (-2 ^ 63) (min (2 ^ 63 - 1) v)

/-- `strtol` in base 10: 0 where no number is found. -/
def strtol (s : List Char) : ℤ := saturate ((numeral? (skipSpace s)).getD 0)

/-- `atoi` is `(int) strtol`. -/
def atoi (s : List Char) : Int32 := Int32.ofInt (strtol s)

inductive Errno | ERANGE | EINVAL
  deriving DecidableEq, Repr

/-- `_kstrtoull` in base 10: digits, at most one newline, the end of the text. -/
def kstrtoull (s : List Char) : Except Errno ℕ :=
  if 2 ^ 64 ≤ (magnitude? s).getD 0 then .error .ERANGE
  else match magnitude? s with
    | none => .error .EINVAL
    | some n =>
      if s.dropWhile Char.isDigit = [] ∨ s.dropWhile Char.isDigit = ['\n'] then .ok n
      else .error .EINVAL

/-- `kstrtol` in base 10 on a 64-bit `long`. -/
def kstrtol (s : List Char) : Except Errno ℤ := do
  let n ← kstrtoull (signed s).2
  if (signed s).1 then
    if 2 ^ 63 < n then .error .ERANGE else .ok (-n)
  else
    if 2 ^ 63 ≤ n then .error .ERANGE else .ok n

/-- The output that `sscanf(s, "%d", &number)` assigns, if it does. -/
def sscanfInt (s : List Char) : Option Int32 :=
  (numeral? (skipSpace s)).map fun v => Int32.ofInt (saturate v)

/-- The outputs that `sscanf(s, "%s %d", word, &number)` assigns. -/
structure Scanned where
  word : Option (List Char)
  number : Option Int32
  deriving DecidableEq, Repr

/-- `sscanf(s, "%s %d", word, &number)`: the second conversion is only tried after the first. -/
def sscanfWordInt (s : List Char) : Scanned :=
  match (skipSpace s).takeWhile (!isSpace ·) with
  | [] => ⟨none, none⟩
  | w =>
    ⟨some w, (numeral? (skipSpace ((skipSpace s).dropWhile (!isSpace ·)))).map fun v =>
      Int32.ofInt (saturate v)⟩

theorem sscanfWordInt_word (s : List Char) : (sscanfWordInt s).word =
    if (skipSpace s).takeWhile (!isSpace ·) = [] then none
    else some ((skipSpace s).takeWhile (!isSpace ·)) := by
  unfold sscanfWordInt
  split
  · next h => rw [if_pos h]
  · next h => rw [if_neg h]

section RoundTrip

variable {s : List Char} {n : ℕ} {v : ℤ}

def StopsDigits (s : List Char) : Prop := ∀ c ∈ s.head?, c.isDigit = false

@[simp] theorem stopsDigits_nil : StopsDigits [] := by simp [StopsDigits]

@[simp] theorem stopsDigits_cons {c : Char} : StopsDigits (c :: s) ↔ c.isDigit = false := by
  simp [StopsDigits]

theorem takeWhile_append_digits {ds : List Char} (hds : ∀ c ∈ ds, c.isDigit = true)
    (h : StopsDigits s) : (ds ++ s).takeWhile Char.isDigit = ds := by
  rw [List.takeWhile_append_of_pos hds]
  cases s with
  | nil => simp
  | cons c s => simp [stopsDigits_cons.mp h]

theorem dropWhile_append_digits {ds : List Char} (hds : ∀ c ∈ ds, c.isDigit = true)
    (h : StopsDigits s) : (ds ++ s).dropWhile Char.isDigit = s := by
  rw [List.dropWhile_append_of_pos hds]
  cases s with
  | nil => simp
  | cons c s => simp [stopsDigits_cons.mp h]

theorem takeWhile_digits (h : StopsDigits s) :
    (Nat.toDigits 10 n ++ s).takeWhile Char.isDigit = Nat.toDigits 10 n :=
  takeWhile_append_digits (fun _ => digit_of_mem_toDigits) h

theorem dropWhile_digits (h : StopsDigits s) :
    (Nat.toDigits 10 n ++ s).dropWhile Char.isDigit = s :=
  dropWhile_append_digits (fun _ => digit_of_mem_toDigits) h

theorem magnitude?_toDigits (h : StopsDigits s) :
    magnitude? (Nat.toDigits 10 n ++ s) = some n := by
  have hv := Nat.ofDigitChars_toDigits (b := 10) (n := n) (by decide) (by decide)
  unfold magnitude?
  rw [takeWhile_digits h]
  cases hd : Nat.toDigits 10 n with
  | nil => exact absurd hd Nat.toDigits_ne_nil
  | cons d ds => simp [← hd, hv]

theorem not_isSpace_of_isDigit {c : Char} (h : c.isDigit = true) : isSpace c = false := by
  have hl := (toNat_of_isDigit h).1
  have hne : c ≠ ' ' := by rintro rfl; simp at hl
  simp only [isSpace, Bool.or_eq_false_iff, beq_eq_false_iff_ne, ne_eq, hne, not_false_eq_true,
    true_and, Bool.and_eq_false_iff, decide_eq_false_iff_not]
  omega

theorem signed_decimal (v : ℤ) (s : List Char) :
    signed (decimal v ++ s) = (decide (v < 0), Nat.toDigits 10 v.natAbs ++ s) := by
  cases v with
  | negSucc n => simp [decimal, signed, Int.negSucc_lt_zero]
  | ofNat n =>
    cases hd : Nat.toDigits 10 n with
    | nil => exact absurd hd Nat.toDigits_ne_nil
    | cons d ds =>
      have hdig : d.isDigit = true := digit_of_mem_toDigits (n := n) (by simp [hd])
      simp only [decimal, hd, List.cons_append, Int.natAbs_natCast, Int.ofNat_eq_natCast]
      unfold signed
      split
      · next he => obtain ⟨rfl, -⟩ := List.cons.inj he; simp at hdig
      · next he => obtain ⟨rfl, -⟩ := List.cons.inj he; simp at hdig
      · rfl

theorem numeral?_decimal (h : StopsDigits s) : numeral? (decimal v ++ s) = some v := by
  have hv : (if v < 0 then -(v.natAbs : ℤ) else v.natAbs) = v := by split <;> omega
  simp only [numeral?, signed_decimal, magnitude?_toDigits h, Option.map_some, decide_eq_true_eq,
    hv]

theorem skipSpace_decimal (v : ℤ) (s : List Char) :
    skipSpace (decimal v ++ s) = decimal v ++ s := by
  cases hd : decimal v with
  | nil => exact absurd hd (decimal_ne_nil v)
  | cons c t =>
    have hc : isSpace c = false := by
      rcases mem_decimal (v := v) (c := c) (by simp [hd]) with rfl | h
      · rfl
      · exact not_isSpace_of_isDigit h
    simp [skipSpace, hc]

theorem saturate_int32 (v : Int32) : saturate v.toInt = v.toInt := by
  have hl := v.le_toInt
  have hu := v.toInt_lt
  unfold saturate
  omega

theorem atoi_decimal (v : Int32) (h : StopsDigits s) : atoi (decimal v.toInt ++ s) = v := by
  simp [atoi, strtol, skipSpace_decimal, numeral?_decimal h, saturate_int32]

theorem sscanfInt_decimal (v : Int32) (h : StopsDigits s) :
    sscanfInt (decimal v.toInt ++ s) = some v := by
  simp [sscanfInt, skipSpace_decimal, numeral?_decimal h, saturate_int32]

theorem afterNumeral_decimal (h : StopsDigits s) : afterNumeral (decimal v ++ s) = s := by
  simp only [afterNumeral, skipSpace_decimal, signed_decimal, dropWhile_digits h]

theorem kstrtoull_toDigits (hn : n < 2 ^ 64) (h : s = [] ∨ s = ['\n']) :
    kstrtoull (Nat.toDigits 10 n ++ s) = .ok n := by
  have hs : StopsDigits s := by rcases h with rfl | rfl <;> simp
  rw [kstrtoull, magnitude?_toDigits hs, dropWhile_digits hs, Option.getD_some,
    if_neg (Nat.not_le.mpr hn)]
  exact if_pos h

theorem kstrtol_decimal (hl : -2 ^ 63 ≤ v) (hu : v < 2 ^ 63) : kstrtol (decimal v) = .ok v := by
  have hn := kstrtoull_toDigits (n := v.natAbs) (s := []) (by omega) (Or.inl rfl)
  have hd := signed_decimal v []
  simp only [List.append_nil] at hn hd
  simp only [kstrtol, hd, hn, bind, Except.bind, decide_eq_true_eq]
  by_cases hv : v < 0
  · have hle : ¬ 2 ^ 63 < v.natAbs := by omega
    have habs : -(v.natAbs : ℤ) = v := by omega
    rw [if_pos hv, if_neg hle, habs]
  · have hlt : ¬ 2 ^ 63 ≤ v.natAbs := by omega
    have habs : (v.natAbs : ℤ) = v := by omega
    rw [if_neg hv, if_neg hlt, habs]

theorem cstring_append {t : List Char} (h : '\x00' ∉ s) : cstring (s ++ '\x00' :: t) = s := by
  have hs : ∀ c ∈ s, (c != '\x00') = true := by
    intro c hc
    simpa using ne_of_mem_of_not_mem hc h
  simp [cstring, List.takeWhile_append_of_pos hs]

/-- A word that `%s` reads as a whole. -/
def IsWord (w : List Char) : Prop := w ≠ [] ∧ ∀ c ∈ w, isSpace c = false

instance (w : List Char) : Decidable (IsWord w) :=
  decidable_of_iff (w ≠ [] ∧ w.all (!isSpace ·) = true) (by simp [IsWord])

/-- `"%s %d"` reads back a word and a 32-bit integer printed with a blank between them. -/
theorem sscanfWordInt_decimal {w : List Char} (hw : IsWord w) (v : Int32) (h : StopsDigits s) :
    sscanfWordInt (w ++ ' ' :: (decimal v.toInt ++ s)) = ⟨some w, some v⟩ := by
  obtain ⟨c, t, rfl⟩ := List.exists_cons_of_ne_nil hw.1
  have hall : ∀ a ∈ c :: t, (!isSpace a) = true := fun a ha => by simp [hw.2 a ha]
  have hblank : isSpace ' ' = true := rfl
  have hskip : ∀ r, skipSpace (c :: t ++ r) = c :: t ++ r := fun r => by
    simp [skipSpace, hw.2 c (by simp)]
  have hskip' : skipSpace (' ' :: (decimal v.toInt ++ s)) = decimal v.toInt ++ s := by
    simpa [skipSpace, hblank] using skipSpace_decimal v.toInt s
  have htake : (c :: t ++ ' ' :: (decimal v.toInt ++ s)).takeWhile (!isSpace ·) = c :: t := by
    rw [List.takeWhile_append_of_pos hall]; simp [hblank]
  have hdrop : (c :: t ++ ' ' :: (decimal v.toInt ++ s)).dropWhile (!isSpace ·) =
      ' ' :: (decimal v.toInt ++ s) := by
    rw [List.dropWhile_append_of_pos hall]; simp [hblank]
  simp only [sscanfWordInt, hskip, htake, hdrop, hskip', numeral?_decimal h, Option.map_some,
    saturate_int32, Int32.ofInt_toInt]

end RoundTrip

end CText
