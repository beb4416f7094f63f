import CSEL1.Driver.Basic
import CSEL1.Text.Numeral

/-! # Stores to the frequency

`freq_store` scans a `long` and assigns it to an `int`. A text that denotes a `long`
is therefore never refused, and stored as what it denotes only if that is an `int`.
-/

namespace CSEL1

open CText

namespace Driver

/-- The count is returned for a text stored exactly, an error if nothing has changed. -/
structure StoredOrRefused (d : Driver) (buf : List Char) : Prop where
  stored : (d.freqStore buf).2 = buf.length → Denotes buf (d.freqStore buf).1.freq.toInt
  refused : (d.freqStore buf).2 < 0 →
    (d.freqStore buf).1.mode = d.mode ∧ (d.freqStore buf).1.freq = d.freq

section Stores

variable {d : Driver} {buf : List Char} {v : ℤ}

theorem toInt_ofInt_eq_iff : (Int32.ofInt v).toInt = v ↔ -2 ^ 31 ≤ v ∧ v < 2 ^ 31 := by
  constructor
  · intro h
    have hl := (Int32.ofInt v).le_toInt
    have hu := (Int32.ofInt v).toInt_lt
    omega
  · rintro ⟨hl, hu⟩
    exact Int32.toInt_ofInt_of_le hl hu

theorem freqStore_of_denotes (h : Denotes buf v) (hl : -2 ^ 63 ≤ v) (hu : v < 2 ^ 63) :
    d.freqStore buf = ({ d with freq := Int32.ofInt v }, (buf.length : ℤ)) := by
  simp only [freqStore, kstrtol_eq_ok_iff.mpr ⟨h, hl, hu⟩]

theorem freqStore_of_not_denotes (h : ∀ v, Denotes buf v → ¬ (-2 ^ 63 ≤ v ∧ v < 2 ^ 63)) :
    d.freqStore buf = (d, -1) := by
  unfold freqStore
  split
  · next v hv =>
    obtain ⟨hden, hrange⟩ := kstrtol_eq_ok_iff.mp hv
    exact absurd hrange (h v hden)
  · rfl

/-- A text is stored exactly or refused unless it denotes a `long` that is not an `int`. -/
theorem storedOrRefused_iff (d : Driver) (buf : List Char) : d.StoredOrRefused buf ↔
    ∀ v, Denotes buf v → -2 ^ 63 ≤ v → v < 2 ^ 63 → -2 ^ 31 ≤ v ∧ v < 2 ^ 31 := by
  by_cases hlong : ∃ v, Denotes buf v ∧ -2 ^ 63 ≤ v ∧ v < 2 ^ 63
  · obtain ⟨v, hv, hl, hu⟩ := hlong
    have hstore := freqStore_of_denotes (d := d) hv hl hu
    have hint : (∀ w, Denotes buf w → -2 ^ 63 ≤ w → w < 2 ^ 63 → -2 ^ 31 ≤ w ∧ w < 2 ^ 31) ↔
        -2 ^ 31 ≤ v ∧ v < 2 ^ 31 := by
      refine ⟨fun h => h v hv hl hu, fun h w hw _ _ => ?_⟩
      rwa [hw.unique hv]
    rw [hint, ← toInt_ofInt_eq_iff]
    constructor
    · rintro ⟨hstored, -⟩
      rw [hstore] at hstored
      exact (hstored rfl).unique hv
    · intro heq
      refine ⟨fun _ => ?_, fun hneg => ?_⟩
      · rw [hstore, heq]
        exact hv
      · rw [hstore] at hneg
        exact absurd hneg (by simp)
  · have hnone : ∀ v, Denotes buf v → ¬ (-2 ^ 63 ≤ v ∧ v < 2 ^ 63) :=
      fun v hv hrange => hlong ⟨v, hv, hrange⟩
    have hstore := freqStore_of_not_denotes (d := d) hnone
    refine iff_of_true ⟨fun hlen => ?_, fun _ => ?_⟩ fun v hv hl hu => ?_
    · rw [hstore] at hlen
      exact absurd hlen (by simp only; omega)
    · rw [hstore]
      exact ⟨rfl, rfl⟩
    · exact absurd ⟨hl, hu⟩ (hnone v hv)

/-- 4294967296 is accepted, and wraps to a frequency of zero. -/
theorem wrapped_frequency_stored : ¬ ∀ (d : Driver) (buf : List Char), d.StoredOrRefused buf := by
  intro hall
  let buf : List Char := ['4', '2', '9', '4', '9', '6', '7', '2', '9', '6']
  have hv : Denotes buf 4294967296 := (kstrtol_eq_ok_iff.mp (by decide)).1
  have hstored := (hall loaded buf).stored (by decide)
  exact absurd (hstored.unique hv) (by decide)

end Stores

end Driver

end CSEL1
