import CSEL1.Text.Reads
import Mathlib.Data.List.Basic
import Mathlib.Data.List.GetD

/-! # The conversation over a socket pair

The child writes its messages into a stream and closes it. The parent reads into the front
of one array and ends when it finds the last message there. A stream keeps no boundaries,
so the reads may merge the messages and cut them anywhere.
-/

namespace CSEL1.Socket

open CText

def hello : List Char := ['I', ' ', 'a', 'm', ' ', 'a', ' ', 'c', 'h', 'i', 'l', 'd', '\x00']

def exitWord : List Char := ['e', 'x', 'i', 't']

def child (nbSend : ℕ) : List (List Char) :=
  (List.range nbSend).map fun i => if i = nbSend - 1 then exitWord ++ ['\x00'] else hello

/-- How the loop of `parent` goes: it ends after some reads, or its search overruns the array. -/
inductive Outcome
  | ended (reads : ℕ)
  | overrun
  | running
  deriving DecidableEq, Repr

/-- The loop of `parent` from its `i`-th read on. -/
def parent (read : ℕ → List Char) : ℕ → ℕ → Buffer 1024 → Outcome
  | 0, _, _ => .running
  | fuel + 1, i, buf =>
    let buf := buf.pread (read i)
    match strstr buf.chars exitWord with
    | .error _ => .overrun
    | .ok (some _) => .ended (i + 1)
    | .ok none => parent read fuel (i + 1) buf

/-- A stream cut into the reads of `parent`, none of them empty or longer than its array. -/
structure Cut (stream : List Char) where
  reads : List (List Char)
  flatten_eq : reads.flatten = stream
  nonempty : ∀ r ∈ reads, r ≠ []
  fits : ∀ r ∈ reads, r.length ≤ 1024

namespace Cut

variable {stream : List Char} {c : Cut stream} {i j m : ℕ} {x : Char}

def read (c : Cut stream) (i : ℕ) : List Char := c.reads.getD i []

/-- A terminator that was read up to the `i`-th read, and that no later one of them covers. -/
def Terminated (c : Cut stream) (i : ℕ) : Prop :=
  ∃ m ≤ i, ∃ p, (c.read m)[p]? = some '\x00' ∧ ∀ l ≤ i, m < l → (c.read l).length ≤ p

/-- A read starts with the word, and a terminator stands in the array up to this read. -/
def Heard (c : Cut stream) : Prop :=
  ∃ j, exitWord <+: c.read j ∧ ∀ i ≤ j, c.Terminated i

theorem read_eq_getElem (h : i < c.reads.length) : c.read i = c.reads[i] :=
  List.getD_eq_getElem _ _ h

theorem lt_length_of_mem (h : x ∈ c.read i) : i < c.reads.length := by
  by_contra hge
  rw [read, List.getD_eq_default _ _ (Nat.not_lt.mp hge)] at h
  exact List.not_mem_nil h

theorem fits_read (c : Cut stream) (i : ℕ) : (c.read i).length ≤ 1024 := by
  rcases Nat.lt_or_ge i c.reads.length with hlt | hge
  · rw [read_eq_getElem hlt]
    exact c.fits _ (List.getElem_mem hlt)
  · rw [read, List.getD_eq_default _ _ hge]
    exact Nat.zero_le 1024

theorem mem_flatten_take (h : x ∈ c.read m) (hm : m < j) : x ∈ (c.reads.take j).flatten := by
  have hlt := lt_length_of_mem h
  rw [read_eq_getElem hlt] at h
  exact List.mem_flatten.mpr ⟨_, List.mem_take_iff_getElem.mpr ⟨m, by omega, rfl⟩, h⟩

theorem mem_flatten_drop (h : x ∈ c.read m) (hm : j ≤ m) : x ∈ (c.reads.drop j).flatten := by
  obtain ⟨i, rfl⟩ := Nat.exists_eq_add_of_le hm
  have hlt := lt_length_of_mem h
  rw [read_eq_getElem hlt] at h
  refine List.mem_flatten.mpr ⟨_, List.mem_drop_iff_getElem.mpr ⟨i, ?_, rfl⟩, h⟩
  omega

theorem exists_read_of_mem_take (h : x ∈ (c.reads.take j).flatten) : ∃ m < j, x ∈ c.read m := by
  obtain ⟨r, hr, hx⟩ := List.mem_flatten.mp h
  obtain ⟨m, hm, rfl⟩ := List.mem_take_iff_getElem.mp hr
  refine ⟨m, by omega, ?_⟩
  rwa [read_eq_getElem (by omega)]

theorem flatten_split (h : j < c.reads.length) :
    (c.reads.take j).flatten ++ (c.read j ++ (c.reads.drop (j + 1)).flatten) = stream := by
  rw [read_eq_getElem h, ← List.flatten_cons, ← List.drop_eq_getElem_cons h, ← List.flatten_append,
    List.take_append_drop, c.flatten_eq]

theorem terminated_iff : c.Terminated i ↔ '\x00' ∈ received c.read (i + 1) := by
  simp only [Terminated, mem_received_iff, Nat.lt_succ_iff]

end Cut

section Loop

variable {read : ℕ → List Char} {buf : Buffer 1024} {fuel i n : ℕ}

def Found (b : Buffer 1024) : Prop := '\x00' ∈ b.chars ∧ exitWord <:+: cstring b.chars

def Missed (b : Buffer 1024) : Prop := '\x00' ∈ b.chars ∧ ¬ exitWord <:+: cstring b.chars

theorem Found.not_missed {b : Buffer 1024} (h : Found b) : ¬ Missed b := fun hm => hm.2 h.2

theorem parent_of_found (h : Found (buf.pread (read i))) :
    parent read (fuel + 1) i buf = .ended (i + 1) := by
  obtain ⟨p, hp⟩ := strstr_eq_some_iff.mpr h
  simp only [parent, hp]

theorem parent_of_missed (h : Missed (buf.pread (read i))) :
    parent read (fuel + 1) i buf = parent read fuel (i + 1) (buf.pread (read i)) := by
  simp only [parent, strstr_eq_none_iff.mpr h]

theorem parent_of_overrun (h : '\x00' ∉ (buf.pread (read i)).chars) :
    parent read (fuel + 1) i buf = .overrun := by
  simp only [parent, strstr, if_neg h]

theorem found_or_missed_or_overrun (b : Buffer 1024) : Found b ∨ Missed b ∨ '\x00' ∉ b.chars := by
  by_cases hmem : '\x00' ∈ b.chars
  · by_cases hinfix : exitWord <:+: cstring b.chars
    · exact .inl ⟨hmem, hinfix⟩
    · exact .inr (.inl ⟨hmem, hinfix⟩)
  · exact .inr (.inr hmem)

/-- The loop ends with the first read after which the word is found. -/
theorem parent_eq_ended_iff : parent read fuel i (buf.after read i) = .ended n ↔
    i < n ∧ n ≤ i + fuel ∧ Found (buf.after read n) ∧
      ∀ m, i < m → m < n → Missed (buf.after read m) := by
  induction fuel generalizing i with
  | zero =>
    simp only [parent, reduceCtorEq, false_iff]
    omega
  | succ fuel ih =>
    rcases found_or_missed_or_overrun (buf.after read (i + 1)) with hfound | hmissed | hover
    · rw [parent_of_found hfound, Outcome.ended.injEq]
      constructor
      · rintro rfl
        exact ⟨Nat.lt_succ_self i, by omega, hfound, fun m him hm => by omega⟩
      · rintro ⟨hi, -, -, hbefore⟩
        by_contra hne
        exact hfound.not_missed (hbefore (i + 1) (Nat.lt_succ_self i) (by omega))
    · rw [parent_of_missed hmissed]
      refine ih.trans ?_
      constructor
      · rintro ⟨hi, hn, hfound, hbefore⟩
        refine ⟨by omega, by omega, hfound, fun m him hmn => ?_⟩
        rcases Nat.lt_or_eq_of_le (Nat.succ_le_of_lt him) with hlt | rfl
        · exact hbefore m hlt hmn
        · exact hmissed
      · rintro ⟨hi, hn, hfound, hbefore⟩
        refine ⟨?_, by omega, hfound, fun m him => hbefore m (Nat.lt_of_succ_lt him)⟩
        rcases Nat.lt_or_eq_of_le (Nat.succ_le_of_lt hi) with hlt | rfl
        · exact hlt
        · exact absurd hmissed hfound.not_missed
    · rw [parent_of_overrun hover]
      simp only [reduceCtorEq, false_iff]
      rintro ⟨hi, -, hfound, hbefore⟩
      rcases Nat.lt_or_eq_of_le (Nat.succ_le_of_lt hi) with hlt | rfl
      · exact hover (hbefore (i + 1) (Nat.lt_succ_self i) hlt).1
      · exact hover hfound.1

end Loop

end CSEL1.Socket
