import CSEL1.Memory.Slice
import CSEL1.Transition.Basic
import Mathlib.Logic.Function.Basic

/-! # The misc character drivers

A device keeps what was last written to it, as a C string in an array of
`BUFFER_SIZE` = 1024 bytes. A reader gets all of it or nothing, and every open file has a
position of its own.
-/

namespace CSEL1.Misc

open Memory

/--
The calls on open files. A copy to the user may fault, and a copy from the user may stop after some
bytes.
-/
inductive Call (φ : Type*)
  | read (file : φ) (buf : Bool) (count : ℕ) (fault : Bool)
  | write (file : φ) (data : List UInt8) (stop : Option ℕ)
  deriving DecidableEq, Repr

def Call.file {φ : Type*} : Call φ → φ
  | .read file _ _ _ => file
  | .write file _ _ => file

structure Result where
  ret : ℕ
  data : List UInt8
  deriving DecidableEq, Repr

def Result.zero : Result := ⟨0, []⟩

/--
`copy_from_user`: what it leaves in the destination, zeroed behind a stop, and what is missing.
-/
def copyFromUser (data : List UInt8) : Option ℕ → List UInt8 × ℕ
  | none => (data, 0)
  | some k => (data.take k ++ List.replicate (data.length - k) 0, data.length - k)

structure Device where
  buffer : ℕ → UInt8
  bufferSize : ℕ

def Device.zero : Device := ⟨fun _ => 0, 0⟩

/-- `skeleton_read` at the position of a file: the position afterwards and the result. -/
def Device.read (d : Device) (ppos : ℕ) (buf : Bool) (count : ℕ) (fault : Bool) : ℕ × Result :=
  if buf = false ∨ count < d.bufferSize then (ppos, .zero)
  else if d.bufferSize ≤ ppos then (ppos, .zero)
  else if fault then (ppos, .zero)
  else (d.bufferSize, ⟨d.bufferSize, slice d.buffer 0 d.bufferSize⟩)

/-- `skeleton_write` at the position of a file: the device and the position afterwards. -/
def Device.write (d : Device) (ppos : ℕ) (data : List UInt8) (stop : Option ℕ) :
    Device × ℕ × Result :=
  let count := data.length
  if count = 0 then (d, ppos, .zero)
  else if 1024 ≤ count then (d, ppos, .zero)
  else
    let copied := copyFromUser data stop
    let buffer := store d.buffer 0 copied.1
    if copied.2 ≠ 0 then ({ d with buffer := buffer }, 0, .zero)
    else ({ buffer := store buffer count [0], bufferSize := count + 1 }, 0, ⟨count, []⟩)

/-- The data of a write that a device accepts: a text that leaves room for its terminator. -/
@[ext] structure Accepted where
  data : List UInt8
  pos : 0 < data.length
  lt : data.length < 1024

def Call.accepted? {φ : Type*} : Call φ → Option Accepted
  | .read _ _ _ _ => none
  | .write _ data stop =>
    if h : (0 < data.length ∧ data.length < 1024) ∧ (copyFromUser data stop).2 = 0 then
      some ⟨data, h.1.1, h.1.2⟩
    else none

/-- The copies to and from the user do not fault. -/
def Call.Copied {φ : Type*} : Call φ → Prop
  | .read _ _ _ fault => fault = false
  | .write _ data stop => (copyFromUser data stop).2 = 0

theorem Call.length_of_refused {φ : Type*} {file : φ} {data : List UInt8} {stop : Option ℕ}
    (hc : (Call.write file data stop).Copied) (h : (Call.write file data stop).accepted? = none) :
    ¬ (0 < data.length ∧ data.length < 1024) := by
  intro hlen
  have hstop : (copyFromUser data stop).2 = 0 := hc
  simp [Call.accepted?, hlen, hstop] at h

/-- What a device holds: nothing, or the accepted text and a terminator. -/
def Device.Holds (d : Device) : Option Accepted → Prop
  | none => d.bufferSize = 0
  | some w => d.bufferSize = w.data.length + 1 ∧
      slice d.buffer 0 (w.data.length + 1) = w.data ++ [0]

section Copies

variable {data : List UInt8} {stop : Option ℕ}

theorem copyFromUser_of_complete (h : (copyFromUser data stop).2 = 0) :
    (copyFromUser data stop).1 = data := by
  cases stop with
  | none => rfl
  | some k =>
    have hk : data.length - k = 0 := h
    simp only [copyFromUser, hk, List.replicate_zero, List.append_nil]
    exact List.take_of_length_le (by omega)

theorem length_copyFromUser (data : List UInt8) (stop : Option ℕ) :
    (copyFromUser data stop).1.length = data.length := by
  cases stop with
  | none => rfl
  | some k =>
    simp only [copyFromUser, List.length_append, List.length_take, List.length_replicate]
    omega

end Copies

section Devices

variable {d : Device} {ppos count : ℕ} {buf fault : Bool} {data : List UInt8} {stop : Option ℕ}

/-- A read that returns anything returns all that is stored. -/
theorem Device.read_cases (d : Device) (ppos : ℕ) (buf : Bool) (count : ℕ) (fault : Bool) :
    d.read ppos buf count fault = (ppos, .zero) ∨
      (buf = true ∧ d.bufferSize ≤ count ∧ ppos < d.bufferSize ∧ d.read ppos buf count fault =
        (d.bufferSize, ⟨d.bufferSize, slice d.buffer 0 d.bufferSize⟩)) := by
  unfold Device.read
  split_ifs with h₁ h₂ h₃
  · exact .inl rfl
  · exact .inl rfl
  · exact .inl rfl
  · obtain ⟨hbuf, hcount⟩ := not_or.mp h₁
    exact .inr ⟨by simpa using hbuf, by omega, by omega, rfl⟩

theorem Device.read_of_nothing (h : count < d.bufferSize ∨ d.bufferSize ≤ ppos) (buf fault : Bool) :
    d.read ppos buf count fault = (ppos, .zero) := by
  rcases d.read_cases ppos buf count fault with hr | ⟨-, hcount, hpos, -⟩
  · exact hr
  · omega

theorem Device.read_eq (h : d.bufferSize ≤ count) (hpos : ppos < d.bufferSize) :
    d.read ppos true count false =
      (d.bufferSize, ⟨d.bufferSize, slice d.buffer 0 d.bufferSize⟩) := by
  unfold Device.read
  rw [if_neg (by simp; omega), if_neg (by omega)]
  rfl

/-- An accepted write replaces what is stored and takes the file back to its start. -/
theorem Device.write_accepted (d : Device) (ppos : ℕ) (w : Accepted)
    (hstop : (copyFromUser w.data stop).2 = 0) : d.write ppos w.data stop =
      ({ buffer := store d.buffer 0 (w.data ++ [0]), bufferSize := w.data.length + 1 }, 0,
        ⟨w.data.length, []⟩) := by
  have hpos := w.pos
  have hlt := w.lt
  have hstore := store_store_append d.buffer 0 w.data [0]
  rw [Nat.zero_add] at hstore
  simp only [Device.write]
  rw [if_neg (by omega), if_neg (by omega), if_neg (by omega), copyFromUser_of_complete hstop,
    hstore]

theorem Device.write_complete (d : Device) (ppos : ℕ) (w : Accepted) :
    d.write ppos w.data none =
      ({ buffer := store d.buffer 0 (w.data ++ [0]), bufferSize := w.data.length + 1 }, 0,
        ⟨w.data.length, []⟩) :=
  d.write_accepted ppos w rfl

theorem Device.write_refused (h : ¬ (0 < data.length ∧ data.length < 1024)) :
    d.write ppos data stop = (d, ppos, .zero) := by
  simp only [Device.write]
  split_ifs <;> first | rfl | omega

theorem Device.holds_write (d : Device) (ppos : ℕ) (w : Accepted)
    (hstop : (copyFromUser w.data stop).2 = 0) : (d.write ppos w.data stop).1.Holds (some w) := by
  rw [d.write_accepted ppos w hstop]
  refine ⟨rfl, ?_⟩
  have h := slice_store d.buffer 0 (w.data ++ [0])
  rwa [List.length_append] at h

theorem Device.bufferSize_write (d : Device) (ppos : ℕ) :
    (d.write ppos data stop).1.bufferSize =
      if (0 < data.length ∧ data.length < 1024) ∧ (copyFromUser data stop).2 = 0 then
        data.length + 1
      else d.bufferSize := by
  simp only [Device.write]
  split_ifs <;> first | rfl | omega

theorem Device.write_snd (d d' : Device) (ppos : ℕ) (data : List UInt8) (stop : Option ℕ) :
    (d.write ppos data stop).2 = (d'.write ppos data stop).2 := by
  simp only [Device.write]
  split_ifs <;> rfl

theorem Device.read_congr {d d' : Device} (hsize : d.bufferSize = d'.bufferSize)
    (hbytes : ∀ i < d'.bufferSize, d.buffer i = d'.buffer i) (ppos : ℕ) (buf : Bool) (count : ℕ)
    (fault : Bool) : d.read ppos buf count fault = d'.read ppos buf count fault := by
  have hslice : slice d.buffer 0 d'.bufferSize = slice d'.buffer 0 d'.bufferSize := by
    refine slice_congr fun i hi => ?_
    rw [Nat.zero_add]
    exact hbytes i hi
  simp only [Device.read, hsize, hslice]

theorem Device.buffer_write_congr {d d' : Device} {i : ℕ} (h : d.buffer i = d'.buffer i)
    (ppos ppos' : ℕ) (data : List UInt8) (stop : Option ℕ) :
    (d.write ppos data stop).1.buffer i = (d'.write ppos' data stop).1.buffer i := by
  simp only [Device.write]
  split_ifs
  · exact h
  · exact h
  · exact store_congr h 0 (copyFromUser data stop).1
  · exact store_congr (store_congr h 0 (copyFromUser data stop).1) data.length [0]

/-- A read from the start with a large enough count returns the write that was just accepted. -/
theorem Device.read_write (d : Device) (ppos : ℕ) (w : Accepted) (hcount : w.data.length < count) :
    (d.write ppos w.data none).1.read 0 true count false =
      (w.data.length + 1, ⟨w.data.length + 1, w.data ++ [0]⟩) := by
  have hstop : (copyFromUser w.data none).2 = 0 := rfl
  obtain ⟨hsize, hslice⟩ := d.holds_write ppos w hstop
  rw [Device.read_eq (by omega) (by omega), hsize, hslice]

end Devices

end CSEL1.Misc
