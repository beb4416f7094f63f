import CSEL1.Misc.LastWrite

/-! # Reading a device to its end

A reader opens a device and reads until nothing more comes, with the counts that it likes.
The first count decides: with room for all that is stored the reader gets all of it, and
otherwise nothing.
-/

namespace CSEL1.Misc.Devices

open Memory Transition

variable {δ φ : Type*} [DecidableEq δ] [DecidableEq φ] (deviceOf : φ → δ)

/--
The bytes that a reader gets from its `i`-th read on until one returns 0, if the fuel lasts. Before
each of its reads the others make their calls.
-/
def readAll (file : φ) (counts : ℕ → ℕ) (others : ℕ → List (Call φ)) :
    ℕ → ℕ → Devices δ φ → Option (List UInt8)
  | _, 0, _ => none
  | i, fuel + 1, s =>
    let r := (run (next deviceOf) s (others i)).call deviceOf (.read file true (counts i) false)
    if r.2.ret = 0 then some []
    else (readAll file counts others (i + 1) fuel r.1).map (r.2.data ++ ·)

def Delivers (s : Devices δ φ) (file : φ) (counts : ℕ → ℕ) (others : ℕ → List (Call φ))
    (bytes : List UInt8) : Prop := ∃ fuel, readAll deviceOf file counts others 0 fuel s = some bytes

def LeavesAlone (file : φ) : Call φ → Prop
  | .read reader _ _ _ => reader ≠ file
  | .write writer _ _ => deviceOf writer ≠ deviceOf file

section Reader

variable {deviceOf} {s : Devices δ φ} {file : φ} {counts : ℕ → ℕ} {others : ℕ → List (Call φ)}
  {i fuel : ℕ} {bytes : List UInt8}

theorem readAll_succ (h : readAll deviceOf file counts others i fuel s = some bytes) :
    readAll deviceOf file counts others i (fuel + 1) s = some bytes := by
  induction fuel generalizing s i bytes with
  | zero => cases h
  | succ fuel ih =>
    rw [readAll] at h ⊢
    split at h
    · next hzero =>
      rw [if_pos hzero]
      exact h
    · next hzero =>
      obtain ⟨rest, hrest, rfl⟩ := Option.map_eq_some_iff.mp h
      rw [if_neg hzero, ih hrest, Option.map_some]

theorem readAll_mono (h : readAll deviceOf file counts others i fuel s = some bytes) (n : ℕ) :
    readAll deviceOf file counts others i (fuel + n) s = some bytes := by
  induction n with
  | zero => exact h
  | succ n ih => exact readAll_succ ih

theorem Delivers.unique {bytes' : List UInt8} (h : s.Delivers deviceOf file counts others bytes)
    (h' : s.Delivers deviceOf file counts others bytes') : bytes = bytes' := by
  obtain ⟨fuel, hfuel⟩ := h
  obtain ⟨fuel', hfuel'⟩ := h'
  have hlong := readAll_mono hfuel fuel'
  have hlong' := readAll_mono hfuel' fuel
  rw [Nat.add_comm, hlong] at hlong'
  exact Option.some.inj hlong'

theorem leavesAlone_next {c : Call φ} (hc : LeavesAlone deviceOf file c) :
    (s.next deviceOf c).device (deviceOf file) = s.device (deviceOf file) ∧
      (s.next deviceOf c).ppos file = s.ppos file := by
  cases c with
  | read reader buf count fault => exact ⟨rfl, ppos_next_of_ne (Ne.symm hc)⟩
  | write writer data stop =>
    have hfile : file ≠ writer := fun h => hc (congrArg deviceOf h.symm)
    exact ⟨device_next_of_ne (Ne.symm hc), ppos_next_of_ne hfile⟩

theorem leavesAlone_run {cs : List (Call φ)} (hcs : ∀ c ∈ cs, LeavesAlone deviceOf file c) :
    (run (next deviceOf) s cs).device (deviceOf file) = s.device (deviceOf file) ∧
      (run (next deviceOf) s cs).ppos file = s.ppos file := by
  induction cs generalizing s with
  | nil => exact ⟨rfl, rfl⟩
  | cons c cs ih =>
    obtain ⟨hdevice, hppos⟩ := leavesAlone_next (s := s) (hcs c List.mem_cons_self)
    obtain ⟨hdevice', hppos'⟩ := ih (s := s.next deviceOf c)
      fun c' hc' => hcs c' (List.mem_cons_of_mem c hc')
    exact ⟨hdevice'.trans hdevice, hppos'.trans hppos⟩

theorem call_read_run (hothers : ∀ c ∈ others i, LeavesAlone deviceOf file c) :
    (run (next deviceOf) s (others i)).call deviceOf (.read file true (counts i) false) =
      let r := (s.device (deviceOf file)).read (s.ppos file) true (counts i) false
      ({ device := (run (next deviceOf) s (others i)).device
         ppos := Function.update (run (next deviceOf) s (others i)).ppos file r.1 }, r.2) := by
  obtain ⟨hdevice, hppos⟩ := leavesAlone_run (s := s) hothers
  simp only [call, hdevice, hppos]

theorem readAll_of_nothing (hothers : ∀ c ∈ others i, LeavesAlone deviceOf file c)
    (h : counts i < (s.device (deviceOf file)).bufferSize ∨
      (s.device (deviceOf file)).bufferSize ≤ s.ppos file) (fuel : ℕ) :
    readAll deviceOf file counts others i (fuel + 1) s = some [] := by
  rw [readAll]
  simp only [call_read_run hothers, Device.read_of_nothing h]
  exact if_pos rfl

theorem readAll_of_room {w : Accepted} (hothers : ∀ i, ∀ c ∈ others i, LeavesAlone deviceOf file c)
    (hholds : (s.device (deviceOf file)).Holds (some w)) (hpos : s.ppos file = 0)
    (h : w.data.length < counts i) (fuel : ℕ) :
    readAll deviceOf file counts others i (fuel + 2) s = some (w.data ++ [0]) := by
  obtain ⟨hsize, hslice⟩ := hholds
  have hread : (s.device (deviceOf file)).read (s.ppos file) true (counts i) false =
      (w.data.length + 1, ⟨w.data.length + 1, w.data ++ [0]⟩) := by
    rw [Device.read_eq (by omega) (by omega), hsize, hslice]
  rw [readAll]
  simp only [call_read_run (hothers i), hread]
  rw [if_neg (Nat.succ_ne_zero _), readAll_of_nothing (hothers (i + 1)), Option.map_some,
    List.append_nil]
  simp only [(leavesAlone_run (hothers i)).1, hsize, Function.update_self, le_refl, or_true]

/-- The first count decides what the reader gets. -/
theorem delivers_of_holds {w : Accepted}
    (hothers : ∀ i, ∀ c ∈ others i, LeavesAlone deviceOf file c)
    (hholds : (s.device (deviceOf file)).Holds (some w)) (hpos : s.ppos file = 0) :
    s.Delivers deviceOf file counts others
      (if w.data.length < counts 0 then w.data ++ [0] else []) := by
  refine ⟨2, ?_⟩
  split
  · next hroom => exact readAll_of_room hothers hholds hpos hroom 0
  · next hsmall =>
    refine readAll_of_nothing (hothers 0) (.inl ?_) 1
    rw [hholds.1]
    omega

/-- The buffer of a standard stream has room for every text that a device accepts. -/
theorem delivers_of_stream {w : Accepted}
    (hothers : ∀ i, ∀ c ∈ others i, LeavesAlone deviceOf file c)
    (hholds : (s.device (deviceOf file)).Holds (some w)) (hpos : s.ppos file = 0)
    (hcount : 1024 ≤ counts 0) :
    s.Delivers deviceOf file counts others (w.data ++ [0]) := by
  have h : s.Delivers deviceOf file counts others _ := delivers_of_holds hothers hholds hpos
  rwa [if_pos (w.lt.trans_le hcount)] at h

end Reader

section Ends

/--
A reader that opens a device and reads until nothing more comes gets the text with its terminator
if its first count has room for both, and no byte otherwise.
-/
theorem delivers_iff {s : Devices δ φ} {file : φ} {w : Accepted}
    (hholds : (s.device (deviceOf file)).Holds (some w)) (hpos : s.ppos file = 0)
    (counts : ℕ → ℕ) {others : ℕ → List (Call φ)}
    (hothers : ∀ i, ∀ c ∈ others i, LeavesAlone deviceOf file c) (bytes : List UInt8) :
    s.Delivers deviceOf file counts others bytes ↔
      bytes = if w.data.length < counts 0 then w.data ++ [0] else [] := by
  have hdelivers : s.Delivers deviceOf file counts others _ :=
    delivers_of_holds hothers hholds hpos
  constructor
  · exact fun h => h.unique hdelivers
  · rintro rfl
    exact hdelivers

theorem delivers_two_bytes :
    ((start : Devices Unit Bool).next (fun _ => ()) (.write false [104, 105] none)).Delivers
      (fun _ => ()) true (fun _ => 3) (fun _ => [.read false true 1024 false]) [104, 105, 0] := by
  let w : Accepted := ⟨[104, 105], by decide, by decide⟩
  refine (delivers_iff (w := w) (fun _ => ()) ?_ rfl (fun _ => 3) ?_ _).mpr rfl
  · exact Device.holds_write _ 0 w rfl
  · intro i c hc
    rw [List.mem_singleton.mp hc]
    exact Bool.false_ne_true

/-- A reader that asks for a single byte at a time gets none. -/
theorem single_bytes_lost :
    ¬ ((start : Devices Unit Bool).next (fun _ => ()) (.write false [104, 105] none)).Delivers
      (fun _ => ()) true (fun _ => 1) (fun _ => []) [104, 105, 0] := by
  rintro ⟨fuel, hfuel⟩
  cases fuel with
  | zero => cases hfuel
  | succ fuel =>
    rw [readAll_of_nothing (fun c hc => absurd hc List.not_mem_nil) (.inl (by decide))] at hfuel
    cases hfuel

end Ends

end CSEL1.Misc.Devices
