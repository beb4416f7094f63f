import CSEL1.Misc.LastWrite
import CSEL1.Transition.Component

/-! # Several devices in one array

The parameterised drivers keep the texts of all devices in one array, a slice of 1024
bytes for each, and their lengths in a second array. The index of the slice serves for
both arrays, although the second has one entry for each device only.
-/

namespace CSEL1.Misc

open Memory Transition

structure Single (φ : Type*) where
  device : Device
  ppos : φ → ℕ

structure Flat (φ : Type*) where
  globalBuffer : ℕ → UInt8
  bufferSize : ℕ → ℕ
  ppos : φ → ℕ

def index (offsetMinor minor : ℤ) : ℕ := ((offsetMinor - minor) * 1024).toNat

/-- `misc_register` gives the devices consecutive descending minors. -/
def iminor (offsetMinor : ℤ) (k : ℕ) : ℤ := offsetMinor - k

def Call.Looks {φ : Type*} : Call φ → Prop
  | .read _ buf _ _ => buf = true
  | .write file data stop => (Call.write file data stop).accepted?.isSome = true

namespace Single

variable {φ : Type*} [DecidableEq φ]

def start : Single φ := ⟨.zero, fun _ => 0⟩

def call (s : Single φ) : Call φ → Single φ × Result
  | .read file buf count fault =>
    let r := s.device.read (s.ppos file) buf count fault
    ({ s with ppos := Function.update s.ppos file r.1 }, r.2)
  | .write file data stop =>
    let r := s.device.write (s.ppos file) data stop
    (⟨r.1, Function.update s.ppos file r.2.1⟩, r.2.2)

def next (s : Single φ) (c : Call φ) : Single φ := (s.call c).1

def result (s : Single φ) (c : Call φ) : Result := (s.call c).2

def ofDevices (s : Devices Unit φ) : Single φ := ⟨s.device (), s.ppos⟩

theorem call_ofDevices (s : Devices Unit φ) (c : Call φ) : (ofDevices s).call c =
    (ofDevices (s.next (fun _ => ()) c), s.result (fun _ => ()) c) := by
  cases c with
  | read file buf count fault => rfl
  | write file data stop => rfl

/-- The driver of a single device is that of the device tree with one device. -/
theorem trace_single (cs : List (Call φ)) : trace next result start cs =
    trace (Devices.next fun _ => ()) (Devices.result fun _ => ()) Devices.start cs := by
  have hstart : (start : Single φ) = ofDevices Devices.start := rfl
  refine trace_related (R := fun s t => s = ofDevices t) ?_ ?_ hstart cs
  · rintro s t c rfl
    exact congrArg Prod.snd (call_ofDevices t c)
  · rintro s t c rfl
    exact congrArg Prod.fst (call_ofDevices t c)

end Single

namespace Flat

variable {φ : Type*} [DecidableEq φ] {n : ℕ}

/-- `kzalloc` zeroes the arrays of `n` devices; behind them is other memory. -/
def start (n : ℕ) (bytesBehind : ℕ → UInt8) (sizesBehind : ℕ → ℕ) : Flat φ where
  globalBuffer i := if i < n * 1024 then 0 else bytesBehind i
  bufferSize i := if i < n then 0 else sizesBehind i
  ppos _ := 0

/-- A call on a file of one of the devices. Its minor number gives the index into both arrays. -/
def call (offsetMinor : ℤ) (deviceOf : φ → Fin n) (s : Flat φ) : Call φ → Flat φ × Result
  | .read file buf count fault =>
    let idx := index offsetMinor (iminor offsetMinor (deviceOf file))
    if buf = false ∨ count < s.bufferSize idx then (s, .zero)
    else if s.bufferSize idx ≤ s.ppos file then (s, .zero)
    else if fault then (s, .zero)
    else
      ({ s with ppos := Function.update s.ppos file (s.bufferSize idx) },
        ⟨s.bufferSize idx, slice s.globalBuffer idx (s.bufferSize idx)⟩)
  | .write file data stop =>
    let idx := index offsetMinor (iminor offsetMinor (deviceOf file))
    let count := data.length
    if count = 0 then (s, .zero)
    else if 1024 ≤ count then (s, .zero)
    else
      let copied := copyFromUser data stop
      let s := { s with
        globalBuffer := store s.globalBuffer idx copied.1
        ppos := Function.update s.ppos file 0 }
      if copied.2 ≠ 0 then (s, .zero)
      else
        ({ s with
            globalBuffer := store s.globalBuffer (idx + count) [0]
            bufferSize := Function.update s.bufferSize idx (count + 1) },
          ⟨count, []⟩)

def next (offsetMinor : ℤ) (deviceOf : φ → Fin n) (s : Flat φ) (c : Call φ) : Flat φ :=
  (s.call offsetMinor deviceOf c).1

def result (offsetMinor : ℤ) (deviceOf : φ → Fin n) (s : Flat φ) (c : Call φ) : Result :=
  (s.call offsetMinor deviceOf c).2

def sizesUsed (offsetMinor : ℤ) (deviceOf : φ → Fin n) : Call φ → List ℕ
  | .read file buf _ _ =>
    if buf then [index offsetMinor (iminor offsetMinor (deviceOf file))] else []
  | .write file data stop =>
    if (Call.write file data stop).accepted?.isSome then
      [index offsetMinor (iminor offsetMinor (deviceOf file))]
    else []

def bytesTouched (offsetMinor : ℤ) (deviceOf : φ → Fin n) (s : Flat φ) : Call φ → List ℕ
  | .read file buf count _ =>
    let idx := index offsetMinor (iminor offsetMinor (deviceOf file))
    if buf = false ∨ count < s.bufferSize idx ∨ s.bufferSize idx ≤ s.ppos file then []
    else List.range' idx (s.bufferSize idx)
  | .write file data stop =>
    let idx := index offsetMinor (iminor offsetMinor (deviceOf file))
    if data.length = 0 ∨ 1024 ≤ data.length then []
    else if (copyFromUser data stop).2 ≠ 0 then List.range' idx data.length
    else List.range' idx (data.length + 1)

/-- The devices of a run are as good as drivers of their own, inside the arrays. -/
structure Independent (offsetMinor : ℤ) (deviceOf : φ → Fin n) (s : Flat φ)
    (cs : List (Call φ)) : Prop where
  sizes : ∀ c ∈ cs, ∀ i ∈ sizesUsed offsetMinor deviceOf c, i < n
  slices : Along (next offsetMinor deviceOf)
    (fun s c => ∀ i ∈ s.bytesTouched offsetMinor deviceOf c,
      1024 * deviceOf c.file ≤ i ∧ i < 1024 * deviceOf c.file + 1024) s cs
  results : ∀ k,
    (trace (next offsetMinor deviceOf) (result offsetMinor deviceOf) s cs).filter
      (fun x => deviceOf x.1.file = k) =
    trace Single.next Single.result Single.start (cs.filter (deviceOf ·.file = k))

section Views

variable (offsetMinor : ℤ) (deviceOf : φ → Fin n)

theorem index_iminor (offsetMinor : ℤ) (k : ℕ) :
    index offsetMinor (iminor offsetMinor k) = 1024 * k := by
  unfold index iminor
  omega

/-- The slice of a device and the entry that its index finds in `buffer_size`. -/
def view (s : Flat φ) (k : Fin n) : Device :=
  ⟨fun i => s.globalBuffer (1024 * k + i), s.bufferSize (1024 * k)⟩

theorem call_read (s : Flat φ) (file : φ) (buf : Bool) (count : ℕ) (fault : Bool) :
    s.call offsetMinor deviceOf (.read file buf count fault) =
      let r := (s.view (deviceOf file)).read (s.ppos file) buf count fault
      ({ s with ppos := Function.update s.ppos file r.1 }, r.2) := by
  have hslice : slice (fun i => s.globalBuffer (1024 * deviceOf file + i)) 0
      (s.bufferSize (1024 * deviceOf file)) =
      slice s.globalBuffer (1024 * deviceOf file) (s.bufferSize (1024 * deviceOf file)) :=
    slice_congr fun i _ => by rw [Nat.zero_add]
  simp only [call, index_iminor, Device.read, view, hslice]
  by_cases h₁ : buf = false ∨ count < s.bufferSize (1024 * deviceOf file)
  · simp only [if_pos h₁, Function.update_eq_self]
  by_cases h₂ : s.bufferSize (1024 * deviceOf file) ≤ s.ppos file
  · simp only [if_neg h₁, if_pos h₂, Function.update_eq_self]
  by_cases h₃ : fault = true
  · simp only [if_neg h₁, if_neg h₂, if_pos h₃, Function.update_eq_self]
  · simp only [if_neg h₁, if_neg h₂, if_neg h₃]

theorem call_write (s : Flat φ) (file : φ) (data : List UInt8) (stop : Option ℕ) :
    let r := (s.view (deviceOf file)).write (s.ppos file) data stop
    let t := s.next offsetMinor deviceOf (.write file data stop)
    s.result offsetMinor deviceOf (.write file data stop) = r.2.2 ∧
      t.view (deviceOf file) = r.1 ∧ t.ppos = Function.update s.ppos file r.2.1 ∧
      ∀ k, k ≠ deviceOf file → t.bufferSize (1024 * k) = s.bufferSize (1024 * k) ∧
        ∀ i < 1024, t.globalBuffer (1024 * k + i) = s.globalBuffer (1024 * k + i) := by
  have hshift : ∀ (m : ℕ → UInt8) (offset : ℕ) (d : List UInt8),
      (fun i => store m (1024 * deviceOf file + offset) d (1024 * deviceOf file + i)) =
        store (fun i => m (1024 * deviceOf file + i)) offset d :=
    fun m offset d => funext fun i => store_shift m _ offset d i
  have hother : ∀ (m : ℕ → UInt8) (offset : ℕ) (d : List UInt8) (k : Fin n), k ≠ deviceOf file →
      offset + d.length ≤ 1024 → ∀ i < 1024,
      store m (1024 * deviceOf file + offset) d (1024 * k + i) = m (1024 * k + i) := by
    intro m offset d k hk hd i hi
    have hne : (k : ℕ) ≠ deviceOf file := Fin.val_ne_of_ne hk
    exact store_of_notMem (by omega)
  have hcopied : ∀ d : List UInt8, (fun i => store s.globalBuffer (1024 * deviceOf file) d
      (1024 * deviceOf file + i)) =
        store (fun i => s.globalBuffer (1024 * deviceOf file + i)) 0 d :=
    hshift s.globalBuffer 0
  have hlen := length_copyFromUser data stop
  simp only [next, result, call, index_iminor, Device.write, view]
  by_cases h₁ : data.length = 0
  · simp [h₁]
  by_cases h₂ : 1024 ≤ data.length
  · simp [h₁, h₂]
  simp only [if_neg h₁, if_neg h₂]
  split
  · refine ⟨rfl, by rw [hcopied], rfl, fun k hk => ⟨rfl, fun i hi => ?_⟩⟩
    exact hother _ 0 _ k hk (by omega) i hi
  · refine ⟨rfl, ?_, rfl, fun k hk => ⟨?_, fun i hi => ?_⟩⟩
    · simp only [hshift, hcopied, Function.update_self]
    · exact Function.update_of_ne (by have := Fin.val_ne_of_ne hk; omega) _ _
    · dsimp only
      rw [hother _ _ [0] k hk (by simp only [List.length_singleton]; omega) i hi]
      exact hother _ 0 _ k hk (by omega) i hi

end Views

/-- The device of a file is the one that a driver of its own would have. -/
structure Related (deviceOf : φ → Fin n) (k : Fin n) (s : Flat φ) (t : Single φ) : Prop where
  size : 1024 * k < n → (s.view k).bufferSize = t.device.bufferSize
  bytes : ∀ i < 1024, (s.view k).buffer i = t.device.buffer i
  ppos : ∀ file, deviceOf file = k → s.ppos file = t.ppos file
  bound : t.device.bufferSize ≤ 1024

def InRange (deviceOf : φ → Fin n) (c : Call φ) : Prop := c.Looks → 1024 * deviceOf c.file < n

section Simulation

variable {offsetMinor : ℤ} {deviceOf : φ → Fin n} {s : Flat φ} {t : Single φ} {k : Fin n}
  {file : φ} {buf fault : Bool} {count : ℕ} {data : List UInt8} {stop : Option ℕ}

omit [DecidableEq φ] in
theorem read_view (h : Related deviceOf k s t) (hfile : deviceOf file = k)
    (hc : InRange deviceOf (.read file buf count fault)) :
    (s.view k).read (s.ppos file) buf count fault =
      t.device.read (t.ppos file) buf count fault := by
  rw [h.ppos file hfile]
  cases buf with
  | false => simp [Device.read]
  | true =>
    have hsize := h.size (hfile ▸ hc rfl)
    exact Device.read_congr hsize (fun i hi => h.bytes i (hi.trans_le h.bound)) _ _ _ _

theorem result_related (h : Related deviceOf k s t) {c : Call φ} (hfile : deviceOf c.file = k)
    (hc : InRange deviceOf c) : s.result offsetMinor deviceOf c = t.result c := by
  cases c with
  | read file buf count fault =>
    have hfile : deviceOf file = k := hfile
    subst hfile
    simp only [result, call_read, Single.result, Single.call, read_view h rfl hc]
  | write file data stop =>
    have hfile : deviceOf file = k := hfile
    subst hfile
    rw [(call_write offsetMinor deviceOf s file data stop).1, h.ppos file rfl, Device.write_snd]
    rfl

/-- A call on its device keeps the slice and the driver of its own alike. -/
theorem related_next (h : Related deviceOf k s t) {c : Call φ} (hfile : deviceOf c.file = k)
    (hc : InRange deviceOf c) : Related deviceOf k (s.next offsetMinor deviceOf c) (t.next c) := by
  cases c with
  | read file buf count fault =>
    have hfile : deviceOf file = k := hfile
    subst hfile
    have hread := read_view h rfl hc
    refine ⟨?_, ?_, fun f hf => ?_, h.bound⟩
    · simp only [next, call_read]
      exact h.size
    · simp only [next, call_read]
      exact h.bytes
    · simp only [next, call_read, Single.next, Single.call, hread]
      rw [Function.update_apply, Function.update_apply, h.ppos f hf]
  | write file data stop =>
    have hfile : deviceOf file = k := hfile
    subst hfile
    obtain ⟨-, hview, hppos, -⟩ := call_write offsetMinor deviceOf s file data stop
    have hnext : (t.next (.write file data stop)).device =
        (t.device.write (t.ppos file) data stop).1 := rfl
    have hnextpos : (t.next (.write file data stop)).ppos =
        Function.update t.ppos file (t.device.write (t.ppos file) data stop).2.1 := rfl
    refine ⟨fun hk => ?_, fun i hi => ?_, fun f hf => ?_, ?_⟩
    · rw [hview, hnext, Device.bufferSize_write, Device.bufferSize_write, h.size hk]
    · rw [hview, hnext]
      exact Device.buffer_write_congr (h.bytes i hi) _ _ _ _
    · rw [hppos, hnextpos, h.ppos file rfl, Device.write_snd _ t.device]
      rw [Function.update_apply, Function.update_apply, h.ppos f hf]
    · rw [hnext, Device.bufferSize_write]
      split
      · next hacc => exact hacc.1.2
      · exact h.bound

theorem related_other (h : Related deviceOf k s t) {c : Call φ} (hfile : deviceOf c.file ≠ k) :
    Related deviceOf k (s.next offsetMinor deviceOf c) t := by
  cases c with
  | read file buf count fault =>
    refine ⟨?_, ?_, fun f hf => ?_, h.bound⟩
    · simp only [next, call_read]
      exact h.size
    · simp only [next, call_read]
      exact h.bytes
    · simp only [next, call_read]
      rw [Function.update_of_ne (fun he => hfile (by rw [Call.file, ← he, hf]))]
      exact h.ppos f hf
  | write file data stop =>
    obtain ⟨-, -, hppos, hother⟩ := call_write offsetMinor deviceOf s file data stop
    obtain ⟨hsize, hbytes⟩ := hother k (Ne.symm hfile)
    refine ⟨fun hk => hsize.trans (h.size hk), fun i hi => (hbytes i hi).trans (h.bytes i hi),
      fun f hf => ?_, h.bound⟩
    rw [hppos, Function.update_of_ne (fun he => hfile (by rw [Call.file, ← he, hf]))]
    exact h.ppos f hf

end Simulation

section Runs

variable (offsetMinor : ℤ) (deviceOf : φ → Fin n)

omit [DecidableEq φ] in
theorem related_start (k : Fin n) (bytesBehind : ℕ → UInt8) (sizesBehind : ℕ → ℕ) :
    Related deviceOf k (start n bytesBehind sizesBehind) Single.start := by
  have hk := k.isLt
  refine ⟨fun h => ?_, fun i hi => ?_, fun _ _ => rfl, Nat.zero_le _⟩
  · simp only [view, start, if_pos h]
    rfl
  · have hlt : 1024 * k + i < n * 1024 := by omega
    simp only [view, start, if_pos hlt]
    rfl

def Fits (n : ℕ) (s : Flat φ) : Prop := ∀ k : Fin n, 1024 * k < n → (s.view k).bufferSize ≤ 1024

theorem fits_next {s : Flat φ} (h : Fits n s) (c : Call φ) :
    Fits n (s.next offsetMinor deviceOf c) := by
  intro k hk
  cases c with
  | read file buf count fault =>
    simp only [next, call_read]
    exact h k hk
  | write file data stop =>
    obtain ⟨-, hview, -, hother⟩ := call_write offsetMinor deviceOf s file data stop
    by_cases hfile : k = deviceOf file
    · subst hfile
      rw [hview, Device.bufferSize_write]
      split
      · next hacc => exact hacc.1.2
      · exact h _ hk
    · exact (hother k hfile).1.trans_le (h k hk)

omit [DecidableEq φ] in
theorem slice_of_inRange {s : Flat φ} (h : Fits n s) {c : Call φ} (hc : InRange deviceOf c) :
    ∀ i ∈ s.bytesTouched offsetMinor deviceOf c,
      1024 * deviceOf c.file ≤ i ∧ i < 1024 * deviceOf c.file + 1024 := by
  intro i hi
  cases c with
  | read file buf count fault =>
    simp only [bytesTouched, index_iminor] at hi
    split at hi
    · simp at hi
    · next hlook =>
      have hbuf : buf = true := by simpa using fun hb => hlook (.inl hb)
      have hle : s.bufferSize (1024 * deviceOf file) ≤ 1024 := h _ (hc hbuf)
      have hmem := List.mem_range'_1.mp hi
      exact ⟨hmem.1, by simp only [Call.file]; omega⟩
  | write file data stop =>
    simp only [bytesTouched, index_iminor] at hi
    simp only [Call.file]
    split at hi
    · simp at hi
    · split at hi
      · have hmem := List.mem_range'_1.mp hi
        omega
      · have hmem := List.mem_range'_1.mp hi
        omega

omit [DecidableEq φ] in
theorem sizesUsed_lt_iff (c : Call φ) :
    (∀ i ∈ sizesUsed offsetMinor deviceOf c, i < n) ↔ InRange deviceOf c := by
  cases c with
  | read file buf count fault =>
    simp only [sizesUsed, index_iminor, InRange, Call.Looks, Call.file]
    cases buf <;> simp
  | write file data stop =>
    simp only [sizesUsed, index_iminor, InRange, Call.Looks, Call.file]
    split
    · next hacc => simp [hacc]
    · next hacc => simp [hacc]

/--
The devices are independent exactly if every call that gets to `buffer_size` is on a device whose
index is below their number.
-/
theorem independent_iff (bytesBehind : ℕ → UInt8) (sizesBehind : ℕ → ℕ) (cs : List (Call φ)) :
    (start n bytesBehind sizesBehind).Independent offsetMinor deviceOf cs ↔
      ∀ c ∈ cs, InRange deviceOf c := by
  constructor
  · exact fun h c hc => (sizesUsed_lt_iff offsetMinor deviceOf c).mp (h.sizes c hc)
  · intro h
    have halong : Along (next offsetMinor deviceOf) (fun _ c => InRange deviceOf c)
        (start n bytesBehind sizesBehind) cs := along_of_forall fun c hc _ => h c hc
    refine ⟨fun c hc => (sizesUsed_lt_iff offsetMinor deviceOf c).mpr (h c hc), ?_, fun k => ?_⟩
    · refine halong.imp (I := Fits n) (fun k hk => ?_)
        (fun s c hs => fits_next offsetMinor deviceOf hs c)
        (fun s c hs hc => slice_of_inRange offsetMinor deviceOf hs hc)
      simp only [view, start, if_pos hk]
      exact Nat.zero_le _
    · refine filter_trace (R := Related deviceOf k) (p := fun c => decide (deviceOf c.file = k))
        ?_ ?_ ?_ (related_start deviceOf k bytesBehind sizesBehind) halong
      · exact fun s t c hst hc hk => result_related hst (of_decide_eq_true hk) hc
      · exact fun s t c hst hc hk => related_next hst (of_decide_eq_true hk) hc
      · exact fun s t c hst hk => related_other hst (of_decide_eq_false hk)

/-- With two devices the second one is looked up behind the end of `buffer_size`. -/
theorem second_device_overruns :
    ¬ (start 2 (fun _ => 0) (fun _ => 0)).Independent 63 (id : Fin 2 → Fin 2)
      [.read 1 true 10 false] := by
  intro h
  exact absurd (h.sizes _ List.mem_cons_self 1024 (by decide)) (by decide)

end Runs

end Flat

end CSEL1.Misc
