import CSEL1.Misc.Basic

/-! # The last write to a device

The driver of the device tree keeps one array for each device. Calls on any files, in any
order, leave every device with the last write that it accepted.
-/

namespace CSEL1.Misc

open Memory Transition

structure Devices (δ φ : Type*) where
  device : δ → Device
  ppos : φ → ℕ

namespace Devices

variable {δ φ : Type*} [DecidableEq δ] [DecidableEq φ]

/-- `devm_kcalloc` zeroes the devices, and a file is opened at position 0. -/
def start : Devices δ φ := ⟨fun _ => .zero, fun _ => 0⟩

def call (deviceOf : φ → δ) (s : Devices δ φ) : Call φ → Devices δ φ × Result
  | .read file buf count fault =>
    let r := (s.device (deviceOf file)).read (s.ppos file) buf count fault
    ({ s with ppos := Function.update s.ppos file r.1 }, r.2)
  | .write file data stop =>
    let r := (s.device (deviceOf file)).write (s.ppos file) data stop
    ({ device := Function.update s.device (deviceOf file) r.1
       ppos := Function.update s.ppos file r.2.1 }, r.2.2)

def next (deviceOf : φ → δ) (s : Devices δ φ) (c : Call φ) : Devices δ φ := (s.call deviceOf c).1

def result (deviceOf : φ → δ) (s : Devices δ φ) (c : Call φ) : Result := (s.call deviceOf c).2

def lastAccepted (deviceOf : φ → δ) (k : δ) : List (Call φ) → Option Accepted
  | [] => none
  | c :: cs => (lastAccepted deviceOf k cs).or (if deviceOf c.file = k then c.accepted? else none)

structure LastWriteWins (deviceOf : φ → δ) (cs : List (Call φ)) (s : Devices δ φ) : Prop where
  returned : ∀ file buf count,
    (s.result deviceOf (.read file buf count false)).ret ≠ 0 →
    ∃ w, lastAccepted deviceOf (deviceOf file) cs = some w ∧
      s.result deviceOf (.read file buf count false) = ⟨w.data.length + 1, w.data ++ [0]⟩ ∧
      w.data.length + 1 ≤ 1024
  silent : ∀ file buf count, lastAccepted deviceOf (deviceOf file) cs = none →
    s.result deviceOf (.read file buf count false) = .zero
  refused : ∀ c : Call φ, c.Copied → c.accepted? = none →
    (s.next deviceOf c).device = s.device
  framed : ∀ (c : Call φ) (k : δ), k ≠ deviceOf c.file →
    (s.next deviceOf c).device k = s.device k
  echoed : ∀ file (w : Accepted) count, w.data.length < count →
    (s.result deviceOf (.write file w.data none)).ret = w.data.length ∧
      (s.next deviceOf (.write file w.data none)).result deviceOf (.read file true count false) =
        ⟨w.data.length + 1, w.data ++ [0]⟩
  drained : ∀ file (w : Accepted) count, w.data.length < count →
    ∀ cs' : List (Call φ), (∀ c ∈ cs', c.Copied) →
    lastAccepted deviceOf (deviceOf file) cs' = none →
    ∀ buf' count', (run (next deviceOf) s (.write file w.data none ::
      .read file true count false :: cs')).result deviceOf (.read file buf' count' false) = .zero

section Calls

variable {deviceOf : φ → δ} {s : Devices δ φ} {c : Call φ} {k : δ} {file : φ}

theorem device_next_of_refused (hc : c.Copied) (h : c.accepted? = none) :
    (s.next deviceOf c).device = s.device := by
  cases c with
  | read file buf count fault => rfl
  | write file data stop =>
    simp only [next, call, Device.write_refused (Call.length_of_refused hc h),
      Function.update_eq_self]

theorem device_next_of_ne (h : k ≠ deviceOf c.file) :
    (s.next deviceOf c).device k = s.device k := by
  cases c with
  | read file buf count fault => rfl
  | write file data stop => exact Function.update_of_ne h _ _

theorem ppos_next_of_ne (h : file ≠ c.file) : (s.next deviceOf c).ppos file = s.ppos file := by
  cases c with
  | read reader buf count fault => exact Function.update_of_ne h _ _
  | write writer data stop => exact Function.update_of_ne h _ _

theorem holds_next_of_accepted {w : Accepted} (h : c.accepted? = some w) :
    ((s.next deviceOf c).device (deviceOf c.file)).Holds (some w) := by
  cases c with
  | read file buf count fault => cases h
  | write file data stop =>
    simp only [Call.accepted?] at h
    split at h
    · next hacc =>
      cases h
      simp only [next, call, Call.file, Function.update_self]
      exact Device.holds_write _ _ ⟨data, hacc.1.1, hacc.1.2⟩ hacc.2
    · cases h

theorem holds_next (deviceOf : φ → δ) {a : Option Accepted} (h : (s.device k).Holds a)
    (hc : c.Copied) :
    ((s.next deviceOf c).device k).Holds
      ((if deviceOf c.file = k then c.accepted? else none).or a) := by
  by_cases hk : deviceOf c.file = k
  · subst hk
    rw [if_pos rfl]
    cases hacc : c.accepted? with
    | none =>
      rw [device_next_of_refused hc hacc]
      exact h
    | some w => exact holds_next_of_accepted hacc
  · rw [if_neg hk, device_next_of_ne (Ne.symm hk)]
    exact h

/-- After every run each device holds the last write it has accepted. -/
theorem holds_run (deviceOf : φ → δ) {a : Option Accepted} {cs : List (Call φ)}
    (h : (s.device k).Holds a) (hcs : ∀ c ∈ cs, c.Copied) :
    ((run (next deviceOf) s cs).device k).Holds ((lastAccepted deviceOf k cs).or a) := by
  induction cs generalizing s a with
  | nil => exact h
  | cons c cs ih =>
    have hrest := ih (holds_next deviceOf h (hcs c List.mem_cons_self))
      fun c' hc' => hcs c' (List.mem_cons_of_mem c hc')
    rwa [← Option.or_assoc] at hrest

/-- A file whose position is behind what its device stores. -/
def Drained (deviceOf : φ → δ) (s : Devices δ φ) (file : φ) : Prop :=
  (s.device (deviceOf file)).bufferSize ≤ s.ppos file

theorem Drained.result_read (h : s.Drained deviceOf file) (buf : Bool) (count : ℕ) :
    s.result deviceOf (.read file buf count false) = .zero := by
  simp only [result, call, Device.read_of_nothing (.inr h)]

theorem result_read_of_none (h : (s.device (deviceOf file)).Holds none) (buf : Bool) (count : ℕ) :
    s.result deviceOf (.read file buf count false) = .zero := by
  have hsize : (s.device (deviceOf file)).bufferSize = 0 := h
  exact Drained.result_read (hsize.trans_le (Nat.zero_le _)) buf count

theorem result_read_of_some {w : Accepted} (h : (s.device (deviceOf file)).Holds (some w))
    (buf : Bool) (count : ℕ) : s.result deviceOf (.read file buf count false) = .zero ∨
      s.result deviceOf (.read file buf count false) = ⟨w.data.length + 1, w.data ++ [0]⟩ := by
  obtain ⟨hsize, hslice⟩ := h
  rcases (s.device (deviceOf file)).read_cases (s.ppos file) buf count false with hr | ⟨-, -, -, hr⟩
  · left
    simp only [result, call, hr]
  · right
    simp only [result, call, hr, hsize, hslice]

theorem drained_next (h : s.Drained deviceOf file) (hc : c.Copied)
    (hrefused : (if deviceOf c.file = deviceOf file then c.accepted? else none) = none) :
    (s.next deviceOf c).Drained deviceOf file := by
  have hdevice : (s.next deviceOf c).device (deviceOf file) = s.device (deviceOf file) := by
    by_cases hk : deviceOf c.file = deviceOf file
    · rw [if_pos hk] at hrefused
      rw [device_next_of_refused hc hrefused]
    · exact device_next_of_ne (Ne.symm hk)
  unfold Drained at h ⊢
  rw [hdevice]
  by_cases hf : file = c.file
  · subst hf
    cases c with
    | read file buf count fault =>
      simp only [next, call, Call.file, Function.update_self]
      rcases (s.device (deviceOf file)).read_cases (s.ppos file) buf count fault with
        hr | ⟨-, -, -, hr⟩
      · rwa [hr]
      · rw [hr]
    | write file data stop =>
      rw [if_pos rfl] at hrefused
      simp only [next, call, Call.file, Function.update_self,
        Device.write_refused (Call.length_of_refused hc hrefused)]
      exact h
  · rwa [ppos_next_of_ne hf]

theorem drained_run {cs : List (Call φ)} (h : s.Drained deviceOf file)
    (hcs : ∀ c ∈ cs, c.Copied) (hlast : lastAccepted deviceOf (deviceOf file) cs = none) :
    (run (next deviceOf) s cs).Drained deviceOf file := by
  induction cs generalizing s with
  | nil => exact h
  | cons c cs ih =>
    obtain ⟨hrest, hc⟩ := Option.or_eq_none_iff.mp hlast
    exact ih (drained_next h (hcs c List.mem_cons_self) hc)
      (fun c' hc' => hcs c' (List.mem_cons_of_mem c hc')) hrest

theorem call_echo (deviceOf : φ → δ) (s : Devices δ φ) (file : φ) (w : Accepted) {count : ℕ}
    (hcount : w.data.length < count) :
    (s.next deviceOf (.write file w.data none)).call deviceOf (.read file true count false) =
      ({ device := (s.next deviceOf (.write file w.data none)).device
         ppos := Function.update s.ppos file (w.data.length + 1) },
        ⟨w.data.length + 1, w.data ++ [0]⟩) := by
  have hpos : ((s.device (deviceOf file)).write (s.ppos file) w.data none).2.1 = 0 := by
    rw [Device.write_complete]
  simp only [next, call, Function.update_self, hpos, Device.read_write _ _ w hcount,
    Function.update_idem]

end Calls

section Runs

variable (deviceOf : φ → δ)

/-- Whatever calls were made on the open files, a read returns the last write to its device. -/
theorem last_write_wins {cs : List (Call φ)} (hcs : ∀ c ∈ cs, c.Copied) :
    LastWriteWins deviceOf cs (run (next deviceOf) start cs) := by
  have hholds : ∀ k, ((run (next deviceOf) start cs).device k).Holds
      (lastAccepted deviceOf k cs) := by
    intro k
    have hzero : ((start : Devices δ φ).device k).Holds none := rfl
    have h := holds_run deviceOf hzero hcs
    rwa [Option.or_none] at h
  constructor
  · intro file buf count hret
    have hfile := hholds (deviceOf file)
    cases hlast : lastAccepted deviceOf (deviceOf file) cs with
    | none =>
      rw [hlast] at hfile
      rw [result_read_of_none hfile] at hret
      exact absurd rfl hret
    | some w =>
      rw [hlast] at hfile
      refine ⟨w, rfl, ?_, w.lt⟩
      rcases result_read_of_some hfile buf count with hr | hr
      · rw [hr] at hret
        exact absurd rfl hret
      · exact hr
  · intro file buf count hnone
    exact result_read_of_none (hnone ▸ hholds (deviceOf file)) buf count
  · exact fun c hc h => device_next_of_refused hc h
  · exact fun c k hk => device_next_of_ne hk
  · intro file w count hcount
    refine ⟨?_, congrArg Prod.snd (call_echo deviceOf _ file w hcount)⟩
    simp only [result, call, Device.write_complete]
  · intro file w count hcount cs' hcs' hlast buf' count'
    refine Drained.result_read (drained_run ?_ hcs' hlast) buf' count'
    rw [next, call_echo deviceOf _ file w hcount]
    simp only [Drained, next, call, Function.update_self, Device.write_complete, le_refl]

theorem last_write_wins_second :
    LastWriteWins id [.write true [104, 105] none, .write true [33] none]
      (run (next (id : Bool → Bool)) start
        [.write true [104, 105] none, .write true [33] none]) := by
  refine last_write_wins id fun c hc => ?_
  simp only [List.mem_cons, List.not_mem_nil, or_false] at hc
  rcases hc with rfl | rfl <;> rfl

end Runs


end Devices

end CSEL1.Misc
