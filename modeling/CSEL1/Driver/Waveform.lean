import CSEL1.Driver.Basic
import CSEL1.Transition.Basic

/-! # The waveform of the LED

Every entry point of the driver, in any order. The level driven next is a hidden
variable of `toggleLed`, which the timer callback calls and so does one of the
attributes: the waveform is the timer's as long as that attribute is not read.
-/

namespace CSEL1

open CText Transition

inductive Access
  | callback (read : ThermalRead)
  | showMode
  | showFreq
  | showTempCpu (read : ThermalRead)
  | showTempGpu (read : ThermalRead)
  | storeMode (buf : List Char)
  | storeFreq (buf : List Char)
  deriving DecidableEq

namespace Access

def isCallback : Access → Bool
  | .callback _ => true
  | _ => false

def isRead : Access → Bool
  | .showMode | .showFreq | .showTempCpu _ | .showTempGpu _ => true
  | _ => false

def isGpuRead : Access → Bool
  | .showTempGpu (.ok _) => true
  | _ => false

end Access

def callbacks (as : List Access) : ℕ := as.countP Access.isCallback

namespace Driver

/-- The state after an access. A read returns its text besides. -/
def access (d : Driver) : Access → Driver
  | .callback read => d.timerCallback read
  | .showMode | .showFreq | .showTempCpu _ => d
  | .showTempGpu read => (d.tempGpuShow read).1
  | .storeMode buf => (d.modeStore buf).1
  | .storeFreq buf => (d.freqStore buf).1

structure SameState (d d' : Driver) : Prop where
  mode : d'.mode = d.mode
  freq : d'.freq = d.freq
  ledTrigger : d'.ledTrigger = d.ledTrigger
  led : d'.led = d.led

/-- The timer alone drives the LED, to opposite levels in turn, and reads change nothing. -/
structure Waveform (d : Driver) (as : List Access) : Prop where
  timer_only : ∀ pre a post, as = pre ++ a :: post → a.isCallback = false →
    (run access d (pre ++ [a])).led = (run access d pre).led
  alternates : ∀ pre read mid read' post,
    as = pre ++ .callback read :: (mid ++ .callback read' :: post) → callbacks mid = 0 →
    (run access d (pre ++ .callback read :: (mid ++ [.callback read']))).led =
      !(run access d (pre ++ [.callback read])).led
  parity : ∀ pre, pre <+: as → 0 < callbacks pre →
    (run access d pre).led = (d.ledTrigger != decide (callbacks pre % 2 = 0))
  reads : ∀ pre a post, as = pre ++ a :: post → a.isRead = true →
    SameState (run access d pre) (run access d (pre ++ [a]))

section Phases

variable {d : Driver} {a : Access} {as : List Access}

@[simp] theorem callbacks_nil : callbacks [] = 0 := rfl

@[simp] theorem callbacks_cons :
    callbacks (a :: as) = callbacks as + if a.isCallback then 1 else 0 := List.countP_cons

@[simp] theorem callbacks_append (as as' : List Access) :
    callbacks (as ++ as') = callbacks as + callbacks as' := List.countP_append

theorem access_callback (h : a.isCallback = true) :
    (d.access a).led = d.ledTrigger ∧ (d.access a).ledTrigger = !d.ledTrigger := by
  cases a with
  | callback read => exact ⟨d.timerCallback_led read, d.timerCallback_ledTrigger read⟩
  | _ => exact absurd h Bool.false_ne_true

theorem access_quiet (h : a.isCallback = false) (hgpu : a.isGpuRead = false) :
    (d.access a).led = d.led ∧ (d.access a).ledTrigger = d.ledTrigger := by
  cases a with
  | callback read => exact absurd h.symm Bool.false_ne_true
  | showTempGpu read =>
    cases read with
    | error code => exact ⟨rfl, rfl⟩
    | ok temp => exact absurd hgpu.symm Bool.false_ne_true
  | storeMode buf =>
    simp only [access, modeStore]
    split <;> exact ⟨rfl, rfl⟩
  | storeFreq buf =>
    simp only [access, freqStore]
    split <;> exact ⟨rfl, rfl⟩
  | _ => exact ⟨rfl, rfl⟩

theorem sameState_read_iff (h : a.isRead = true) :
    SameState d (d.access a) ↔ a.isGpuRead = false := by
  cases a with
  | showTempGpu read =>
    cases read with
    | error code => exact iff_of_true ⟨rfl, rfl, rfl, rfl⟩ rfl
    | ok temp =>
      refine iff_of_false (fun hsame => ?_) Bool.noConfusion
      exact absurd hsame.ledTrigger (Bool.not_ne_self _)
  | showMode | showFreq | showTempCpu _ => exact iff_of_true ⟨rfl, rfl, rfl, rfl⟩ rfl
  | _ => exact absurd h Bool.false_ne_true

theorem run_ledTrigger (h : ∀ a ∈ as, a.isGpuRead = false) :
    (run access d as).ledTrigger = (d.ledTrigger != decide (callbacks as % 2 = 1)) := by
  induction as generalizing d with
  | nil => simp
  | cons a as ih =>
    rw [run_cons, ih fun a' ha' => h a' (List.mem_cons_of_mem a ha'), callbacks_cons]
    by_cases hc : a.isCallback = true
    · rw [(access_callback hc).2, if_pos hc]
      rcases Nat.mod_two_eq_zero_or_one (callbacks as) with h2 | h2
      · have h2' : (callbacks as + 1) % 2 = 1 := by omega
        simp [h2, h2']
      · have h2' : (callbacks as + 1) % 2 = 0 := by omega
        simp [h2, h2']
    · rw [(access_quiet (Bool.not_eq_true _ ▸ hc) (h a List.mem_cons_self)).2, if_neg hc,
        Nat.add_zero]

theorem run_led (h : ∀ a ∈ as, a.isGpuRead = false) (hpos : 0 < callbacks as) :
    (run access d as).led = !(run access d as).ledTrigger := by
  induction as using List.reverseRecOn with
  | nil => exact absurd hpos (Nat.lt_irrefl 0)
  | append_singleton as a ih =>
    have hquiet : ∀ a' ∈ as, a'.isGpuRead = false := fun a' ha' =>
      h a' (List.mem_append_left _ ha')
    rw [run_append, run_cons, run_nil]
    by_cases hc : a.isCallback = true
    · rw [(access_callback hc).1, (access_callback hc).2, Bool.not_not]
    · have hne := access_quiet (d := run access d as) (Bool.not_eq_true _ ▸ hc) (h a (by simp))
      rw [hne.1, hne.2]
      refine ih hquiet ?_
      simpa [hc] using hpos

/--
The LED follows the timer, and reads change nothing, exactly in the runs that do not read the
temperature of the GPU.
-/
theorem waveform_iff (d : Driver) (as : List Access) :
    d.Waveform as ↔ ∀ a ∈ as, a.isGpuRead = false := by
  constructor
  · intro h a ha
    obtain ⟨pre, post, hsplit⟩ := List.append_of_mem ha
    by_cases hread : a.isRead = true
    · have hsame := h.reads pre a post hsplit hread
      rw [run_append] at hsame
      exact (sameState_read_iff hread).mp hsame
    · cases a <;> first | rfl | exact absurd rfl hread
  · intro h
    refine ⟨?_, ?_, ?_, ?_⟩
    · rintro pre a post rfl hc
      rw [run_append]
      exact (access_quiet hc (h a (by simp))).1
    · rintro pre read mid read' post rfl hmid
      have hquiet : ∀ a ∈ mid, a.isGpuRead = false := fun a ha => h a (by simp [ha])
      have htrigger := run_ledTrigger (d := (run access d pre).timerCallback read) hquiet
      rw [hmid] at htrigger
      simp only [run_append, run_cons, run_nil, access, timerCallback_led, htrigger]
      simp
    · rintro pre ⟨post, rfl⟩ hpos
      have hquiet : ∀ a ∈ pre, a.isGpuRead = false := fun a ha =>
        h a (List.mem_append_left _ ha)
      rw [run_led hquiet hpos, run_ledTrigger hquiet]
      rcases Nat.mod_two_eq_zero_or_one (callbacks pre) with h2 | h2 <;> simp [h2]
    · rintro pre a post rfl hread
      rw [run_append]
      exact (sameState_read_iff hread).mpr (h a (by simp))

/-- A read of the temperature of the GPU puts two callbacks on the same level. -/
theorem gpu_read_disturbs : ¬ ∀ as : List Access, loaded.Waveform as := by
  intro hall
  let read : ThermalRead := .ok 42564
  have hwave := hall [.callback read, .showTempGpu read, .callback read]
  have hsame := hwave.alternates [] read [.showTempGpu read] read [] rfl rfl
  exact absurd hsame (by decide)

end Phases

end Driver

end CSEL1
