import CSEL1.Text.Scan

/-! # The fan driver

The variables of the kernel module, its timer callback and its sysfs attributes.
A store is handed the written text up to its terminator. A show returns the text
it leaves in the buffer, or nothing where it returns -1.
-/

namespace CSEL1

open CText

/--
The state of the driver. `delay` is the number of milliseconds last passed to `msecs_to_jiffies`,
`divByZero` records that `1000 / freq` was evaluated with `freq` zero.
-/
structure Driver where
  mode : Bool
  freq : Int32
  ledTrigger : Bool
  led : Bool
  delay : Int32
  divByZero : Bool
  deriving DecidableEq, Repr

/-- What `thermal_zone_get_temp` gives: a temperature, or a nonzero return code. -/
abbrev ThermalRead := Except Int32 Int32

namespace Driver

def toggleLed (d : Driver) : Driver :=
  { d with led := d.ledTrigger, ledTrigger := !d.ledTrigger }

/-- `mod_timer(&timer, jiffies + msecs_to_jiffies(1000 / freq))`. -/
def modTimer (d : Driver) : Driver :=
  { d with delay := 1000 / d.freq, divByZero := d.divByZero || d.freq == 0 }

def autoFreq (temp : Int32) : Int32 :=
  if temp < 35000 then 2
  else if temp < 40000 then 5
  else if temp < 45000 then 10
  else 20

def timerCallback (d : Driver) (read : ThermalRead) : Driver :=
  let d := d.toggleLed.modTimer
  if d.mode = false then
    match read with
    | .error _ => d
    | .ok temp => { d with freq := autoFreq temp }
  else d

/-- `mode_store`: the new state and the returned count, or -1. The assignment is to a `bool`. -/
def modeStore (d : Driver) (buf : List Char) : Driver × ℤ :=
  match kstrtol buf with
  | .ok modeWr => ({ d with mode := modeWr != 0 }, buf.length)
  | .error _ => (d, -1)

/-- `mode_show`: the low byte of `mode + 48`, the next byte of the integer being the terminator. -/
def modeShow (d : Driver) : List Char := [Char.ofNat (d.mode.toNat + 48)]

/-- `freq_store`: the new state and the returned count, or -1. A `long` is assigned to an `int`. -/
def freqStore (d : Driver) (buf : List Char) : Driver × ℤ :=
  match kstrtol buf with
  | .ok freqWr => ({ d with freq := Int32.ofInt freqWr }, buf.length)
  | .error _ => (d, -1)

def freqShow (d : Driver) : List Char := decimal d.freq.toInt ++ ['\n']

/-- `temp_cpu_show`, which reads the thermal zone and no variable of the driver. -/
def tempCpuShow (read : ThermalRead) : Option (List Char) :=
  match read with
  | .error _ => none
  | .ok temp => some (decimal temp.toInt ++ ['\n'])

/-- `temp_gpu_show`, which toggles the LED once it has read the thermal zone. -/
def tempGpuShow (d : Driver) (read : ThermalRead) : Driver × Option (List Char) :=
  match read with
  | .error _ => (d, none)
  | .ok temp => (d.toggleLed, some (decimal temp.toInt))

/-- The driver once `skeleton_init` has started the timer. -/
def loaded : Driver :=
  modTimer ⟨false, 2, false, false, 0, false⟩

section Stores

variable (d : Driver) (v : Int32)

theorem kstrtol_int32 : kstrtol (decimal v.toInt) = .ok v.toInt := by
  have hl := v.le_toInt
  have hu := v.toInt_lt
  exact kstrtol_decimal (by omega) (by omega)

theorem freqStore_decimal :
    d.freqStore (decimal v.toInt) = ({ d with freq := v }, ((decimal v.toInt).length : ℤ)) := by
  simp [freqStore, kstrtol_int32]

theorem modeStore_decimal :
    d.modeStore (decimal v.toInt) =
      ({ d with mode := v != 0 }, ((decimal v.toInt).length : ℤ)) := by
  have h : (v.toInt != 0) = (v != 0) := by
    rw [Bool.eq_iff_iff]
    simp [← Int32.toInt_inj]
  simp [modeStore, kstrtol_int32, h]

theorem freqStore_refused {buf : List Char} (h : (d.freqStore buf).2 = -1) :
    (d.freqStore buf).1 = d := by
  unfold freqStore at h ⊢
  split
  · next hv => rw [hv] at h; simp at h
  · rfl

theorem modeStore_refused {buf : List Char} (h : (d.modeStore buf).2 = -1) :
    (d.modeStore buf).1 = d := by
  unfold modeStore at h ⊢
  split
  · next hv => rw [hv] at h; simp at h
  · rfl

end Stores

section Timer

variable (d : Driver)

@[simp] theorem toggleLed_mode : d.toggleLed.mode = d.mode := rfl
@[simp] theorem modTimer_mode : d.modTimer.mode = d.mode := rfl

theorem timerCallback_manual (h : d.mode = true) (read : ThermalRead) :
    d.timerCallback read = d.toggleLed.modTimer := by
  simp [timerCallback, h]

/-- In automatic mode a temperature determines the frequency. -/
theorem timerCallback_ok (h : d.mode = false) (temp : Int32) :
    d.timerCallback (.ok temp) = { d.toggleLed.modTimer with freq := autoFreq temp } := by
  simp [timerCallback, h]

theorem timerCallback_error (code : Int32) :
    d.timerCallback (.error code) = d.toggleLed.modTimer := by
  simp only [timerCallback]
  split <;> rfl

@[simp] theorem timerCallback_mode (read : ThermalRead) :
    (d.timerCallback read).mode = d.mode := by
  cases read <;> simp only [timerCallback] <;> split <;> rfl

@[simp] theorem timerCallback_led (read : ThermalRead) :
    (d.timerCallback read).led = d.ledTrigger := by
  cases read <;> simp only [timerCallback] <;> split <;> rfl

@[simp] theorem timerCallback_ledTrigger (read : ThermalRead) :
    (d.timerCallback read).ledTrigger = !d.ledTrigger := by
  cases read <;> simp only [timerCallback] <;> split <;> rfl

@[simp] theorem timerCallback_delay (read : ThermalRead) :
    (d.timerCallback read).delay = 1000 / d.freq := by
  cases read <;> simp only [timerCallback] <;> split <;> rfl

@[simp] theorem timerCallback_divByZero (read : ThermalRead) :
    (d.timerCallback read).divByZero = (d.divByZero || d.freq == 0) := by
  cases read <;> simp only [timerCallback] <;> split <;> rfl

theorem autoFreq_cases (temp : Int32) :
    autoFreq temp = 2 ∨ autoFreq temp = 5 ∨ autoFreq temp = 10 ∨ autoFreq temp = 20 := by
  unfold autoFreq
  split_ifs <;> simp

end Timer

end Driver

end CSEL1
