import CSEL1.Client.Basic
import CSEL1.Display.Lines
import CSEL1.Driver.Basic

/-! # The daemon: state and message handling

The daemon together with the driver and the display it works on. Each function is
total: where the program writes or scans past an array, or the driver divides by
zero, the state records it and the remaining statements are taken as if nothing
else had been touched.
-/

namespace CSEL1

open CText

/-- Which of the file operations of one event succeed. -/
structure Io where
  openMode : Bool
  pwriteMode : Bool
  pwriteFreq : Bool
  pread : Bool
  deriving DecidableEq, Repr

def Io.ok : Io := ⟨true, true, true, true⟩

def Io.ModeReaches (io : Io) : Prop := io.openMode ∧ io.pwriteMode

instance (io : Io) : Decidable io.ModeReaches := inferInstanceAs (Decidable (_ ∧ _))

/--
What `file_descriptors.freq_fd` refers to: 0, that is standard input, until `events_thread` has
stored the descriptor it opened; -1 when the open failed; else the attribute.
-/
inductive FreqFd | unset | failed | attribute
  deriving DecidableEq, Repr

inductive Key | k1 | k2 | k3
  deriving DecidableEq, Repr

/-- What the daemon does at its interfaces. A store to `freq` comes with the driver's mode. -/
inductive Action
  | pressed (key : Key)
  | refused
  | storeFreq (mode : Bool) (text : List Char)
  | storeMode (text : List Char)
  | reply (text : List Char)
  deriving DecidableEq, Repr

/-- The variables of the message loop that no statement initialises. -/
structure Locals where
  incomeBuffer : Buffer 101
  command : List Char
  value : Int32
  deriving DecidableEq, Repr

instance : Inhabited Locals := ⟨⟨Buffer.fill 101 '\x00', [], 0⟩⟩

structure Daemon where
  curFreq : Int32
  curMode : Int32
  curCpuTemp : Int32
  stopRequest : Bool
  freqFd : FreqFd
  locals : Locals
  pwrLed : Bool
  timerArmed : Bool
  deriving DecidableEq, Repr

/-- The daemon, the driver and the display. `log` holds the latest action first. -/
structure System where
  driver : Driver
  lcd : Lcd
  daemon : Daemon
  overrun : Bool
  log : List Action

namespace System

def check (inside : Bool) (s : System) : System := { s with overrun := s.overrun || !inside }

def note (a : Action) (s : System) : System := { s with log := a :: s.log }

def FreqReaches (io : Io) (s : System) : Prop := s.daemon.freqFd = .attribute ∧ io.pwriteFreq

instance (io : Io) (s : System) : Decidable (s.FreqReaches io) :=
  inferInstanceAs (Decidable (_ ∧ _))

/-- `set_freq`, which prints into `freq_str[11]`. -/
def setFreq (io : Io) (freq : Int32) (s : System) : System :=
  let freqStr := decimal freq.toInt
  let s := s.check (freqStr.length < 11)
  if s.daemon.freqFd = .attribute ∧ io.pwriteFreq then
    { s with driver := (s.driver.freqStore freqStr).1 }.note (.storeFreq s.driver.mode freqStr)
  else s

/-- `set_mode`, which prints into `mode_str[11]` and opens the attribute for each write. -/
def setMode (io : Io) (mode : Int32) (s : System) : System :=
  let modeStr := decimal mode.toInt
  let s := s.check (modeStr.length < 11)
  if io.openMode ∧ io.pwriteMode then
    { s with driver := (s.driver.modeStore modeStr).1 }.note (.storeMode modeStr)
  else s

/-- `get_mode`, which reads into the zeroed array `mode_str[5]`. -/
def getMode (io : Io) (d : Driver) : Int32 :=
  let modeStr := Buffer.fill 5 '\x00'
  atoi (if io.openMode ∧ io.pread then modeStr.pread d.modeShow else modeStr).chars

def lcdWriteMode (s : System) : System :=
  { s with lcd := s.lcd.writeMode s.daemon.curMode }

def assignMode (mode : Int32) (s : System) : System :=
  { s with daemon := { s.daemon with curMode := mode } }

/-- `mq_receive` into `income_mq_buffer`, the terminator behind the message, and `sscanf`. -/
def receive (m : Msg) (s : System) : System :=
  let buffer := s.daemon.locals.incomeBuffer.print m.bytes (Nat.lt_succ_of_le m.size)
  let scanned := sscanfWordInt (cstring buffer.chars)
  let locals := s.daemon.locals
  { s with
    daemon := { s.daemon with
      locals :=
        { incomeBuffer := buffer
          command := scanned.word.getD locals.command
          value := scanned.number.getD locals.value } }
    }.check (scanned.word.elim 0 List.length < 20)

end System

namespace Command

def stop : List Char := "stop".toList
def setfreq : List Char := "setfreq".toList
def getfreq : List Char := "getfreq".toList
def setmode : List Char := "setmode".toList
def getmode : List Char := "getmode".toList
def gettemp : List Char := "gettemp".toList

end Command

namespace Reply

def ok : List Char := "OK".toList
def auto : List Char := "AUTO".toList

end Reply

namespace System

/-- The branches of the message loop: the new state and the reply to send, if any. -/
def dispatch (io : Io) (s : System) : System × Option (List Char) :=
  let command := s.daemon.locals.command
  let value := s.daemon.locals.value
  if command = Command.stop then
    ({ s with daemon := { s.daemon with stopRequest := true } }, none)
  else if command = Command.setfreq then
    if s.daemon.curMode = 1 then (s.setFreq io value, some Reply.ok)
    else (s, some Reply.auto)
  else if command = Command.getfreq then
    (s, some (decimal s.daemon.curFreq.toInt))
  else if command = Command.setmode then
    let s := s.assignMode value
    ((s.setMode io s.daemon.curMode).lcdWriteMode, none)
  else if command = Command.getmode then
    (s, some (decimal (getMode io s.driver).toInt))
  else if command = Command.gettemp then
    (s, some (decimal s.daemon.curCpuTemp.toInt))
  else (s, none)

/-- One round of the message loop. An empty message is not looked at. -/
def handle (io : Io) (m : Msg) (s : System) : System × Option (List Char) :=
  if m.bytes = [] then (s, none) else (s.receive m).dispatch io

/-- The state when `main` has started the display and read the mode. -/
def start (io : Io) (d : Driver) (locals : Locals) : System :=
  lcdWriteMode
    { driver := d
      lcd := Lcd.cleared.writeHeader
      daemon :=
        { curFreq := 0
          curMode := getMode io d
          curCpuTemp := 0
          stopRequest := false
          freqFd := .unset
          locals := locals
          pwrLed := false
          timerArmed := false }
      overrun := false
      log := [] }

section Writes

variable (io : Io) (s : System) (v : Int32)

@[simp] theorem check_driver (inside : Bool) : (s.check inside).driver = s.driver := rfl
@[simp] theorem check_lcd (inside : Bool) : (s.check inside).lcd = s.lcd := rfl
@[simp] theorem check_daemon (inside : Bool) : (s.check inside).daemon = s.daemon := rfl
@[simp] theorem check_log (inside : Bool) : (s.check inside).log = s.log := rfl
@[simp] theorem assignMode_driver : (s.assignMode v).driver = s.driver := rfl
@[simp] theorem assignMode_lcd : (s.assignMode v).lcd = s.lcd := rfl
@[simp] theorem assignMode_daemon :
    (s.assignMode v).daemon = { s.daemon with curMode := v } := rfl
@[simp] theorem lcdWriteMode_driver : s.lcdWriteMode.driver = s.driver := rfl
@[simp] theorem lcdWriteMode_daemon : s.lcdWriteMode.daemon = s.daemon := rfl
@[simp] theorem lcdWriteMode_log : s.lcdWriteMode.log = s.log := rfl
@[simp] theorem lcdWriteMode_lcd :
    s.lcdWriteMode.lcd = s.lcd.writeMode s.daemon.curMode := rfl

theorem setFreq_reaches (h : s.FreqReaches io) : s.setFreq io v =
    { s.check ((decimal v.toInt).length < 11) with
      driver := { s.driver with freq := v }
      log := .storeFreq s.driver.mode (decimal v.toInt) :: s.log } := by
  have hd := s.driver.freqStore_decimal v
  simp only [FreqReaches] at h
  simp [setFreq, h, hd, note, check]

theorem setFreq_lost (h : ¬ s.FreqReaches io) :
    s.setFreq io v = s.check ((decimal v.toInt).length < 11) := by
  unfold setFreq
  exact if_neg h

theorem setFreq_log : (s.setFreq io v).log =
    if s.FreqReaches io then .storeFreq s.driver.mode (decimal v.toInt) :: s.log else s.log := by
  split
  · next h => rw [setFreq_reaches io s v h]
  · next h => rw [setFreq_lost io s v h]; rfl

@[simp] theorem setMode_daemon : (s.setMode io v).daemon = s.daemon := by
  simp only [setMode]; split <;> rfl

@[simp] theorem setMode_lcd : (s.setMode io v).lcd = s.lcd := by
  simp only [setMode]; split <;> rfl

theorem setMode_reaches (h : io.ModeReaches) : s.setMode io v =
    { s.check ((decimal v.toInt).length < 11) with
      driver := { s.driver with mode := v != 0 }
      log := .storeMode (decimal v.toInt) :: s.log } := by
  have hd := s.driver.modeStore_decimal v
  simp only [Io.ModeReaches] at h
  simp [setMode, h, hd, note, check]

theorem setMode_lost (h : ¬ io.ModeReaches) :
    s.setMode io v = s.check ((decimal v.toInt).length < 11) := by
  unfold setMode
  exact if_neg h

theorem setMode_driver : (s.setMode io v).driver =
    if io.ModeReaches then { s.driver with mode := v != 0 } else s.driver := by
  split
  · next h => rw [setMode_reaches io s v h]
  · next h => rw [setMode_lost io s v h]; rfl

theorem setMode_log : (s.setMode io v).log =
    if io.ModeReaches then .storeMode (decimal v.toInt) :: s.log else s.log := by
  split
  · next h => rw [setMode_reaches io s v h]
  · next h => rw [setMode_lost io s v h]; rfl

theorem getMode_ok (d : Driver) : getMode .ok d = if d.mode then 1 else 0 := by
  have h : ∀ b : Bool, atoi ((Buffer.fill 5 '\x00').pread [Char.ofNat (b.toNat + 48)]).chars =
      if b then 1 else 0 := by decide
  exact h d.mode

end Writes


end System

def word? (command : List Char) : Option Word :=
  [Word.stop, .setfreq, .getfreq, .setmode, .getmode, .gettemp].find? fun w => w.text = command

@[simp] theorem word?_text (w : Word) : word? w.text = some w := by
  cases w <;> decide

theorem word?_eq_some_iff {command : List Char} {w : Word} :
    word? command = some w ↔ command = w.text := by
  constructor
  · intro h
    have htext := List.find?_some h
    exact (of_decide_eq_true htext).symm
  · rintro rfl
    exact word?_text w

namespace System

structure Receives (s : System) (m : Msg) (w : Word) (v : Int32) : Prop where
  running : s.daemon.stopRequest = false
  nonempty : m.bytes ≠ []
  command : (s.receive m).daemon.locals.command = w.text
  value : (s.receive m).daemon.locals.value = v

theorem Receives.unique {s : System} {m : Msg} {w w' : Word} {v v' : Int32}
    (h : s.Receives m w v) (h' : s.Receives m w' v') : w = w' ∧ v = v' := by
  have hw : some w = some w' := by
    rw [← word?_text w, ← word?_text w', ← h.command, ← h'.command]
  exact ⟨Option.some.inj hw, h.value.symm.trans h'.value⟩

theorem dispatch_eq (io : Io) (s : System) : s.dispatch io =
    match word? s.daemon.locals.command with
    | some .stop => ({ s with daemon := { s.daemon with stopRequest := true } }, none)
    | some .setfreq =>
      if s.daemon.curMode = 1 then (s.setFreq io s.daemon.locals.value, some Reply.ok)
      else (s, some Reply.auto)
    | some .getfreq => (s, some (decimal s.daemon.curFreq.toInt))
    | some .setmode =>
      (((s.assignMode s.daemon.locals.value).setMode io s.daemon.locals.value).lcdWriteMode, none)
    | some .getmode => (s, some (decimal (getMode io s.driver).toInt))
    | some .gettemp => (s, some (decimal s.daemon.curCpuTemp.toInt))
    | none => (s, none) := by
  have hword : ∀ w : Word, s.daemon.locals.command = w.text →
      word? s.daemon.locals.command = some w := fun w h => h ▸ word?_text w
  unfold dispatch
  by_cases h₁ : s.daemon.locals.command = Command.stop
  · rw [if_pos h₁, hword .stop h₁]
  by_cases h₂ : s.daemon.locals.command = Command.setfreq
  · rw [if_neg h₁, if_pos h₂, hword .setfreq h₂]
  by_cases h₃ : s.daemon.locals.command = Command.getfreq
  · rw [if_neg h₁, if_neg h₂, if_pos h₃, hword .getfreq h₃]
  by_cases h₄ : s.daemon.locals.command = Command.setmode
  · rw [if_neg h₁, if_neg h₂, if_neg h₃, if_pos h₄, hword .setmode h₄]
    rfl
  by_cases h₅ : s.daemon.locals.command = Command.getmode
  · rw [if_neg h₁, if_neg h₂, if_neg h₃, if_neg h₄, if_pos h₅, hword .getmode h₅]
  by_cases h₆ : s.daemon.locals.command = Command.gettemp
  · rw [if_neg h₁, if_neg h₂, if_neg h₃, if_neg h₄, if_neg h₅, if_pos h₆, hword .gettemp h₆]
  have hnone : word? s.daemon.locals.command = none := by
    apply List.find?_eq_none.mpr
    intro w _ h
    have h : w.text = s.daemon.locals.command := of_decide_eq_true h
    cases w
    · exact h₂ h.symm
    · exact h₃ h.symm
    · exact h₄ h.symm
    · exact h₅ h.symm
    · exact h₆ h.symm
    · exact h₁ h.symm
  rw [if_neg h₁, if_neg h₂, if_neg h₃, if_neg h₄, if_neg h₅, if_neg h₆, hnone]

end System

end CSEL1
