import CSEL1.Daemon.Basic
import CSEL1.Transition.Basic

/-! # The daemon: handlers and events

The handlers of the events thread, and the step that one event makes. Events of
both threads and callbacks of the driver come in any order, each handled to
completion before the next. Before the events thread has published its
descriptors it dispatches nothing.
-/

namespace CSEL1

open CText Transition

namespace System

/-- `lcd_write_freq`, which prints into `freq_str[15]`. -/
def lcdWriteFreq (s : System) : System :=
  let s := s.check ((freqText s.daemon.curFreq).length < 15)
  { s with lcd := s.lcd.writeFreq s.daemon.curFreq }

/-- `lcd_write_temp`, which prints into `cpu_temp_str[15]`. -/
def lcdWriteTemp (s : System) : System :=
  let s := s.check ((tempText s.daemon.curCpuTemp).length < 15)
  { s with lcd := s.lcd.writeTemp s.daemon.curCpuTemp }

-- `atoi` stays inside the array if some character is left behind the number
def freqHandler (io : Io) (s : System) : System :=
  let buffer := Buffer.fill 11 '\x00'
  let buffer := if io.pread then buffer.pread s.driver.freqShow else buffer
  let s := s.check (afterNumeral buffer.chars ≠ [])
  lcdWriteFreq { s with daemon := { s.daemon with curFreq := atoi buffer.chars } }

def cpuTempHandler (io : Io) (read : ThermalRead) (s : System) : System :=
  let buffer := Buffer.fill 7 '\x00'
  let buffer := if io.pread then (Driver.tempCpuShow read).elim buffer buffer.pread else buffer
  let s := s.check (afterNumeral buffer.chars ≠ [])
  lcdWriteTemp { s with daemon := { s.daemon with curCpuTemp := atoi buffer.chars } }

def setTimer (s : System) : System := { s with daemon := { s.daemon with timerArmed := true } }

def resetTimer (s : System) : System := { s with daemon := { s.daemon with timerArmed := false } }

def writePwrLed (on : Bool) (s : System) : System :=
  { s with daemon := { s.daemon with pwrLed := on } }

def timerHandler (s : System) : System := s.resetTimer.writePwrLed false

def incrementFreq (io : Io) (s : System) : System :=
  let curFreq := s.daemon.curFreq
  if s.daemon.curMode = 1 then
    if curFreq < 10 then s.setFreq io (curFreq + 1)
    else if curFreq < 30 then s.setFreq io (curFreq + 5)
    else if curFreq < 100 then s.setFreq io (curFreq + 10)
    else s.setFreq io (curFreq + 50)
  else s.note .refused

def decrementFreq (io : Io) (s : System) : System :=
  let curFreq := s.daemon.curFreq
  if s.daemon.curMode = 1 then
    if 100 < curFreq then s.setFreq io (curFreq - 50)
    else if 30 < curFreq then s.setFreq io (curFreq - 10)
    else if 10 < curFreq then s.setFreq io (curFreq - 5)
    else if 0 < curFreq then s.setFreq io (curFreq - 1)
    else s
  else s.note .refused

def toggleMode (io : Io) (s : System) : System :=
  let s := s.assignMode (if s.daemon.curMode = 0 then 1 else 0)
  (s.setMode io s.daemon.curMode).lcdWriteMode

/-- What every press does: it is reported, the timer is set and the power LED turned on. -/
def press (key : Key) (s : System) : System := (s.note (.pressed key)).setTimer.writePwrLed true

/--
The common part of the three button handlers. The byte read replaces the initial `-1`, and a press
is told by its lowest bit.
-/
def buttonHandler (key : Key) (io : Io) (gpio : UInt8) (action : System → System)
    (s : System) : System :=
  let value := if io.pread then gpio else 255
  if value &&& 1 = 1 then action (s.press key) else s

def k1Handler (io : Io) (gpio : UInt8) (s : System) : System :=
  s.buttonHandler .k1 io gpio (incrementFreq io)

def k2Handler (io : Io) (gpio : UInt8) (s : System) : System :=
  s.buttonHandler .k2 io gpio (decrementFreq io)

def k3Handler (io : Io) (gpio : UInt8) (s : System) : System :=
  s.buttonHandler .k3 io gpio (toggleMode io)

end System

/-- The handlers the events thread dispatches to, with what there is to read. -/
inductive Handler
  | freq
  | cpuTemp (read : ThermalRead)
  | timer
  | k1 (gpio : UInt8)
  | k2 (gpio : UInt8)
  | k3 (gpio : UInt8)
  deriving DecidableEq

def Handler.run (io : Io) (s : System) : Handler → System
  | .freq => s.freqHandler io
  | .cpuTemp read => s.cpuTempHandler io read
  | .timer => s.timerHandler
  | .k1 gpio => s.k1Handler io gpio
  | .k2 gpio => s.k2Handler io gpio
  | .k3 gpio => s.k3Handler io gpio

/-- Nothing is dispatched before the descriptors are published, nor for one whose `open` failed. -/
def Handler.Dispatched (s : System) (h : Handler) : Prop :=
  s.daemon.freqFd ≠ .unset ∧ (h = .freq → s.daemon.freqFd = .attribute)

instance (s : System) (h : Handler) : Decidable (h.Dispatched s) :=
  inferInstanceAs (Decidable (_ ∧ _))

/-- What happens next: in the main thread, in the events thread or in the driver. -/
inductive Event
  | message (m : Msg)
  | publish (opened : Bool)
  | handler (h : Handler)
  | callback (read : ThermalRead)
  deriving DecidableEq

namespace System

def reply (s : System) : Option (List Char) → System
  | none => s
  | some text => s.note (.reply text)

/-- One event handled to completion. The message loop has ended once a stop was requested. -/
def step (io : Io) (s : System) : Event → System
  | .message m => if s.daemon.stopRequest then s else (s.handle io m).1.reply (s.handle io m).2
  | .publish opened =>
    if s.daemon.freqFd = .unset then
      { s with daemon := { s.daemon with freqFd := if opened then .attribute else .failed } }
    else s
  | .handler h => if h.Dispatched s then h.run io s else s
  | .callback read => { s with driver := s.driver.timerCallback read }

/-- The daemon has started and its events thread has published the descriptors. -/
def published (d : Driver) (locals : Locals) : System :=
  (start .ok d locals).step .ok (.publish true)

/-- The daemon has started beside the loaded driver and knows its mode and its frequency. -/
def ready (locals : Locals) : System :=
  (published Driver.loaded locals).step .ok (.handler .freq)

section Frames

variable (io : Io) (read : ThermalRead) (key : Key) (s : System)

@[simp] theorem lcdWriteFreq_driver : s.lcdWriteFreq.driver = s.driver := rfl
@[simp] theorem lcdWriteFreq_daemon : s.lcdWriteFreq.daemon = s.daemon := rfl
@[simp] theorem lcdWriteFreq_log : s.lcdWriteFreq.log = s.log := rfl
@[simp] theorem lcdWriteTemp_driver : s.lcdWriteTemp.driver = s.driver := rfl
@[simp] theorem lcdWriteTemp_daemon : s.lcdWriteTemp.daemon = s.daemon := rfl
@[simp] theorem lcdWriteTemp_log : s.lcdWriteTemp.log = s.log := rfl
@[simp] theorem lcdWriteTemp_lcd :
    s.lcdWriteTemp.lcd = s.lcd.writeTemp s.daemon.curCpuTemp := by
  simp only [lcdWriteTemp, check_lcd, check_daemon]
@[simp] theorem freqHandler_driver : (s.freqHandler io).driver = s.driver := by
  simp only [freqHandler, lcdWriteFreq_driver, check_driver]
@[simp] theorem freqHandler_log : (s.freqHandler io).log = s.log := by
  simp only [freqHandler, lcdWriteFreq_log, check_log]
@[simp] theorem cpuTempHandler_driver : (s.cpuTempHandler io read).driver = s.driver := by
  simp only [cpuTempHandler, lcdWriteTemp_driver, check_driver]
@[simp] theorem cpuTempHandler_log : (s.cpuTempHandler io read).log = s.log := by
  simp only [cpuTempHandler, lcdWriteTemp_log, check_log]
@[simp] theorem press_log : (s.press key).log = .pressed key :: s.log := rfl
@[simp] theorem press_daemon :
    (s.press key).daemon = { s.daemon with timerArmed := true, pwrLed := true } := rfl

theorem freqHandler_daemon : (s.freqHandler io).daemon =
    { s.daemon with curFreq := if io.pread then s.driver.freq else 0 } := by
  simp only [freqHandler, lcdWriteFreq_daemon, check_daemon]
  split
  · rw [Driver.freqShow, Buffer.atoi_pread_decimal _ (length_decimal_int32 _)]
  · rfl

theorem freqHandler_lcd : (s.freqHandler io).lcd =
    s.lcd.writeFreq (if io.pread then s.driver.freq else 0) := by
  have h := congrArg Daemon.curFreq (freqHandler_daemon io s)
  exact congrArg s.lcd.writeFreq h

theorem cpuTempHandler_stores : ∃ temp : Int32,
    (s.cpuTempHandler io read).daemon = { s.daemon with curCpuTemp := temp } ∧
      (s.cpuTempHandler io read).lcd = s.lcd.writeTemp temp := by
  refine ⟨(s.cpuTempHandler io read).daemon.curCpuTemp, ?_, ?_⟩
  · simp only [cpuTempHandler, lcdWriteTemp_daemon, check_daemon]
  · simp only [cpuTempHandler, lcdWriteTemp_lcd, lcdWriteTemp_daemon, check_lcd]

end Frames

section Buttons

variable (io : Io) (s : System)

def incFreq (curFreq : Int32) : Int32 :=
  if curFreq < 10 then curFreq + 1
  else if curFreq < 30 then curFreq + 5
  else if curFreq < 100 then curFreq + 10
  else curFreq + 50

def decFreq (curFreq : Int32) : Int32 :=
  if 100 < curFreq then curFreq - 50
  else if 30 < curFreq then curFreq - 10
  else if 10 < curFreq then curFreq - 5
  else curFreq - 1

theorem incrementFreq_eq : s.incrementFreq io =
    if s.daemon.curMode = 1 then s.setFreq io (incFreq s.daemon.curFreq)
    else s.note .refused := by
  simp only [incrementFreq, incFreq]
  split_ifs <;> rfl

theorem decrementFreq_eq : s.decrementFreq io =
    if s.daemon.curMode = 1 then
      if 0 < s.daemon.curFreq then s.setFreq io (decFreq s.daemon.curFreq) else s
    else s.note .refused := by
  simp only [decrementFreq, decFreq]
  split_ifs <;> first | rfl | grind

end Buttons

end System

end CSEL1
