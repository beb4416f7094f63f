import CSEL1.Daemon.Events

/-! # Mode and frequency control

The part of the system that concerns the mode and the frequency, as a machine of
its own: every event makes at most one request, and the requests are carried out
on six variables. The system simulates this machine step by step, so invariants
about the mode and the frequency are proved once for each kind of request.
-/

namespace CSEL1

open CText Transition

/-- `stores` holds the driver's mode at each store to `freq`, the latest first. -/
structure Control where
  driver : Driver
  curMode : Int32
  curFreq : Int32
  freqFd : FreqFd
  modeLine : List Char
  stores : List Bool
  deriving DecidableEq, Repr

inductive Request
  | idle
  | setFreq (freq : Int32)
  | setMode (mode : Int32)
  | refresh
  | callback (read : ThermalRead)
  | publish (opened : Bool)
  deriving DecidableEq

def Word.toRequest (value : Int32) : Word → Request
  | .setfreq => .setFreq value
  | .setmode => .setMode value
  | _ => .idle

theorem Word.toRequest_inj {w w' : Word} {v v' : Int32} (h : w.toRequest v = w'.toRequest v')
    (hne : w.toRequest v ≠ .idle) : w = w' ∧ v = v' := by
  cases w <;> cases w' <;> simp_all [toRequest]

def Action.freqStore? : Action → Option Bool
  | .storeFreq mode _ => some mode
  | _ => none

namespace Control

def FreqReaches (io : Io) (c : Control) : Prop :=
  c.curMode = 1 ∧ c.freqFd = .attribute ∧ io.pwriteFreq

instance (io : Io) (c : Control) : Decidable (c.FreqReaches io) :=
  inferInstanceAs (Decidable (_ ∧ _))

def apply (io : Io) (c : Control) : Request → Control
  | .idle => c
  | .setFreq freq =>
    if c.FreqReaches io then
      { c with driver := { c.driver with freq := freq }, stores := c.driver.mode :: c.stores }
    else c
  | .setMode mode =>
    { c with
      driver := if io.ModeReaches then { c.driver with mode := mode != 0 } else c.driver
      curMode := mode
      modeLine := modeText mode ++ c.modeLine.drop 12 }
  | .refresh => { c with curFreq := if io.pread then c.driver.freq else 0 }
  | .callback read => { c with driver := c.driver.timerCallback read }
  | .publish opened => { c with freqFd := if opened then .attribute else .failed }

@[simp] theorem apply_idle (io : Io) (c : Control) : c.apply io .idle = c := rfl

def LineShown (c : Control) : Prop := modeText c.curMode <+: c.modeLine

theorem LineShown.apply {io : Io} {c : Control} (h : c.LineShown) (r : Request) :
    (c.apply io r).LineShown := by
  cases r with
  | setMode mode => exact List.prefix_append _ _
  | setFreq freq =>
    simp only [Control.apply]
    split <;> exact h
  | _ => exact h

theorem apply_freqFd (io : Io) (c : Control) {r : Request} (h : ∀ opened, r ≠ .publish opened) :
    (c.apply io r).freqFd = c.freqFd := by
  cases r with
  | publish opened => exact absurd rfl (h opened)
  | setFreq freq =>
    simp only [apply]
    split <;> rfl
  | _ => rfl

theorem apply_mode (io : Io) (c : Control) {r : Request} (h : ∀ mode, r ≠ .setMode mode) :
    (c.apply io r).curMode = c.curMode ∧ (c.apply io r).modeLine = c.modeLine := by
  cases r with
  | setMode mode => exact absurd rfl (h mode)
  | setFreq freq =>
    simp only [apply]
    split <;> exact ⟨rfl, rfl⟩
  | _ => exact ⟨rfl, rfl⟩

end Control

/-- The byte read by a button handler has its lowest bit set. -/
def Pressed (io : Io) (gpio : UInt8) : Prop := (if io.pread then gpio else 255) &&& 1 = 1

instance (io : Io) (gpio : UInt8) : Decidable (Pressed io gpio) :=
  inferInstanceAs (Decidable (_ = _))

namespace System

def control (s : System) : Control where
  driver := s.driver
  curMode := s.daemon.curMode
  curFreq := s.daemon.curFreq
  freqFd := s.daemon.freqFd
  modeLine := s.lcd.line 3
  stores := s.log.filterMap Action.freqStore?

def messageRequest (s : System) (m : Msg) : Request :=
  if s.daemon.stopRequest ∨ m.bytes = [] then .idle
  else
    (word? (s.receive m).daemon.locals.command).elim .idle
      (Word.toRequest (s.receive m).daemon.locals.value)

def handlerRequest (io : Io) (s : System) : Handler → Request
  | .freq => .refresh
  | .k1 gpio => if Pressed io gpio then .setFreq (incFreq s.daemon.curFreq) else .idle
  | .k2 gpio =>
    if Pressed io gpio ∧ 0 < s.daemon.curFreq then .setFreq (decFreq s.daemon.curFreq) else .idle
  | .k3 gpio =>
    if Pressed io gpio then .setMode (if s.daemon.curMode = 0 then 1 else 0) else .idle
  | .cpuTemp _ => .idle
  | .timer => .idle

def request (io : Io) (s : System) : Event → Request
  | .message m => s.messageRequest m
  | .publish opened => if s.daemon.freqFd = .unset then .publish opened else .idle
  | .handler h => if h.Dispatched s then s.handlerRequest io h else .idle
  | .callback read => .callback read

section Simulation

variable (io : Io) (s : System)

theorem control_setFreq (v : Int32) (h : s.daemon.curMode = 1) :
    (s.setFreq io v).control = s.control.apply io (.setFreq v) := by
  by_cases hr : s.FreqReaches io
  · have hc : s.control.FreqReaches io := ⟨h, hr⟩
    rw [setFreq_reaches io s v hr, Control.apply, if_pos hc]
    rfl
  · have hc : ¬ s.control.FreqReaches io := fun hc => hr hc.2
    rw [setFreq_lost io s v hr, Control.apply, if_neg hc]
    rfl

theorem control_setFreq_auto (v : Int32) (h : s.daemon.curMode ≠ 1) :
    s.control.apply io (.setFreq v) = s.control :=
  if_neg fun hr => h hr.1

theorem control_setMode (v : Int32) :
    ((s.assignMode v).setMode io v).lcdWriteMode.control = s.control.apply io (.setMode v) := by
  have hlog : ((s.assignMode v).setMode io v).log.filterMap Action.freqStore? =
      s.log.filterMap Action.freqStore? := by
    rw [setMode_log]
    split <;> rfl
  simp only [control, Control.apply, lcdWriteMode_driver, lcdWriteMode_daemon, lcdWriteMode_lcd,
    lcdWriteMode_log, setMode_driver, setMode_daemon, setMode_lcd, assignMode_driver,
    assignMode_daemon, assignMode_lcd, Lcd.writeMode_line, hlog]

theorem control_reply (r : Option (List Char)) : (s.reply r).control = s.control := by
  cases r <;> rfl

theorem shows_of_lineShown (h : s.control.LineShown) :
    s.lcd.Shows 3 (modeText s.daemon.curMode) := h

theorem control_receive (m : Msg) : (s.receive m).control = s.control := rfl

theorem control_message (m : Msg) :
    (s.step io (.message m)).control = s.control.apply io (s.messageRequest m) := by
  by_cases hstop : s.daemon.stopRequest = true
  · simp [step, messageRequest, hstop, Control.apply]
  by_cases hm : m.bytes = []
  · simp [step, messageRequest, handle, hm, hstop, Control.apply, control_reply]
  simp only [step, handle, messageRequest, hstop, hm, control_reply, dispatch_eq, or_self,
    if_false, Bool.false_eq_true]
  rw [← control_receive s m]
  generalize hw : word? (s.receive m).daemon.locals.command = w
  rcases w with _ | _ | _ | _ | _ | _ | _
  case some.setfreq =>
    dsimp only
    split
    · next h => exact control_setFreq io _ _ h
    · next h => exact (control_setFreq_auto io _ _ h).symm
  case some.setmode => exact control_setMode io _ _
  all_goals rfl

theorem control_press (key : Key) : (s.press key).control = s.control := rfl

theorem control_buttonHandler (key : Key) (gpio : UInt8) (action : System → System) :
    (s.buttonHandler key io gpio action).control =
      if Pressed io gpio then (action (s.press key)).control else s.control := by
  unfold buttonHandler Pressed
  exact apply_ite control _ _ _

theorem buttonHandler_of_pressed {gpio : UInt8} (h : Pressed io gpio) (key : Key)
    (action : System → System) : s.buttonHandler key io gpio action = action (s.press key) :=
  if_pos h

theorem control_incrementFreq :
    (s.incrementFreq io).control = s.control.apply io (.setFreq (incFreq s.daemon.curFreq)) := by
  rw [incrementFreq_eq]
  split
  · next h => exact control_setFreq io s _ h
  · next h => exact (control_setFreq_auto io s _ h).symm

theorem control_decrementFreq : (s.decrementFreq io).control =
    if 0 < s.daemon.curFreq then s.control.apply io (.setFreq (decFreq s.daemon.curFreq))
    else s.control := by
  rw [decrementFreq_eq]
  split_ifs with h hpos hpos
  · exact control_setFreq io s _ h
  · rfl
  · exact (control_setFreq_auto io s _ h).symm
  · rfl

theorem control_handler (h : Handler) :
    (h.run io s).control = s.control.apply io (s.handlerRequest io h) := by
  cases h with
  | freq =>
    simp only [Handler.run, control, handlerRequest, Control.apply, freqHandler_driver,
      freqHandler_log, freqHandler_daemon, freqHandler_lcd, Lcd.writeFreq_line_mode]
  | cpuTemp read =>
    obtain ⟨temp, hd, hl⟩ := cpuTempHandler_stores io read s
    simp only [Handler.run, handlerRequest, Control.apply, control, cpuTempHandler_driver,
      cpuTempHandler_log, hd, hl, Lcd.writeTemp_line_mode]
  | timer => rfl
  | k1 gpio =>
    simp only [Handler.run, k1Handler, control_buttonHandler, control_incrementFreq,
      control_press, press_daemon, handlerRequest]
    split <;> rfl
  | k2 gpio =>
    simp only [Handler.run, k2Handler, control_buttonHandler, control_decrementFreq,
      control_press, press_daemon, handlerRequest]
    by_cases hp : Pressed io gpio <;> by_cases hpos : 0 < s.daemon.curFreq <;>
      simp [hp, hpos]
  | k3 gpio =>
    simp only [Handler.run, k3Handler, control_buttonHandler, handlerRequest]
    split
    · exact control_setMode io _ _
    · rfl

/-- The machine of requests simulates the system. -/
theorem control_step (e : Event) :
    (s.step io e).control = s.control.apply io (s.request io e) := by
  cases e with
  | message m => exact control_message io s m
  | publish opened =>
    simp only [step, request]
    split <;> rfl
  | handler h =>
    simp only [step, request]
    split
    · exact control_handler io s h
    · rfl
  | callback read => rfl

theorem step_driver (e : Event) :
    (s.step io e).driver = (s.control.apply io (s.request io e)).driver :=
  congrArg Control.driver (control_step io s e)

theorem step_curMode (e : Event) :
    (s.step io e).daemon.curMode = (s.control.apply io (s.request io e)).curMode :=
  congrArg Control.curMode (control_step io s e)

theorem step_curFreq (e : Event) :
    (s.step io e).daemon.curFreq = (s.control.apply io (s.request io e)).curFreq :=
  congrArg Control.curFreq (control_step io s e)

theorem step_freqFd (e : Event) :
    (s.step io e).daemon.freqFd = (s.control.apply io (s.request io e)).freqFd :=
  congrArg Control.freqFd (control_step io s e)

theorem step_modeLine (e : Event) :
    (s.step io e).lcd.line 3 = (s.control.apply io (s.request io e)).modeLine :=
  congrArg Control.modeLine (control_step io s e)

end Simulation

section Requests

variable {s : System} {m : Msg} {v : Int32}

theorem messageRequest_of_receives {w : Word} (h : s.Receives m w v) :
    s.messageRequest m = w.toRequest v := by
  obtain ⟨hrun, hne, hcommand, rfl⟩ := h
  have hword : word? (s.receive m).daemon.locals.command = some w :=
    word?_eq_some_iff.mpr hcommand
  unfold messageRequest
  rw [if_neg (by simp [hrun, hne]), hword]
  rfl

theorem exists_receives (h : s.messageRequest m ≠ .idle) :
    ∃ w v, s.Receives m w v ∧ s.messageRequest m = w.toRequest v := by
  suffices hr : ∃ w v, s.Receives m w v by
    obtain ⟨w, v, hr⟩ := hr
    exact ⟨w, v, hr, messageRequest_of_receives hr⟩
  unfold messageRequest at h
  split at h
  · exact absurd rfl h
  · next hrun =>
    obtain ⟨hrun, hne⟩ := not_or.mp hrun
    cases hw : word? (s.receive m).daemon.locals.command with
    | none =>
      rw [hw] at h
      exact absurd rfl h
    | some w => exact ⟨w, _, by simpa using hrun, hne, word?_eq_some_iff.mp hw, rfl⟩

/-- The message that makes a request is received with the word and the value of that request. -/
theorem messageRequest_eq_iff {w : Word} (hw : w.toRequest v ≠ .idle) :
    s.messageRequest m = w.toRequest v ↔ s.Receives m w v := by
  refine ⟨fun h => ?_, messageRequest_of_receives⟩
  obtain ⟨w', v', hr, hreq⟩ := exists_receives (by rwa [h])
  obtain ⟨rfl, rfl⟩ := Word.toRequest_inj (h.symm.trans hreq) hw
  exact hr

theorem messageRequest_eq_setFreq_iff :
    s.messageRequest m = .setFreq v ↔ s.Receives m .setfreq v :=
  messageRequest_eq_iff (w := .setfreq) Request.noConfusion

theorem messageRequest_eq_setMode_iff :
    s.messageRequest m = .setMode v ↔ s.Receives m .setmode v :=
  messageRequest_eq_iff (w := .setmode) Request.noConfusion

theorem messageRequest_cases (s : System) (m : Msg) :
    s.messageRequest m = .idle ∨ (∃ v, s.messageRequest m = .setFreq v) ∨
      ∃ v, s.messageRequest m = .setMode v := by
  by_cases h : s.messageRequest m = .idle
  · exact .inl h
  · obtain ⟨w, v, -, hreq⟩ := exists_receives h
    rw [hreq]
    cases w <;> simp [Word.toRequest]

theorem handlerRequest_cases (io : Io) (s : System) (h : Handler) :
    s.handlerRequest io h = .idle ∨ s.handlerRequest io h = .refresh ∨
      (∃ v, s.handlerRequest io h = .setFreq v) ∨ ∃ v, s.handlerRequest io h = .setMode v := by
  cases h <;> simp only [handlerRequest] <;> (try split) <;> simp

theorem request_eq_callback_iff {io : Io} {e : Event} {read : ThermalRead} :
    s.request io e = .callback read ↔ e = .callback read := by
  cases e with
  | message m => rcases s.messageRequest_cases m with h | ⟨v, h⟩ | ⟨v, h⟩ <;> simp [request, h]
  | publish opened =>
    simp only [request]
    split <;> simp
  | handler hd =>
    simp only [request]
    split
    · rcases s.handlerRequest_cases io hd with h | h | ⟨v, h⟩ | ⟨v, h⟩ <;> simp [h]
    · simp
  | callback read' => simp [request]

theorem request_eq_publish_iff {io : Io} {e : Event} {opened : Bool} :
    s.request io e = .publish opened ↔ e = .publish opened ∧ s.daemon.freqFd = .unset := by
  cases e with
  | message m => rcases s.messageRequest_cases m with h | ⟨v, h⟩ | ⟨v, h⟩ <;> simp [request, h]
  | publish opened' =>
    simp only [request]
    split
    · next h => simp [h]
    · next h => simp [h]
  | handler hd =>
    simp only [request]
    split
    · rcases s.handlerRequest_cases io hd with h | h | ⟨v, h⟩ | ⟨v, h⟩ <;> simp [h]
    · simp
  | callback read => simp [request]

theorem freqFd_step {io : Io} (h : s.daemon.freqFd = .attribute) (e : Event) :
    (s.step io e).daemon.freqFd = .attribute := by
  rw [step_freqFd, Control.apply_freqFd]
  · exact h
  · intro opened hr
    have hunset := (request_eq_publish_iff.mp hr).2
    rw [h] at hunset
    exact FreqFd.noConfusion hunset

end Requests

section Start

variable (d : Driver) (locals : Locals)

theorem control_start (io : Io) : (start io d locals).control =
    { driver := d
      curMode := getMode io d
      curFreq := 0
      freqFd := .unset
      modeLine := modeText (getMode io d) ++ (Lcd.cleared.writeHeader.line 3).drop 12
      stores := [] } := by
  unfold start
  simp only [control, lcdWriteMode_driver, lcdWriteMode_daemon, lcdWriteMode_lcd,
    lcdWriteMode_log, Lcd.writeMode_line, List.filterMap_nil]

theorem lineShown_start (io : Io) : (start io d locals).control.LineShown := by
  rw [control_start]
  exact List.prefix_append _ _

theorem lineShown_published : (published d locals).control.LineShown := by
  rw [published, control_step]
  exact (lineShown_start d locals .ok).apply _

theorem control_ready : (ready locals).control =
    { driver := Driver.loaded
      curMode := 0
      curFreq := 2
      freqFd := .attribute
      modeLine := modeText 0 ++ (Lcd.cleared.writeHeader.line 3).drop 12
      stores := [] } := by
  have hmode : getMode .ok Driver.loaded = 0 := getMode_ok _
  unfold ready published
  simp only [control_step, control_start, hmode]
  rfl

end Start

end System

end CSEL1
