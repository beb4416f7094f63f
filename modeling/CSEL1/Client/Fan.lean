import CSEL1.Client.Replies
import CSEL1.Daemon.AutomaticMode
import CSEL1.Daemon.Codec
import CSEL1.Daemon.TemperaturePath

/-! # The fan as its users know it

A fan with a mode and a frequency, and what was last read of its frequency and of the
temperature: no queues, texts, arrays and attributes. The daemon and the driver act like
such a fan as long as the file operations succeed.
-/

namespace CSEL1

open CText Transition

/-- `shown` is the frequency and `temp` the temperature that a client is told. -/
structure Fan where
  manual : Bool
  freq : Int32
  shown : Int32
  temp : Int32
  deriving DecidableEq, Repr

/-- What happens to a fan besides the commands of its users. -/
inductive Happening
  | key (k : Key)
  | refreshed
  | measured (temp : Int32)
  | regulated (temp : Int32)
  deriving DecidableEq, Repr

namespace Fan

/-- A command, with its answer if there is one. -/
def ask (fan : Fan) : Args → Fan × Option Outcome
  | .setFreq freq => if fan.manual then ({ fan with freq := freq }, some .ok) else (fan, some .auto)
  | .getFreq => (fan, some (.number fan.shown))
  | .getMode => (fan, some (.number (if fan.manual then 1 else 0)))
  | .setMode mode =>
    (if 0 ≤ mode ∧ mode ≤ 1 then { fan with manual := mode != 0 } else fan, none)
  | .getTemp => (fan, some (.number fan.temp))
  | .stopdaem => (fan, none)
  | .other => (fan, none)

def happen (fan : Fan) : Happening → Fan
  | .key .k1 => if fan.manual then { fan with freq := System.incFreq fan.shown } else fan
  | .key .k2 =>
    if fan.manual ∧ 0 < fan.shown then { fan with freq := System.decFreq fan.shown } else fan
  | .key .k3 => { fan with manual := !fan.manual }
  | .refreshed => { fan with shown := fan.freq }
  | .measured temp => { fan with temp := temp }
  | .regulated temp => if fan.manual then fan else { fan with freq := Driver.autoFreq temp }

end Fan

def Question.says (q : Question) : Outcome → List Char
  | .auto => if q = .setFreq then autoNotice else []
  | .number v => if q = .setFreq then [] else q.label ++ decimal v.toInt ++ ['\n']
  | .ok => []

def Event.happening? : Event → Option Happening
  | .message _ => none
  | .publish _ => none
  | .handler .freq => some .refreshed
  | .handler (.cpuTemp read) => some (.measured (read.toOption.getD 0))
  | .handler .timer => none
  | .handler (.k1 gpio) => if Pressed .ok gpio then some (.key .k1) else none
  | .handler (.k2 gpio) => if Pressed .ok gpio then some (.key .k2) else none
  | .handler (.k3 gpio) => if Pressed .ok gpio then some (.key .k3) else none
  | .callback read => read.toOption.map .regulated

/-- A temperature handed to `cpu_temp_handler` has at most six characters. -/
def Event.Plausible (e : Event) : Prop :=
  ∀ temp, e = .handler (.cpuTemp (.ok temp)) → -100000 < temp.toInt ∧ temp.toInt < 1000000

def Args.request? : Args → Option (Word × Int32)
  | .setFreq freq => some (.setfreq, freq)
  | .getFreq => some (.getfreq, 0)
  | .stopdaem => some (.stop, 0)
  | .getMode => some (.getmode, 0)
  | .setMode mode => if 0 ≤ mode ∧ mode ≤ 1 then some (.setmode, mode) else none
  | .getTemp => some (.gettemp, 0)
  | .other => none

theorem mem_clientMain {args : Args} {sendBuffer : Buffer 100} {m : Msg}
    (h : .mqSend m ∈ clientMain args sendBuffer) :
    ∃ w v, args.request? = some (w, v) ∧ m = w.send v sendBuffer := by
  cases args with
  | setMode mode =>
    simp only [clientMain] at h
    split at h
    · next hmode =>
      simp only [List.mem_singleton, Call.mqSend.injEq] at h
      exact ⟨.setmode, mode, if_pos hmode, h⟩
    · cases h
  | other => cases h
  | stopdaem =>
    simp only [clientMain, List.mem_singleton, Call.mqSend.injEq] at h
    exact ⟨.stop, 0, rfl, h⟩
  | _ =>
    simp only [clientMain, List.mem_cons, Call.mqSend.injEq, List.not_mem_nil, reduceCtorEq,
      or_false] at h
    exact ⟨_, _, rfl, h⟩

structure System.ActsAs (s : System) (fan : Fan) : Prop where
  mode : s.driver.mode = fan.manual
  curMode : s.daemon.curMode = if fan.manual then 1 else 0
  freq : s.driver.freq = fan.freq
  shown : s.daemon.curFreq = fan.shown
  temp : s.daemon.curCpuTemp = fan.temp
  freqFd : s.daemon.freqFd = .attribute

namespace System

variable {s t : System} {fan : Fan}

theorem ActsAs.congr (h : s.ActsAs fan) (hdriver : t.driver = s.driver)
    (hdaemon : ∃ stop locals led armed, t.daemon =
      { s.daemon with
        stopRequest := stop
        locals := locals
        pwrLed := led
        timerArmed := armed }) :
    t.ActsAs fan := by
  obtain ⟨stop, locals, led, armed, hdaemon⟩ := hdaemon
  obtain ⟨hmode, hcurMode, hfreq, hshown, htemp, hfreqFd⟩ := h
  constructor <;> simp only [hdriver, hdaemon] <;> assumption

theorem ActsAs.receive (h : s.ActsAs fan) (m : Msg) : (s.receive m).ActsAs fan :=
  h.congr rfl ⟨_, _, _, _, rfl⟩

theorem ActsAs.press (h : s.ActsAs fan) (key : Key) : (s.press key).ActsAs fan :=
  h.congr rfl ⟨_, _, _, _, rfl⟩

theorem ActsAs.curMode_eq_one_iff (h : s.ActsAs fan) :
    s.daemon.curMode = 1 ↔ fan.manual = true := by
  rw [h.curMode]
  cases fan.manual <;> decide

theorem ActsAs.setFreq (h : s.ActsAs fan) (v : Int32) :
    (s.setFreq .ok v).ActsAs { fan with freq := v } := by
  rw [setFreq_reaches .ok s v ⟨h.freqFd, rfl⟩]
  exact ⟨h.mode, h.curMode, rfl, h.shown, h.temp, h.freqFd⟩

theorem ActsAs.setMode (h : s.ActsAs fan) (manual : Bool) {v : Int32}
    (hv : v = if manual then 1 else 0) :
    (((s.assignMode v).setMode .ok v).lcdWriteMode).ActsAs { fan with manual := manual } := by
  have hreaches : Io.ok.ModeReaches := ⟨rfl, rfl⟩
  rw [setMode_reaches .ok _ v hreaches]
  refine ⟨?_, hv, h.freq, h.shown, h.temp, h.freqFd⟩
  subst hv
  cases manual <;> rfl

/-- The message loop does what the fan is asked, and replies with the text of its answer. -/
theorem ActsAs.handle (h : s.ActsAs fan) {args : Args} {w : Word} {v : Int32}
    (hargs : args.request? = some (w, v)) (sendBuffer : Buffer 100) :
    (s.handle .ok (w.send v sendBuffer)).1.ActsAs (fan.ask args).1 ∧
      (s.handle .ok (w.send v sendBuffer)).2 = (fan.ask args).2.map Outcome.text := by
  have hreceive : ∀ m, (s.receive m).ActsAs fan := h.receive
  rw [handle_send]
  cases args with
  | setFreq freq =>
    cases hargs
    cases hm : fan.manual with
    | true =>
      have hask : fan.ask (.setFreq v) = ({ fan with freq := v }, some .ok) := if_pos hm
      simp only [hask, if_pos (h.curMode_eq_one_iff.mpr hm)]
      exact ⟨(hreceive _).setFreq v, rfl⟩
    | false =>
      have hauto : s.daemon.curMode ≠ 1 := by simp [h.curMode_eq_one_iff, hm]
      simp only [Fan.ask, hm, if_neg hauto, Bool.false_eq_true, if_false]
      exact ⟨hreceive _, rfl⟩
  | getFreq =>
    cases hargs
    exact ⟨hreceive _, by simp only [h.shown, Fan.ask, Option.map_some, Outcome.text]⟩
  | getMode =>
    cases hargs
    exact ⟨hreceive _, by simp only [getMode_ok, h.mode, Fan.ask, Option.map_some, Outcome.text]⟩
  | getTemp =>
    cases hargs
    exact ⟨hreceive _, by simp only [h.temp, Fan.ask, Option.map_some, Outcome.text]⟩
  | setMode mode =>
    simp only [Args.request?] at hargs
    split at hargs
    · next hmode =>
      cases hargs
      simp only [Fan.ask, if_pos hmode]
      have hbit : v = if v != 0 then 1 else 0 := by
        obtain ⟨hl, hu⟩ := hmode
        split <;> grind
      exact ⟨(hreceive _).setMode _ hbit, rfl⟩
    · cases hargs
  | stopdaem =>
    cases hargs
    exact ⟨(hreceive _).congr rfl ⟨_, _, _, _, rfl⟩, rfl⟩
  | other => cases hargs

theorem ActsAs.freqHandler (h : s.ActsAs fan) :
    (s.freqHandler .ok).ActsAs (fan.happen .refreshed) := by
  have hdaemon := freqHandler_daemon .ok s
  constructor <;> simp only [freqHandler_driver, hdaemon, Fan.happen]
  · exact h.mode
  · exact h.curMode
  · exact h.freq
  · exact h.freq
  · exact h.temp
  · exact h.freqFd

theorem ActsAs.cpuTempHandler (h : s.ActsAs fan) {read : ThermalRead}
    (hread : Event.Plausible (.handler (.cpuTemp read))) :
    (s.cpuTempHandler .ok read).ActsAs (fan.happen (.measured (read.toOption.getD 0))) := by
  obtain ⟨temp, hdaemon, -⟩ := cpuTempHandler_stores .ok read s
  have htemp : temp = read.toOption.getD 0 := by
    have hcopied := congrArg Daemon.curCpuTemp hdaemon
    cases read with
    | error code =>
      rw [cpuTempHandler_curCpuTemp] at hcopied
      exact hcopied.symm.trans rfl
    | ok t =>
      obtain ⟨hl, hu⟩ := hread t rfl
      have hlen : (decimal t.toInt).length ≤ 5 + 1 :=
        (length_decimal_le_iff (by decide)).mpr ⟨hl, hu⟩
      rw [cpuTempHandler_curCpuTemp, readTemp_curCpuTemp (by omega)] at hcopied
      exact hcopied.symm
  constructor <;> simp only [cpuTempHandler_driver, hdaemon, Fan.happen]
  · exact h.mode
  · exact h.curMode
  · exact h.freq
  · exact h.shown
  · exact htemp
  · exact h.freqFd

theorem ActsAs.incrementFreq (h : s.ActsAs fan) :
    (s.incrementFreq .ok).ActsAs (fan.happen (.key .k1)) := by
  rw [incrementFreq_eq, Fan.happen]
  simp only [h.curMode_eq_one_iff, h.shown]
  split
  · exact h.setFreq _
  · exact h.congr rfl ⟨_, _, _, _, rfl⟩

theorem ActsAs.decrementFreq (h : s.ActsAs fan) :
    (s.decrementFreq .ok).ActsAs (fan.happen (.key .k2)) := by
  rw [decrementFreq_eq]
  simp only [h.curMode_eq_one_iff, h.shown, Fan.happen]
  by_cases hm : fan.manual = true
  · by_cases hpos : 0 < fan.shown
    · rw [if_pos hm, if_pos hpos, if_pos ⟨hm, hpos⟩]
      exact h.setFreq _
    · rw [if_pos hm, if_neg hpos, if_neg fun hk => hpos hk.2]
      exact h
  · rw [if_neg hm, if_neg fun hk => hm hk.1]
    exact h.congr rfl ⟨_, _, _, _, rfl⟩

theorem ActsAs.toggleMode (h : s.ActsAs fan) :
    (s.toggleMode .ok).ActsAs (fan.happen (.key .k3)) := by
  have hmode : (if s.daemon.curMode = 0 then 1 else 0 : Int32) = if !fan.manual then 1 else 0 := by
    rw [h.curMode]
    cases fan.manual <;> decide
  exact h.setMode (!fan.manual) hmode

theorem ActsAs.buttonHandler (h : s.ActsAs fan) {key : Key} {action : System → System}
    (haction : ∀ t : System, t.ActsAs fan → (action t).ActsAs (fan.happen (.key key)))
    (gpio : UInt8) : (s.buttonHandler key .ok gpio action).ActsAs
      (run Fan.happen fan (if Pressed .ok gpio then some (.key key) else none).toList) := by
  by_cases hp : Pressed .ok gpio
  · rw [buttonHandler_of_pressed .ok s hp, if_pos hp]
    exact haction _ (h.press key)
  · rw [if_neg hp]
    have hskip : s.buttonHandler key .ok gpio action = s := if_neg hp
    rwa [hskip]

theorem ActsAs.withDriver (h : s.ActsAs fan) {d : Driver} (hmode : d.mode = s.driver.mode) :
    ({ s with driver := d } : System).ActsAs { fan with freq := d.freq } :=
  ⟨hmode.trans h.mode, h.curMode, rfl, h.shown, h.temp, h.freqFd⟩

theorem ActsAs.timerCallback (h : s.ActsAs fan) (read : ThermalRead) :
    (s.step .ok (.callback read)).ActsAs
      (run Fan.happen fan (read.toOption.map Happening.regulated).toList) := by
  have hstep := h.withDriver (s.driver.timerCallback_mode read)
  have hsame : { fan with freq := s.driver.freq } = fan := by rw [h.freq]
  cases read with
  | error code =>
    have hfreq := congrArg Driver.freq (s.driver.timerCallback_error code)
    rw [hfreq] at hstep
    exact hsame ▸ hstep
  | ok temp =>
    have hrun : run Fan.happen fan [.regulated temp] = fan.happen (.regulated temp) := rfl
    refine hrun ▸ ?_
    by_cases hm : fan.manual = true
    · have hmanual : s.driver.mode = true := h.mode.trans hm
      have hfreq := congrArg Driver.freq (s.driver.timerCallback_manual hmanual (.ok temp))
      rw [Fan.happen, if_pos hm]
      rw [hfreq] at hstep
      exact hsame ▸ hstep
    · have hauto : s.driver.mode = false := h.mode.trans (Bool.eq_false_of_not_eq_true hm)
      have hfreq := congrArg Driver.freq (s.driver.timerCallback_ok hauto temp)
      rw [Fan.happen, if_neg hm]
      rw [hfreq] at hstep
      exact hstep

/-- Every event but a message is for the system what it is for the fan. -/
theorem ActsAs.step (h : s.ActsAs fan) {e : Event} (he : e.Plausible) (hm : ∀ m, e ≠ .message m) :
    (s.step .ok e).ActsAs (run Fan.happen fan e.happening?.toList) := by
  cases e with
  | message m => exact absurd rfl (hm m)
  | publish opened =>
    have hset : s.daemon.freqFd ≠ .unset := by
      rw [h.freqFd]
      decide
    rw [System.step, if_neg hset]
    exact h
  | callback read => exact h.timerCallback read
  | handler handler =>
    have hdispatched : handler.Dispatched s := ⟨by rw [h.freqFd]; decide, fun _ => h.freqFd⟩
    rw [System.step, if_pos hdispatched]
    cases handler with
    | freq => exact h.freqHandler
    | cpuTemp read => exact h.cpuTempHandler he
    | timer => exact h.congr rfl ⟨_, _, _, _, rfl⟩
    | k1 gpio => exact h.buttonHandler (fun _ ht => ht.incrementFreq) gpio
    | k2 gpio => exact h.buttonHandler (fun _ ht => ht.decrementFreq) gpio
    | k3 gpio => exact h.buttonHandler (fun _ ht => ht.toggleMode) gpio

theorem actsAs_published (d : Driver) (locals : Locals) :
    (published d locals).ActsAs ⟨d.mode, d.freq, 0, 0⟩ :=
  ⟨rfl, getMode_ok d, rfl, rfl, rfl, rfl⟩

end System

end CSEL1
