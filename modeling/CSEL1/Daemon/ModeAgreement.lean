import CSEL1.Daemon.AutomaticMode
import CSEL1.Daemon.Codec

/-! # Four tests of the mode

The mode is an integer in the daemon, where some tests compare it with 1 and
others with 0, and a Boolean in the driver. The tests agree as long as no client
sets a mode other than 0 and 1.
-/

namespace CSEL1

open CText Transition

namespace System

/-- The last thing the daemon did was to refuse a button. -/
def Refused (s : System) : Prop := s.log.head? = some .refused

instance (s : System) : Decidable s.Refused := inferInstanceAs (Decidable (_ = _))

/--
The answer to a client, the effect of the buttons and the mode line all go by what `getmode` would
report.
-/
structure ModeAgrees (s : System) : Prop where
  setfreq : ∀ freq sendBuffer,
    if getMode .ok s.driver = 1 then
      (s.handle .ok (Word.setfreq.send freq sendBuffer)).2 = some Reply.ok ∧
      (s.handle .ok (Word.setfreq.send freq sendBuffer)).1.driver = { s.driver with freq := freq }
    else
      (s.handle .ok (Word.setfreq.send freq sendBuffer)).2 = some Reply.auto ∧
      (s.handle .ok (Word.setfreq.send freq sendBuffer)).1.driver = s.driver ∧
      (s.handle .ok (Word.setfreq.send freq sendBuffer)).1.log = s.log
  k1 : ∀ gpio, Pressed .ok gpio →
    if getMode .ok s.driver = 1 then
      ¬ (s.k1Handler .ok gpio).Refused ∧
      (s.k1Handler .ok gpio).driver = { s.driver with freq := incFreq s.daemon.curFreq }
    else (s.k1Handler .ok gpio).Refused ∧ (s.k1Handler .ok gpio).driver = s.driver
  k2 : ∀ gpio, Pressed .ok gpio →
    if getMode .ok s.driver = 1 then
      ¬ (s.k2Handler .ok gpio).Refused ∧
      (0 < s.daemon.curFreq →
        (s.k2Handler .ok gpio).driver = { s.driver with freq := decFreq s.daemon.curFreq })
    else (s.k2Handler .ok gpio).Refused ∧ (s.k2Handler .ok gpio).driver = s.driver
  lcd : s.lcd.Shows 3 manualText ↔ getMode .ok s.driver = 1

section States

variable {s : System}

theorem getMode_ok_eq_one_iff (d : Driver) : getMode .ok d = 1 ↔ d.mode = true := by
  rw [getMode_ok]
  cases d.mode <;> decide

theorem setFreq_ok (hfd : s.daemon.freqFd = .attribute) (freq : Int32) :
    (s.setFreq .ok freq).driver = { s.driver with freq := freq } ∧
      (s.setFreq .ok freq).log = .storeFreq s.driver.mode (decimal freq.toInt) :: s.log := by
  rw [setFreq_reaches .ok s freq ⟨hfd, rfl⟩]
  exact ⟨rfl, rfl⟩

/-- The four tests agree exactly if the integer and the line both tell the driver's mode. -/
theorem modeAgrees_iff (hfd : s.daemon.freqFd = .attribute) : s.ModeAgrees ↔
    (s.daemon.curMode = 1 ↔ s.driver.mode = true) ∧
      (s.lcd.Shows 3 manualText ↔ s.driver.mode = true) := by
  simp only [← getMode_ok_eq_one_iff]
  constructor
  · rintro ⟨hset, -, -, hlcd⟩
    refine ⟨?_, hlcd⟩
    have hne : some Reply.auto ≠ some Reply.ok := by decide
    have hreply := hset 0 (Buffer.fill 100 ' ')
    by_cases hmode : s.daemon.curMode = 1
    · rw [handle_setfreq_manual 0 _ s .ok hmode] at hreply
      split at hreply
      · next hget => exact iff_of_true hmode hget
      · exact absurd hreply.1.symm hne
    · rw [handle_setfreq_auto 0 _ s .ok hmode] at hreply
      split at hreply
      · exact absurd hreply.1 hne
      · next hget => exact iff_of_false hmode hget
  · rintro ⟨hmode, hlcd⟩
    refine ⟨fun freq sendBuffer => ?_, fun gpio hp => ?_, fun gpio hp => ?_, hlcd⟩
    · split
      · next hget =>
        rw [handle_setfreq_manual freq _ s .ok (hmode.mpr hget)]
        exact ⟨rfl, (setFreq_ok (s := s.receive _) hfd freq).1⟩
      · next hget =>
        rw [handle_setfreq_auto freq _ s .ok (mt hmode.mp hget)]
        exact ⟨rfl, rfl, rfl⟩
    · rw [k1Handler, buttonHandler_of_pressed .ok s hp, incrementFreq_eq]
      split
      · next hget =>
        obtain ⟨hdriver, hlog⟩ := setFreq_ok (s := s.press .k1) hfd (incFreq s.daemon.curFreq)
        rw [if_pos (show (s.press .k1).daemon.curMode = 1 from hmode.mpr hget)]
        exact ⟨by rw [Refused, press_daemon, hlog]; simp, hdriver⟩
      · next hget =>
        rw [if_neg (show (s.press .k1).daemon.curMode ≠ 1 from mt hmode.mp hget)]
        exact ⟨rfl, rfl⟩
    · rw [k2Handler, buttonHandler_of_pressed .ok s hp, decrementFreq_eq]
      split
      · next hget =>
        obtain ⟨hdriver, hlog⟩ := setFreq_ok (s := s.press .k2) hfd (decFreq s.daemon.curFreq)
        rw [if_pos (show (s.press .k2).daemon.curMode = 1 from hmode.mpr hget)]
        split
        · exact ⟨by rw [Refused, press_daemon, hlog]; simp, fun _ => hdriver⟩
        · next hpos => exact ⟨by rw [Refused, press_log]; simp, fun h => absurd h hpos⟩
      · next hget =>
        rw [if_neg (show (s.press .k2).daemon.curMode ≠ 1 from mt hmode.mp hget)]
        exact ⟨rfl, rfl⟩

structure Tracks (s : System) : Prop where
  guarded : s.control.Guarded
  line : s.control.LineShown
  freqFd_eq : s.daemon.freqFd = .attribute

theorem tracks_step (e : Event) (h : s.Tracks) : (s.step .ok e).Tracks := by
  refine ⟨guarded_step e h.guarded, ?_, freqFd_step h.freqFd_eq e⟩
  rw [control_step]
  exact h.line.apply _

theorem Tracks.modeAgrees_iff (h : s.Tracks) :
    s.ModeAgrees ↔ s.daemon.curMode = 0 ∨ s.daemon.curMode = 1 := by
  obtain ⟨⟨hmode, -⟩, hline, hfd⟩ := h
  have hmode : s.driver.mode = true ↔ s.daemon.curMode ≠ 0 := hmode
  have hlcd : s.lcd.Shows 3 manualText ↔ s.driver.mode = true := by
    have hone : modeText 1 = manualText := if_neg (by decide)
    have hshows : s.lcd.Shows 3 (modeText 1) ↔ (s.daemon.curMode = 0 ↔ (1 : Int32) = 0) :=
      s.lcd.shows_modeText_iff (shows_of_lineShown s hline)
    rw [← hone, hshows, hmode]
    simp
  rw [System.modeAgrees_iff hfd, hmode]
  constructor
  · rintro ⟨hone, -⟩
    by_cases h0 : s.daemon.curMode = 0
    · exact .inl h0
    · exact .inr (hone.mpr h0)
  · intro h01
    refine ⟨?_, hlcd.trans hmode⟩
    rcases h01 with h | h <;> rw [h] <;> decide

end States

section Runs

variable {s : System}

def ModeBinary (s : System) : Event → Prop
  | .message m => ∀ mode, s.Receives m .setmode mode → mode = 0 ∨ mode = 1
  | _ => True

theorem modeBinary_iff (e : Event) :
    s.ModeBinary e ↔ ∀ mode, s.request .ok e = .setMode mode → mode = 0 ∨ mode = 1 := by
  cases e with
  | message m => simp only [ModeBinary, request, messageRequest_eq_setMode_iff]
  | publish opened =>
    simp only [ModeBinary, request]
    split <;> simp
  | callback read => simp [ModeBinary, request]
  | handler h =>
    simp only [ModeBinary, request, true_iff]
    intro mode hr
    split at hr
    · cases h <;> simp only [handlerRequest] at hr <;> (try split at hr) <;>
        simp only [reduceCtorEq, Request.setMode.injEq] at hr
      subst hr
      split <;> simp
    · exact Request.noConfusion hr

theorem curMode_step_iff (e : Event) (h : s.daemon.curMode = 0 ∨ s.daemon.curMode = 1) :
    ((s.step .ok e).daemon.curMode = 0 ∨ (s.step .ok e).daemon.curMode = 1) ↔
      s.ModeBinary e := by
  rw [modeBinary_iff, step_curMode]
  by_cases hr : ∃ mode, s.request .ok e = .setMode mode
  · obtain ⟨mode, hr⟩ := hr
    simp [hr, Control.apply]
  · push Not at hr
    rw [(Control.apply_mode _ _ hr).1]
    exact iff_of_true h fun mode hmode => absurd hmode (hr mode)

theorem tracks_published (d : Driver) (locals : Locals) : (published d locals).Tracks :=
  ⟨guarded_step _ (guarded_start d locals), lineShown_published d locals, rfl⟩

/-- From every start the tests of the mode agree as long as the clients set no mode but 0 and 1. -/
theorem always_modeAgrees_iff (d : Driver) (locals : Locals) (es : List Event) :
    Always (step .ok) ModeAgrees (published d locals) es ↔
      Along (step .ok) ModeBinary (published d locals) es := by
  have hstart := tracks_published d locals
  have hmode : (published d locals).daemon.curMode = if d.mode then 1 else 0 := getMode_ok d
  refine always_iff_along (J := Tracks) (fun s e _ h => tracks_step e h) (fun s e h ht => ?_)
    (hstart.modeAgrees_iff.mpr ?_) hstart
  · rw [(tracks_step e ht).modeAgrees_iff]
    exact curMode_step_iff e (ht.modeAgrees_iff.mp h)
  · rw [hmode]
    cases d.mode <;> simp

/-- After mode 2 has been set, `getmode` reports 1 and a frequency is refused. -/
theorem mode_two_disagrees :
    ¬ Always (step .ok) ModeAgrees (published Driver.loaded default)
      [.message (Word.setmode.send 2 (Buffer.fill 100 ' '))] := by
  intro h
  have hset := h.last.setfreq 5 (Buffer.fill 100 ' ')
  revert hset
  decide

end Runs

end System

end CSEL1
