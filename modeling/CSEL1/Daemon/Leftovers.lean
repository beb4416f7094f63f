import CSEL1.Daemon.Codec
import CSEL1.Daemon.Messages

/-! # What earlier messages leave behind

`command` and `value` keep what an earlier message left in them. Two runs that agree on
everything else handle a message alike, as long as the scan of the message assigns
what the message loop then reads.
-/

namespace CSEL1

open CText Transition

namespace System

/-- The states agree but for the locals of the message loop and for the history. -/
structure Same (s t : System) : Prop where
  driver : t.driver = s.driver
  lcd : t.lcd = s.lcd
  daemon : { t.daemon with locals := s.daemon.locals } = s.daemon

/-- A message is handled alike: the same stores and the same reply, and states that agree again. -/
structure SameEffect (io : Io) (m : Msg) (s t : System) : Prop where
  state : (s.step io (.message m)).Same (t.step io (.message m))
  actions : ∃ actions, (s.step io (.message m)).log = actions ++ s.log ∧
    (t.step io (.message m)).log = actions ++ t.log

/-- What is read after the scan of a message was assigned by it. -/
def StandsAlone (io : Io) (s : System) (m : Msg) : Prop :=
  s.daemon.stopRequest = true ∨ m.bytes = [] ∨
    m.firstWord ≠ [] ∧ (m.scanned.number = none →
      m.firstWord ≠ Command.setmode ∧
      (m.firstWord = Command.setfreq → s.daemon.curMode = 1 → ¬ s.FreqReaches io))

section Same

variable {s t u : System}

theorem Same.symm (h : s.Same t) : t.Same s :=
  ⟨h.driver.symm, h.lcd.symm,
    (congrArg (fun d : Daemon => { d with locals := t.daemon.locals }) h.daemon).symm⟩

theorem Same.trans (h : s.Same t) (h' : t.Same u) : s.Same u :=
  ⟨h'.driver.trans h.driver, h'.lcd.trans h.lcd,
    (congrArg (fun d : Daemon => { d with locals := s.daemon.locals }) h'.daemon).trans h.daemon⟩

theorem Same.field {α : Type} (h : s.Same t) (f : Daemon → α)
    (hf : ∀ d locals, f { d with locals := locals } = f d) : f t.daemon = f s.daemon :=
  (hf t.daemon s.daemon.locals).symm.trans (congrArg f h.daemon)

theorem Same.curMode (h : s.Same t) : t.daemon.curMode = s.daemon.curMode :=
  h.field Daemon.curMode fun _ _ => rfl

theorem Same.stopRequest (h : s.Same t) : t.daemon.stopRequest = s.daemon.stopRequest :=
  h.field Daemon.stopRequest fun _ _ => rfl

theorem Same.freqReaches (h : s.Same t) (io : Io) : t.FreqReaches io ↔ s.FreqReaches io := by
  rw [FreqReaches, FreqReaches, h.field Daemon.freqFd fun _ _ => rfl]

theorem same_receive (s : System) (m : Msg) : s.Same (s.receive m) := ⟨rfl, rfl, rfl⟩

end Same

section Outcomes

variable {s t : System} {io : Io}

structure SameOutcome (s t : System) (x y : System × Option (List Char)) : Prop where
  state : x.1.Same y.1
  reply : y.2 = x.2
  actions : ∃ actions, x.1.log = actions ++ s.log ∧ y.1.log = actions ++ t.log

theorem sameOutcome_reply (h : s.Same t) (r : Option (List Char)) :
    SameOutcome s t (s, r) (t, r) := ⟨h, rfl, [], rfl, rfl⟩

theorem sameOutcome_setFreq (h : s.Same t) (v : Int32) (r : Option (List Char)) :
    SameOutcome s t (s.setFreq io v, r) (t.setFreq io v, r) := by
  by_cases hr : s.FreqReaches io
  · have hr' := (h.freqReaches io).mpr hr
    refine ⟨⟨?_, ?_, ?_⟩, rfl, [.storeFreq s.driver.mode (decimal v.toInt)], ?_, ?_⟩
    · simp only [setFreq_reaches io _ v hr, setFreq_reaches io _ v hr', h.driver]
    · simp only [setFreq_reaches io _ v hr, setFreq_reaches io _ v hr', check_lcd, h.lcd]
    · simp only [setFreq_reaches io _ v hr, setFreq_reaches io _ v hr', check_daemon]
      exact h.daemon
    · rw [setFreq_reaches io s v hr]
      rfl
    · rw [setFreq_reaches io t v hr', h.driver]
      rfl
  · have hr' := mt (h.freqReaches io).mp hr
    rw [setFreq_lost io s v hr, setFreq_lost io t v hr']
    exact ⟨⟨h.driver, h.lcd, h.daemon⟩, rfl, [], rfl, rfl⟩

theorem sameOutcome_setMode (h : s.Same t) (v : Int32) (r : Option (List Char)) :
    SameOutcome s t (((s.assignMode v).setMode io v).lcdWriteMode, r)
      (((t.assignMode v).setMode io v).lcdWriteMode, r) := by
  have hdaemon := congrArg (fun d : Daemon => { d with curMode := v }) h.daemon
  refine ⟨⟨?_, ?_, ?_⟩, rfl, if io.ModeReaches then [.storeMode (decimal v.toInt)] else [], ?_, ?_⟩
  · simp only [lcdWriteMode_driver, setMode_driver, assignMode_driver, h.driver]
  · simp only [lcdWriteMode_lcd, setMode_lcd, setMode_daemon, assignMode_lcd, assignMode_daemon,
      h.lcd]
  · simp only [lcdWriteMode_daemon, setMode_daemon, assignMode_daemon]
    exact hdaemon
  · rw [lcdWriteMode_log, setMode_log]
    split <;> rfl
  · rw [lcdWriteMode_log, setMode_log]
    split <;> rfl

/-- With the same command, and the same value where one is read, the same branch does the same. -/
theorem sameOutcome_dispatch (h : s.Same t)
    (hcommand : t.daemon.locals.command = s.daemon.locals.command)
    (hvalue : t.daemon.locals.value = s.daemon.locals.value ∨
      s.daemon.locals.command ≠ Command.setmode ∧
      (s.daemon.locals.command = Command.setfreq → s.daemon.curMode = 1 → ¬ s.FreqReaches io)) :
    SameOutcome s t (s.dispatch io) (t.dispatch io) := by
  rw [dispatch_eq, dispatch_eq, hcommand]
  cases hw : word? s.daemon.locals.command with
  | none => exact sameOutcome_reply h none
  | some w =>
    have htext := word?_eq_some_iff.mp hw
    cases w with
    | stop =>
      refine ⟨⟨h.driver, h.lcd, ?_⟩, rfl, [], rfl, rfl⟩
      exact congrArg (fun d : Daemon => { d with stopRequest := true }) h.daemon
    | setfreq =>
      simp only [h.curMode]
      split
      · next hmode =>
        rcases hvalue with hv | ⟨-, hlost⟩
        · rw [hv]
          exact sameOutcome_setFreq h _ _
        · have hr := hlost htext hmode
          have hr' := mt (h.freqReaches io).mp hr
          rw [setFreq_lost io s _ hr, setFreq_lost io t _ hr']
          exact ⟨⟨h.driver, h.lcd, h.daemon⟩, rfl, [], rfl, rfl⟩
      · exact sameOutcome_reply h _
    | getfreq =>
      have hfreq : t.daemon.curFreq = s.daemon.curFreq :=
        h.field Daemon.curFreq fun _ _ => rfl
      simp only [hfreq]
      exact sameOutcome_reply h _
    | setmode =>
      rcases hvalue with hv | ⟨hne, -⟩
      · simp only [hv]
        exact sameOutcome_setMode h _ _
      · exact absurd htext hne
    | getmode =>
      simp only [h.driver]
      exact sameOutcome_reply h _
    | gettemp =>
      have htemp : t.daemon.curCpuTemp = s.daemon.curCpuTemp :=
        h.field Daemon.curCpuTemp fun _ _ => rfl
      simp only [htemp]
      exact sameOutcome_reply h _

end Outcomes

section Messages

variable {s t : System} {io : Io} {m : Msg}

theorem step_message (hrun : s.daemon.stopRequest = false) (hm : m.bytes ≠ []) :
    s.step io (.message m) =
      ((s.receive m).dispatch io).1.reply ((s.receive m).dispatch io).2 := by
  simp only [step, handle, hrun, hm, Bool.false_eq_true, if_false]

theorem step_message_ignored (h : s.daemon.stopRequest = true ∨ m.bytes = []) :
    s.step io (.message m) = s := by
  rcases h with h | h
  · exact if_pos h
  · simp only [step, handle, if_pos h, reply, ite_self]

theorem same_reply {x y : System × Option (List Char)}
    (h : SameOutcome (s.receive m) (t.receive m) x y) :
    (x.1.reply x.2).Same (y.1.reply y.2) ∧
      ∃ actions, (x.1.reply x.2).log = actions ++ s.log ∧
        (y.1.reply y.2).log = actions ++ t.log := by
  obtain ⟨hstate, hreply, actions, hlog, hlog'⟩ := h
  rw [hreply]
  cases x.2 with
  | none => exact ⟨hstate, actions, hlog, hlog'⟩
  | some text =>
    exact ⟨⟨hstate.driver, hstate.lcd, hstate.daemon⟩, .reply text :: actions,
      congrArg (List.cons _) hlog, congrArg (List.cons _) hlog'⟩

theorem sameEffect_of_standsAlone (h : s.Same t) (halone : s.StandsAlone io m) :
    SameEffect io m s t := by
  by_cases hignored : s.daemon.stopRequest = true ∨ m.bytes = []
  · have hignored' : t.daemon.stopRequest = true ∨ m.bytes = [] := by rwa [h.stopRequest]
    constructor
    · rwa [step_message_ignored hignored, step_message_ignored hignored']
    · rw [step_message_ignored hignored, step_message_ignored hignored']
      exact ⟨[], rfl, rfl⟩
  · obtain ⟨hrun, hm⟩ := not_or.mp hignored
    have hrun : s.daemon.stopRequest = false := by simpa using hrun
    have hrun' : t.daemon.stopRequest = false := h.stopRequest.trans hrun
    obtain ⟨hword, hnumber⟩ : m.firstWord ≠ [] ∧ _ :=
      (halone.resolve_left (by simp [hrun])).resolve_left hm
    have hcommand : ∀ u : System, (u.receive m).daemon.locals.command = m.firstWord := fun u => by
      rw [receive_command, m.scanned_word, if_neg hword]
      rfl
    have houtcome : SameOutcome (s.receive m) (t.receive m) ((s.receive m).dispatch io)
        ((t.receive m).dispatch io) := by
      refine sameOutcome_dispatch (((same_receive s m).symm.trans h).trans (same_receive t m))
        ((hcommand t).trans (hcommand s).symm) ?_
      rw [hcommand, receive_value, receive_value]
      cases hn : m.scanned.number with
      | some v => exact .inl rfl
      | none => exact .inr (hnumber hn)
    have hreply := same_reply houtcome
    rw [← step_message hrun hm, ← step_message hrun' hm] at hreply
    exact ⟨hreply.1, hreply.2⟩

end Messages

section Probes

variable {s : System} {io : Io} {m : Msg}

def question (v : Int32) : Msg := Word.getfreq.send v (Buffer.fill 100 ' ')

def unknown : Msg := ⟨['x'], by decide⟩

theorem step_question (hrun : s.daemon.stopRequest = false) (v : Int32) :
    s.stepIo (.ok, .message (question v)) =
      (s.receive (question v)).note (.reply (decimal s.daemon.curFreq.toInt)) := by
  simp only [stepIo, step, hrun, question, handle_send, Bool.false_eq_true, if_false]
  rfl

theorem same_question (hrun : s.daemon.stopRequest = false) (v : Int32) :
    s.Same (s.stepIo (.ok, .message (question v))) := by
  rw [step_question hrun]
  exact ⟨rfl, rfl, rfl⟩

theorem question_leaves (hrun : s.daemon.stopRequest = false) (v : Int32) :
    (s.stepIo (.ok, .message (question v))).daemon.locals.command = Word.getfreq.text ∧
      (s.stepIo (.ok, .message (question v))).daemon.locals.value = v := by
  rw [step_question hrun]
  exact ⟨command_send .getfreq v _ s, value_send .getfreq v _ s⟩

theorem command_unknown : (s.receive unknown).daemon.locals.command = ['x'] := by
  have hscan : unknown.scanned = ⟨some ['x'], none⟩ := by decide
  rw [receive_command, hscan]
  rfl

theorem step_unknown (hrun : s.daemon.stopRequest = false) :
    s.stepIo (.ok, .message unknown) = s.receive unknown := by
  have hnone : word? ['x'] = none := by decide
  rw [stepIo, step_message hrun (by decide), dispatch_eq, command_unknown, hnone]
  rfl

theorem command_blank (hblank : m.firstWord = []) :
    (s.receive m).daemon.locals.command = s.daemon.locals.command := by
  rw [receive_command, m.scanned_word, if_pos hblank]
  rfl

theorem log_blank_question (hrun : s.daemon.stopRequest = false) (hm : m.bytes ≠ [])
    (hblank : m.firstWord = []) (hcommand : s.daemon.locals.command = Word.getfreq.text) :
    (s.step io (.message m)).log = .reply (decimal s.daemon.curFreq.toInt) :: s.log := by
  rw [step_message hrun hm, dispatch_eq, command_blank hblank, hcommand, word?_text]
  rfl

theorem log_blank_unknown (hrun : s.daemon.stopRequest = false) (hm : m.bytes ≠ [])
    (hblank : m.firstWord = []) (hcommand : s.daemon.locals.command = ['x']) :
    (s.step io (.message m)).log = s.log := by
  have hnone : word? ['x'] = none := by decide
  rw [step_message hrun hm, dispatch_eq, command_blank hblank, hcommand, hnone]
  rfl

/-- A blank message is answered after a question, and not after an unknown word. -/
theorem blank_not_alone (hrun : s.daemon.stopRequest = false) (hm : m.bytes ≠ [])
    (hblank : m.firstWord = []) : ∃ x, s.Same (s.stepIo x) ∧ ¬ SameEffect io m s (s.stepIo x) := by
  have hsame := same_question hrun 0
  have hsame' : s.Same (s.stepIo (.ok, .message unknown)) := by
    rw [step_unknown hrun]
    exact same_receive s unknown
  by_contra hall
  push Not at hall
  obtain ⟨-, actions, hs, hactions⟩ := hall _ hsame
  obtain ⟨-, actions', hs', hactions'⟩ := hall _ hsame'
  rw [log_blank_question (hsame.stopRequest.trans hrun) hm hblank (question_leaves hrun 0).1]
    at hactions
  rw [log_blank_unknown (hsame'.stopRequest.trans hrun) hm hblank
    (by rw [step_unknown hrun]; exact command_unknown)] at hactions'
  have hlen := congrArg List.length hactions
  have hlen' := congrArg List.length hactions'
  have hlen'' := congrArg List.length (hs.symm.trans hs')
  rw [List.length_cons, List.length_append] at hlen
  rw [List.length_append] at hlen'
  rw [List.length_append, List.length_append] at hlen''
  omega

theorem leftover_not_alone (hrun : s.daemon.stopRequest = false) (hm : m.bytes ≠ [])
    (hnumber : m.scanned.number = none)
    (h : m.firstWord = Command.setmode ∨
      m.firstWord = Command.setfreq ∧ s.daemon.curMode = 1 ∧ s.FreqReaches io) :
    ∃ x, s.Same (s.stepIo x) ∧ ¬ SameEffect io m s (s.stepIo x) := by
  have hsame := same_question hrun
  have hreceives : ∀ (w : Word) (v : Int32), m.firstWord = w.text →
      (s.stepIo (.ok, .message (question v))).Receives m w v := by
    intro w v hw
    refine ⟨(hsame v).stopRequest.trans hrun, hm, ?_, ?_⟩
    · have hne : m.firstWord ≠ [] := by rw [hw]; cases w <;> decide
      rw [receive_command, m.scanned_word, if_neg hne, hw]
      rfl
    · rw [receive_value, hnumber, (question_leaves hrun v).2]
      rfl
  by_contra hall
  push Not at hall
  have hboth := (hall _ (hsame 0)).state.symm.trans (hall _ (hsame 1)).state
  rcases h with hw | ⟨hw, hmode, hreach⟩
  · have hset : ∀ v : Int32, ((s.stepIo (.ok, .message (question v))).step io
        (.message m)).daemon.curMode = v := by
      intro v
      rw [step_curMode, request, messageRequest_of_receives (hreceives .setmode v hw)]
      rfl
    have hmodes := hboth.curMode
    rw [hset 0, hset 1] at hmodes
    exact absurd hmodes (by decide)
  · have hset : ∀ v : Int32, ((s.stepIo (.ok, .message (question v))).step io
        (.message m)).driver.freq = v := fun v =>
      freq_reached (hreceives .setfreq v hw) ((hsame v).curMode.trans hmode)
        (((hsame v).freqReaches io).mpr hreach)
    have hfreqs := congrArg Driver.freq hboth.driver
    rw [hset 0, hset 1] at hfreqs
    exact absurd hfreqs (by decide)

theorem not_alone (h : ¬ s.StandsAlone io m) :
    ∃ x, s.Same (s.stepIo x) ∧ ¬ SameEffect io m s (s.stepIo x) := by
  simp only [StandsAlone, not_or] at h
  obtain ⟨hrun, hm, hscan⟩ := h
  have hrun : s.daemon.stopRequest = false := by simpa using hrun
  by_cases hblank : m.firstWord = []
  · exact blank_not_alone hrun hm hblank
  · have hread : ¬ (m.scanned.number = none → _) := fun hn => hscan ⟨hblank, hn⟩
    obtain ⟨hnumber, hread⟩ := Classical.not_imp.mp hread
    refine leftover_not_alone hrun hm hnumber ?_
    by_cases hw : m.firstWord = Command.setmode
    · exact .inl hw
    · have hfreq : ¬ (m.firstWord = Command.setfreq → _) := fun hf => hread ⟨hw, hf⟩
      obtain ⟨hw, hreach⟩ := Classical.not_imp.mp hfreq
      obtain ⟨hmode, hreach⟩ := Classical.not_imp.mp hreach
      exact .inr ⟨hw, hmode, not_not.mp hreach⟩

end Probes

section Runs

variable (io : Io) (d : Driver) (locals : Locals)

/--
After any run, a message has the same effect as after every other run that ends in the same state
exactly if its own text assigns what is read of it.
-/
theorem sameEffect_iff_standsAlone (xs : List (Io × Event)) (x : Io) (m : Msg) :
    (∀ (io' : Io) (d' : Driver) (locals' : Locals) (ys : List (Io × Event)),
      (run stepIo (start io d locals) xs).Same (run stepIo (start io' d' locals') ys) →
      SameEffect x m (run stepIo (start io d locals) xs) (run stepIo (start io' d' locals') ys)) ↔
      (run stepIo (start io d locals) xs).StandsAlone x m := by
  constructor
  · intro hall
    by_contra halone
    obtain ⟨y, hsame, hdiffer⟩ := not_alone halone
    have heffect := hall io d locals (xs ++ [y])
    rw [run_append] at heffect
    exact hdiffer (heffect hsame)
  · exact fun halone _ _ _ _ hsame => sameEffect_of_standsAlone hsame halone

/-- After `getfreq` a blank message is answered, after an unknown word it is not. -/
theorem blank_repeats_question :
    ¬ ∀ xs ys : List (Io × Event),
      (run stepIo (start .ok Driver.loaded default) xs).Same
        (run stepIo (start .ok Driver.loaded default) ys) →
      SameEffect .ok ⟨[' '], by decide⟩ (run stepIo (start .ok Driver.loaded default) xs)
        (run stepIo (start .ok Driver.loaded default) ys) := by
  intro hall
  have hsame := same_question (s := start .ok Driver.loaded default) rfl 0
  obtain ⟨-, actions, hlog, hlog'⟩ := hall [(.ok, .message (question 0))] [] hsame.symm
  have hlen := congrArg List.length hlog
  have hlen' := congrArg List.length hlog'
  rw [List.length_append] at hlen hlen'
  revert hlen hlen'
  generalize actions.length = k
  intro hlen hlen'
  have hk : 2 = k + 1 := hlen
  have hk' : 0 = k + 0 := hlen'
  omega

end Runs

end System

end CSEL1
