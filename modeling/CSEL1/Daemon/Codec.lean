import CSEL1.Daemon.Basic

/-! # Requests between client and daemon

A request is printed by the client into an array whose other characters are left
as they were, sent as a whole, and scanned by the daemon. What the daemon scans
is the word and the number, whatever the other characters.
-/

namespace CSEL1

open CText

namespace System

variable (w : Word) (v : Int32) (sendBuffer : Buffer 100) (s : System)

theorem length_send : (w.send v sendBuffer).bytes.length = 100 := Buffer.length_eq _

theorem send_ne_nil : (w.send v sendBuffer).bytes ≠ [] := by
  intro h
  have hlen := length_send w v sendBuffer
  rw [h] at hlen
  exact absurd hlen (by decide)

theorem cstring_receive_send :
    cstring (s.receive (w.send v sendBuffer)).daemon.locals.incomeBuffer.chars = w.request v := by
  have hreq : (w.request v).length < 100 := by
    have := w.length_request v
    omega
  have hmsg := Nat.lt_succ_of_le (w.send v sendBuffer).size
  calc cstring (s.receive (w.send v sendBuffer)).daemon.locals.incomeBuffer.chars
      = cstring (w.send v sendBuffer).bytes := Buffer.cstring_print _ hmsg
    _ = w.request v := Buffer.cstring_print_of_notMem sendBuffer hreq (w.notMem_request v)

theorem sscanfWordInt_request : sscanfWordInt (w.request v) = ⟨some w.text, some v⟩ := by
  have h := sscanfWordInt_decimal w.isWord v stopsDigits_nil
  rwa [List.append_nil] at h

theorem scanned_send :
    sscanfWordInt (cstring (s.receive (w.send v sendBuffer)).daemon.locals.incomeBuffer.chars) =
      ⟨some w.text, some v⟩ := by
  rw [cstring_receive_send, sscanfWordInt_request]

theorem command_send :
    (s.receive (w.send v sendBuffer)).daemon.locals.command = w.text :=
  congrArg (fun scanned => scanned.word.getD s.daemon.locals.command)
    (scanned_send w v sendBuffer s)

theorem value_send : (s.receive (w.send v sendBuffer)).daemon.locals.value = v :=
  congrArg (fun scanned => scanned.number.getD s.daemon.locals.value)
    (scanned_send w v sendBuffer s)

theorem overrun_send : (s.receive (w.send v sendBuffer)).overrun = s.overrun := by
  have h := congrArg (fun scanned => s.overrun ||
    !decide (scanned.word.elim 0 List.length < 20)) (scanned_send w v sendBuffer s)
  have hlen : w.text.length < 20 := by
    have := w.length_text
    omega
  refine h.trans ?_
  simp [hlen]

/-- What the message loop does for each request of the client. -/
theorem handle_send (io : Io) : s.handle io (w.send v sendBuffer) =
    match w with
    | .stop =>
      ({ s.receive (w.send v sendBuffer) with
          daemon := { (s.receive (w.send v sendBuffer)).daemon with stopRequest := true } }, none)
    | .setfreq =>
      if s.daemon.curMode = 1 then
        ((s.receive (w.send v sendBuffer)).setFreq io v, some Reply.ok)
      else (s.receive (w.send v sendBuffer), some Reply.auto)
    | .getfreq => (s.receive (w.send v sendBuffer), some (decimal s.daemon.curFreq.toInt))
    | .setmode =>
      ((((s.receive (w.send v sendBuffer)).assignMode v).setMode io v).lcdWriteMode, none)
    | .getmode => (s.receive (w.send v sendBuffer), some (decimal (getMode io s.driver).toInt))
    | .gettemp => (s.receive (w.send v sendBuffer), some (decimal s.daemon.curCpuTemp.toInt)) := by
  rw [handle, if_neg (send_ne_nil w v sendBuffer), dispatch_eq, command_send, word?_text,
    value_send]
  cases w <;> rfl

theorem handle_setfreq_manual (io : Io) (h : s.daemon.curMode = 1) :
    s.handle io (Word.setfreq.send v sendBuffer) =
      ((s.receive (Word.setfreq.send v sendBuffer)).setFreq io v, some Reply.ok) := by
  rw [handle_send]
  exact if_pos h

theorem handle_setfreq_auto (io : Io) (h : s.daemon.curMode ≠ 1) :
    s.handle io (Word.setfreq.send v sendBuffer) =
      (s.receive (Word.setfreq.send v sendBuffer), some Reply.auto) := by
  rw [handle_send]
  exact if_neg h

/--
The daemon decodes each request of the client to its word and its value, inside its arrays, whatever
the rest of the client's array holds.
-/
theorem decode_send :
    (w.send v sendBuffer).bytes.length < 101 ∧
      (cstring (s.receive (w.send v sendBuffer)).daemon.locals.incomeBuffer.chars).length < 101 ∧
      (s.receive (w.send v sendBuffer)).overrun = s.overrun ∧
      (s.receive (w.send v sendBuffer)).daemon.locals.command = w.text ∧
      (s.receive (w.send v sendBuffer)).daemon.locals.value = v := by
  refine ⟨?_, ?_, overrun_send w v sendBuffer s, command_send w v sendBuffer s,
    value_send w v sendBuffer s⟩
  · rw [length_send]
    decide
  · rw [cstring_receive_send]
    have := w.length_request v
    omega

end System

end CSEL1
