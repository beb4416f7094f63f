import CSEL1.Daemon.FailedWrites

/-! # Arbitrary messages

Any program can send a message of up to a hundred bytes. The scan copies the first
word whatever its length, and leaves `command` or `value` as they were where the
text has no word or no number.
-/

namespace CSEL1

open CText Transition

/-- The characters that `%s` copies out of a message. -/
def Msg.firstWord (m : Msg) : List Char := (skipSpace (cstring m.bytes)).takeWhile (!isSpace ·)

def Msg.scanned (m : Msg) : Scanned := sscanfWordInt (cstring m.bytes)

theorem Msg.scanned_word (m : Msg) :
    m.scanned.word = if m.firstWord = [] then none else some m.firstWord :=
  sscanfWordInt_word _

namespace System

section Scan

variable (s : System) (m : Msg)

/-- The terminator is stored behind the message, so the scan sees the message alone. -/
theorem cstring_receive :
    cstring (s.receive m).daemon.locals.incomeBuffer.chars = cstring m.bytes :=
  Buffer.cstring_print _ (Nat.lt_succ_of_le m.size)

theorem receive_command :
    (s.receive m).daemon.locals.command = m.scanned.word.getD s.daemon.locals.command :=
  congrArg (fun text => (sscanfWordInt text).word.getD s.daemon.locals.command)
    (cstring_receive s m)

theorem receive_value :
    (s.receive m).daemon.locals.value = m.scanned.number.getD s.daemon.locals.value :=
  congrArg (fun text => (sscanfWordInt text).number.getD s.daemon.locals.value)
    (cstring_receive s m)

theorem receive_overrun : (s.receive m).overrun =
    (s.overrun || !decide (m.firstWord.length < 20)) := by
  have hlen : m.scanned.word.elim 0 List.length = m.firstWord.length := by
    rw [m.scanned_word]
    split
    · next h => rw [h]; rfl
    · rfl
  have h := congrArg (fun text => s.overrun ||
    !decide ((sscanfWordInt text).word.elim 0 List.length < 20)) (cstring_receive s m)
  rw [← hlen]
  exact h

end Scan

end System

/-- The handling of the message writes inside `income_mq_buffer` and `command` only. -/
def Msg.ParsedInside (m : Msg) : Prop :=
  m.bytes.length < 101 ∧ ∀ s : System, s.overrun = false → (s.receive m).overrun = false

/-- The scan stays inside `command` exactly if the first word leaves room for its terminator. -/
theorem Msg.parsedInside_iff (m : Msg) : m.ParsedInside ↔ m.firstWord.length < 20 := by
  constructor
  · rintro ⟨-, h⟩
    have hready := h (System.start .ok Driver.loaded default) rfl
    rw [System.receive_overrun] at hready
    simpa [System.start, System.lcdWriteMode] using hready
  · intro h
    refine ⟨Nat.lt_succ_of_le m.size, fun s hs => ?_⟩
    rw [System.receive_overrun, hs, decide_eq_true h]
    rfl

/-- Twenty letters and their terminator do not fit `command`. -/
theorem Msg.long_word_overruns :
    ¬ Msg.ParsedInside ⟨List.replicate 20 'a' ++ " 1".toList, by decide⟩ := by
  rintro ⟨-, h⟩
  have hover := h (System.start .ok Driver.loaded default) rfl
  revert hover
  decide

end CSEL1
