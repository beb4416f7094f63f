import CSEL1.Daemon.Basic

/-! # Replies between daemon and client

A reply is printed by the daemon into an array of 101 characters of which 100 are
sent. The client receives them into an array of 100 characters and stores a
terminator behind the last one received.
-/

namespace CSEL1

open CText

inductive Outcome | ok | auto | number (v : Int32)
  deriving DecidableEq, Repr

def Outcome.text : Outcome → List Char
  | .ok => Reply.ok
  | .auto => Reply.auto
  | .number v => decimal v.toInt

theorem Outcome.length_text (a : Outcome) : a.text.length ≤ 11 := by
  cases a with
  | ok => decide
  | auto => decide
  | number v => exact length_decimal_int32 v

theorem Outcome.notMem_text (a : Outcome) : '\x00' ∉ a.text := by
  cases a with
  | ok => decide
  | auto => decide
  | number v => exact not_mem_decimal (by decide) (by decide) v.toInt

/-- `sprintf(outcome_mq_buffer, ..)` and the message made of its first `MAX_MQ_SIZE` characters. -/
def Outcome.send (a : Outcome) (outcomeBuffer : Buffer 101) : Msg :=
  ⟨(outcomeBuffer.print a.text (by have := a.length_text; omega)).chars.take 100,
    List.length_take_le 100 _⟩

/-- The branches of the client that wait for a reply. -/
inductive Question | setFreq | getFreq | getMode | getTemp
  deriving DecidableEq, Repr

def Args.question? : Args → Option Question
  | .setFreq _ => some .setFreq
  | .getFreq => some .getFreq
  | .getMode => some .getMode
  | .getTemp => some .getTemp
  | _ => none

def Question.label : Question → List Char
  | .setFreq => []
  | .getFreq => "freq set to ".toList
  | .getMode => "mode is set to ".toList
  | .getTemp => "CPU temp is at ".toList

/-- The text printed when the fan is in automatic mode. -/
def autoNotice : List Char := "Fan is in auto mode. Cannot set freq.".toList ++ ['\n']

/-- What a branch prints for the C string received; `value` is left as it was if nothing is read. -/
def Question.print (q : Question) (reply : List Char) (value : Int32) : List Char :=
  match q with
  | .setFreq => if reply = "AUTO".toList then autoNotice else []
  | _ => q.label ++ decimal ((sscanfInt reply).getD value).toInt ++ ['\n']

/-- What a client has received and printed, and whether it stayed inside `recv_buffer`. -/
structure Received where
  recvBuffer : Buffer 100
  inside : Bool
  printed : List Char

/--
`mq_receive` into `recv_buffer[MAX_MQ_SIZE]`, the terminator at `bytes_read` and what is printed. A
terminator stored past the array is taken as lost.
-/
def Question.receive (q : Question) (m : Msg) (recvBuffer : Buffer 100) (value : Int32) :
    Received :=
  let b := recvBuffer.pread m.bytes
  if m.bytes = [] then ⟨b, true, []⟩
  else
    let b := b.store m.bytes.length '\x00'
    { recvBuffer := b
      inside := m.bytes.length < 100 && b.chars.contains '\x00'
      printed := q.print (cstring b.chars) value }

/-- The client decodes an answer inside its array, and prints what the daemon sent. -/
structure Question.Decodes (q : Question) (a : Outcome) (outcomeBuffer : Buffer 101)
    (recvBuffer : Buffer 100) (value : Int32) : Prop where
  inside : (q.receive (a.send outcomeBuffer) recvBuffer value).inside = true
  notice : q = .setFreq →
    ((q.receive (a.send outcomeBuffer) recvBuffer value).printed = autoNotice ↔ a = .auto)
  number : q ≠ .setFreq → ∀ v, a = .number v →
    (q.receive (a.send outcomeBuffer) recvBuffer value).printed =
      q.label ++ decimal v.toInt ++ ['\n']

section Decoding

variable (q : Question) (a : Outcome) (outcomeBuffer : Buffer 101) (recvBuffer : Buffer 100)
  (value : Int32)

theorem Outcome.length_send : (a.send outcomeBuffer).bytes.length = 100 := by
  simp only [Outcome.send, List.length_take, Buffer.length_eq]
  rfl

theorem receive_send : q.receive (a.send outcomeBuffer) recvBuffer value =
    { recvBuffer := ⟨(a.send outcomeBuffer).bytes, a.length_send outcomeBuffer⟩
      inside := false
      printed := q.print a.text value } := by
  have hlen := a.length_send outcomeBuffer
  have hne : (a.send outcomeBuffer).bytes ≠ [] := by
    intro h
    rw [h] at hlen
    exact absurd hlen (by decide)
  have htext : cstring (a.send outcomeBuffer).bytes = a.text :=
    outcomeBuffer.cstring_take_print _ a.notMem_text (by have := a.length_text; omega)
  rw [Question.receive, if_neg hne, Buffer.pread_of_length_eq _ hlen,
    Buffer.store_of_le _ hlen.ge]
  simp only [hlen, htext, lt_self_iff_false, decide_false, Bool.false_and]

theorem Outcome.text_eq_auto_iff : a.text = Reply.auto ↔ a = .auto := by
  cases a with
  | ok => decide
  | auto => exact iff_of_true rfl rfl
  | number v =>
    refine iff_of_false (fun h => ?_) (by simp)
    have hmem : 'A' ∈ decimal v.toInt := by
      rw [show decimal v.toInt = Reply.auto from h]
      decide
    exact not_mem_decimal (by decide) (by decide) _ hmem

theorem print_setFreq_iff : Question.setFreq.print a.text value = autoNotice ↔ a = .auto := by
  have hne : autoNotice ≠ [] := by
    unfold autoNotice
    exact List.append_ne_nil_of_right_ne_nil _ (List.cons_ne_nil _ _)
  rw [← a.text_eq_auto_iff]
  refine ite_eq_left_iff.trans ⟨fun h => ?_, fun h hauto => absurd h hauto⟩
  by_contra hauto
  exact hne (h hauto).symm

theorem print_number {q : Question} (reply : List Char) (hq : q ≠ .setFreq) :
    q.print reply value = q.label ++ decimal ((sscanfInt reply).getD value).toInt ++ ['\n'] := by
  cases q with
  | setFreq => exact absurd rfl hq
  | getFreq => rfl
  | getMode => rfl
  | getTemp => rfl

/--
The terminator is stored past the array for every reply. What the array holds is decoded to what was
sent.
-/
theorem receive_overruns : ¬ q.Decodes a outcomeBuffer recvBuffer value ∧
    (q = .setFreq →
      ((q.receive (a.send outcomeBuffer) recvBuffer value).printed = autoNotice ↔ a = .auto)) ∧
    (q ≠ .setFreq → ∀ v, a = .number v →
      (q.receive (a.send outcomeBuffer) recvBuffer value).printed =
        q.label ++ decimal v.toInt ++ ['\n']) := by
  rw [receive_send]
  refine ⟨fun h => ?_, ?_, ?_⟩
  · have hinside := h.inside
    rw [receive_send] at hinside
    exact Bool.false_ne_true hinside
  · rintro rfl
    exact print_setFreq_iff a value
  · rintro hq v rfl
    have hscan : sscanfInt (decimal v.toInt) = some v := by
      simpa using sscanfInt_decimal v stopsDigits_nil
    rw [print_number _ _ hq, Outcome.text, hscan]
    rfl

/-- The reply `OK` already overruns the client's array. -/
theorem ok_overruns :
    ¬ Question.setFreq.Decodes .ok (Buffer.fill 101 ' ') (Buffer.fill 100 ' ') 0 := by
  intro h
  exact absurd h.inside (by decide)

end Decoding

namespace System

/-- Every reply of the daemon is one of these answers, and the notice is a refused frequency. -/
theorem dispatch_outcome {io : Io} {s : System} {text : List Char}
    (h : (s.dispatch io).2 = some text) : ∃ a : Outcome, text = a.text ∧
      (a = .auto ↔ s.daemon.locals.command = Command.setfreq ∧ s.daemon.curMode ≠ 1) := by
  rw [dispatch_eq] at h
  cases hw : word? s.daemon.locals.command with
  | none => simp [hw] at h
  | some w =>
    have hsetfreq : s.daemon.locals.command = Command.setfreq ↔ w = .setfreq := by
      rw [← Option.some_inj (a := w), ← hw]
      exact (word?_eq_some_iff (w := .setfreq)).symm
    rw [hsetfreq]
    rw [hw] at h
    cases w with
    | setfreq =>
      dsimp only at h
      split at h
      · next hmode => exact ⟨.ok, (Option.some.inj h).symm, by simp [hmode]⟩
      · next hmode => exact ⟨.auto, (Option.some.inj h).symm, by simp [hmode]⟩
    | getfreq => exact ⟨.number _, (Option.some.inj h).symm, by simp⟩
    | getmode => exact ⟨.number _, (Option.some.inj h).symm, by simp⟩
    | gettemp => exact ⟨.number _, (Option.some.inj h).symm, by simp⟩
    | setmode => cases h
    | stop => cases h

end System

end CSEL1
