import CSEL1.Text.Buffer

/-! # The client program

A client prints one request into its send buffer, sends the whole buffer and, for
the requests that are answered, waits for one reply.
-/

namespace CSEL1

open CText

/-- A message of a queue: at most `MAX_MQ_SIZE` characters. -/
structure Msg where
  bytes : List Char
  size : bytes.length ≤ 100
  deriving DecidableEq, Repr

inductive Word | setfreq | getfreq | setmode | getmode | gettemp | stop
  deriving DecidableEq, Repr

def Word.text : Word → List Char
  | .setfreq => "setfreq".toList
  | .getfreq => "getfreq".toList
  | .setmode => "setmode".toList
  | .getmode => "getmode".toList
  | .gettemp => "gettemp".toList
  | .stop => "stop".toList

def Word.request (w : Word) (value : Int32) : List Char := w.text ++ ' ' :: decimal value.toInt

theorem Word.isWord (w : Word) : IsWord w.text := by
  cases w <;> decide

theorem Word.length_text (w : Word) : w.text.length ≤ 7 := by
  cases w <;> decide

theorem Word.length_request (w : Word) (value : Int32) : (w.request value).length ≤ 19 := by
  have hw := w.length_text
  have hv := length_decimal_int32 value
  simp only [request, List.length_append, List.length_cons]
  omega

theorem Word.notMem_request (w : Word) (value : Int32) : '\x00' ∉ w.request value := by
  have hw : '\x00' ∉ w.text := by cases w <;> decide
  have hv := not_mem_decimal (c := '\x00') (by decide) (by decide) value.toInt
  simp [request, hw, hv]

/-- `sprintf(send_buffer, "<word> %d", value)` and the message made of the whole array. -/
def Word.send (w : Word) (value : Int32) (sendBuffer : Buffer 100) : Msg :=
  let b := sendBuffer.print (w.request value) (by have := w.length_request value; omega)
  ⟨b.chars, b.length_eq.le⟩

/-- The command line: the option, with the number scanned from `argv[2]`. -/
inductive Args
  | setFreq (freq : Int32)
  | getFreq
  | stopdaem
  | getMode
  | setMode (mode : Int32)
  | getTemp
  | other
  deriving DecidableEq, Repr

inductive Call
  | mqSend (m : Msg)
  | mqReceive
  deriving DecidableEq, Repr

/-- The calls made by `main` on an initial `send_buffer`, in order. -/
def clientMain (args : Args) (sendBuffer : Buffer 100) : List Call :=
  match args with
  | .setFreq freq => [.mqSend (Word.setfreq.send freq sendBuffer), .mqReceive]
  | .getFreq => [.mqSend (Word.getfreq.send 0 sendBuffer), .mqReceive]
  | .stopdaem => [.mqSend (Word.stop.send 0 sendBuffer)]
  | .getMode => [.mqSend (Word.getmode.send 0 sendBuffer), .mqReceive]
  | .setMode mode =>
    if 0 ≤ mode ∧ mode ≤ 1 then [.mqSend (Word.setmode.send mode sendBuffer)] else []
  | .getTemp => [.mqSend (Word.gettemp.send 0 sendBuffer), .mqReceive]
  | .other => []

end CSEL1
