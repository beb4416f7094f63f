import CSEL1.Daemon.Threads
import CSEL1.Display.Ssd1306
import CSEL1.Transition.Mutex
import Mathlib.Data.Set.List

/-! # Two threads that write on the display

A line is sent as three commands that select its page and the bytes of its text.
The main thread writes the mode line for a client, the events thread all three
lines, and each of them takes the mutex around the whole line. The start-up
writes without it, before the events thread exists. Transfers succeed, and a
text is what `sprintf` produces, whatever the size of its buffer.
-/

namespace CSEL1

open CText Transition Mutex

def bytes (text : List Char) : List UInt8 := text.map Char.toUInt8

inductive Line
  | freq (freq : Int32)
  | temp (temp : Int32)
  | mode (mode : Int32)
  deriving DecidableEq, Repr

namespace Line

def row : Line → UInt32
  | .freq _ => 4
  | .temp _ => 5
  | .mode _ => 3

def text : Line → List Char
  | .freq v => freqText v
  | .temp v => tempText v
  | .mode v => modeText v

/-- `lcd_write_freq`, `lcd_write_temp` and `lcd_write_mode`. -/
def transfers (signed : Bool) (line : Line) : List Transfer :=
  Ssd1306.setPosition 0 line.row ++ Ssd1306.puts signed (bytes line.text)

/-- The bytes of the text as they are drawn. -/
def drawn (signed : Bool) (line : Line) : List UInt8 :=
  (bytes line.text).flatMap (Ssd1306.fontBytes signed)

theorem nul_not_mem_bytes_decimal (v : ℤ) : 0 ∉ bytes (decimal v) := by
  intro h0
  obtain ⟨c, hc, hc0⟩ := List.mem_map.mp h0
  have hmod : c.toNat % 256 = 0 := congrArg UInt8.toNat hc0
  rcases mem_decimal hc with rfl | h
  · exact absurd hmod (by decide)
  · obtain ⟨hl, hu⟩ := toNat_of_isDigit h
    omega

theorem nul_not_mem_bytes (line : Line) : 0 ∉ bytes line.text := by
  cases line with
  | freq v =>
    have hl : 0 ∉ bytes freqPrefix := by decide +kernel
    have hr : 0 ∉ bytes freqSuffix := by decide +kernel
    simp only [text, freqText, bytes, List.map_append, List.mem_append, not_or]
    exact ⟨hl, nul_not_mem_bytes_decimal _, hr⟩
  | temp v =>
    have hl : 0 ∉ bytes tempPrefix := by decide +kernel
    simp only [text, tempText, bytes, List.map_append, List.mem_append, not_or]
    exact ⟨hl, nul_not_mem_bytes_decimal _⟩
  | mode v =>
    have ha : 0 ∉ bytes autoText := by decide +kernel
    have hm : 0 ∉ bytes manualText := by decide +kernel
    simp only [text, modeText]
    split
    · exact ha
    · exact hm

/-- A whole line: three position commands, then all the bytes of its text. -/
theorem transfers_eq (signed : Bool) (line : Line) :
    line.transfers signed = Ssd1306.setPosition 0 line.row ++ (line.drawn signed).map .data := by
  rw [transfers, Ssd1306.puts_eq_map signed line.nul_not_mem_bytes, drawn]

end Line

def lcdWriteHeader (signed : Bool) : List Transfer :=
  headerTexts.flatMap fun t =>
    Ssd1306.setPosition 0 t.1.val.toUInt32 ++ Ssd1306.puts signed (bytes t.2)

def lcdWriteFreq (signed : Bool) (freq : Int32) : List Transfer := (Line.freq freq).transfers signed

def lcdWriteTemp (signed : Bool) (temp : Int32) : List Transfer := (Line.temp temp).transfers signed

def lcdWriteMode (signed : Bool) (mode : Int32) : List Transfer := (Line.mode mode).transfers signed

/-- What `main` sends before it creates the events thread; `mode` is the result of `get_mode`. -/
def startUp (signed : Bool) (mode : Int32) : List Transfer :=
  Ssd1306.init signed ++ (lcdWriteHeader signed ++ lcdWriteMode signed mode)

/-- The mutex and the transfers sent, and whether the events thread has been created. -/
structure Writers where
  created : Bool
  threads : Mutex.State Thread Daemon Transfer

namespace Writers

/-- The messages and the events that write on the display, and one statement of a thread. -/
inductive Move
  | create
  | setmode (mode : Int32)
  | freq (freq : Int32)
  | temp (temp : Int32)
  | k3
  | tick (t : Thread)
  deriving DecidableEq, Repr

section Code

variable (signed : Bool)

def startUpCode (mode : Int32) : List (Stmt Daemon Transfer) :=
  [.call fun _ => Ssd1306.init signed,
   .call fun _ => lcdWriteHeader signed,
   .assign fun d => { d with curMode := mode },
   .call fun d => lcdWriteMode signed d.curMode]

/-- An assignment, then a line written under the mutex. -/
def lockedWrite (assign : Daemon → Daemon) (write : Daemon → List Transfer) :
    List (Stmt Daemon Transfer) :=
  [.assign assign, .lock, .call write, .unlock]

def setmode (mode : Int32) : List (Stmt Daemon Transfer) :=
  lockedWrite (fun d => { d with curMode := mode }) fun d => lcdWriteMode signed d.curMode

def freqHandler (freq : Int32) : List (Stmt Daemon Transfer) :=
  lockedWrite (fun d => { d with curFreq := freq }) fun d => lcdWriteFreq signed d.curFreq

def cpuTempHandler (temp : Int32) : List (Stmt Daemon Transfer) :=
  lockedWrite (fun d => { d with curCpuTemp := temp }) fun d => lcdWriteTemp signed d.curCpuTemp

def k3Handler : List (Stmt Daemon Transfer) :=
  lockedWrite (fun d => { d with curMode := if d.curMode = 0 then 1 else 0 })
    fun d => lcdWriteMode signed d.curMode

end Code

/-- Once the events thread exists, a thread that has finished takes its next message or event. -/
def handle (s : Writers) (t : Thread) (code : List (Stmt Daemon Transfer)) : Option Writers :=
  if s.created then (begin? t code s.threads).map fun x => { s with threads := x } else none

def step? (signed : Bool) (s : Writers) : Move → Option Writers
  | .create =>
    if s.created = false ∧ (s.threads.code .main).isEmpty then some { s with created := true }
    else none
  | .setmode mode => s.handle .main (setmode signed mode)
  | .freq freq => s.handle .events (freqHandler signed freq)
  | .temp temp => s.handle .events (cpuTempHandler signed temp)
  | .k3 => s.handle .events (k3Handler signed)
  | .tick t => (tick? t s.threads).map fun x => { s with threads := x }

def step (signed : Bool) : Writers → Move → Writers := stutter (step? signed)

def start (signed : Bool) (d : Daemon) (mode : Int32) : Writers :=
  ⟨false, { shared := d, holder := none, log := []
            code := Function.update (fun _ => []) .main (startUpCode signed mode) }⟩

def log (s : Writers) : List (Thread × Transfer) := s.threads.log

def IsLine (signed : Bool) (xs : List Transfer) : Prop := ∃ line : Line, xs = line.transfers signed

def started (signed : Bool) (mode : Int32) : List (Thread × Transfer) :=
  tagged (.main, startUp signed mode)

structure LinesWhole (signed : Bool) (mode : Int32) (s : Writers) : Prop where
  /-- Before the events thread exists there is at most the start-up. -/
  starting : s.created = false → s.log <+: started signed mode
  /-- Since then there are whole lines, each from one thread, then what the thread that holds the
  mutex has sent of its own. -/
  writing : s.created = true → ∃ (lines : List (Thread × Line)) (part : List (Thread × Transfer)),
    s.log = started signed mode ++
      ((lines.flatMap fun x => tagged (x.1, x.2.transfers signed)) ++ part) ∧
    (s.threads.holder = none → part = []) ∧
    ∀ t, s.threads.holder = some t →
      ∃ (line : Line) (sent : List Transfer), sent <+: line.transfers signed ∧
        part = tagged (t, sent)
  /-- The position of its line and the earlier bytes of its text come right before a byte of data,
  from the same thread. -/
  positioned : ∀ pre t b post, s.log = started signed mode ++ (pre ++ (t, .data b) :: post) →
    ∃ (front : List (Thread × Transfer)) (line : Line) (ds rest : List UInt8),
      line.drawn signed = ds ++ b :: rest ∧
        pre = front ++ tagged (t, Ssd1306.setPosition 0 line.row ++ ds.map .data)

/-- The main thread is alone until it has sent its start-up; then the lines stay whole. -/
structure Kept (signed : Bool) (mode : Int32) (s : Writers) : Prop where
  starting : s.created = false → s.threads.holder = none ∧ s.threads.code .events = [] ∧
    Unlocked (s.threads.code .main) ∧
    s.log ++ tagged (.main, output s.threads.shared (s.threads.code .main)) = started signed mode
  writing : s.created = true → Mutex.Kept (IsLine signed) (started signed mode) s.threads

section Steps

variable {signed : Bool} {mode : Int32} {s t : Writers} {m : Move}

theorem guarded_lockedWrite {assign : Daemon → Daemon} {write : Daemon → List Transfer}
    (h : ∀ d, IsLine signed (write d)) : Guarded (IsLine signed) (lockedWrite assign write) :=
  ⟨h, trivial⟩

theorem kept_start (d : Daemon) : (start signed d mode).Kept signed mode where
  starting _ := by
    refine ⟨rfl, rfl, ?_, ?_⟩
    · simp [start, startUpCode, Unlocked]
    · simp [start, startUpCode, output, started, startUp, log]
  writing h := by cases h

theorem handle_eq {i : Thread} {code : List (Stmt Daemon Transfer)}
    (h : s.handle i code = some t) : s.created = true ∧ t.created = true ∧
      begin? i code s.threads = some t.threads := by
  unfold handle at h
  split at h
  · next hc =>
    obtain ⟨x, hx, rfl⟩ := Option.map_eq_some_iff.mp h
    exact ⟨hc, hc, hx⟩
  · cases h

theorem kept_handle {i : Thread} {assign : Daemon → Daemon} {write : Daemon → List Transfer}
    (h : s.handle i (lockedWrite assign write) = some t) (hw : ∀ d, IsLine signed (write d))
    (hs : s.Kept signed mode) : t.Kept signed mode := by
  obtain ⟨hc, hc', hx⟩ := handle_eq h
  refine ⟨fun hf => ?_, fun _ => kept_begin? hx (guarded_lockedWrite hw) (hs.writing hc)⟩
  rw [hc'] at hf
  cases hf

/-- The main thread alone goes on with its start-up. -/
theorem kept_tick_main {x : Mutex.State Thread Daemon Transfer}
    (h : tick? .main s.threads = some x) (hs : s.Kept signed mode) (hc : s.created = false) :
    Writers.Kept signed mode { s with threads := x } := by
  obtain ⟨hfree, hevents, hmain, hlog⟩ := hs.starting hc
  refine ⟨fun _ => ?_, fun hc' => absurd (hc.symm.trans hc') Bool.false_ne_true⟩
  obtain ⟨hholder, hunlocked⟩ := tick?_unlocked h hmain
  exact ⟨hholder.trans hfree, (tick?_code_other h (by decide)).trans hevents, hunlocked,
    (tick?_output h).trans hlog⟩

theorem kept_step? (h : step? signed s m = some t) (hs : s.Kept signed mode) :
    t.Kept signed mode := by
  cases m with
  | create =>
    simp only [step?] at h
    split at h
    · next hc =>
      obtain rfl := Option.some.inj h
      obtain ⟨hfree, hevents, -, hlog⟩ := hs.starting hc.1
      have hmain : s.threads.code .main = [] := List.isEmpty_iff.mp hc.2
      refine ⟨fun hf => Bool.noConfusion hf, fun _ => .free [] hfree (fun i => ?_) (by simp) ?_⟩
      · cases i with
        | main => rw [hmain]; trivial
        | events => rw [hevents]; trivial
      · simpa [hmain, output, log] using hlog
    · cases h
  | setmode v => exact kept_handle h (fun d => ⟨.mode d.curMode, rfl⟩) hs
  | freq v => exact kept_handle h (fun d => ⟨.freq d.curFreq, rfl⟩) hs
  | temp v => exact kept_handle h (fun d => ⟨.temp d.curCpuTemp, rfl⟩) hs
  | k3 => exact kept_handle h (fun d => ⟨.mode d.curMode, rfl⟩) hs
  | tick i =>
    obtain ⟨x, hx, rfl⟩ := Option.map_eq_some_iff.mp h
    by_cases hc : s.created = true
    · refine ⟨fun hf => ?_, fun _ => kept_tick? hx (hs.writing hc)⟩
      exact absurd (hf.symm.trans hc) Bool.false_ne_true
    · rw [Bool.not_eq_true] at hc
      cases i with
      | main => exact kept_tick_main hx hs hc
      | events =>
        have hnil := (hs.starting hc).2.1
        simp [tick?, hnil] at hx

theorem kept_run (d : Daemon) (ms : List Move) :
    (run (step signed) (start signed d mode) ms).Kept signed mode :=
  run_invariant (stutter_invariant fun _ _ _ h hs => kept_step? h hs) (kept_start d) ms

theorem run_ticks (is : List Thread) (s : Writers) :
    run (step signed) s (is.map .tick) = { s with threads := run Mutex.tick s.threads is } := by
  induction is generalizing s with
  | nil => rfl
  | cons i is ih =>
    have hstep : step signed s (.tick i) = { s with threads := Mutex.tick s.threads i } := by
      cases h : tick? i s.threads <;> simp [step, stutter, step?, Mutex.tick, h]
    rw [List.map_cons, run_cons, hstep, ih, run_cons]

theorem run_handle {i : Thread} {assign : Daemon → Daemon} {write : Daemon → List Transfer}
    (hm : step? signed s m = s.handle i (lockedWrite assign write)) (hc : s.created = true)
    (hidle : s.threads.code i = []) (hfree : s.threads.holder = none) :
    run (step signed) s (m :: (([i, i, i] ++ (List.replicate
      (write (assign s.threads.shared)).length i ++ [i])).map .tick)) =
      { s with threads := { s.threads with
          shared := assign s.threads.shared
          log := s.threads.log ++ tagged (i, write (assign s.threads.shared)) } } := by
  have hbegin : step signed s m = { s with threads := { s.threads with
      code := Function.update s.threads.code i (lockedWrite assign write) } } := by
    simp [step, stutter, hm, handle, begin?, hc, hidle]
  have hback : Function.update s.threads.code i [] = s.threads.code := by
    rw [Function.update_eq_self_iff]
    exact hidle.symm
  have hcode : Function.update s.threads.code i (lockedWrite assign write) i =
      [.assign assign, .lock, .call write, .unlock] := Function.update_self i _ _
  have halone := run_guarded (t := i) (s := { s.threads with
    code := Function.update s.threads.code i (lockedWrite assign write) }) hfree hcode
  rw [run_cons, hbegin, run_ticks, halone]
  simp only [Function.update_idem, hback]

theorem exists_lines {done : List (Thread × List Transfer)} (h : ∀ x ∈ done, IsLine signed x.2) :
    ∃ lines : List (Thread × Line), done = lines.map fun x => (x.1, x.2.transfers signed) := by
  have hmem : done ∈ Set.range
      (List.map fun x : Thread × Line => (x.1, x.2.transfers signed)) := by
    rw [Set.range_list_map]
    intro x hx
    obtain ⟨line, hline⟩ := h x hx
    exact ⟨(x.1, line), Prod.ext rfl hline.symm⟩
  obtain ⟨lines, hlines⟩ := hmem
  exact ⟨lines, hlines.symm⟩

theorem Kept.linesWhole (hs : s.Kept signed mode) : s.LinesWhole signed mode where
  starting hc := ⟨_, (hs.starting hc).2.2.2⟩
  writing hc := by
    obtain ⟨done, part, hlog, hdone, hfree, hheld⟩ := (hs.writing hc).log_eq
    obtain ⟨lines, rfl⟩ := exists_lines hdone
    refine ⟨lines, part, by rwa [List.flatMap_map] at hlog, hfree, fun i hi => ?_⟩
    obtain ⟨sent, rest, ⟨line, hline⟩, hpart⟩ := hheld i hi
    exact ⟨line, sent, ⟨rest, hline⟩, hpart⟩
  positioned pre i b post hlog := by
    by_cases hc : s.created = true
    · obtain ⟨front, sent, rest, ⟨line, hline⟩, rfl⟩ := (hs.writing hc).exists_sent hlog
      rw [line.transfers_eq] at hline
      obtain ⟨ds, ds', hdrawn, rfl⟩ := Ssd1306.exists_of_setPosition_append hline.symm
      exact ⟨front, line, ds, ds', hdrawn, rfl⟩
    · -- the start-up leaves nothing after itself
      rw [Bool.not_eq_true] at hc
      have hlen := congrArg List.length (hs.starting hc).2.2.2
      rw [hlog] at hlen
      simp at hlen

end Steps

/--
However the main thread and the events thread interleave, after the start-up the display gets whole
lines.
-/
theorem lcd_writes_never_mix (signed : Bool) (d : Daemon) (mode : Int32) (ms : List Move) :
    (run (step signed) (start signed d mode) ms).LinesWhole signed mode :=
  (kept_run d ms).linesWhole

end Writers

end CSEL1
