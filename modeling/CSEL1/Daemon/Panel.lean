import CSEL1.Daemon.Rendering
import CSEL1.Transition.Publish

/-! # What the panel shows

Both threads send their lines to one controller, transfer by transfer. Each writes its
line again after it has changed the value, so once both are idle the panel shows the
values of the daemon, however the threads have interleaved.
-/

namespace CSEL1

open CText Transition Mutex

/-- A page starts with the text, drawn in the font. -/
def Controller.ShowsText (c : Controller) (p : Fin 8) (text : List Char) : Prop :=
  ∀ i (hi : i < text.length) k, k < 8 → ∀ q : Fin 128, q.val = 8 * i + k →
    c.mem p q = (Ssd1306.glyphBytes (text[i]).toUInt8).getD k 0

theorem Controller.ShowsText.congr {c c' : Controller} {p : Fin 8} {text : List Char}
    (h : c.ShowsText p text) (hmem : c'.mem p = c.mem p) : c'.ShowsText p text := by
  intro i hi k hk q hq
  rw [hmem]
  exact h i hi k hk q hq

inductive Entry
  | mode
  | freq
  | temp
  deriving DecidableEq, Repr

namespace Entry

def page : Entry → Fin 8
  | .mode => 3
  | .freq => 4
  | .temp => 5

def line : Entry → Daemon → Line
  | .mode, d => .mode d.curMode
  | .freq, d => .freq d.curFreq
  | .temp, d => .temp d.curCpuTemp

def write (signed : Bool) (e : Entry) (d : Daemon) : List Transfer := (e.line d).transfers signed

/-- The transfers of a line on the page of the entry. -/
def Own (signed : Bool) (e : Entry) (xs : List Transfer) : Prop :=
  ∃ line : Line, line.row.toNat = e.page.val ∧ xs = line.transfers signed

end Entry

section Pages

variable {c : Controller} {p : Fin 8} (signed : Bool)

theorem mem_run_data_of_ne (hp : p ≠ c.page) (ds : List UInt8) :
    (run Controller.receive c (ds.map .data)).mem p = c.mem p := by
  induction ds generalizing c with
  | nil => rfl
  | cons b ds ih =>
    have hstore : (c.store b).mem p = c.mem p := Function.update_of_ne hp _ _
    rw [List.map_cons, run_cons, ← hstore]
    exact ih (c := c.store b) hp

theorem mem_run_write_of_ne {row : UInt32} (hrow : row.toNat < 8) (hp : p.val ≠ row.toNat)
    (ds : List UInt8) :
    (run Controller.receive c (Ssd1306.setPosition 0 row ++ ds.map .data)).mem p = c.mem p := by
  have hpage : p ≠ Fin.ofNat 8 row.toNat := by
    rintro rfl
    exact hp (Nat.mod_eq_of_lt hrow)
  rw [run_append, Ssd1306.run_setPosition c (by decide) hrow]
  exact mem_run_data_of_ne hpage ds

theorem showsText_write (c : Controller) {row : UInt32} {text : List Char} (hrow : row.toNat < 8)
    (hp : p.val = row.toNat) (hnul : 0 ∉ bytes text) (hlen : text.length ≤ 16) :
    (run Controller.receive c (Ssd1306.setPosition 0 row ++
      Ssd1306.puts signed (bytes text))).ShowsText p text := by
  have hbytes : (bytes text).length = text.length := List.length_map _
  have hdrawn := Ssd1306.rendered_of_fits c signed (by decide : (0 : UInt32).toNat < 16) hrow hnul
    (by rw [hbytes]; simpa using hlen)
  intro i hi k hk q hq
  have hi' : i < (bytes text).length := hi.trans_eq hbytes.symm
  have hget : (bytes text)[i] = (text[i]).toUInt8 := List.getElem_map _
  rw [← hget]
  exact hdrawn.drawn i hi' k hk p q hp (by simpa using hq)

end Pages

namespace Line

variable {signed : Bool}

theorem row_cases (line : Line) : line.row = 3 ∨ line.row = 4 ∨ line.row = 5 := by
  cases line <;> simp [row]

theorem row_bounds (line : Line) : 3 ≤ line.row.toNat ∧ line.row.toNat < 8 := by
  rcases line.row_cases with h | h | h <;> rw [h] <;> decide

theorem row_eq_of_transfers_eq {l l' : Line} (h : l.transfers signed = l'.transfers signed) :
    l.row = l'.row := by
  have hcmd : (0xb0 + l.row).toUInt8 = (0xb0 + l'.row).toUInt8 := by
    have hhead := congrArg List.head? h
    simpa [transfers, Ssd1306.setPosition] using hhead
  rcases l.row_cases with h | h | h <;> rcases l'.row_cases with h' | h' | h' <;>
    rw [h, h'] at hcmd ⊢ <;> exact absurd hcmd (by decide)

theorem mem_run_of_ne {c : Controller} {p : Fin 8} (line : Line) (hp : line.row.toNat ≠ p.val) :
    (run Controller.receive c (line.transfers signed)).mem p = c.mem p := by
  rw [line.transfers_eq]
  exact mem_run_write_of_ne line.row_bounds.2 hp.symm _

end Line

namespace Entry

variable {signed : Bool} {e e' : Entry} {d : Daemon}

theorem row_line (e : Entry) (d : Daemon) : (e.line d).row.toNat = e.page.val := by
  cases e <;> rfl

theorem own_write (e : Entry) (d : Daemon) : e.Own signed (e.write signed d) :=
  ⟨e.line d, e.row_line d, rfl⟩

theorem not_own_write (h : e ≠ e') (d : Daemon) : ¬ e.Own signed (e'.write signed d) := by
  rintro ⟨line, hrow, htransfers⟩
  have heq := Line.row_eq_of_transfers_eq htransfers
  rw [← heq, e'.row_line d] at hrow
  cases e <;> cases e' <;> first | exact h rfl | exact absurd hrow (by decide)

theorem mem_run_of_not_own {c : Controller} {xs : List Transfer} (hline : Writers.IsLine signed xs)
    (hown : ¬ e.Own signed xs) : (run Controller.receive c xs).mem e.page = c.mem e.page := by
  obtain ⟨line, rfl⟩ := hline
  exact line.mem_run_of_ne fun hrow => hown ⟨line, hrow, rfl⟩

end Entry

namespace Writers

def Move.entry : Move → Option Entry
  | .setmode _ | .k3 => some .mode
  | .freq _ => some .freq
  | .temp _ => some .temp
  | .create | .tick _ => none

def prologue (signed : Bool) : List (Thread × Transfer) :=
  tagged (.main, Ssd1306.init signed ++ lcdWriteHeader signed)

section Steps

variable {signed : Bool} {mode : Int32} {s t : Writers} {m : Move} {e e' : Entry}

/-- A message or an event changes its value only, and then writes it. -/
theorem step?_of_entry (signed : Bool) (s : Writers) (hm : m.entry = some e') :
    ∃ i f, step? signed s m = s.handle i (lockedWrite f (e'.write signed)) ∧
      ∀ e, e ≠ e' → ∀ d, e.line (f d) = e.line d := by
  cases m with
  | create => cases hm
  | tick i => cases hm
  | setmode v =>
    cases hm
    refine ⟨.main, fun d => { d with curMode := v }, rfl, ?_⟩
    rintro (_ | _ | _) he d <;> first | rfl | exact absurd rfl he
  | freq v =>
    cases hm
    refine ⟨.events, fun d => { d with curFreq := v }, rfl, ?_⟩
    rintro (_ | _ | _) he d <;> first | rfl | exact absurd rfl he
  | temp v =>
    cases hm
    refine ⟨.events, fun d => { d with curCpuTemp := v }, rfl, ?_⟩
    rintro (_ | _ | _) he d <;> first | rfl | exact absurd rfl he
  | k3 =>
    cases hm
    refine ⟨.events, fun d => { d with curMode := if d.curMode = 0 then 1 else 0 }, rfl, ?_⟩
    rintro (_ | _ | _) he d <;> first | rfl | exact absurd rfl he

theorem orderly_lockedWrite (signed : Bool) {f : Daemon → Daemon}
    (hf : e ≠ e' → ∀ d, e.line (f d) = e.line d) :
    Publishes (e.write signed) (lockedWrite f (e'.write signed)) ∧
      Apart (e.write signed) (e.Own signed) (lockedWrite f (e'.write signed)) := by
  by_cases he : e = e'
  · subst he
    refine ⟨⟨Or.inr (by simp), trivial⟩, ?_⟩
    intro body hbody
    left
    simpa [lockedWrite] using hbody
  · refine ⟨⟨Or.inl fun d => ?_, trivial⟩, ?_⟩
    · simp only [Entry.write, hf he d]
    · intro body hbody
      right
      have heq : body = e'.write signed := by simpa [lockedWrite] using hbody
      subst heq
      exact Entry.not_own_write he

theorem isLine_write (signed : Bool) (e : Entry) (d : Daemon) : IsLine signed (e.write signed d) :=
  ⟨e.line d, rfl⟩

theorem step?_create (h : step? signed s .create = some t) (hs : s.Kept signed mode) :
    s.created = false ∧ (∀ i, s.threads.code i = []) ∧ t = { s with created := true } := by
  simp only [step?] at h
  split at h
  · next hc =>
    refine ⟨hc.1, ?_, (Option.some.inj h).symm⟩
    rintro (_ | _)
    · exact List.isEmpty_iff.mp hc.2
    · exact (hs.starting hc.1).2.1
  · cases h

/-- The lines are in order since the events thread exists, and the mode is as the line shows it. -/
structure Traced (signed : Bool) (mode : Int32) (s : Writers) : Prop where
  kept : s.Kept signed mode
  starting : s.created = false → (after s.threads.shared (s.threads.code .main)).curMode = mode
  orderly : s.created = true → ∀ e : Entry,
    Orderly (e.write signed) (e.Own signed) s.threads
  current : s.created = true → Current (IsLine signed) (prologue signed)
    (Entry.mode.write signed) (Entry.mode.Own signed) s.threads

theorem started_eq (signed : Bool) (mode : Int32) : started signed mode =
    prologue signed ++ [(Thread.main, lcdWriteMode signed mode)].flatMap tagged := by
  simp [started, prologue, startUp]

theorem Traced.kept_prologue (h : s.Traced signed mode) (hc : s.created = true) :
    Mutex.Kept (IsLine signed) (prologue signed) s.threads := by
  refine (h.kept.writing hc).rebase (started_eq signed mode) ?_
  rintro x hx
  obtain rfl := List.mem_singleton.mp hx
  exact ⟨.mode mode, rfl⟩

theorem traced_start (d : Daemon) : (start signed d mode).Traced signed mode where
  kept := kept_start d
  starting _ := by simp [start, startUpCode, after]
  orderly hc := by cases hc
  current hc := by cases hc

theorem created_step? (h : step? signed s m = some t) (hc : s.created = true) :
    t.created = true := by
  cases m with
  | create => simp [step?, hc] at h
  | tick i =>
    obtain ⟨x, -, rfl⟩ := Option.map_eq_some_iff.mp h
    exact hc
  | setmode v => exact (handle_eq h).2.1
  | freq v => exact (handle_eq h).2.1
  | temp v => exact (handle_eq h).2.1
  | k3 => exact (handle_eq h).2.1

theorem orderly_step? (h : step? signed s m = some t) (hc : s.created = true)
    (ho : Orderly (e.write signed) (e.Own signed) s.threads) :
    Orderly (e.write signed) (e.Own signed) t.threads := by
  cases hm : m.entry with
  | some e' =>
    obtain ⟨i, f, hcode, hf⟩ := step?_of_entry signed s hm
    obtain ⟨-, -, hbegin⟩ := handle_eq (hcode ▸ h)
    obtain ⟨hp, ha⟩ := orderly_lockedWrite signed (hf e)
    exact orderly_begin? hbegin hp ha ho
  | none =>
    cases m with
    | create => simp [step?, hc] at h
    | tick i =>
      obtain ⟨x, hx, rfl⟩ := Option.map_eq_some_iff.mp h
      exact orderly_tick? hx ho
    | _ => cases hm

theorem current_step? (h : step? signed s m = some t) (hc : s.created = true)
    (ho : Orderly (e.write signed) (e.Own signed) s.threads)
    (hs : Current (IsLine signed) (prologue signed) (e.write signed) (e.Own signed) s.threads) :
    Current (IsLine signed) (prologue signed) (e.write signed) (e.Own signed) t.threads := by
  cases hm : m.entry with
  | some e' =>
    obtain ⟨i, f, hcode, -⟩ := step?_of_entry signed s hm
    obtain ⟨-, -, hbegin⟩ := handle_eq (hcode ▸ h)
    exact current_begin? hbegin (guarded_lockedWrite (isLine_write signed e')) hs
  | none =>
    cases m with
    | create => simp [step?, hc] at h
    | tick i =>
      obtain ⟨x, hx, rfl⟩ := Option.map_eq_some_iff.mp h
      exact current_tick? e.own_write hx ho hs
    | _ => cases hm

/-- What a message or an event has changed is written from then on. -/
theorem current_of_entry (h : step? signed s m = some t) (hm : m.entry = some e)
    (hs : s.Traced signed mode) :
    Current (IsLine signed) (prologue signed) (e.write signed) (e.Own signed) t.threads := by
  obtain ⟨i, f, hcode, -⟩ := step?_of_entry signed s hm
  obtain ⟨hc, -, hbegin⟩ := handle_eq (hcode ▸ h)
  have hkept := kept_begin? hbegin (guarded_lockedWrite (isLine_write signed e))
    (hs.kept_prologue hc)
  obtain ⟨-, hthreads⟩ := begin?_eq hbegin
  refine .owed i hkept ?_
  rw [hthreads]
  simp [lockedWrite]

theorem traced_step? (h : step? signed s m = some t) (hs : s.Traced signed mode) :
    t.Traced signed mode := by
  have hkept := kept_step? h hs.kept
  by_cases hc : s.created = true
  · have hc' := created_step? h hc
    refine ⟨hkept, fun hf => ?_, fun _ e => orderly_step? h hc (hs.orderly hc e),
      fun _ => current_step? h hc (hs.orderly hc .mode) (hs.current hc)⟩
    rw [hc'] at hf
    cases hf
  · rw [Bool.not_eq_true] at hc
    cases m with
    | create =>
      obtain ⟨-, hidle, rfl⟩ := step?_create h hs.kept
      have hmode := hs.starting hc
      have hlog := (hs.kept.starting hc).2.2.2
      rw [hidle .main] at hmode hlog
      have hlast : Latest (Entry.mode.Own signed) [(Thread.main, lcdWriteMode signed mode)]
          (Entry.mode.write signed s.threads.shared) :=
        ⟨[], .main, [], by simp [Entry.write, Entry.line, lcdWriteMode, ← hmode, after], by simp⟩
      refine ⟨hkept, fun hf => Bool.noConfusion hf, fun _ e => ?_, fun _ => ?_⟩
      · refine ⟨fun i => ?_, fun i => ?_⟩
        · rw [hidle i]
          trivial
        · rw [hidle i]
          rintro body ⟨⟩
      · refine .free _ (hs.kept.starting hc).1 (fun i => ?_) ?_ ?_ hlast
        · rw [hidle i]
          trivial
        · rintro x hx
          obtain rfl := List.mem_singleton.mp hx
          exact ⟨.mode mode, rfl⟩
        · rw [← started_eq]
          simpa [output, log] using hlog
    | tick i =>
      obtain ⟨x, hx, rfl⟩ := Option.map_eq_some_iff.mp h
      refine ⟨hkept, fun _ => ?_, fun hf => ?_, fun hf => ?_⟩
      · cases i with
        | main => exact (congrArg Daemon.curMode (tick?_after hx)).trans (hs.starting hc)
        | events =>
          have hnil := (hs.kept.starting hc).2.1
          simp [tick?, hnil] at hx
      · rw [hc] at hf
        cases hf
      · rw [hc] at hf
        cases hf
    | setmode v => simp [step?, handle, hc] at h
    | freq v => simp [step?, handle, hc] at h
    | temp v => simp [step?, handle, hc] at h
    | k3 => simp [step?, handle, hc] at h

/-- A value has been read: its event was enabled when it came. -/
def Handled (signed : Bool) (s : Writers) (ms : List Move) (e : Entry) : Prop :=
  ∃ pre m post, ms = pre ++ m :: post ∧ m.entry = some e ∧
    (step? signed (run (step signed) s pre) m).isSome

theorem traced_run (d : Daemon) (ms : List Move) :
    (run (step signed) (start signed d mode) ms).Traced signed mode :=
  run_invariant (stutter_invariant fun _ _ _ h hs => traced_step? h hs) (traced_start d) ms

theorem current_run {d : Daemon} {ms : List Move}
    (h : e = .mode ∧ (run (step signed) (start signed d mode) ms).created = true ∨
      Handled signed (start signed d mode) ms e) :
    Current (IsLine signed) (prologue signed) (e.write signed) (e.Own signed)
      (run (step signed) (start signed d mode) ms).threads := by
  rcases h with ⟨rfl, hc⟩ | ⟨pre, m, post, rfl, hm, htaken⟩
  · exact (traced_run d ms).current hc
  · have hpre : (run (step signed) (start signed d mode) pre).Traced signed mode :=
      traced_run d pre
    rw [run_append, run_cons]
    generalize run (step signed) (start signed d mode) pre = s at hpre htaken ⊢
    obtain ⟨t, ht⟩ := Option.isSome_iff_exists.mp htaken
    have hstep : step signed s m = t := stutter_of_some ht
    rw [hstep]
    let I : Writers → Prop := fun s => s.Traced signed mode ∧ s.created = true ∧
      Current (IsLine signed) (prologue signed) (e.write signed) (e.Own signed) s.threads
    have hkeep : ∀ s m t, step? signed s m = some t → I s → I t := by
      rintro s m t h ⟨htraced, hc, hcur⟩
      exact ⟨traced_step? h htraced, created_step? h hc,
        current_step? h hc (htraced.orderly hc e) hcur⟩
    have hcreated : t.created = true := by
      obtain ⟨i, f, hcode, -⟩ := step?_of_entry signed s hm
      exact (handle_eq (hcode ▸ ht)).2.1
    exact (run_invariant (I := I) (stutter_invariant hkeep)
      ⟨traced_step? ht hpre, hcreated, current_of_entry ht hm hpre⟩ post).2.2

end Steps

/-- The controller after the transfers that both threads have sent. -/
def panel (c : Controller) (s : Writers) : Controller :=
  run Controller.receive c (s.log.map Prod.snd)

section Panel

variable {signed : Bool} {c : Controller} {p : Fin 8}

theorem map_snd_tagged (done : List (Thread × List Transfer)) :
    (done.flatMap tagged).map Prod.snd = done.flatMap Prod.snd := by
  induction done with
  | nil => rfl
  | cons x done ih =>
    rw [List.flatMap_cons, List.flatMap_cons, List.map_append, ih]
    simp [tagged]

theorem mem_run_flatMap {β : Type*} {xs : List β} {f : β → List Transfer}
    (h : ∀ x ∈ xs, ∀ c : Controller, (run Controller.receive c (f x)).mem p = c.mem p) :
    (run Controller.receive c (xs.flatMap f)).mem p = c.mem p := by
  induction xs generalizing c with
  | nil => rfl
  | cons x xs ih =>
    rw [List.flatMap_cons, run_append, ih fun y hy => h y (List.mem_cons_of_mem x hy)]
    exact h x List.mem_cons_self c

theorem showsText_header (c : Controller) {t : Fin 8 × List Char} (ht : t ∈ headerTexts) :
    (run Controller.receive c (lcdWriteHeader signed)).ShowsText t.1 t.2 := by
  have hfits : ∀ t ∈ headerTexts, t.2.length ≤ 16 ∧ 0 ∉ bytes t.2 := by decide +kernel
  have hrow : ∀ p : Fin 8, p.val.toUInt32.toNat = p.val := fun p =>
    UInt32.toNat_ofNat_of_lt' (p.isLt.trans (by decide))
  have hnodup := Screen.nodup_headerTexts
  unfold lcdWriteHeader
  generalize headerTexts = ts at ht hfits hnodup ⊢
  induction ts generalizing c with
  | nil => cases ht
  | cons u ts ih =>
    obtain ⟨hu, hnodup⟩ := List.nodup_cons.mp hnodup
    rw [List.flatMap_cons, run_append]
    rcases List.mem_cons.mp ht with rfl | hmem
    · obtain ⟨hlen, hnul⟩ := hfits t List.mem_cons_self
      refine (showsText_write signed c ((hrow t.1).trans_lt t.1.isLt) (hrow t.1).symm hnul
        hlen).congr (mem_run_flatMap ?_)
      intro t' ht' c'
      rw [Ssd1306.puts_eq_map signed (hfits t' (List.mem_cons_of_mem t ht')).2]
      refine mem_run_write_of_ne ((hrow t'.1).trans_lt t'.1.isLt) ?_ _
      rw [hrow]
      intro heq
      exact hu (List.mem_map.mpr ⟨t', ht', Fin.ext heq.symm⟩)
    · exact ih _ hmem (fun t' ht' => hfits t' (List.mem_cons_of_mem u ht')) hnodup

theorem map_snd_prologue (signed : Bool) :
    (prologue signed).map Prod.snd = Ssd1306.init signed ++ lcdWriteHeader signed := by
  simp [prologue, tagged]

theorem panel_header {s : Writers} {done : List (Thread × List Transfer)}
    (hlog : s.log = prologue signed ++ done.flatMap tagged) (hdone : ∀ x ∈ done, IsLine signed x.2)
    {t : Fin 8 × List Char} (ht : t ∈ headerTexts) : (panel c s).ShowsText t.1 t.2 := by
  have hpage := Screen.header_row_lt ht
  rw [panel, hlog, List.map_append, map_snd_tagged, map_snd_prologue, run_append, run_append]
  refine (showsText_header _ ht).congr (mem_run_flatMap ?_)
  intro x hx c'
  obtain ⟨line, hline⟩ := hdone x hx
  rw [hline]
  refine line.mem_run_of_ne fun heq => ?_
  have hrow := line.row_bounds.1
  rw [heq] at hrow
  exact absurd hpage (Nat.not_lt.mpr hrow)

theorem panel_entry {s : Writers} {done : List (Thread × List Transfer)} {e : Entry}
    (hlog : s.log = prologue signed ++ done.flatMap tagged) (hdone : ∀ x ∈ done, IsLine signed x.2)
    (hlast : Latest (e.Own signed) done (e.write signed s.threads.shared))
    (hfits : (e.line s.threads.shared).text.length ≤ 16) :
    (panel c s).ShowsText e.page (e.line s.threads.shared).text := by
  obtain ⟨pre, t, post, rfl, hpost⟩ := hlast
  rw [panel, hlog, List.map_append, map_snd_tagged, List.flatMap_append, List.flatMap_cons,
    run_append, run_append, run_append]
  have hrow := e.row_line s.threads.shared
  refine (showsText_write signed _ (hrow.trans_lt e.page.isLt) hrow.symm
    (Line.nul_not_mem_bytes _) hfits).congr (mem_run_flatMap ?_)
  intro x hx c'
  exact e.mem_run_of_not_own (hdone x (by simp [hx])) (hpost x hx)

end Panel

/-- Idle threads have sent the start-up, so the events thread can be created if it was not. -/
theorem exists_created {signed : Bool} {mode : Int32} {d : Daemon} {ms : List Move}
    (hidle : ∀ i, (run (step signed) (start signed d mode) ms).threads.code i = []) :
    ∃ post, (run (step signed) (start signed d mode) (ms ++ post)).created = true ∧
      (run (step signed) (start signed d mode) (ms ++ post)).threads =
        (run (step signed) (start signed d mode) ms).threads := by
  cases hc : (run (step signed) (start signed d mode) ms).created with
  | true => exact ⟨[], by simpa using hc, by simp⟩
  | false =>
    refine ⟨[.create], ?_⟩
    rw [run_append, run_cons, run_nil]
    generalize run (step signed) (start signed d mode) ms = s at hidle hc ⊢
    have hstep : step signed s .create = { s with created := true } := by
      simp [step, stutter, step?, hc, hidle .main]
    rw [hstep]
    exact ⟨rfl, rfl⟩

/--
However the two threads interleave their transfers, whenever both are idle the panel shows the
header, the present mode, and the present frequency and temperature once they have been read and if
their texts fit their arrays.
-/
theorem panel_up_to_date (signed : Bool) (c : Controller) (d : Daemon) (mode : Int32)
    (ms : List Move)
    (hidle : ∀ i, (run (step signed) (start signed d mode) ms).threads.code i = []) :
    let s := run (step signed) (start signed d mode) ms
    (∀ t ∈ headerTexts, (panel c s).ShowsText t.1 t.2) ∧
      ∀ e : Entry, e = .mode ∨ Handled signed (start signed d mode) ms e →
        (e.line s.threads.shared).text.length < 15 →
          (panel c s).ShowsText e.page (e.line s.threads.shared).text := by
  obtain ⟨post, hc, hthreads⟩ := exists_created hidle
  have hpanel : ∀ s' : Writers, s'.threads =
      (run (step signed) (start signed d mode) ms).threads →
      panel c s' = panel c (run (step signed) (start signed d mode) ms) := by
    intro s' heq
    simp only [panel, log, heq]
  intro s
  constructor
  · intro t ht
    have hcur := current_run (Or.inl ⟨rfl, hc⟩)
    obtain ⟨done, hdone, hlog, -⟩ := hcur.idle (hthreads ▸ hidle)
    rw [← hpanel _ hthreads]
    exact panel_header hlog hdone ht
  · intro e he hfits
    have hcur : Current (IsLine signed) (prologue signed) (e.write signed) (e.Own signed)
        (run (step signed) (start signed d mode) (ms ++ post)).threads := by
      refine current_run ?_
      rcases he with rfl | ⟨pre, m, tail, rfl, hm, htaken⟩
      · exact Or.inl ⟨rfl, hc⟩
      · exact Or.inr ⟨pre, m, tail ++ post, by simp, hm, htaken⟩
    obtain ⟨done, hdone, hlog, hlast⟩ := hcur.idle (hthreads ▸ hidle)
    have hshown := panel_entry (c := c) hlog hdone hlast (by
      rw [hthreads]
      exact hfits.le.trans (by decide))
    rwa [hpanel _ hthreads, hthreads] at hshown

theorem exists_startUp (signed : Bool) (d : Daemon) (mode : Int32) : ∃ ms,
    let s := run (step signed) (start signed d mode) ms
    s.created = true ∧ s.threads.holder = none ∧ ∀ i, s.threads.code i = [] := by
  have hunlocked : Unlocked (startUpCode signed mode) := by simp [startUpCode, Unlocked]
  have hcode : (start signed d mode).threads.code .main = startUpCode signed mode := by simp [start]
  obtain ⟨n, hn⟩ := run_unlocked hcode hunlocked
  refine ⟨(List.replicate n .main).map .tick ++ [.create], ?_⟩
  rw [run_append, run_ticks, hn]
  refine ⟨?_, ?_, ?_⟩ <;> simp [step, stutter, step?, start]

theorem exists_read {signed : Bool} {s : Writers} (freq : Int32) (hc : s.created = true)
    (hfree : s.threads.holder = none) (hidle : ∀ i, s.threads.code i = []) :
    (step? signed s (.freq freq)).isSome ∧ ∃ post,
      let s' := run (step signed) s (.freq freq :: post)
      (∀ i, s'.threads.code i = []) ∧ s'.threads.shared.curFreq = freq := by
  have hcode : step? signed s (.freq freq) = s.handle .events (freqHandler signed freq) := rfl
  obtain ⟨post, hread⟩ : ∃ post, run (step signed) s (.freq freq :: post) = _ :=
    ⟨_, run_handle hcode hc (hidle .events) hfree⟩
  refine ⟨by simp [hcode, handle, begin?, hc, hidle], post, ?_⟩
  rw [hread]
  exact ⟨hidle, rfl⟩

/-- After the start-up in manual mode 50 Hz are read. -/
theorem panel_up_to_date_read :
    let d : Daemon := ⟨0, 0, 0, false, .unset, default, false, false⟩
    ∃ ms, (panel ⟨7, 99, fun _ _ => 0xff⟩ (run (step true) (start true d 1) ms)).ShowsText 4
      (freqText 50) := by
  intro d
  obtain ⟨pre, hc, hfree, hidle⟩ := exists_startUp true d 1
  obtain ⟨htaken, post, hidle', hfreq⟩ := exists_read 50 hc hfree hidle
  rw [← run_append] at hidle' hfreq
  have hshown := (panel_up_to_date true ⟨7, 99, fun _ _ => 0xff⟩ d 1 _ hidle').2 .freq
    (Or.inr ⟨pre, .freq 50, post, rfl, rfl, htaken⟩)
  simp only [Entry.line, hfreq] at hshown
  exact ⟨_, hshown (by decide)⟩

end Writers

end CSEL1
