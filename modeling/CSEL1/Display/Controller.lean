import CSEL1.Display.Basic
import CSEL1.Display.Ssd1306
import CSEL1.Transition.Basic

/-! # The memory of the SSD1306

The controller in page addressing mode: a command selects the page or one half of the
column, a byte of data is stored there and the column advances inside the page. The
driver of the daemon positions it on character cells and draws eight bytes for each
character.
-/

namespace CSEL1

open Transition

structure Controller where
  page : Fin 8
  column : Fin 128
  mem : Fin 8 → Fin 128 → UInt8

namespace Controller

/-- The low or the high half of the column, the page, or a command about neither. -/
def command (c : Controller) (cmd : UInt8) : Controller :=
  if cmd.toNat < 0x10 then
    { c with column := Fin.ofNat 128 (c.column.val / 16 * 16 + cmd.toNat) }
  else if cmd.toNat < 0x20 then
    { c with column := Fin.ofNat 128 (16 * (cmd.toNat - 0x10) + c.column.val % 16) }
  else if 0xB0 ≤ cmd.toNat ∧ cmd.toNat < 0xB8 then
    { c with page := Fin.ofNat 8 (cmd.toNat - 0xB0) }
  else c

def store (c : Controller) (byte : UInt8) : Controller :=
  { c with
    column := c.column + 1
    mem := Function.update c.mem c.page (Function.update (c.mem c.page) c.column byte) }

def receive (c : Controller) : Transfer → Controller
  | .command cmd => c.command cmd
  | .data byte => c.store byte

end Controller

namespace Ssd1306

/-- The columns of a character: those of a blank outside 32 to 127. -/
def glyphBytes (c : UInt8) : List UInt8 :=
  font.getD (if 32 ≤ c.toNat ∧ c.toNat ≤ 127 then c.toNat - 32 else 0) []

structure Rendered (c c' : Controller) (column row : ℕ) (s : List UInt8) : Prop where
  drawn : ∀ i (hi : i < s.length) k, k < 8 → ∀ (p : Fin 8) (q : Fin 128), p.val = row →
    q.val = 8 * (column + i) + k → c'.mem p q = (glyphBytes s[i]).getD k 0
  others : ∀ (p : Fin 8) (q : Fin 128),
    ¬ (p.val = row ∧ 8 * column ≤ q.val ∧ q.val < 8 * (column + s.length)) →
      c'.mem p q = c.mem p q

section Positions

variable (c : Controller) {n : ℕ}

theorem command_low (h : n < 16) : c.command (UInt8.ofNat n) =
    { c with column := Fin.ofNat 128 (c.column.val / 16 * 16 + n) } := by
  have hn : (UInt8.ofNat n).toNat = n :=
    UInt8.toNat_ofNat_of_lt' (show n < 256 by omega)
  rw [Controller.command, hn, if_pos h]

theorem command_high (h : n < 8) : c.command (UInt8.ofNat (0x10 + n)) =
    { c with column := Fin.ofNat 128 (16 * n + c.column.val % 16) } := by
  have hn : (UInt8.ofNat (0x10 + n)).toNat = 0x10 + n :=
    UInt8.toNat_ofNat_of_lt' (show 0x10 + n < 256 by omega)
  rw [Controller.command, hn, if_neg (by omega), if_pos (by omega), Nat.add_sub_cancel_left]

theorem command_page (h : n < 8) : c.command (UInt8.ofNat (0xB0 + n)) =
    { c with page := Fin.ofNat 8 n } := by
  have hn : (UInt8.ofNat (0xB0 + n)).toNat = 0xB0 + n :=
    UInt8.toNat_ofNat_of_lt' (show 0xB0 + n < 256 by omega)
  rw [Controller.command, hn, if_neg (by omega), if_neg (by omega), if_pos (by omega),
    Nat.add_sub_cancel_left]

theorem setPosition_eq : ∀ column < 16, ∀ row < 8,
    setPosition (UInt32.ofNat column) (UInt32.ofNat row) =
      [.command (UInt8.ofNat (0xB0 + row)), .command (UInt8.ofNat (8 * column % 16)),
        .command (UInt8.ofNat (0x10 + 8 * column / 16))] := by
  decide

theorem run_setPosition {column row : UInt32} (hcol : column.toNat < 16) (hrow : row.toNat < 8) :
    run Controller.receive c (setPosition column row) =
      { c with page := Fin.ofNat 8 row.toNat, column := Fin.ofNat 128 (8 * column.toNat) } := by
  have hpos := setPosition_eq column.toNat hcol row.toNat hrow
  rw [UInt32.ofNat_toNat, UInt32.ofNat_toNat] at hpos
  simp only [hpos, run_cons, run_nil, Controller.receive, command_page c hrow,
    command_low _ (Nat.mod_lt (8 * column.toNat) (by decide : 0 < 16)),
    command_high _ (show 8 * column.toNat / 16 < 8 by omega)]
  congr 1
  refine Fin.ext ?_
  simp only [Fin.ofNat]
  omega

end Positions

section Data

variable {c : Controller} {s : List UInt8}

theorem run_data_mem {ds : List UInt8} (h : c.column.val + ds.length ≤ 128) (p : Fin 8)
    (q : Fin 128) : (run Controller.receive c (ds.map .data)).mem p q =
      if p = c.page ∧ c.column.val ≤ q.val then (ds[q.val - c.column.val]?).getD (c.mem p q)
      else c.mem p q := by
  induction ds generalizing c with
  | nil => simp
  | cons b ds ih =>
    have hstore : ∀ q, (c.store b).mem p q =
        if p = c.page ∧ q = c.column then b else c.mem p q := by
      intro q
      simp only [Controller.store, Function.update_apply]
      split_ifs <;> simp_all
    rw [List.map_cons, run_cons, Controller.receive]
    cases ds with
    | nil =>
      rw [List.map_nil, run_nil, hstore]
      split_ifs with hq hle hle
      · rw [hq.2, Nat.sub_self]
        rfl
      · exact absurd ⟨hq.1, hq.2 ▸ le_refl _⟩ hle
      · have hlt : c.column.val < q.val := by
          have hne : q.val ≠ c.column.val := fun he => hq ⟨hle.1, Fin.ext he⟩
          omega
        rw [List.getElem?_eq_none (by simp only [List.length_singleton]; omega)]
        rfl
      · rfl
    | cons b' ds =>
      have hcol : (c.store b).column.val = c.column.val + 1 := by
        simp only [List.length_cons] at h
        simp only [Controller.store, Fin.val_add, Fin.val_one]
        omega
      have hpage : (c.store b).page = c.page := rfl
      rw [ih (by simp only [List.length_cons] at h ⊢; omega), hstore, hcol, hpage]
      by_cases hp : p = c.page
      · rcases Nat.lt_trichotomy q.val c.column.val with hlt | heq | hgt
        · have hne : q ≠ c.column := fun he => absurd (congrArg Fin.val he) hlt.ne
          simp [hp, hne, Nat.not_le.mpr hlt, Nat.not_le.mpr (Nat.lt_succ_of_lt hlt)]
        · have hq : q = c.column := Fin.ext heq
          simp [hp, hq]
        · obtain ⟨j, hj⟩ := Nat.exists_eq_add_of_lt hgt
          have hne : q ≠ c.column := fun he => absurd (congrArg Fin.val he) hgt.ne'
          have hsub : q.val - (c.column.val + 1) = j := by omega
          have hsub' : q.val - c.column.val = j + 1 := by omega
          simp [hp, hne, hsub, hsub', hgt.le, Nat.succ_le_of_lt hgt]
      · simp [hp]

theorem fontBytes_eq (signed : Bool) (b : UInt8) : fontBytes signed b = glyphBytes b := by
  have hidx : (fontIndex signed b).toNat =
      if 32 ≤ b.toNat ∧ b.toNat ≤ 127 then b.toNat - 32 else 0 := by
    have hb := b.toNat_lt
    unfold fontIndex charValue
    cases signed
    · simp only [Bool.false_and, Bool.false_eq_true, if_false]
      split_ifs <;> omega
    · simp only [Bool.true_and, decide_eq_true_eq]
      split_ifs <;> omega
  rw [fontBytes, hidx, glyphBytes]

theorem length_glyphBytes (b : UInt8) : (glyphBytes b).length = 8 :=
  fontBytes_eq false b ▸ length_fontBytes false b

theorem length_flatMap_glyphBytes (s : List UInt8) :
    (s.flatMap glyphBytes).length = 8 * s.length := by
  induction s with
  | nil => rfl
  | cons b s ih =>
    rw [List.flatMap_cons, List.length_append, length_glyphBytes, ih, List.length_cons]
    omega

theorem getElem?_flatMap_glyphBytes {i k : ℕ} (hi : i < s.length) (hk : k < 8) :
    (s.flatMap glyphBytes)[8 * i + k]? = some ((glyphBytes s[i]).getD k 0) := by
  have hlen := length_glyphBytes
  induction s generalizing i with
  | nil => exact absurd hi (Nat.not_lt_zero i)
  | cons b s ih =>
    rw [List.flatMap_cons]
    cases i with
    | zero =>
      have hkb : k < (glyphBytes b).length := hk.trans_eq (hlen b).symm
      rw [Nat.mul_zero, Nat.zero_add, List.getElem?_append_left hkb,
        List.getElem?_eq_getElem hkb, List.getElem_cons_zero, List.getD_eq_getElem _ _ hkb]
    | succ i =>
      rw [List.getElem?_append_right (by rw [hlen]; omega), hlen]
      have hsub : 8 * (i + 1) + k - 8 = 8 * i + k := by omega
      rw [hsub, ih (Nat.lt_of_succ_lt_succ hi), List.getElem_cons_succ]

theorem puts_eq_glyphs (signed : Bool) (h : 0 ∉ s) :
    puts signed s = (s.flatMap glyphBytes).map .data := by
  rw [puts_eq_map signed h, funext (fontBytes_eq signed)]

/-- A text that fits the page is drawn at its position, and nothing else changes. -/
theorem rendered_of_fits (c : Controller) (signed : Bool) {column row : UInt32}
    (hcol : column.toNat < 16) (hrow : row.toNat < 8) (hnul : 0 ∉ s)
    (hlen : column.toNat + s.length ≤ 16) :
    Rendered c (run Controller.receive c (setPosition column row ++ puts signed s))
      column.toNat row.toNat s := by
  have hpage : (Fin.ofNat 8 row.toNat).val = row.toNat := Nat.mod_eq_of_lt hrow
  have hcolumn : (Fin.ofNat 128 (8 * column.toNat)).val = 8 * column.toNat :=
    Nat.mod_eq_of_lt (by omega)
  have hfit : (Fin.ofNat 128 (8 * column.toNat)).val + (s.flatMap glyphBytes).length ≤ 128 := by
    rw [length_flatMap_glyphBytes, hcolumn]
    omega
  have hmem := run_data_mem (c := { c with
    page := Fin.ofNat 8 row.toNat, column := Fin.ofNat 128 (8 * column.toNat) }) hfit
  rw [run_append, run_setPosition c hcol hrow, puts_eq_glyphs signed hnul]
  refine ⟨fun i hi k hk p q hp hq => ?_, fun p q hout => ?_⟩
  · have hpq : p = Fin.ofNat 8 row.toNat ∧ 8 * column.toNat ≤ q.val :=
      ⟨Fin.ext (hp.trans hpage.symm), by omega⟩
    have hidx : q.val - 8 * column.toNat = 8 * i + k := by omega
    rw [hmem, hcolumn, if_pos hpq, hidx, getElem?_flatMap_glyphBytes hi hk, Option.getD_some]
  · rw [hmem, hcolumn]
    split_ifs with hpq
    · have hp : p.val = row.toNat := (congrArg Fin.val hpq.1).trans hpage
      have hq : 8 * (column.toNat + s.length) ≤ q.val := by
        by_contra hlt
        exact hout ⟨hp, hpq.2, Nat.not_le.mp hlt⟩
      rw [List.getElem?_eq_none (by rw [length_flatMap_glyphBytes]; omega), Option.getD_none]
    · rfl

end Data

section Clear

variable (c : Controller) (signed : Bool)

@[simp] theorem command_mem (cmd : UInt8) : (c.command cmd).mem = c.mem := by
  unfold Controller.command
  split_ifs <;> rfl

@[simp] theorem run_setPosition_mem (column row : UInt32) :
    (run Controller.receive c (setPosition column row)).mem = c.mem := by
  simp [setPosition, Controller.receive]

theorem blanks_clear {j : ℕ} (hj : j < 8) :
    Rendered c (run Controller.receive c
      (setPosition 0 j.toUInt32 ++ (List.replicate 16 32).flatMap (putc signed))) 0 j
      (List.replicate 16 32) := by
  have hrow : j.toUInt32.toNat = j := UInt32.toNat_ofNat_of_lt' (hj.trans (by decide))
  have hcol : (0 : UInt32).toNat < 16 := by decide
  have hnul : (0 : UInt8) ∉ List.replicate 16 32 := by decide
  have h := rendered_of_fits c signed hcol (hrow.trans_lt hj) hnul (by decide)
  rwa [hrow] at h

theorem rows_cleared {n : ℕ} (hn : n ≤ 8) (p : Fin 8) (q : Fin 128) (hp : p.val < n) :
    (run Controller.receive c ((List.range n).flatMap fun j =>
      setPosition 0 j.toUInt32 ++ (List.replicate 16 32).flatMap (putc signed))).mem p q = 0 := by
  induction n with
  | zero => exact absurd hp (Nat.not_lt_zero _)
  | succ n ih =>
    rw [List.range_succ, List.flatMap_append, run_append, List.flatMap_singleton]
    have hrow := blanks_clear (run Controller.receive c ((List.range n).flatMap fun j =>
      setPosition 0 j.toUInt32 ++ (List.replicate 16 32).flatMap (putc signed))) signed hn
    rcases Nat.lt_or_ge p.val n with hlt | hge
    · rw [hrow.others p q fun hin => hlt.ne hin.1]
      exact ih (Nat.le_of_succ_le hn) hlt
    · have hi : q.val / 8 < (List.replicate 16 (32 : UInt8)).length := by
        rw [List.length_replicate]
        omega
      rw [hrow.drawn (q.val / 8) hi (q.val % 8) (Nat.mod_lt _ (by decide)) p q (by omega)
        (by omega), List.getElem_replicate]
      have hblank : ∀ k < 8, (glyphBytes 32).getD k 0 = 0 := by decide
      exact hblank _ (Nat.mod_lt _ (by decide))

theorem clearDisplay_mem (p : Fin 8) (q : Fin 128) :
    (run Controller.receive c (clearDisplay signed)).mem p q = 0 := by
  rw [clearDisplay, run_append, run_cons, run_cons, run_setPosition_mem]
  simp only [Controller.receive, command_mem]
  exact rows_cleared (c.command 0xae) signed (le_refl 8) p q p.isLt

/--
Clearing the display leaves every byte zero, and a text that fits the page is drawn at its position
and nowhere else, from rows of the font table only.
-/
theorem text_rendered {column row : UInt32} {s : List UInt8} (hcol : column < 16) (hrow : row < 8)
    (hnul : 0 ∉ s) (hlen : s.length ≤ 16 - column.toNat) :
    (∀ p q, (run Controller.receive c (clearDisplay signed)).mem p q = 0) ∧
      Rendered c (run Controller.receive c (setPosition column row ++ puts signed s))
        column.toNat row.toNat s ∧
      ∀ b, 0 ≤ fontIndex signed b ∧ fontIndex signed b < font.length := by
  have hcol : column.toNat < 16 := UInt32.lt_iff_toNat_lt.mp hcol
  have hrow : row.toNat < 8 := UInt32.lt_iff_toNat_lt.mp hrow
  refine ⟨clearDisplay_mem c signed, rendered_of_fits c signed hcol hrow hnul (by omega),
    fun b => ?_⟩
  obtain ⟨hl, hu⟩ := fontIndex_bounds signed b
  exact ⟨hl, by omega⟩

theorem text_rendered_two_bytes :
    let c : Controller := ⟨3, 77, fun _ _ => 0xff⟩
    (∀ p q, (run Controller.receive c (clearDisplay true)).mem p q = 0) ∧
      Rendered c (run Controller.receive c (setPosition 14 5 ++ puts true [127, 200])) 14 5
        [127, 200] ∧
      ∀ b, 0 ≤ fontIndex true b ∧ fontIndex true b < font.length :=
  @text_rendered ⟨3, 77, fun _ _ => 0xff⟩ true 14 5 [127, 200] (by decide) (by decide)
    (by decide) (by decide)

end Clear

end Ssd1306

end CSEL1
