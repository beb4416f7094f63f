import CSEL1.Gpio.Basic

/-! # Several processes open one pin

Processes that open a pin in the same way take it from each other, in any order of their
calls. The one that has taken the pin out of sysfs last leads: what it has written
stays, and its descriptor works in the end.
-/

namespace CSEL1.Gpio

open Function Transition

def State.left (s : State) (pin i : ℕ) : List Call := (s.todo i).filter fun c => c.pin = pin

def Opening.rest (o : Opening) : List Call :=
  (if o.edge = .none then [] else [.writeEdge o.pin o.edge]) ++ [.openValue o.pin]

structure Opening.Configured (o : Opening) (p : Pin) : Prop where
  output : p.output = o.output
  use : ∃ node, p.use = .sysfs node o.edge

/-- Nobody outside sysfs has requested the pin, and its edge is the opening's if any. -/
def Opening.Kept (o : Opening) (p : Pin) : Prop :=
  p.use = .free ∨ ∃ node edge, p.use = .sysfs node edge ∧ (edge = .none ∨ edge = o.edge)

/-- The process `l` was the last to take the pin out of sysfs. -/
structure Led (o : Opening) (l : ℕ) (s : State) : Prop where
  kept : o.Kept (s.tree.pins o.pin)
  started : .writeUnexport o.pin ∉ s.left o.pin l
  exported : .writeExport o.pin ∈ s.left o.pin l ∨ (s.tree.pins o.pin).use ≠ .free
  directed : .writeDirection o.pin o.output ∈ s.left o.pin l ∨
    (s.tree.pins o.pin).output = o.output
  edged : o.edge = .none ∨ .writeEdge o.pin o.edge ∈ s.left o.pin l ∨
    ∃ node, (s.tree.pins o.pin).use = .sysfs node o.edge
  opened : .openValue o.pin ∈ s.left o.pin l ∨
    ∃ node, (o.pin, some node) ∈ s.opened l ∧ Alive s.tree o.pin node

section Calls

variable {o : Opening} {c : Call} {l : List Call}

theorem calls_eq (o : Opening) :
    o.calls = .writeUnexport o.pin :: .writeExport o.pin :: .writeDirection o.pin o.output ::
      o.rest := by
  simp [Opening.calls, Opening.rest]

theorem order_calls (h : c :: l <:+ o.calls) :
    (c = .writeUnexport o.pin ∧
      l = .writeExport o.pin :: .writeDirection o.pin o.output :: o.rest) ∨
    (c = .writeExport o.pin ∧ l = .writeDirection o.pin o.output :: o.rest) ∨
    (c = .writeDirection o.pin o.output ∧ l = o.rest) ∨
    (c = .writeEdge o.pin o.edge ∧ o.edge ≠ .none ∧ l = [.openValue o.pin]) ∨
    (c = .openValue o.pin ∧ l = []) := by
  rw [calls_eq] at h
  simp only [List.suffix_cons_iff, List.cons.injEq] at h
  rcases h with h | h | h | h
  · exact Or.inl h
  · exact Or.inr (Or.inl h)
  · exact Or.inr (Or.inr (Or.inl h))
  · right; right; right
    unfold Opening.rest at h
    split at h
    · right
      simpa [List.suffix_cons_iff] using h
    · next hedge =>
      simp only [List.cons_append, List.nil_append, List.suffix_cons_iff, List.cons.injEq,
        List.suffix_nil, reduceCtorEq, or_false] at h
      rcases h with ⟨rfl, rfl⟩ | h
      · exact Or.inl ⟨rfl, hedge, rfl⟩
      · exact Or.inr h

theorem openValue_mem_rest (o : Opening) : .openValue o.pin ∈ o.rest := by
  simp [Opening.rest]

theorem writeEdge_mem_rest (h : o.edge ≠ .none) : .writeEdge o.pin o.edge ∈ o.rest := by
  simp [Opening.rest, h]

theorem notMem_rest : .writeUnexport o.pin ∉ o.rest ∧ .writeExport o.pin ∉ o.rest ∧
    .writeDirection o.pin o.output ∉ o.rest := by
  unfold Opening.rest
  split <;> simp

end Calls

section Effect

variable {o : Opening} {p : Pin} {n : ℕ}

theorem Opening.Kept.sysfs (h : o.Kept p) (hfree : p.use ≠ .free) :
    ∃ node edge, p.use = .sysfs node edge ∧ (edge = .none ∨ edge = o.edge) :=
  h.resolve_left hfree

theorem effect_export (h : o.Kept p) :
    o.Kept ((Call.writeExport o.pin).effect n p) ∧
      ((Call.writeExport o.pin).effect n p).use ≠ .free ∧
      ((Call.writeExport o.pin).effect n p).output = p.output ∧
      (p.use ≠ .free → (Call.writeExport o.pin).effect n p = p) := by
  by_cases hfree : p.use = .free
  · simp [Call.effect, Opening.Kept, hfree]
  · obtain ⟨node, edge, huse, hedge⟩ := h.sysfs hfree
    simp [Call.effect, Opening.Kept, huse, hedge]

theorem effect_direction (h : o.Kept p) :
    ((Call.writeDirection o.pin o.output).effect n p).use = p.use ∧
      (p.use ≠ .free →
        ((Call.writeDirection o.pin o.output).effect n p).output = o.output) ∧
      (p.output = o.output →
        ((Call.writeDirection o.pin o.output).effect n p).output = o.output) := by
  rcases h with hfree | ⟨node, edge, huse, hedge⟩
  · simp [Call.effect, hfree]
  · have hallowed : ¬ (o.output = true ∧ edge ≠ .none) := by
      rintro ⟨hout, hne⟩
      rcases hedge with rfl | rfl
      · exact hne rfl
      · simp [o.input hne] at hout
    simp [Call.effect, huse, hallowed]

theorem effect_edge (h : o.Kept p) :
    o.Kept ((Call.writeEdge o.pin o.edge).effect n p) ∧
      ((Call.writeEdge o.pin o.edge).effect n p).output = p.output ∧
      (p.use ≠ .free → ((Call.writeEdge o.pin o.edge).effect n p).use ≠ .free) ∧
      ((∃ node, p.use = .sysfs node o.edge) →
        ∃ node, ((Call.writeEdge o.pin o.edge).effect n p).use = .sysfs node o.edge) ∧
      (p.use ≠ .free → p.output = false →
        ∃ node, ((Call.writeEdge o.pin o.edge).effect n p).use = .sysfs node o.edge) := by
  rcases h with hfree | ⟨node, edge, huse, hedge⟩
  · simp [Call.effect, Opening.Kept, hfree]
  · by_cases hout : p.output = true ∧ o.edge ≠ .none
    · simp [Call.effect, Opening.Kept, huse, hout, hedge]
    · simp [Call.effect, Opening.Kept, huse, hout]

/-- The calls of an opening that keep what others of the same kind have written. -/
def Opening.Harmless (o : Opening) (c : Call) : Prop :=
  c = .writeExport o.pin ∨ c = .writeDirection o.pin o.output ∨
    c = .writeEdge o.pin o.edge ∨ c = .openValue o.pin

theorem effect_harmless {c : Call} (hc : o.Harmless c) (h : o.Kept p) :
    o.Kept (c.effect n p) ∧ (p.use ≠ .free → (c.effect n p).use ≠ .free) ∧
      (p.output = o.output → (c.effect n p).output = o.output) ∧
      ((∃ node, p.use = .sysfs node o.edge) →
        ∃ node, (c.effect n p).use = .sysfs node o.edge) := by
  rcases hc with rfl | rfl | rfl | rfl
  · obtain ⟨hkept, hne, hout, hsame⟩ := effect_export h (n := n)
    refine ⟨hkept, fun _ => hne, fun ho => hout.trans ho, ?_⟩
    rintro ⟨node, huse⟩
    rw [hsame (by simp [huse])]
    exact ⟨node, huse⟩
  · obtain ⟨huse, -, hout⟩ := effect_direction h (n := n)
    refine ⟨?_, fun hne => huse ▸ hne, hout, fun hedge => huse ▸ hedge⟩
    unfold Opening.Kept
    rw [huse]
    exact h
  · obtain ⟨hkept, hout, hne, hedge, -⟩ := effect_edge h (n := n)
    exact ⟨hkept, hne, fun ho => hout.trans ho, hedge⟩
  · exact ⟨h, id, id, id⟩

end Effect

section Steps

variable {o : Opening} {s : State} {c : Call} {rest : List Call} {i l : ℕ}

theorem left_step_of_ne (s : State) (pin : ℕ) (hne : l ≠ i) :
    (s.step i).left pin l = s.left pin l := by
  unfold State.left State.step
  split
  · rfl
  · simp [update_of_ne hne]

theorem left_step_self (htodo : s.todo i = c :: rest) (pin : ℕ) :
    (s.step i).left pin i = rest.filter fun c => c.pin = pin := by
  simp [State.left, State.step, htodo]

theorem left_eq (htodo : s.todo i = c :: rest) (pin : ℕ) :
    s.left pin i = if c.pin = pin then c :: (s.step i).left pin i else (s.step i).left pin i := by
  rw [left_step_self htodo]
  simp [State.left, htodo, List.filter_cons]

theorem mem_left_step (htodo : s.todo i = c :: rest) {pin : ℕ} {x : Call}
    (hx : x ∈ s.left pin l) : x ∈ (s.step i).left pin l ∨ (l = i ∧ x = c) := by
  by_cases hl : l = i
  · subst hl
    rw [left_eq htodo] at hx
    split at hx
    · rcases List.mem_cons.mp hx with hx | hx
      · exact Or.inr ⟨rfl, hx⟩
      · exact Or.inl hx
    · exact Or.inl hx
  · rw [left_step_of_ne s pin hl]
    exact Or.inl hx

theorem left_step_suffix (s : State) (pin i l : ℕ) : (s.step i).left pin l <:+ s.left pin l :=
  (s.todo_step_suffix i l).filter _

theorem opened_step (s : State) (i l : ℕ) : s.opened l ⊆ (s.step i).opened l := by
  unfold State.step
  split
  · exact List.Subset.refl _
  · split
    · by_cases hl : l = i
      · subst hl
        simp
      · simp [update_of_ne hl]
    · exact List.Subset.refl _

theorem pins_step (htodo : s.todo i = c :: rest) (hpin : c.pin = o.pin) :
    (s.step i).tree.pins o.pin = c.effect s.tree.next (s.tree.pins o.pin) := by
  rw [State.tree_step, htodo, ← hpin]
  exact pins_perform_self s.tree c

theorem alive_step (htodo : s.todo i = c :: rest) {pin node : ℕ} (h : Alive s.tree pin node)
    (hc : c ≠ .writeUnexport pin) : Alive (s.step i).tree pin node := by
  rw [State.tree_step, htodo]
  exact (alive_perform_iff h).mpr hc

/-- The leader keeps what it has written while others open the pin, and goes on itself. -/
theorem Led.step (h : Led o l s) (htodo : s.todo i = c :: rest) (hpin : c.pin = o.pin)
    (hsuffix : s.left o.pin i <:+ o.calls) (hc : c ≠ .writeUnexport o.pin) :
    Led o l (s.step i) := by
  have hleft : s.left o.pin i = c :: (s.step i).left o.pin i := by
    rw [left_eq htodo, if_pos hpin]
  have horder := (order_calls (hleft ▸ hsuffix)).resolve_left fun hu => hc hu.1
  have hharmless : o.Harmless c := by
    rcases horder with ⟨rfl, -⟩ | ⟨rfl, -⟩ | ⟨rfl, -⟩ | ⟨rfl, -⟩ <;> simp [Opening.Harmless]
  obtain ⟨hkept, hne, hout, hedge⟩ := effect_harmless (n := s.tree.next) hharmless h.kept
  have hpins := pins_step htodo hpin
  rw [← hpins] at hkept hne hout hedge
  -- once a later call is made, the earlier ones have been made
  have hexported : l = i → c ≠ .writeExport o.pin → (s.tree.pins o.pin).use ≠ .free := by
    rintro rfl hce
    refine h.exported.resolve_left ?_
    rw [hleft]
    have hnot := notMem_rest (o := o)
    rcases horder with ⟨rfl, hl⟩ | ⟨rfl, hl⟩ | ⟨rfl, -, hl⟩ | ⟨rfl, hl⟩
    · exact absurd rfl hce
    all_goals simp [hl, hnot]
  refine ⟨hkept, fun hmem => h.started ((left_step_suffix s o.pin i l).subset hmem), ?_, ?_, ?_, ?_⟩
  · rcases h.exported with hmem | hfree
    · refine (mem_left_step htodo hmem).imp_right ?_
      rintro ⟨-, rfl⟩
      rw [hpins]
      exact (effect_export h.kept).2.1
    · exact Or.inr (hne hfree)
  · rcases h.directed with hmem | hdir
    · refine (mem_left_step htodo hmem).imp_right ?_
      rintro ⟨hl, rfl⟩
      rw [hpins]
      exact (effect_direction h.kept).2.1 (hexported hl (by simp))
    · exact Or.inr (hout hdir)
  · refine h.edged.imp_right ?_
    rintro (hmem | hset)
    · refine (mem_left_step htodo hmem).imp_right ?_
      rintro ⟨rfl, rfl⟩
      have hinput : o.edge ≠ .none := by
        rcases horder with ⟨hx, -⟩ | ⟨hx, -⟩ | ⟨-, hne, -⟩ | ⟨hx, -⟩
        · cases hx
        · cases hx
        · exact hne
        · cases hx
      have hdir : (s.tree.pins o.pin).output = o.output := by
        refine h.directed.resolve_left ?_
        rw [hleft]
        rcases horder with ⟨hx, -⟩ | ⟨hx, -⟩ | ⟨-, -, hl⟩ | ⟨hx, -⟩
        · cases hx
        · cases hx
        · simp [hl]
        · cases hx
      rw [hpins]
      exact (effect_edge h.kept).2.2.2.2 (hexported rfl (by simp)) (hdir.trans (o.input hinput))
    · exact Or.inr (hedge hset)
  · rcases h.opened with hmem | ⟨node, hmem, halive⟩
    · refine (mem_left_step htodo hmem).imp_right ?_
      rintro ⟨rfl, rfl⟩
      obtain ⟨node, edge, huse, -⟩ := h.kept.sysfs (hexported rfl (by simp))
      have halive : Alive s.tree o.pin node := value_eq_some_iff.mpr ⟨edge, huse⟩
      refine ⟨node, ?_, alive_step htodo halive hc⟩
      have hvalue : s.tree.value o.pin = some node := halive
      simp [State.step, htodo, hvalue]
    · exact Or.inr ⟨node, opened_step s i l hmem, alive_step htodo halive hc⟩

/-- Who takes the pin out of sysfs leads from then on. -/
theorem led_unexport (htodo : s.todo i = .writeUnexport o.pin :: rest)
    (hsuffix : s.left o.pin i <:+ o.calls) (hmine : (s.tree.pins o.pin).use ≠ .driver) :
    Led o i (s.step i) := by
  have hleft : s.left o.pin i = .writeUnexport o.pin :: (s.step i).left o.pin i := by
    rw [left_eq htodo]
    exact if_pos rfl
  have hl : (s.step i).left o.pin i =
      .writeExport o.pin :: .writeDirection o.pin o.output :: o.rest := by
    rcases order_calls (hleft ▸ hsuffix) with ⟨-, hl⟩ | ⟨hx, -⟩ | ⟨hx, -⟩ | ⟨hx, -⟩ | ⟨hx, -⟩
    · exact hl
    all_goals cases hx
  have hfree : ((s.step i).tree.pins o.pin).use = .free := by
    rw [pins_step htodo rfl]
    cases huse : (s.tree.pins o.pin).use with
    | driver => exact absurd huse hmine
    | _ => simp [Call.effect, huse]
  refine ⟨Or.inl hfree, ?_, Or.inl ?_, Or.inl ?_, ?_, Or.inl ?_⟩
  · simp [hl, (notMem_rest (o := o)).1]
  · simp [hl]
  · simp [hl]
  · by_cases hedge : o.edge = .none
    · exact Or.inl hedge
    · exact Or.inr (Or.inl (by simp [hl, writeEdge_mem_rest hedge]))
  · simp [hl, openValue_mem_rest]

theorem Led.other (h : Led o l s) (htodo : s.todo i = c :: rest) (hpin : c.pin ≠ o.pin) :
    Led o l (s.step i) := by
  have hleft : (s.step i).left o.pin l = s.left o.pin l := by
    by_cases hl : l = i
    · subst hl
      rw [left_eq htodo o.pin, if_neg hpin]
    · exact left_step_of_ne s o.pin hl
  have hpins : (s.step i).tree.pins o.pin = s.tree.pins o.pin := by
    rw [State.tree_step, htodo]
    exact pins_perform_of_ne hpin.symm
  obtain ⟨hkept, hstarted, hexported, hdirected, hedged, hopened⟩ := h
  refine ⟨hpins ▸ hkept, hleft ▸ hstarted, ?_, ?_, ?_, ?_⟩
  · rwa [hleft, hpins]
  · rwa [hleft, hpins]
  · rwa [hleft, hpins]
  · rw [hleft]
    refine hopened.imp_right ?_
    rintro ⟨node, hmem, halive⟩
    refine ⟨node, opened_step s i l hmem, alive_step htodo halive ?_⟩
    rintro rfl
    exact hpin rfl

/-- Each process opens the pin in the same way if at all; nobody has begun, or somebody leads. -/
structure Opened (o : Opening) (s : State) : Prop where
  suffix : ∀ i, s.left o.pin i <:+ o.calls
  mine : (s.tree.pins o.pin).use ≠ .driver
  led : ((∀ i, s.left o.pin i = [] ∨ s.left o.pin i = o.calls) ∧ ∃ i, s.left o.pin i = o.calls) ∨
    ∃ l, Led o l s

theorem use_step_ne_driver (hmine : (s.tree.pins o.pin).use ≠ .driver) (i : ℕ) :
    ((s.step i).tree.pins o.pin).use ≠ .driver := by
  rw [State.tree_step]
  split
  · exact hmine
  · next _ c rest _ =>
    by_cases hpin : c.pin = o.pin
    · rw [← hpin, pins_perform_self]
      rcases use_effect s.tree.next (s.tree.pins c.pin) c with hsame | ⟨-, hfree, -⟩ |
        ⟨-, -, hnew⟩ | ⟨node, edge, edge', -, -, hnew⟩
      · rwa [hsame, hpin]
      · simp [hfree]
      · simp [hnew]
      · simp [hnew]
    · rwa [pins_perform_of_ne (Ne.symm hpin)]

theorem Opened.step (h : Opened o s) (i : ℕ) : Opened o (s.step i) := by
  obtain ⟨hsuffix, hmine, hled⟩ := h
  refine ⟨fun l => (left_step_suffix s o.pin i l).trans (hsuffix l), use_step_ne_driver hmine i, ?_⟩
  cases htodo : s.todo i with
  | nil =>
    have hsame : s.step i = s := by simp [State.step, htodo]
    rwa [hsame]
  | cons c rest =>
    by_cases hpin : c.pin = o.pin
    · right
      have hleft : s.left o.pin i = c :: (s.step i).left o.pin i := by
        rw [left_eq htodo o.pin, if_pos hpin]
      by_cases hc : c = .writeUnexport o.pin
      · subst hc
        exact ⟨i, led_unexport htodo (hsuffix i) hmine⟩
      · rcases hled with ⟨hidle, -⟩ | ⟨l, hl⟩
        · rcases hidle i with hnil | hcalls
          · simp [hnil] at hleft
          · rw [hcalls, calls_eq] at hleft
            exact absurd (List.cons.inj hleft).1.symm hc
        · exact ⟨l, hl.step htodo hpin (hsuffix i) hc⟩
    · have hleft : ∀ l, (s.step i).left o.pin l = s.left o.pin l := by
        intro l
        by_cases hl : l = i
        · subst hl
          rw [left_eq htodo o.pin, if_neg hpin]
        · exact left_step_of_ne s o.pin hl
      simp only [hleft]
      apply hled.imp_right
      rintro ⟨l, hl⟩
      exact ⟨l, hl.other htodo hpin⟩

end Steps

def Works (o : Opening) (s : State) : Prop :=
  o.Configured (s.tree.pins o.pin) ∧
    ∃ i node, (o.pin, some node) ∈ s.opened i ∧ Alive s.tree o.pin node

theorem works_run {o : Opening} {s : State} (hfree : (s.tree.pins o.pin).use ≠ .driver)
    (hsame : ∀ i, s.left o.pin i = [] ∨ s.left o.pin i = o.calls)
    (hsome : ∃ i, s.left o.pin i = o.calls) {es : List ℕ}
    (hend : ∀ i, (run State.step s es).left o.pin i = []) : Works o (run State.step s es) := by
  have hstart : Opened o s := by
    refine ⟨fun i => ?_, hfree, Or.inl ⟨hsame, hsome⟩⟩
    rcases hsame i with h | h
    · rw [h]
      exact List.nil_suffix
    · rw [h]
  have hopened := run_invariant (I := Opened o) (fun _ i h => h.step i) hstart es
  generalize run State.step s es = s at hend hopened ⊢
  rcases hopened.led with ⟨-, i, hi⟩ | ⟨l, hl⟩
  · rw [hend i, calls_eq] at hi
    cases hi
  · obtain ⟨hkept, -, hexported, hdirected, hedged, hopen⟩ := hl
    simp only [hend l, List.not_mem_nil, false_or] at hexported hdirected hedged hopen
    obtain ⟨node, edge, huse, hedge⟩ := hkept.sysfs hexported
    obtain ⟨node', hmem, halive⟩ := hopen
    refine ⟨⟨hdirected, ?_⟩, l, node', hmem, halive⟩
    rcases hedged with hnone | hset
    · refine ⟨node, ?_⟩
      rcases hedge with rfl | rfl
      · rw [huse, hnone]
      · exact huse
    · exact hset

theorem left_of_calls {p : Program} {o : Opening} (ho : o ∈ p.openings) {s : State} {i : ℕ}
    (htodo : s.todo i = p.calls) : s.left o.pin i = o.calls := by
  have hcalls : ∀ p : Program, ∀ o ∈ p.openings,
      p.calls.filter (fun c => c.pin = o.pin) = o.calls := by
    intro p
    cases p <;> decide
  rw [State.left, htodo]
  exact hcalls p o ho

/--
If no driver holds the pin, then however the calls of the processes that open it in the same way are
interleaved with each other and with calls on other pins, in the end it is configured and some of
them can use it. What state an earlier program left the pin in makes no difference. So a program
that is started several times gets all its pins.
-/
theorem run_works {s : State} {es : List ℕ} :
    (∀ o : Opening, (s.tree.pins o.pin).use ≠ .driver →
        (∀ i, s.left o.pin i = [] ∨ s.left o.pin i = o.calls) →
        (∃ i, s.left o.pin i = o.calls) →
        (∀ i, (run State.step s es).left o.pin i = []) → Works o (run State.step s es)) ∧
      ∀ p : Program, (∀ o ∈ p.openings, (s.tree.pins o.pin).use ≠ .driver) →
        (∀ i, s.todo i = p.calls ∨ ∀ o ∈ p.openings, s.left o.pin i = []) →
        (∃ i, s.todo i = p.calls) →
        (∀ i, s.todo i = p.calls → (run State.step s es).todo i = []) →
        ∀ o ∈ p.openings, Works o (run State.step s es) := by
  refine ⟨fun o hfree hsame hsome hend => works_run hfree hsame hsome hend, ?_⟩
  intro p hfree hsame hsome hend o ho
  refine works_run (hfree o ho) (fun i => ?_) ?_ (fun i => ?_)
  · rcases hsame i with hp | hother
    · exact Or.inr (left_of_calls ho hp)
    · exact Or.inl (hother o ho)
  · obtain ⟨i, hp⟩ := hsome
    exact ⟨i, left_of_calls ho hp⟩
  · rcases hsame i with hp | hother
    · rw [State.left, hend i hp, List.filter_nil]
    · have hsuffix := (s.todo_run_suffix es i).filter fun c => decide (c.pin = o.pin)
      have hnone : (s.todo i).filter (fun c => decide (c.pin = o.pin)) = [] := hother o ho
      rw [hnone] at hsuffix
      exact List.suffix_nil.mp hsuffix

/-- Two daemons are started at once, where an earlier program has left K1 as an output. -/
def twoDaemons : State where
  tree := ⟨fun pin => if pin = 0 then ⟨.sysfs 7 .none, true, true⟩ else ⟨.free, false, false⟩, 8⟩
  todo := fun i => if i < 2 then Program.daemon.calls else []
  opened := fun _ => []

theorem run_works_two :
    Works openK1 (run State.step twoDaemons (List.replicate 19 [0, 1]).flatten) := by
  have htodo : ∀ i, twoDaemons.todo i = if i < 2 then Program.daemon.calls else [] := fun _ => rfl
  have hfree : ∀ o ∈ Program.daemon.openings, (twoDaemons.tree.pins o.pin).use ≠ .driver := by
    decide
  have hopens : openK1 ∈ Program.daemon.openings := by simp [Program.openings]
  refine run_works.2 .daemon hfree (fun i => ?_) ⟨0, rfl⟩ (fun i hi => ?_) openK1 hopens
  · by_cases hlt : i < 2
    · exact Or.inl ((htodo i).trans (if_pos hlt))
    · right
      intro o _
      rw [State.left, htodo, if_neg hlt, List.filter_nil]
  · have hlt : i < 2 := by
      by_contra hge
      rw [htodo, if_neg hge] at hi
      exact absurd hi (by decide)
    have hcases : i = 0 ∨ i = 1 := by omega
    rcases hcases with rfl | rfl <;> rfl

end CSEL1.Gpio
