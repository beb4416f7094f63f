import CSEL1.Transition.Stages

/-! # Loads that give nothing back

A module whose load is given up without releasing what it has acquired leaves that
behind. If the first acquisition is among it, no later load gets past it.
-/

namespace Stages

open Transition

variable {ρ : Type*} [DecidableEq ρ]

/-- An acquisition that needs no other one and whose failure undoes nothing. -/
def Stage.Plain (st : Stage ρ) : Prop :=
  st.requires = [] ∧ st.follows = [] ∧
    (st.onFailure = .goOn ∨ ∃ code, st.onFailure = .giveUp code [] ∧ code ≠ some 0)

/-- The load begins with `first`, and gives nothing back when it is given up. -/
structure Loadable.Careless (m : Loadable ρ) (first : Stage ρ) : Prop where
  head : ∃ stages, m.init = first :: stages
  first_giveUp : first.onFailure ≠ .goOn
  plain : ∀ st ∈ m.init, st.Plain
  distinct : (m.init.map Stage.resource).Nodup
  covers : ∀ st ∈ m.init, st.resource ∈ m.exit

/-- The kernel grants every resource without which the load is given up. -/
def Granted (answer : ρ → Int32) (stages : List (Stage ρ)) : Prop :=
  ∀ st ∈ stages, st.onFailure ≠ .goOn → answer st.resource = 0

def FailsAtOnce (m : Loadable ρ) (first : Stage ρ) (s : State ρ) : Change ρ → Prop
  | .insmod answer => s.loaded = false → answer first.resource ≠ 0 ∨ Granted answer m.init
  | .rmmod => True

/-- What is held belongs to the module, and without it being loaded it is nothing or `first` too. -/
structure Leaky (m : Loadable ρ) (first : Stage ρ) (s : State ρ) : Prop where
  oops_eq : s.oops = false
  sublist : s.held.Sublist (m.init.map Stage.resource)
  stuck : s.loaded = false → s.held = [] ∨ first.resource ∈ s.held

section Leaks

variable {m : Loadable ρ} {first : Stage ρ} {s : State ρ} {stages : List (Stage ρ)}
  {answer : ρ → Int32}

theorem releaseAll_eq (s : State ρ) (rs : List ρ) :
    (s.releaseAll rs).held = s.held.diff rs ∧ (s.releaseAll rs).oops = s.oops := by
  induction rs generalizing s with
  | nil => exact ⟨rfl, rfl⟩
  | cons r rs ih =>
    have hrelease : (s.release r).held = s.held.erase r ∧ (s.release r).oops = s.oops := by
      unfold State.release
      split
      · exact ⟨rfl, rfl⟩
      · next hr => exact ⟨(List.erase_of_not_mem hr).symm, rfl⟩
    obtain ⟨hheld, hoops⟩ := ih (s.release r)
    rw [State.releaseAll, List.foldl_cons, ← State.releaseAll, hheld, hoops, hrelease.1,
      hrelease.2, List.diff_cons]
    exact ⟨rfl, rfl⟩

theorem load_plain (answer : ρ → Int32) (h : ∀ st ∈ stages, st.Plain)
    (hdistinct : (s.held ++ stages.map Stage.resource).Nodup) :
    ∃ held code, s.load answer stages = ({ s with held := s.held ++ held }, some code) ∧
      (code = 0 ↔ Granted answer stages) ∧ held.Sublist (stages.map Stage.resource) := by
  induction stages generalizing s with
  | nil => exact ⟨[], 0, by simp [State.load], by simp [Granted], .slnil⟩
  | cons st stages ih =>
    obtain ⟨⟨hrequires, hfollows, hfail⟩, hplain⟩ := List.forall_mem_cons.mp h
    have hst : st.resource ∉ s.held := by
      intro hmem
      exact (List.nodup_append.mp hdistinct).2.2 _ hmem _ (by simp) rfl
    have hresult : st.result s.held answer = answer st.resource := by
      simp [Stage.result, hst, hrequires]
    have hdistinct' : (s.held ++ stages.map Stage.resource).Nodup :=
      hdistinct.sublist ((List.sublist_cons_self _ _).append_left s.held)
    have hfollows' : ∀ r ∈ st.follows, r ∈ s.held := by simp [hfollows]
    rw [State.load, if_pos hfollows', hresult]
    by_cases hgranted : answer st.resource = 0
    · obtain ⟨held, code, hload, hcode, hsub⟩ :=
        ih (s := { s with held := s.held ++ [st.resource] }) hplain (by simpa using hdistinct)
      refine ⟨st.resource :: held, code, ?_, ?_, hsub.cons_cons _⟩
      · rw [if_pos hgranted, hload]
        simp
      · simp [hcode, Granted, hgranted]
    · rcases hfail with hgoOn | ⟨code, hgiveUp, hcode⟩
      · obtain ⟨held, code, hload, hcode, hsub⟩ := ih hplain hdistinct'
        refine ⟨held, code, ?_, ?_, hsub.cons _⟩
        · rw [if_neg hgranted, hgoOn]
          exact hload
        · simp [hcode, Granted, hgoOn]
      · refine ⟨[], code.getD (answer st.resource), ?_, ?_, List.nil_sublist _⟩
        · rw [if_neg hgranted, hgiveUp, List.append_nil]
          rfl
        · refine iff_of_false ?_ fun hall =>
            hgranted (hall st List.mem_cons_self (by simp [hgiveUp]))
          cases code with
          | none => exact hgranted
          | some c => exact fun hc => hcode (congrArg some hc)

theorem load_refused_first (h : m.Careless first)
    (hfirst : first.result s.held answer ≠ 0) :
    ∃ code ≠ 0, s.load answer m.init = (s, some code) := by
  obtain ⟨stages, hinit⟩ := h.head
  obtain ⟨-, hfollows, hfail⟩ := h.plain first (hinit ▸ List.mem_cons_self)
  obtain ⟨code, hgiveUp, hcode⟩ := hfail.resolve_left h.first_giveUp
  have hfollows' : ∀ r ∈ first.follows, r ∈ s.held := by simp [hfollows]
  refine ⟨code.getD (first.result s.held answer), ?_, ?_⟩
  · cases code with
    | none => exact hfirst
    | some c => exact fun hc => hcode (congrArg some hc)
  · rw [hinit, State.load, if_pos hfollows', if_neg hfirst, hgiveUp]
    rfl

theorem load_granted_first (h : m.Careless first) (hs : s.held = [])
    (hfirst : answer first.resource = 0) :
    ∃ held code, s.load answer m.init = ({ s with held := first.resource :: held }, some code) ∧
      (code = 0 ↔ Granted answer m.init) ∧
      (first.resource :: held).Sublist (m.init.map Stage.resource) := by
  obtain ⟨stages, hinit⟩ := h.head
  have hplain := h.plain
  have hdistinct := h.distinct
  rw [hinit] at hplain hdistinct ⊢
  obtain ⟨⟨hrequires, hfollows, -⟩, hplain⟩ := List.forall_mem_cons.mp hplain
  have hfollows' : ∀ r ∈ first.follows, r ∈ s.held := by simp [hfollows]
  have hresult : first.result s.held answer = 0 := by simp [Stage.result, hs, hrequires, hfirst]
  obtain ⟨held, code, hload, hcode, hsub⟩ :=
    load_plain (s := { s with held := s.held ++ [first.resource] }) answer hplain
      (by simpa [hs] using hdistinct)
  refine ⟨held, code, ?_, ?_, hsub.cons_cons _⟩
  · rw [State.load, if_pos hfollows', if_pos hresult, hload]
    simp [hs]
  · simp [hcode, Granted, hfirst]

/-- A failed load that has left something behind is the last event that changes anything. -/
theorem step_stuck (h : m.Careless first) (hloaded : s.loaded = false)
    (hheld : first.resource ∈ s.held) (e : Change ρ) : s.step m e = s := by
  cases e with
  | rmmod => simp [State.step, hloaded]
  | insmod answer =>
    have hbusy : first.result s.held answer ≠ 0 := by
      rw [Stage.result, if_pos hheld]
      decide
    obtain ⟨code, hcode, hload⟩ := load_refused_first h hbusy
    by_cases hskip : s.oops = true ∨ s.loaded = true
    · rw [State.step, if_pos hskip]
    · rw [State.step, if_neg hskip, hload]
      simp [hcode, ← hloaded]

theorem run_stuck (h : m.Careless first) (hloaded : s.loaded = false)
    (hheld : first.resource ∈ s.held) (es : List (Change ρ)) : run (State.step m) s es = s := by
  induction es with
  | nil => rfl
  | cons e es ih => rw [run_cons, step_stuck h hloaded hheld, ih]

theorem leaky_step (h : m.Careless first) (hs : Leaky m first s)
    (hclean : s.loaded = false → s.held = []) (e : Change ρ) :
    Leaky m first (s.step m e) ∧
      (((s.step m e).loaded = false → (s.step m e).held = []) ↔ FailsAtOnce m first s e) := by
  obtain ⟨held, loaded, stray, oops⟩ := s
  obtain rfl : oops = false := hs.oops_eq
  cases e with
  | insmod answer =>
    cases loaded with
    | true => exact ⟨hs, iff_of_true nofun nofun⟩
    | false =>
      obtain rfl : held = [] := hclean rfl
      simp only [State.step, Bool.false_eq_true, or_self, if_false, FailsAtOnce, true_implies]
      by_cases hfirst : answer first.resource = 0
      · obtain ⟨held, code, hload, hcode, hsub⟩ :=
          load_granted_first (s := ⟨[], false, stray, false⟩) h rfl hfirst
        rw [hload]
        refine ⟨⟨rfl, hsub, fun _ => Or.inr List.mem_cons_self⟩, ?_⟩
        simp [hfirst, ← hcode]
      · have hresult : first.result [] answer ≠ 0 := by
          obtain ⟨stages, hinit⟩ := h.head
          obtain ⟨hrequires, -, -⟩ := h.plain first (hinit ▸ List.mem_cons_self)
          simpa [Stage.result, hrequires] using hfirst
        obtain ⟨code, hcode, hload⟩ :=
          load_refused_first (s := ⟨[], false, stray, false⟩) h hresult
        rw [hload]
        refine ⟨⟨rfl, List.nil_sublist _, fun _ => Or.inl rfl⟩, ?_⟩
        simp [hfirst]
  | rmmod =>
    cases loaded with
    | false => exact ⟨hs, iff_of_true hclean trivial⟩
    | true =>
      have hempty : held.diff m.exit = [] := by
        have hnodup : held.Nodup := h.distinct.sublist hs.sublist
        refine List.eq_nil_iff_forall_not_mem.mpr fun r hr => ?_
        obtain ⟨hmem, hnot⟩ := hnodup.mem_sdiff_iff.mp hr
        obtain ⟨st, hst, rfl⟩ := List.mem_map.mp (hs.sublist.subset hmem)
        exact hnot (h.covers st hst)
      obtain ⟨hheld, hoops⟩ := releaseAll_eq ⟨held, true, stray, false⟩ m.exit
      rw [hempty] at hheld
      simp only [State.step, Bool.false_eq_true, Bool.true_eq_false, or_self, if_false, FailsAtOnce,
        iff_true]
      exact ⟨⟨hoops, by rw [hheld]; exact List.nil_sublist _, fun _ => Or.inl hheld⟩,
        fun _ => hheld⟩

omit [DecidableEq ρ] in
theorem leaky_clean (m : Loadable ρ) (first : Stage ρ) : Leaky m first clean :=
  ⟨rfl, List.nil_sublist _, fun _ => Or.inl rfl⟩

/--
In every run: nothing is left behind exactly if each load that fails does so at once, and what is
left behind is there for good and keeps the module from being loaded.
-/
theorem leaky_run (h : m.Careless first) (es : List (Change ρ)) :
    (Always (State.step m) (fun s => s.loaded = false → s.held = []) clean es ↔
        Along (State.step m) (FailsAtOnce m first) clean es) ∧
      ((run (State.step m) clean es).loaded = false → (run (State.step m) clean es).held ≠ [] →
        ∀ es', run (State.step m) clean (es ++ es') = run (State.step m) clean es) := by
  have hleaky : Leaky m first (run (State.step m) clean es) := by
    have hstep : ∀ (s : State ρ) e, Leaky m first s → Leaky m first (s.step m e) := by
      intro s e hs
      by_cases hclean : s.loaded = false → s.held = []
      · exact (leaky_step h hs hclean e).1
      · rw [Classical.not_imp] at hclean
        rwa [step_stuck h hclean.1 ((hs.stuck hclean.1).resolve_left hclean.2)]
    exact run_invariant hstep (leaky_clean m first) es
  refine ⟨?_, fun hloaded hheld es' => ?_⟩
  · exact always_iff_along (fun s e hclean hs => (leaky_step h hs hclean e).1)
      (fun s e hclean hs => (leaky_step h hs hclean e).2) (fun _ => rfl) (leaky_clean m first)
  · rw [run_append]
    exact run_stuck h hloaded ((hleaky.stuck hloaded).resolve_left hheld) es'

end Leaks

end Stages
