import CSEL1.Transition.Basic
import Mathlib.Data.List.Nodup

/-! # Loading and unloading in stages

A module acquires resources one after the other when it is loaded and releases them
when it is unloaded. When an acquisition fails the load is given up, after some
releases, or goes on as if nothing had happened. What is still held when a load has
failed is missing at the next one.
-/

namespace Stages

open Transition

/-- What a load does when an acquisition fails: it returns an error after some releases, or not. -/
inductive OnFailure (ρ : Type*)
  | giveUp (code : Option Int32) (undo : List ρ)
  | goOn
  deriving DecidableEq, Repr

/--
An acquisition. It fails when one of the resources it requires is not held, and follows a bad
pointer when one of those it follows is not.
-/
structure Stage (ρ : Type*) where
  resource : ρ
  requires : List ρ
  follows : List ρ
  onFailure : OnFailure ρ
  deriving DecidableEq, Repr

structure Loadable (ρ : Type*) where
  init : List (Stage ρ)
  exit : List ρ
  deriving DecidableEq, Repr

/--
The resources held, in the order of acquisition. `stray` records the release of a resource that was
not held, `oops` a bad pointer that was followed.
-/
structure State (ρ : Type*) where
  held : List ρ
  loaded : Bool
  stray : Bool
  oops : Bool
  deriving DecidableEq, Repr

/-- A load comes with the kernel's answers, 0 where it grants a resource that is not in use. -/
inductive Change (ρ : Type*)
  | insmod (answer : ρ → Int32)
  | rmmod

variable {ρ : Type*} [DecidableEq ρ]

def clean : State ρ := ⟨[], false, false, false⟩

/-- The result of an acquisition: -16 for a resource in use, -19 if a required one is missing. -/
def Stage.result (st : Stage ρ) (held : List ρ) (answer : ρ → Int32) : Int32 :=
  if st.resource ∈ held then -16
  else if ∀ r ∈ st.requires, r ∈ held then answer st.resource
  else -19

namespace State

def release (s : State ρ) (r : ρ) : State ρ :=
  if r ∈ s.held then { s with held := s.held.erase r } else { s with stray := true }

def releaseAll (s : State ρ) (rs : List ρ) : State ρ := rs.foldl release s

/-- The rest of a load, with what it returns unless a bad pointer is followed. -/
def load (answer : ρ → Int32) (s : State ρ) : List (Stage ρ) → State ρ × Option Int32
  | [] => (s, some 0)
  | st :: stages =>
    if ∀ r ∈ st.follows, r ∈ s.held then
      if st.result s.held answer = 0 then
        load answer { s with held := s.held ++ [st.resource] } stages
      else
        match st.onFailure with
        | .giveUp code undo => (s.releaseAll undo, some (code.getD (st.result s.held answer)))
        | .goOn => load answer s stages
    else ({ s with oops := true }, none)

-- the kernel keeps a module only if its `init` has returned 0
def step (m : Loadable ρ) (s : State ρ) : Change ρ → State ρ
  | .insmod answer =>
    if s.oops ∨ s.loaded then s
    else { (s.load answer m.init).1 with loaded := (s.load answer m.init).2 = some 0 }
  | .rmmod => if s.oops ∨ s.loaded = false then s else { s.releaseAll m.exit with loaded := false }

end State

/-- Without this resource the rest of a load ends in a bad pointer. -/
def Followed : ρ → List (Stage ρ) → Prop
  | _, [] => False
  | r, st :: stages =>
    r ∈ st.follows ∨ (r ∈ st.requires ∧ st.onFailure = .goOn ∧ Followed st.resource stages)

/--
The rest of a load after some acquisitions: where it is given up it has released all of them, the
latest first, and where it goes on the failure does not go unnoticed.
-/
def Unwinds : List ρ → List (Stage ρ) → Prop
  | _, [] => True
  | done, st :: stages =>
    (∀ r ∈ st.requires ++ st.follows, r ∈ done) ∧
      (match st.onFailure with
        | .giveUp code undo => undo = done.reverse ∧ code ≠ some 0
        | .goOn => Followed st.resource stages) ∧
      Unwinds (done ++ [st.resource]) stages

/-- Every failure is noticed, and undone in the opposite order. -/
structure Loadable.Careful (m : Loadable ρ) : Prop where
  distinct : (m.init.map Stage.resource).Nodup
  unwinds : Unwinds [] m.init
  exit_eq : m.exit = (m.init.map Stage.resource).reverse

section Releases

variable {s : State ρ} {rs : List ρ}

theorem release_last {held : List ρ} {r : ρ} (h : r ∉ held) (loaded stray oops : Bool) :
    State.release ⟨held ++ [r], loaded, stray, oops⟩ r = ⟨held, loaded, stray, oops⟩ := by
  rw [State.release, if_pos (by simp), List.erase_append_right _ h]
  simp

theorem releaseAll_reverse (h : rs.Nodup) (loaded stray oops : Bool) :
    State.releaseAll ⟨rs, loaded, stray, oops⟩ rs.reverse = ⟨[], loaded, stray, oops⟩ := by
  induction rs using List.reverseRecOn with
  | nil => rfl
  | append_singleton rs r ih =>
    obtain ⟨hrs, -, hr⟩ := List.nodup_append.mp h
    have hmem : r ∉ rs := fun hmem => hr r hmem r (List.mem_singleton_self r) rfl
    rw [List.reverse_append, List.reverse_singleton, List.singleton_append, State.releaseAll,
      List.foldl_cons, release_last hmem]
    exact ih hrs

end Releases

section Loads

variable {answer : ρ → Int32} {held : List ρ} {stages : List (Stage ρ)} {m : Loadable ρ}
  {s : State ρ}

def refused (answer : ρ → Int32) (stages : List (Stage ρ)) : Option (Stage ρ) :=
  stages.find? fun st => answer st.resource != 0

theorem load_followed {r : ρ} (h : Followed r stages) (hr : r ∉ s.held)
    (hfresh : ∀ st ∈ stages, st.resource ∉ s.held) :
    s.load answer stages = ({ s with oops := true }, none) := by
  induction stages generalizing r with
  | nil => cases h
  | cons st stages ih =>
    rcases h with hfollows | ⟨hrequires, hgoOn, hrest⟩
    · have hbad : ¬ ∀ x ∈ st.follows, x ∈ s.held := fun hall => hr (hall r hfollows)
      rw [State.load, if_neg hbad]
    · have hst : st.resource ∉ s.held := hfresh st List.mem_cons_self
      have hmissing : ¬ ∀ x ∈ st.requires, x ∈ s.held := fun hall => hr (hall r hrequires)
      have hresult : st.result s.held answer ≠ 0 := by
        rw [Stage.result, if_neg hst, if_neg hmissing]
        decide
      by_cases hgood : ∀ x ∈ st.follows, x ∈ s.held
      · rw [State.load, if_pos hgood, if_neg hresult, hgoOn]
        exact ih hrest hst fun st' hst' => hfresh st' (List.mem_cons_of_mem st hst')
      · rw [State.load, if_neg hgood]

theorem load_unwinds (answer : ρ → Int32) (h : Unwinds s.held stages)
    (hdistinct : (s.held ++ stages.map Stage.resource).Nodup) :
    match refused answer stages with
    | none =>
      s.load answer stages = ({ s with held := s.held ++ stages.map Stage.resource }, some 0)
    | some st =>
      match st.onFailure with
      | .giveUp _ _ =>
        ∃ code ≠ 0, s.load answer stages = ({ s with held := [] }, some code)
      | .goOn => ∃ held, s.load answer stages = ({ s with held := held, oops := true }, none) := by
  induction stages generalizing s with
  | nil => simp [refused, State.load]
  | cons st stages ih =>
    obtain ⟨hbefore, hfail, hrest⟩ := h
    obtain ⟨hheld, hstages, hdisjoint⟩ := List.nodup_append.mp hdistinct
    have hst : st.resource ∉ s.held :=
      fun hmem => hdisjoint _ hmem _ (by simp) rfl
    have hfollows : ∀ r ∈ st.follows, r ∈ s.held :=
      fun r hr => hbefore r (List.mem_append_right _ hr)
    have hrequires : ∀ r ∈ st.requires, r ∈ s.held :=
      fun r hr => hbefore r (List.mem_append_left _ hr)
    have hresult : st.result s.held answer = answer st.resource := by
      rw [Stage.result, if_neg hst, if_pos hrequires]
    rw [State.load, if_pos hfollows, hresult]
    by_cases hgranted : answer st.resource = 0
    · rw [if_pos hgranted]
      have hnext : refused answer (st :: stages) = refused answer stages := by
        simp [refused, hgranted]
      have hrec :=
        ih (s := { s with held := s.held ++ [st.resource] }) hrest (by simpa using hdistinct)
      rw [hnext]
      simpa using hrec
    · rw [if_neg hgranted]
      have hfirst : refused answer (st :: stages) = some st := by simp [refused, hgranted]
      rw [hfirst]
      dsimp only
      cases hf : st.onFailure with
      | giveUp code undo =>
        rw [hf] at hfail
        obtain ⟨hundo, hcode⟩ := hfail
        refine ⟨code.getD (answer st.resource), ?_, ?_⟩
        · cases code with
          | none => exact hgranted
          | some c => exact fun hc => hcode (congrArg some hc)
        · subst hundo
          exact congrArg (·, some (code.getD (answer st.resource)))
            (releaseAll_reverse hheld s.loaded s.stray s.oops)
      | goOn =>
        rw [hf] at hfail
        have hfresh : ∀ st' ∈ stages, st'.resource ∉ s.held := by
          intro st' hst' hmem
          exact hdisjoint _ hmem _ (List.mem_cons_of_mem _ (List.mem_map_of_mem hst')) rfl
        exact ⟨s.held, load_followed hfail hst hfresh⟩

end Loads

section Runs

variable {m : Loadable ρ} {s : State ρ}

/-- A module holds everything while it is loaded, nothing otherwise, and nothing goes astray. -/
structure Tidy (m : Loadable ρ) (s : State ρ) : Prop where
  stray_eq : s.stray = false
  held_eq : s.oops = false → s.held = if s.loaded then m.init.map Stage.resource else []

/-- If the kernel refuses a resource, the first one refused is one whose failure is noticed. -/
def Noticed (m : Loadable ρ) (s : State ρ) : Change ρ → Prop
  | .insmod answer =>
    s.loaded = false → ∀ st, refused answer m.init = some st → st.onFailure ≠ .goOn
  | .rmmod => True

omit [DecidableEq ρ] in
theorem tidy_clean (m : Loadable ρ) : Tidy m clean := ⟨rfl, fun _ => rfl⟩

theorem tidy_step (h : m.Careful) (hs : Tidy m s) (hoops : s.oops = false) (e : Change ρ) :
    Tidy m (s.step m e) ∧ ((s.step m e).oops = false ↔ Noticed m s e) := by
  obtain ⟨held, loaded, stray, oops⟩ := s
  obtain ⟨rfl, hheld⟩ := hs
  obtain rfl : oops = false := hoops
  cases e with
  | insmod answer =>
    cases loaded with
    | true => exact ⟨⟨rfl, hheld⟩, iff_of_true rfl nofun⟩
    | false =>
      obtain rfl : held = [] := hheld rfl
      have hload := load_unwinds (s := ⟨[], false, false, false⟩) answer h.unwinds
        (by simpa using h.distinct)
      simp only [State.step, Bool.false_eq_true, or_self, if_false, Noticed, true_implies]
      cases hr : refused answer m.init with
      | none =>
        rw [hr] at hload
        rw [hload]
        refine ⟨⟨rfl, fun _ => by simp⟩, ?_⟩
        simp
      | some st =>
        rw [hr] at hload
        cases hf : st.onFailure with
        | giveUp code undo =>
          simp only [hf] at hload
          obtain ⟨code, hcode, hload⟩ := hload
          rw [hload]
          refine ⟨⟨rfl, fun _ => by simp [hcode]⟩, iff_of_true rfl ?_⟩
          rintro st' hst'
          obtain rfl := Option.some.inj hst'
          simp [hf]
        | goOn =>
          simp only [hf] at hload
          obtain ⟨held, hload⟩ := hload
          rw [hload]
          refine ⟨⟨rfl, nofun⟩, iff_of_false (by simp) fun hnot => ?_⟩
          exact hnot st rfl hf
  | rmmod =>
    cases loaded with
    | false => exact ⟨⟨rfl, hheld⟩, iff_of_true rfl trivial⟩
    | true =>
      obtain rfl : held = m.init.map Stage.resource := hheld rfl
      have hexit := releaseAll_reverse h.distinct true false false
      have hstep : State.step m ⟨m.init.map Stage.resource, true, false, false⟩ .rmmod =
          ⟨[], false, false, false⟩ := by
        simp [State.step, h.exit_eq, hexit]
      rw [hstep]
      exact ⟨⟨rfl, fun _ => rfl⟩, iff_of_true rfl trivial⟩

theorem step_oops (h : s.oops = true) (e : Change ρ) : s.step m e = s := by
  cases e <;> simp [State.step, h]

/-- In every run a careful module is tidy. -/
theorem tidy_run (h : m.Careful) (es : List (Change ρ)) : Tidy m (run (State.step m) clean es) := by
  have hstep : ∀ (s : State ρ) e, Tidy m s → Tidy m (s.step m e) := by
    intro s e hs
    cases hoops : s.oops with
    | true => rwa [step_oops hoops]
    | false => exact (tidy_step h hs hoops e).1
  exact run_invariant hstep (tidy_clean m) es

/-- In a run of a careful module a bad pointer is followed exactly if a failure goes unnoticed. -/
theorem always_oops_iff (h : m.Careful) (es : List (Change ρ)) :
    Always (State.step m) (fun s => s.oops = false) clean es ↔
      Along (State.step m) (Noticed m) clean es :=
  always_iff_along (fun _ e hoops hs => (tidy_step h hs hoops e).1)
    (fun _ e hoops hs => (tidy_step h hs hoops e).2) rfl (tidy_clean m)

end Runs

end Stages
