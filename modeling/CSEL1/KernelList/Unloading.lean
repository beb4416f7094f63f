import CSEL1.KernelList.Basic
import Mathlib.Algebra.Group.Nat.Defs
import Mathlib.Data.List.Pairwise

/-! # Loading and unloading the list

Loading the module works exactly if no allocation fails. Unloading it works exactly if
the list is empty: the link to the next element is read from the one that was just freed.
-/

namespace CSEL1.KernelList

open Memory

namespace State

/-- The module is loaded: its list holds the allocated elements, and their ids increase. -/
structure Loads (k : Kzalloc) (text : Option (List Char)) (elements : Int32) (s : State) :
    Prop where
  init : skeletonInit k text elements = some s
  loaded : Loaded k text (rounds elements) s
  increasing : (allocated k (rounds elements)).Pairwise fun a b =>
    ∃ x y, s.contents a = some x ∧ s.contents b = some y ∧ x.1 < y.1

/-- Unloading visits these elements in their order and frees each of them once. -/
structure Unloads (s : State) (elements : List ℕ) (s' : State) (visits : List Visit) : Prop where
  exit : ∃ fuel, s.skeletonExit fuel = .ok (s', visits)
  visited : visits.map Visit.address = elements
  once : (visits.map Visit.address).Nodup
  printed : ∀ v ∈ visits, s.contents v.address = some (v.id, v.texte)
  freed : ∀ a, s'.heap a = none

def Works (k : Kzalloc) (text : Option (List Char)) (elements : Int32) : Prop :=
  ∃ s, Loads k text elements s ∧ ∃ s' visits, s.Unloads (allocated k (rounds elements)) s' visits

section Results

variable {k : Kzalloc} {text : Option (List Char)} {elements : Int32} {s : State} {i j n : ℕ}

theorem ofNat_lt_ofNat (hij : i < j) (hj : j < 2 ^ 31) : Int32.ofNat i < Int32.ofNat j := by
  rw [Int32.lt_iff_toInt_lt, Int32.toInt_ofNat_of_lt (by omega), Int32.toInt_ofNat_of_lt hj]
  exact Int.ofNat_lt.mpr hij

theorem Loaded.increasing (h : Loaded k text n s) (hn : n ≤ 2 ^ 31) :
    (allocated k n).Pairwise fun a b =>
      ∃ x y, s.contents a = some x ∧ s.contents b = some y ∧ x.1 < y.1 := by
  refine List.pairwise_filterMap.mpr (List.pairwise_lt_range.imp_of_mem ?_)
  intro i j hi hj hij a ha b hb
  have hi' := List.mem_range.mp hi
  have hj' := List.mem_range.mp hj
  exact ⟨_, _, h.contents_eq i hi' a ha, h.contents_eq j hj' b hb, ofNat_lt_ofNat hij (by omega)⟩

theorem rounds_le (elements : Int32) : rounds elements ≤ 2 ^ 31 := by
  have hlt := elements.toInt_lt
  rw [rounds]
  omega

theorem loads_iff : (∃ s, Loads k text elements s) ↔
    ∀ i < rounds elements, (k.result i).isSome := by
  have hloop : (∃ s', unloaded.allocAll k text 0 (rounds elements) = some s' ∧
      Loaded k text (0 + rounds elements) s') ↔
        ∀ i < rounds elements, (k.result (0 + i)).isSome :=
    exists_allocAll_iff (loaded_unloaded k text)
  simp only [Nat.zero_add] at hloop
  rw [← hloop]
  constructor
  · rintro ⟨s, hs⟩
    exact ⟨s, hs.init, hs.loaded⟩
  · rintro ⟨s, hinit, hloaded⟩
    exact ⟨s, hinit, hloaded, hloaded.increasing (rounds_le elements)⟩

/-- The link of an element is read after it is freed. -/
theorem freeAll_element (fuel a : ℕ) (s : State) (r : State × List Visit) :
    freeAll fuel (.element a) s ≠ .ok r := by
  cases fuel with
  | zero => exact nofun
  | succ fuel =>
    rw [freeAll]
    cases s.heap a with
    | none => exact nofun
    | some e =>
      simp only [kfree, Function.update_self]
      exact nofun

/-- Unloading works exactly if the list is empty. -/
theorem unloads_iff (h : Loaded k text n s) :
    (∃ s' visits, s.Unloads (allocated k n) s' visits) ↔ allocated k n = [] := by
  have hnext : s.myList.next = ((allocated k n).map Node.element).headD .myList :=
    Option.some.inj h.ring.next_head
  constructor
  · rintro ⟨s', visits, hs'⟩
    obtain ⟨fuel, hexit⟩ := hs'.exit
    rw [skeletonExit, hnext] at hexit
    cases hlist : allocated k n with
    | nil => rfl
    | cons a rest =>
      rw [hlist] at hexit
      exact absurd hexit (freeAll_element fuel a s _)
  · intro hlist
    rw [hlist] at hnext ⊢
    refine ⟨s, [], ⟨1, ?_⟩, rfl, List.nodup_nil, nofun, fun a => h.heap_eq_none ?_⟩
    · rw [skeletonExit, hnext]
      rfl
    · rw [hlist]
      exact List.not_mem_nil

/-- The module works, whatever the allocations give, exactly if it has no elements. -/
theorem works_iff (k : Kzalloc) (text : Option (List Char)) (elements : Int32) :
    Works k text elements ↔ elements.toInt ≤ 0 := by
  rw [← Int.toNat_eq_zero]
  constructor
  · rintro ⟨s, hloads, hunloads⟩
    have hlist := (unloads_iff hloads.loaded).mp hunloads
    have hsome := loads_iff.mp ⟨s, hloads⟩
    by_contra hpos
    obtain ⟨a, ha⟩ := Option.isSome_iff_exists.mp (hsome 0 (Nat.pos_of_ne_zero hpos))
    have hmem : a ∈ allocated k (rounds elements) :=
      mem_allocated_iff.mpr ⟨0, Nat.pos_of_ne_zero hpos, ha⟩
    rw [hlist] at hmem
    exact absurd hmem List.not_mem_nil
  · intro hzero
    have hrounds : rounds elements = 0 := hzero
    have hsome : ∀ i < rounds elements, (k.result i).isSome := by
      rw [hrounds]
      exact fun i hi => absurd hi (Nat.not_lt_zero i)
    have hlist : allocated k (rounds elements) = [] := by
      rw [hrounds]
      rfl
    obtain ⟨s, hloads⟩ : ∃ s, Loads k text elements s := loads_iff.mpr hsome
    exact ⟨s, hloads, (unloads_iff hloads.loaded).mpr hlist⟩

def always : Kzalloc where
  result := fun i => some (i + 1)
  ne_zero := by
    rintro i a h rfl
    cases h
  fresh := by
    rintro i j a hi hj
    exact Nat.succ.inj ((Option.some.inj hi).trans (Option.some.inj hj).symm)

/-- The default of one element is freed and then read. -/
theorem one_element_read_after_free : ¬ ∀ k text elements, Works k text elements := by
  intro hall
  obtain ⟨s, hloads, hunloads⟩ := hall always (some "dummy help".toList) 1
  exact absurd ((unloads_iff hloads.loaded).mp hunloads) (by decide)

end Results

end State

end CSEL1.KernelList
