import Mathlib.Data.List.Nodup
import Mathlib.Data.List.Infix
import Mathlib.Logic.Function.Basic

/-! # Singly linked lists in a memory

Nodes that lie anywhere in a memory, each leading to the next and the last one to the
null address. A chain is determined by its first address, so it visits no address twice.
-/

namespace Memory

variable {ν : Type*}

/--
From the first address the links lead through the addresses of the list to `null`. An address
without a link is not in the memory.
-/
inductive Chain (next : ν → Option ν) (null : ν) : ν → List ν → Prop
  | nil : Chain next null null []
  | cons {a b as} : a ≠ null → next a = some b → Chain next null b as →
      Chain next null a (a :: as)

/-- `while (n->next != 0) n = n->next;`, or nothing if a link is missing or the fuel runs out. -/
def walk [DecidableEq ν] (next : ν → Option ν) (null : ν) : ℕ → ν → Option ν
  | 0, _ => none
  | fuel + 1, a => (next a).bind fun b => if b = null then some a else walk next null fuel b

namespace Chain

variable {next next' : ν → Option ν} {null p : ν} {as bs : List ν}

theorem null_iff (h : Chain next null p as) : p = null ↔ as = [] := by
  cases h with
  | nil => exact iff_of_true rfl rfl
  | cons hne _ _ => exact iff_of_false hne (List.cons_ne_nil _ _)

theorem of_cons {a : ν} (h : Chain next null p (a :: as)) :
    p = a ∧ a ≠ null ∧ ∃ b, next a = some b ∧ Chain next null b as := by
  cases h with
  | cons hne hnext hrest => exact ⟨rfl, hne, _, hnext, hrest⟩

theorem unique (h : Chain next null p as) (h' : Chain next null p bs) : as = bs := by
  induction h generalizing bs with
  | nil => exact (h'.null_iff.mp rfl).symm
  | cons hne hnext _ ih =>
    cases h' with
    | nil => exact absurd rfl hne
    | cons _ hnext' hrest =>
      rw [hnext, Option.some.injEq] at hnext'
      subst hnext'
      rw [ih hrest]

theorem ne_null (h : Chain next null p as) {a : ν} (ha : a ∈ as) : a ≠ null := by
  induction h with
  | nil => cases ha
  | cons hne _ _ ih =>
    rcases List.mem_cons.mp ha with rfl | ha
    · exact hne
    · exact ih ha

theorem isSome_next (h : Chain next null p as) {a : ν} (ha : a ∈ as) : (next a).isSome := by
  induction h with
  | nil => cases ha
  | cons _ hnext _ ih =>
    rcases List.mem_cons.mp ha with rfl | ha
    · rw [hnext, Option.isSome_some]
    · exact ih ha

theorem of_mem (h : Chain next null p as) {a : ν} (ha : a ∈ as) :
    ∃ front back, as = front ++ a :: back ∧ Chain next null a (a :: back) := by
  induction h with
  | nil => cases ha
  | @cons b c as hne hnext hrest ih =>
    rcases List.mem_cons.mp ha with rfl | ha
    · exact ⟨[], as, rfl, hrest.cons hne hnext⟩
    · obtain ⟨front, back, rfl, hback⟩ := ih ha
      exact ⟨b :: front, back, rfl, hback⟩

theorem nodup (h : Chain next null p as) : as.Nodup := by
  induction h with
  | nil => exact List.nodup_nil
  | @cons a b as hne hnext hrest ih =>
    refine List.nodup_cons.mpr ⟨fun ha => ?_, ih⟩
    obtain ⟨front, back, has, hback⟩ := hrest.of_mem ha
    have hlength := congrArg List.length ((hrest.cons hne hnext).unique hback)
    simp only [has, List.length_cons, List.length_append] at hlength
    omega

theorem congr (h : Chain next null p as) (hnext : ∀ a ∈ as, next' a = next a) :
    Chain next' null p as := by
  induction h with
  | nil => exact nil
  | @cons a b as hne hab _ ih =>
    refine cons hne ((hnext a List.mem_cons_self).trans hab) (ih fun c hc => ?_)
    exact hnext c (List.mem_cons_of_mem a hc)

theorem update_of_notMem [DecidableEq ν] (h : Chain next null p as) {a : ν} (ha : a ∉ as)
    (l : Option ν) : Chain (Function.update next a l) null p as :=
  h.congr fun b hb => Function.update_of_ne (fun heq : b = a => ha (heq ▸ hb)) _ _

/-- The walk to the last node ends there. -/
theorem walk_eq [DecidableEq ν] {last : ν} (h : Chain next null p (as ++ [last])) {fuel : ℕ}
    (hfuel : as.length < fuel) : walk next null fuel p = some last := by
  induction as generalizing p fuel with
  | nil =>
    obtain ⟨fuel, rfl⟩ := Nat.exists_eq_succ_of_ne_zero hfuel.ne'
    cases h with
    | cons _ hnext hrest =>
      have hnull := hrest.null_iff.mpr rfl
      rw [walk, hnext, Option.bind_some, if_pos hnull]
  | cons a as ih =>
    rw [List.length_cons] at hfuel
    obtain ⟨fuel, rfl⟩ : ∃ n, fuel = n + 1 := ⟨fuel - 1, by omega⟩
    cases h with
    | @cons _ b _ _ hnext hrest =>
      have hnull : b ≠ null := fun heq => by simpa using hrest.null_iff.mp heq
      rw [walk, hnext, Option.bind_some, if_neg hnull]
      exact ih hrest (by omega)

/-- A node that leads to `null` is linked behind the last one. -/
theorem snoc [DecidableEq ν] {last new : ν} (h : Chain next null p (as ++ [last]))
    (hnew : next new = some null) (hne : new ≠ null) (hfresh : new ∉ as ++ [last]) :
    Chain (Function.update next last (some new)) null p (as ++ [last, new]) := by
  have hlast : new ≠ last := fun heq => hfresh (by simp [heq])
  have hself : Chain (Function.update next last (some new)) null new [new] := by
    refine cons hne ?_ nil
    rw [Function.update_of_ne hlast, hnew]
  have hnodup := h.nodup
  induction as generalizing p with
  | nil =>
    cases h with
    | cons hp _ _ =>
      refine cons hp ?_ hself
      rw [Function.update_self]
  | cons a as ih =>
    cases h with
    | cons hp hnext hrest =>
      have ha : a ≠ last := by
        rintro rfl
        simp at hnodup
      refine cons hp ?_ (ih hrest (fun hmem => hfresh (List.mem_cons_of_mem a hmem)) ?_)
      · rw [Function.update_of_ne ha, hnext]
      · exact (List.nodup_cons.mp hnodup).2

end Chain

end Memory
