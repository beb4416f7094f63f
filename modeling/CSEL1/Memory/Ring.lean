import Mathlib.Data.List.Chain
import Mathlib.Data.List.Nodup
import Mathlib.Logic.Function.Basic

/-! # Circular lists in a memory

The doubly linked lists of the kernel: nodes that lie anywhere in a memory and lead to
the next and to the previous one, in a ring through the head. A new node is linked in
front of the head. An access to a node that is not in the memory gives no result.
-/

namespace Memory

universe u

structure Links (ν : Type*) where
  next : ν
  prev : ν
  deriving DecidableEq, Repr

/-- How the links of nodes are read from a state and set in it. -/
structure Nodes (σ ν : Type u) [DecidableEq ν] where
  links : σ → ν → Option (Links ν)
  set : σ → ν → Links ν → σ
  links_set : ∀ {s a}, (links s a).isSome → ∀ l,
    links (set s a l) = Function.update (links s) a (some l)

namespace Nodes

variable {σ ν : Type u} [DecidableEq ν] (N : Nodes σ ν)

def next (s : σ) (a : ν) : Option ν := (N.links s a).map Links.next

def prev (s : σ) (a : ν) : Option ν := (N.links s a).map Links.prev

def modify (s : σ) (a : ν) (f : Links ν → Links ν) : Option σ :=
  (N.links s a).map fun l => N.set s a (f l)

def setNext (s : σ) (a b : ν) : Option σ := N.modify s a ({ · with next := b })

def setPrev (s : σ) (a b : ν) : Option σ := N.modify s a ({ · with prev := b })

/-- `list_add_tail`: the stores of `__list_add(new, head->prev, head)`. -/
def addTail (s : σ) (new head : ν) : Option σ := do
  let last ← N.prev s head
  let s ← N.setPrev s head new
  let s ← N.setNext s new head
  let s ← N.setPrev s new last
  N.setNext s last new

def Linked (s : σ) (a b : ν) : Prop := N.next s a = some b ∧ N.prev s b = some a

/-- The ring through a head and, in this order, the nodes of a list. -/
structure Ring (s : σ) (head : ν) (nodes : List ν) : Prop where
  chain : List.IsChain (N.Linked s) (head :: (nodes ++ [head]))
  nodup : (head :: nodes).Nodup

section Stores

variable {N} {s s' : σ} {a b : ν}

theorem isSome_next : (N.next s a).isSome = (N.links s a).isSome := Option.isSome_map

theorem isSome_prev : (N.prev s a).isSome = (N.links s a).isSome := Option.isSome_map

theorem exists_modify (h : (N.links s a).isSome) (f : Links ν → Links ν) :
    ∃ l s', N.links s a = some l ∧ N.modify s a f = some s' ∧
      N.next s' = Function.update (N.next s) a (some (f l).next) ∧
      N.prev s' = Function.update (N.prev s) a (some (f l).prev) := by
  obtain ⟨l, hl⟩ := Option.isSome_iff_exists.mp h
  have hlinks := N.links_set h (f l)
  refine ⟨l, N.set s a (f l), hl, by rw [modify, hl, Option.map_some], ?_, ?_⟩
  · change Option.map Links.next ∘ N.links _ = _
    rw [hlinks, Function.comp_update]
    rfl
  · change Option.map Links.prev ∘ N.links _ = _
    rw [hlinks, Function.comp_update]
    rfl

theorem exists_setNext (h : (N.links s a).isSome) (b : ν) : ∃ s', N.setNext s a b = some s' ∧
    N.next s' = Function.update (N.next s) a (some b) ∧ N.prev s' = N.prev s := by
  obtain ⟨l, s', hl, hs', hnext, hprev⟩ := exists_modify h ({ · with next := b })
  have hsame : N.prev s a = some l.prev := by rw [prev, hl, Option.map_some]
  exact ⟨s', hs', hnext, hprev.trans (Function.update_eq_self_iff.mpr hsame.symm)⟩

theorem exists_setPrev (h : (N.links s a).isSome) (b : ν) : ∃ s', N.setPrev s a b = some s' ∧
    N.prev s' = Function.update (N.prev s) a (some b) ∧ N.next s' = N.next s := by
  obtain ⟨l, s', hl, hs', hnext, hprev⟩ := exists_modify h ({ · with prev := b })
  have hsame : N.next s a = some l.next := by rw [next, hl, Option.map_some]
  exact ⟨s', hs', hprev, hnext.trans (Function.update_eq_self_iff.mpr hsame.symm)⟩

variable {new head last : ν}

theorem exists_addTail (hlast : N.prev s head = some last) (hin : (N.links s last).isSome)
    (hnew : (N.links s new).isSome) : ∃ s', N.addTail s new head = some s' ∧
      N.next s' = Function.update (Function.update (N.next s) new (some head)) last (some new) ∧
      N.prev s' = Function.update (Function.update (N.prev s) head (some new)) new (some last) := by
  have hhead : (N.links s head).isSome := by rw [← isSome_prev, hlast, Option.isSome_some]
  obtain ⟨s₁, h₁, hprev₁, hnext₁⟩ := exists_setPrev hhead new
  have hnew₁ : (N.links s₁ new).isSome := by rwa [← isSome_next, hnext₁, isSome_next]
  obtain ⟨s₂, h₂, hnext₂, hprev₂⟩ := exists_setNext hnew₁ head
  have hnew₂ : (N.links s₂ new).isSome := by rwa [← isSome_prev, hprev₂, isSome_prev]
  obtain ⟨s₃, h₃, hprev₃, hnext₃⟩ := exists_setPrev hnew₂ last
  have hlast₃ : (N.links s₃ last).isSome := by
    rw [← isSome_next, hnext₃, isSome_next, ← isSome_prev, hprev₂, isSome_prev, ← isSome_next,
      hnext₁, isSome_next]
    exact hin
  obtain ⟨s₄, h₄, hnext₄, hprev₄⟩ := exists_setNext hlast₃ new
  refine ⟨s₄, ?_, ?_, ?_⟩
  · simp only [addTail, hlast, h₁, h₂, h₃, h₄, Option.bind_eq_bind, Option.bind_some]
  · rw [hnext₄, hnext₃, hnext₂, hnext₁]
  · rw [hprev₄, hprev₃, hprev₂, hprev₁]

theorem addTail_frame {β : Type*} {f : σ → β} (hf : ∀ s a l, f (N.set s a l) = f s)
    (h : N.addTail s new head = some s') : f s' = f s := by
  have hmodify : ∀ {s s' a g}, N.modify s a g = some s' → f s' = f s := by
    intro s s' a g hset
    obtain ⟨l, -, rfl⟩ := Option.map_eq_some_iff.mp hset
    exact hf s a (g l)
  simp only [addTail, Option.bind_eq_bind, Option.bind_eq_some_iff] at h
  obtain ⟨last, -, s₁, h₁, s₂, h₂, s₃, h₃, h₄⟩ := h
  exact (hmodify h₄).trans ((hmodify h₃).trans ((hmodify h₂).trans (hmodify h₁)))

end Stores

section Rings

variable {N} {s s' : σ} {a b new head : ν} {nodes : List ν}

theorem ring_empty (h : N.Linked s head head) : N.Ring s head [] :=
  ⟨List.isChain_pair.mpr h, List.nodup_singleton head⟩

theorem Ring.congr (h : N.Ring s head nodes)
    (hlinks : ∀ a ∈ head :: nodes, N.links s' a = N.links s a) : N.Ring s' head nodes := by
  have hmem : ∀ a ∈ head :: (nodes ++ [head]), a ∈ head :: nodes := by
    intro a ha
    rw [← List.cons_append, List.mem_append, List.mem_singleton] at ha
    rcases ha with ha | rfl
    · exact ha
    · exact List.mem_cons_self
  refine ⟨h.chain.imp_of_mem_imp fun a b ha hb => ?_, h.nodup⟩
  rintro ⟨hnext, hprev⟩
  refine ⟨?_, ?_⟩
  · rw [next, hlinks a (hmem a ha)]
    exact hnext
  · rw [prev, hlinks b (hmem b hb)]
    exact hprev

theorem Ring.next_head (h : N.Ring s head nodes) : N.next s head = some (nodes.headD head) := by
  cases nodes with
  | nil => exact (List.isChain_pair.mp h.chain).1
  | cons a nodes => exact (List.isChain_cons_cons.mp h.chain).1.1

/-- A new node is linked behind the others. -/
theorem Ring.addTail (h : N.Ring s head nodes) (hnew : (N.links s new).isSome)
    (hfresh : new ∉ head :: nodes) :
    ∃ s', N.addTail s new head = some s' ∧ N.Ring s' head (nodes ++ [new]) := by
  obtain ⟨front, last, hfront⟩ : ∃ front last, head :: nodes = front ++ [last] := by
    rcases List.eq_nil_or_concat' (head :: nodes) with hnil | hconcat
    · cases hnil
    · exact hconcat
  have hchain := h.chain
  rw [← List.cons_append, hfront, List.append_assoc, List.singleton_append,
    List.isChain_split] at hchain
  obtain ⟨hchain, hend⟩ := hchain
  obtain ⟨hnext, hprev⟩ := List.isChain_pair.mp hend
  have hlast : last ∈ head :: nodes := hfront ▸ List.mem_append_right front List.mem_cons_self
  have hin : (N.links s last).isSome := by rw [← isSome_next, hnext, Option.isSome_some]
  obtain ⟨s', hadd, hnext', hprev'⟩ := exists_addTail hprev hin hnew
  have hnewlast : new ≠ last := fun heq => hfresh (heq ▸ hlast)
  have hnewhead : new ≠ head := fun heq => hfresh (heq ▸ List.mem_cons_self)
  refine ⟨s', hadd, ?_, ?_⟩
  · rw [List.append_assoc, List.singleton_append, ← List.cons_append, hfront, List.append_assoc,
      List.singleton_append, List.isChain_split, List.isChain_cons_cons, List.isChain_pair]
    refine ⟨?_, ⟨?_, ?_⟩, ⟨?_, ?_⟩⟩
    · rw [← hfront] at hchain ⊢
      refine hchain.imp_of_mem_tail_imp fun a b ha hb => ?_
      rintro ⟨hab, hba⟩
      have hbhead : b ≠ head := fun heq => (List.nodup_cons.mp h.nodup).1 (heq ▸ hb)
      have hbnew : b ≠ new := fun heq => hfresh (heq ▸ List.mem_of_mem_tail hb)
      have hanew : a ≠ new := fun heq => hfresh (heq ▸ ha)
      -- the last node leads to the head, which is not among the nodes
      have halast : a ≠ last := by
        rintro rfl
        exact hbhead (Option.some.inj (hab.symm.trans hnext))
      refine ⟨?_, ?_⟩
      · rwa [hnext', Function.update_of_ne halast, Function.update_of_ne hanew]
      · rwa [hprev', Function.update_of_ne hbnew, Function.update_of_ne hbhead]
    · rw [hnext', Function.update_self]
    · rw [hprev', Function.update_self]
    · rw [hnext', Function.update_of_ne hnewlast, Function.update_self]
    · rw [hprev', Function.update_of_ne hnewhead.symm, Function.update_self]
  · rw [← List.cons_append]
    exact h.nodup.append (List.nodup_singleton new) (by simpa using hfresh)

end Rings

end Nodes

end Memory
