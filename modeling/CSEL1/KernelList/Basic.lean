import CSEL1.Memory.Ring

/-! # A kernel module with a list of elements

The module allocates its elements one after the other and links each of them behind the
others. When it is unloaded it walks over the list and frees each element. An access to
an address without an element, as `NULL` and a freed one are, gives no result.
-/

namespace CSEL1.KernelList

open Memory

/-- A pointer to a `struct list_head`: the one of `my_list`, or the one of an element. -/
inductive Node
  | null
  | myList
  | element (address : ℕ)
  deriving DecidableEq, Repr

structure Element where
  id : Int32
  texte : Option (List Char)
  node : Links Node
  deriving DecidableEq, Repr

/-- The elements by their addresses, and the head of the list. -/
structure State where
  heap : ℕ → Option Element
  myList : Links Node

/-- What the calls of `kzalloc` return: `NULL`, or the address of memory that is not in use. -/
structure Kzalloc where
  result : ℕ → Option ℕ
  ne_zero : ∀ {i a}, result i = some a → a ≠ 0
  fresh : ∀ {i j a}, result i = some a → result j = some a → i = j

namespace State

def links (s : State) : Node → Option (Links Node)
  | .null => none
  | .myList => some s.myList
  | .element a => (s.heap a).map Element.node

def setLinks (s : State) (n : Node) (l : Links Node) : State :=
  match n with
  | .null => s
  | .myList => { s with myList := l }
  | .element a =>
    { s with heap := Function.update s.heap a ((s.heap a).map fun e => { e with node := l }) }

theorem links_setLinks {s : State} {n : Node} (h : (s.links n).isSome) (l : Links Node) :
    (s.setLinks n l).links = Function.update s.links n (some l) := by
  ext1 x
  cases n with
  | null => cases h
  | myList => cases x <;> rfl
  | element a =>
    obtain ⟨e, he⟩ := Option.isSome_iff_exists.mp (Option.isSome_map ▸ h)
    cases x with
    | null => rfl
    | myList => rfl
    | element b =>
      rcases eq_or_ne b a with rfl | hne
      · simp [links, setLinks, he]
      · have hnode : Node.element b ≠ .element a := fun heq => hne (Node.element.inj heq)
        rw [Function.update_of_ne hnode]
        simp only [links, setLinks, Function.update_of_ne hne]

def nodes : Nodes State Node where
  links := links
  set := setLinks
  links_set := links_setLinks

def put (s : State) (a : ℕ) (e : Element) : State :=
  { s with heap := Function.update s.heap a (some e) }

def store (s : State) (a : ℕ) (f : Element → Element) : Option State :=
  (s.heap a).map fun e => s.put a (f e)

/-- The memory of a new element is zeroed. The result is its address, or `NULL`. -/
def kzalloc (s : State) : Option ℕ → State × ℕ
  | none => (s, 0)
  | some a => (s.put a ⟨0, none, ⟨.null, .null⟩⟩, a)

def kfree (s : State) (a : ℕ) : State := { s with heap := Function.update s.heap a none }

def allocEle (s : State) (result : Option ℕ) (id : Int32) (texte : Option (List Char)) :
    Option State := do
  let ele := (s.kzalloc result).2
  let s := (s.kzalloc result).1
  let s ← if ele ≠ 0 then s.store ele ({ · with id := id }) else some s
  -- without braces, only the first assignment is guarded
  let s ← s.store ele ({ · with texte := texte })
  nodes.addTail s (.element ele) .myList

/-- The loop of `skeleton_init` from its `i`-th round on. -/
def allocAll (k : Kzalloc) (text : Option (List Char)) (i : ℕ) (s : State) : ℕ → Option State
  | 0 => some s
  | left + 1 => (s.allocEle (k.result i) (Int32.ofNat i) text).bind fun s =>
      allocAll k text (i + 1) s left

def unloaded : State := ⟨fun _ => none, ⟨.myList, .myList⟩⟩

def rounds (elements : Int32) : ℕ := elements.toInt.toNat

def skeletonInit (k : Kzalloc) (text : Option (List Char)) (elements : Int32) : Option State :=
  unloaded.allocAll k text 0 (rounds elements)

/-- An element that `skeleton_exit` visits: where it is, and what is printed of it. -/
structure Visit where
  address : ℕ
  id : Int32
  texte : Option (List Char)
  deriving DecidableEq, Repr

inductive Stop | missing | running
  deriving DecidableEq, Repr

/-- The loop of `skeleton_exit` with `ele` at this node: the element is freed before its link. -/
def freeAll : ℕ → Node → State → Except Stop (State × List Visit)
  | 0, _, _ => .error .running
  | _, .myList, s => .ok (s, [])
  | _, .null, _ => .error .missing
  | fuel + 1, .element a, s =>
    match s.heap a with
    | none => .error .missing
    | some e =>
      let s := s.kfree a
      match s.heap a with
      | none => .error .missing
      | some freed => (freeAll fuel freed.node.next s).map fun r => (r.1, ⟨a, e.id, e.texte⟩ :: r.2)

def skeletonExit (fuel : ℕ) (s : State) : Except Stop (State × List Visit) :=
  freeAll fuel s.myList.next s

section Load

variable {k : Kzalloc} {text : Option (List Char)} {s : State} {i n a : ℕ}

def contents (s : State) (a : ℕ) : Option (Int32 × Option (List Char)) :=
  (s.heap a).map fun e => (e.id, e.texte)

def allocated (k : Kzalloc) (n : ℕ) : List ℕ := (List.range n).filterMap k.result

/-- The list holds exactly the elements allocated in the first rounds, with increasing ids. -/
structure Loaded (k : Kzalloc) (text : Option (List Char)) (n : ℕ) (s : State) : Prop where
  ring : nodes.Ring s .myList ((allocated k n).map .element)
  contents_eq : ∀ i < n, ∀ a, k.result i = some a → s.contents a = some (Int32.ofNat i, text)
  mem_of_isSome : ∀ a, (s.contents a).isSome → a ∈ allocated k n

theorem mem_allocated_iff : a ∈ allocated k n ↔ ∃ i < n, k.result i = some a := by
  simp only [allocated, List.mem_filterMap, List.mem_range]

theorem allocated_succ (h : k.result n = some a) : allocated k (n + 1) = allocated k n ++ [a] := by
  rw [allocated, List.range_succ, List.filterMap_append, List.filterMap_cons_some h,
    List.filterMap_nil, allocated]

theorem notMem_allocated (h : k.result n = some a) : a ∉ allocated k n := by
  rw [mem_allocated_iff]
  rintro ⟨i, hi, ha⟩
  exact hi.ne (k.fresh ha h)

theorem loaded_unloaded (k : Kzalloc) (text : Option (List Char)) : Loaded k text 0 unloaded where
  ring := Nodes.ring_empty ⟨rfl, rfl⟩
  contents_eq := fun _ hi => absurd hi (Nat.not_lt_zero _)
  mem_of_isSome := fun _ h => by cases h

/-- A failed allocation is not noticed before the access to `NULL`. -/
theorem allocEle_none (h : s.heap 0 = none) (id : Int32) : s.allocEle none id text = none := by
  simp [allocEle, kzalloc, store, h]

theorem allocEle_some (ha : a ≠ 0) (id : Int32) : s.allocEle (some a) id text =
    nodes.addTail (s.put a ⟨id, text, .null, .null⟩) (.element a) .myList := by
  simp [allocEle, kzalloc, store, put, ha]

theorem isSome_links_put (s : State) (a : ℕ) (e : Element) :
    (nodes.links (s.put a e) (.element a)).isSome := by
  simp [nodes, links, put]

theorem contents_put_self (s : State) (a : ℕ) (e : Element) :
    (s.put a e).contents a = some (e.id, e.texte) := by
  simp [contents, put]

theorem contents_put_of_ne {b : ℕ} (h : b ≠ a) (e : Element) :
    (s.put a e).contents b = s.contents b := by
  simp only [contents, put, Function.update_of_ne h]

theorem ring_put {as : List ℕ} (h : nodes.Ring s .myList (as.map .element)) (ha : a ∉ as)
    (e : Element) : nodes.Ring (s.put a e) .myList (as.map .element) := by
  refine h.congr fun x hx => ?_
  cases x with
  | null => rfl
  | myList => rfl
  | element b =>
    have hb : b ∈ as := by simpa using hx
    have hne : b ≠ a := fun heq => ha (heq ▸ hb)
    simp only [nodes, links, put, Function.update_of_ne hne]

theorem contents_setLinks (s : State) (n : Node) (l : Links Node) :
    (s.setLinks n l).contents = s.contents := by
  ext1 b
  cases n with
  | null => rfl
  | myList => rfl
  | element a =>
    simp only [contents, setLinks]
    rcases eq_or_ne b a with rfl | hne
    · rw [Function.update_self, Option.map_map]
      rfl
    · rw [Function.update_of_ne hne]

theorem loaded_allocEle (h : Loaded k text n s) (ha : k.result n = some a) :
    ∃ s', s.allocEle (k.result n) (Int32.ofNat n) text = some s' ∧ Loaded k text (n + 1) s' := by
  rw [ha, allocEle_some (k.ne_zero ha)]
  have hfresh := notMem_allocated ha
  have hnode : Node.element a ∉ Node.myList :: (allocated k n).map .element := by simpa using hfresh
  obtain ⟨s', hadd, hring⟩ := (ring_put h.ring hfresh _).addTail (isSome_links_put s a _) hnode
  have hcontents := Nodes.addTail_frame contents_setLinks hadd
  refine ⟨s', hadd, ?_, ?_, ?_⟩
  · rwa [allocated_succ ha, List.map_append, List.map_singleton]
  · intro i hi b hb
    rw [hcontents]
    rcases Nat.lt_succ_iff_lt_or_eq.mp hi with hlt | rfl
    · have hne : b ≠ a := by
        rintro rfl
        exact hlt.ne (k.fresh hb ha)
      rw [contents_put_of_ne hne]
      exact h.contents_eq i hlt b hb
    · obtain rfl : b = a := Option.some.inj (hb.symm.trans ha)
      exact contents_put_self s b _
  · intro b hb
    rw [hcontents] at hb
    rw [allocated_succ ha, List.mem_append, List.mem_singleton]
    rcases eq_or_ne b a with rfl | hne
    · exact .inr rfl
    · rw [contents_put_of_ne hne] at hb
      exact .inl (h.mem_of_isSome b hb)

theorem Loaded.heap_eq_none (h : Loaded k text n s) (ha : a ∉ allocated k n) :
    s.heap a = none := by
  by_contra hsome
  refine ha (h.mem_of_isSome a ?_)
  rwa [contents, Option.isSome_map, Option.isSome_iff_ne_none]

theorem Loaded.heap_zero (h : Loaded k text n s) : s.heap 0 = none := by
  refine h.heap_eq_none fun hmem => ?_
  obtain ⟨i, -, hi⟩ := mem_allocated_iff.mp hmem
  exact k.ne_zero hi rfl

/-- The loop comes to its end exactly if no allocation fails, and leaves the list loaded then. -/
theorem exists_allocAll_iff {left : ℕ} (h : Loaded k text i s) :
    (∃ s', s.allocAll k text i left = some s' ∧ Loaded k text (i + left) s') ↔
      ∀ j < left, (k.result (i + j)).isSome := by
  induction left generalizing i s with
  | zero => exact iff_of_true ⟨s, rfl, h⟩ fun j hj => absurd hj (Nat.not_lt_zero j)
  | succ left ih =>
    rw [allocAll, Nat.forall_lt_succ_left, Nat.add_zero]
    cases hk : k.result i with
    | none =>
      rw [allocEle_none h.heap_zero]
      simp
    | some a =>
      obtain ⟨s₁, hs₁, hloaded⟩ := loaded_allocEle h hk
      rw [← hk, hs₁, Option.bind_some, hk, Option.isSome_some]
      have hshift : i + (left + 1) = i + 1 + left := by omega
      rw [hshift, ih hloaded]
      simp only [Nat.add_right_comm, Nat.add_assoc, true_and]

end Load

end State

end CSEL1.KernelList
