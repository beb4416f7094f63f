import CSEL1.Memory.Chain
import CSEL1.Transition.Basic

/-! # A linked list that leaks

The demonstration program allocates elements at the end of a singly linked list, with two
functions in turn that number their elements on their own, and frees elements at its front.
An access to an address without an element gives no result, as does the release of such an
address.
-/

namespace CSEL1.MemLeaks

open Memory Transition

structure Alpha where
  attr : Int32
  next : ℕ
  deriving DecidableEq, Repr

/-- The allocated elements by their addresses and the static variables of the functions. -/
structure State where
  heap : ℕ → Option Alpha
  root : ℕ
  cnt1 : Int32
  cnt2 : Int32
  x : Int32

/-- A call of `alloc` comes with the result of `malloc` and what the memory held before. -/
inductive Call
  | alloc (result : ℕ) (garbage : Alpha)
  | dealloc
  deriving DecidableEq, Repr

namespace State

def start : State := ⟨fun _ => none, 0, 0, 0, 0⟩

def next (s : State) (a : ℕ) : Option ℕ := (s.heap a).map Alpha.next

def attr (s : State) (a : ℕ) : Option Int32 := (s.heap a).map Alpha.attr

def store (s : State) (a : ℕ) (f : Alpha → Alpha) : Option State :=
  (s.heap a).map fun e => { s with heap := Function.update s.heap a (some (f e)) }

/-- The result of `malloc` is 0 when there is no memory. -/
def malloc (s : State) (result : ℕ) (garbage : Alpha) : State :=
  { s with heap := if result = 0 then s.heap else Function.update s.heap result (some garbage) }

def free (s : State) (ele : ℕ) : Option State :=
  if ele = 0 then some s
  else (s.heap ele).map fun _ => { s with heap := Function.update s.heap ele none }

/-- What `alloc1` and `alloc2` do with their element and the value of their counter. -/
def append (fuel : ℕ) (ele : ℕ) (cnt : Int32) (s : State) : Option State := do
  let s ← s.store ele ({ · with next := 0 })
  let s ← s.store ele ({ · with attr := cnt })
  if s.root = 0 then some { s with root := ele }
  else
    let n ← walk s.next 0 fuel s.root
    s.store n ({ · with next := ele })

def alloc1 (fuel : ℕ) (result : ℕ) (garbage : Alpha) (s : State) : Option State :=
  append fuel result s.cnt1 { s.malloc result garbage with cnt1 := s.cnt1 + 1 }

def alloc2 (fuel : ℕ) (result : ℕ) (garbage : Alpha) (s : State) : Option State :=
  append fuel result s.cnt2 { s.malloc result garbage with cnt2 := s.cnt2 + 1 }

def alloc (fuel : ℕ) (result : ℕ) (garbage : Alpha) (s : State) : Option State := do
  let s ← if s.x = 0 then s.alloc1 fuel result garbage else s.alloc2 fuel result garbage
  some { s with x := (s.x + 1) % 2 }

def dealloc (s : State) : Option State := do
  let ele := s.root
  let s ← if s.root ≠ 0 then (s.next ele).map fun n => { s with root := n } else some s
  s.free ele

/-- The fuel bounds the rounds of the walk to the last element. -/
def call? (fuel : ℕ) (s : State) : Call → Option State
  | .alloc result garbage => s.alloc fuel result garbage
  | .dealloc => s.dealloc

/-- After a faulty access there is no state any more. -/
def step (fuel : ℕ) (s : Option State) (c : Call) : Option State := s.bind (·.call? fuel c)

end State

/-- What the list is for: a queue of values, each of which is given out twice. -/
structure Numbers where
  items : List Int32
  count : ℕ
  deriving DecidableEq, Repr

namespace Numbers

def empty : Numbers := ⟨[], 0⟩

def step (q : Numbers) : Call → Numbers
  | .alloc _ _ => ⟨q.items ++ [Int32.ofNat (q.count / 2)], q.count + 1⟩
  | .dealloc => { q with items := q.items.tail }

end Numbers

namespace State

/-- The static variables after some number of calls of `alloc`. -/
structure Counters (s : State) (count : ℕ) : Prop where
  cnt1_eq : s.cnt1 = Int32.ofNat ((count + 1) / 2)
  cnt2_eq : s.cnt2 = Int32.ofNat (count / 2)
  x_eq : s.x = Int32.ofNat (count % 2)

/--
The elements of the list lie at these addresses, hold the values of the queue and are the only ones
that are allocated.
-/
structure Holds (s : State) (as : List ℕ) (q : Numbers) : Prop where
  chain : Chain s.next 0 s.root as
  attrs : as.map s.attr = q.items.map some
  live : ∀ a, (s.heap a).isSome → a ∈ as
  counters : s.Counters q.count

section Stores

variable {s : State} {a : ℕ} {e : Alpha} {f : Alpha → Alpha}

def put (s : State) (a : ℕ) (e : Alpha) : State :=
  { s with heap := Function.update s.heap a (some e) }

theorem store_eq (h : s.heap a = some e) (f : Alpha → Alpha) :
    s.store a f = some (s.put a (f e)) := by
  rw [store, h, Option.map_some, put]

@[simp] theorem put_heap_self (s : State) (a : ℕ) (e : Alpha) : (s.put a e).heap a = some e :=
  Function.update_self ..

@[simp] theorem put_put (s : State) (a : ℕ) (e e' : Alpha) : (s.put a e).put a e' = s.put a e' := by
  simp [put]

theorem next_put (s : State) (a : ℕ) (e : Alpha) :
    (s.put a e).next = Function.update s.next a (some e.next) :=
  Function.comp_update (Option.map Alpha.next) s.heap a (some e)

theorem attr_put (s : State) (a : ℕ) (e : Alpha) :
    (s.put a e).attr = Function.update s.attr a (some e.attr) :=
  Function.comp_update (Option.map Alpha.attr) s.heap a (some e)

theorem isSome_next : (s.next a).isSome = (s.heap a).isSome := Option.isSome_map

theorem isSome_attr : (s.attr a).isSome = (s.heap a).isSome := Option.isSome_map

end Stores

section Calls

variable {s : State} {as : List ℕ} {ele fuel : ℕ}

theorem exists_append (h : Chain s.next 0 s.root as) (hele : (s.heap ele).isSome) (hne : ele ≠ 0)
    (hfresh : ele ∉ as) (hfuel : as.length ≤ fuel) (cnt : Int32) :
    ∃ s', s.append fuel ele cnt = some s' ∧ Chain s'.next 0 s'.root (as ++ [ele]) ∧
      s'.attr = Function.update s.attr ele (some cnt) ∧
      s'.cnt1 = s.cnt1 ∧ s'.cnt2 = s.cnt2 ∧ s'.x = s.x := by
  obtain ⟨e, he⟩ := Option.isSome_iff_exists.mp hele
  have hstores : s.append fuel ele cnt =
      if s.root = 0 then some { s.put ele ⟨cnt, 0⟩ with root := ele }
      else (walk (s.put ele ⟨cnt, 0⟩).next 0 fuel s.root).bind fun n =>
        (s.put ele ⟨cnt, 0⟩).store n ({ · with next := ele }) := by
    simp only [append, store_eq he, store_eq (put_heap_self s ele _), put_put, Option.bind_eq_bind,
      Option.bind_some]
    rfl
  have hchain : Chain (s.put ele ⟨cnt, 0⟩).next 0 s.root as := by
    rw [next_put]
    exact h.update_of_notMem hfresh _
  have hnew : (s.put ele ⟨cnt, 0⟩).next ele = some 0 := by rw [next_put, Function.update_self]
  rw [hstores]
  rcases List.eq_nil_or_concat' as with rfl | ⟨front, last, rfl⟩
  · rw [if_pos (h.null_iff.mpr rfl)]
    refine ⟨_, rfl, ?_, attr_put s ele _, rfl, rfl, rfl⟩
    exact .cons hne hnew .nil
  · have hroot : s.root ≠ 0 := fun heq => by simpa using h.null_iff.mp heq
    have hlen : front.length < fuel := by
      rw [List.length_append, List.length_singleton] at hfuel
      omega
    have hlast : ((s.put ele ⟨cnt, 0⟩).heap last).isSome := by
      rw [← isSome_next]
      exact hchain.isSome_next (by simp)
    obtain ⟨l, hl⟩ := Option.isSome_iff_exists.mp hlast
    rw [if_neg hroot, hchain.walk_eq hlen, Option.bind_some, store_eq hl]
    refine ⟨_, rfl, ?_, ?_, rfl, rfl, rfl⟩
    · rw [next_put, List.append_assoc, List.singleton_append]
      exact hchain.snoc hnew hne hfresh
    · have hsame : (s.put ele ⟨cnt, 0⟩).attr last = some l.attr := by rw [attr, hl, Option.map_some]
      rw [attr_put, ← attr_put s ele ⟨cnt, 0⟩]
      exact Function.update_eq_self_iff.mpr hsame.symm

theorem exists_append_malloc {q : Numbers} (h : s.Holds as q) (hfree : s.heap ele = none)
    (hne : ele ≠ 0) (hfuel : as.length ≤ fuel) (garbage : Alpha) (cnt : Int32) {t : State}
    (hheap : t.heap = (s.malloc ele garbage).heap) (hroot : t.root = s.root) :
    ∃ s', t.append fuel ele cnt = some s' ∧ Chain s'.next 0 s'.root (as ++ [ele]) ∧
      (as ++ [ele]).map s'.attr = (q.items ++ [cnt]).map some ∧
      (∀ a, (s'.heap a).isSome → a ∈ as ++ [ele]) ∧
      s'.cnt1 = t.cnt1 ∧ s'.cnt2 = t.cnt2 ∧ s'.x = t.x := by
  have hmalloc : (s.malloc ele garbage).heap = (s.put ele garbage).heap := if_neg hne
  have hfresh : ele ∉ as := by
    intro hmem
    have hsome := h.chain.isSome_next hmem
    rw [isSome_next, hfree] at hsome
    cases hsome
  have hnext : t.next = Function.update s.next ele (some garbage.next) := by
    rw [← next_put]
    funext a
    rw [next, next, hheap, hmalloc]
  have hattr : t.attr = Function.update s.attr ele (some garbage.attr) := by
    rw [← attr_put]
    funext a
    rw [attr, attr, hheap, hmalloc]
  have hele : (t.heap ele).isSome := by rw [hheap, hmalloc, put_heap_self, Option.isSome_some]
  have hchain : Chain t.next 0 t.root as := by
    rw [hnext, hroot]
    exact h.chain.update_of_notMem hfresh _
  obtain ⟨s', hs', hchain', hattr', hcnt1, hcnt2, hx⟩ :=
    exists_append hchain hele hne hfresh hfuel cnt
  rw [hattr, Function.update_idem] at hattr'
  refine ⟨s', hs', hchain', ?_, ?_, hcnt1, hcnt2, hx⟩
  · rw [List.map_append, List.map_append, ← h.attrs, hattr', List.map_singleton,
      Function.update_self, List.map_singleton]
    congr 1
    refine List.map_congr_left fun a ha => Function.update_of_ne ?_ _ _
    rintro rfl
    exact hfresh ha
  · intro a ha
    rw [← isSome_attr, hattr'] at ha
    rcases eq_or_ne a ele with rfl | hane
    · simp
    · rw [Function.update_of_ne hane, isSome_attr] at ha
      exact List.mem_append_left _ (h.live a ha)

theorem ofNat_succ (n : ℕ) : Int32.ofNat n + 1 = Int32.ofNat (n + 1) := (Int32.ofNat_add n 1).symm

/-- The counter whose turn it is has the next value of the queue, and is the one that moves on. -/
theorem Counters.alloc_eq {n : ℕ} (h : s.Counters n) (fuel ele : ℕ) (garbage : Alpha) :
    s.alloc fuel ele garbage =
      (append fuel ele (Int32.ofNat (n / 2))
        { s.malloc ele garbage with
          cnt1 := Int32.ofNat ((n + 1 + 1) / 2)
          cnt2 := Int32.ofNat ((n + 1) / 2) }).map
        fun t => { t with x := (t.x + 1) % 2 } := by
  rcases Nat.mod_two_eq_zero_or_one n with heven | hodd
  · have hx : s.x = 0 := by rw [h.x_eq, heven]; rfl
    have hhalf : (n + 1) / 2 = n / 2 := by omega
    have hnext : (n + 1 + 1) / 2 = n / 2 + 1 := by omega
    rw [State.alloc, if_pos hx, alloc1, h.cnt1_eq, hhalf, hnext, ofNat_succ, ← h.cnt2_eq,
      Option.map_eq_bind]
    rfl
  · have hx : s.x ≠ 0 := by rw [h.x_eq, hodd]; decide
    have hhalf : (n + 1) / 2 = n / 2 + 1 := by omega
    have hnext : (n + 1 + 1) / 2 = n / 2 + 1 := by omega
    rw [State.alloc, if_neg hx, alloc2, h.cnt2_eq, hhalf, hnext, ofNat_succ, ← hhalf, ← h.cnt1_eq,
      Option.map_eq_bind]
    rfl

theorem mod_two_succ (n : ℕ) :
    (Int32.ofNat (n % 2) + 1) % 2 = Int32.ofNat ((n + 1) % 2) := by
  rcases Nat.mod_two_eq_zero_or_one n with h | h
  · rw [Nat.add_mod, h]; rfl
  · rw [Nat.add_mod, h]; rfl

theorem Holds.alloc {q : Numbers} (h : s.Holds as q) (hfree : s.heap ele = none) (hne : ele ≠ 0)
    (hfuel : as.length ≤ fuel) (garbage : Alpha) :
    ∃ s', s.alloc fuel ele garbage = some s' ∧
      s'.Holds (as ++ [ele]) (q.step (.alloc ele garbage)) := by
  obtain ⟨t, ht, hchain, hattrs, hlive, hcnt1, hcnt2, hx⟩ :=
    exists_append_malloc h hfree hne hfuel garbage (Int32.ofNat (q.count / 2))
      (t := { s.malloc ele garbage with
        cnt1 := Int32.ofNat ((q.count + 1 + 1) / 2)
        cnt2 := Int32.ofNat ((q.count + 1) / 2) }) rfl rfl
  have hxs : (s.malloc ele garbage).x = Int32.ofNat (q.count % 2) := h.counters.x_eq
  refine ⟨{ t with x := (t.x + 1) % 2 }, ?_, hchain, hattrs, hlive, ⟨hcnt1, hcnt2, ?_⟩⟩
  · rw [h.counters.alloc_eq, ht, Option.map_some]
  · change (t.x + 1) % 2 = _
    rw [hx, hxs, mod_two_succ]
    rfl

theorem Holds.heap_zero {q : Numbers} (h : s.Holds as q) : s.heap 0 = none := by
  by_contra hsome
  exact h.chain.ne_null (h.live 0 (Option.isSome_iff_ne_none.mpr hsome)) rfl

theorem Holds.alloc_zero {q : Numbers} (h : s.Holds as q) (fuel : ℕ) (garbage : Alpha) :
    s.alloc fuel 0 garbage = none := by
  have hstore : ∀ t : State, t.heap 0 = none → ∀ cnt, t.append fuel 0 cnt = none := by
    intro t ht cnt
    rw [append, store, ht]
    rfl
  rw [h.counters.alloc_eq, Option.map_eq_none_iff]
  exact hstore _ (by simpa [malloc] using h.heap_zero) _

theorem Holds.dealloc {q : Numbers} (h : s.Holds as q) :
    ∃ s', s.dealloc = some s' ∧ s'.Holds as.tail (q.step .dealloc) := by
  cases as with
  | nil =>
    have hroot : s.root = 0 := h.chain.null_iff.mpr rfl
    have hitems : q.items = [] := by simpa using h.attrs.symm
    refine ⟨s, by simp [State.dealloc, free, hroot], h.chain, ?_, h.live, h.counters⟩
    simp [Numbers.step, hitems]
  | cons a as =>
    obtain ⟨hroot, hne, b, hnext, hrest⟩ := h.chain.of_cons
    obtain ⟨hfirst, hnodup⟩ := List.nodup_cons.mp h.chain.nodup
    have hsome : (s.heap a).isSome := by rw [← isSome_next, hnext, Option.isSome_some]
    obtain ⟨e, he⟩ := Option.isSome_iff_exists.mp hsome
    have hother : ∀ c ∈ as, Function.update s.heap a none c = s.heap c := by
      intro c hc
      exact Function.update_of_ne (fun heq : c = a => hfirst (heq ▸ hc)) _ _
    refine ⟨{ s with root := b, heap := Function.update s.heap a none }, ?_, ?_, ?_, ?_, ?_⟩
    · simp [State.dealloc, free, hroot, hne, hnext, he]
    · exact hrest.congr fun c hc => congrArg (Option.map Alpha.next) (hother c hc)
    · have hattrs := congrArg List.tail h.attrs
      rw [List.map_cons, List.tail_cons, ← List.map_tail] at hattrs
      rw [List.tail_cons, Numbers.step, ← hattrs]
      exact List.map_congr_left fun c hc => congrArg (Option.map Alpha.attr) (hother c hc)
    · intro c hc
      have hca : c ≠ a := by
        rintro rfl
        simp at hc
      have hlive : (Function.update s.heap a none c).isSome := hc
      rw [Function.update_of_ne hca] at hlive
      exact (List.mem_cons.mp (h.live c hlive)).resolve_left hca
    · exact ⟨h.counters.cnt1_eq, h.counters.cnt2_eq, h.counters.x_eq⟩

end Calls

/-- `malloc` fails or returns memory that is not in use. -/
def Fresh (s : Option State) : Call → Prop
  | .alloc result _ => result ≠ 0 → s.bind (·.heap result) = none
  | .dealloc => True

instance (s : Option State) (c : Call) : Decidable (Fresh s c) := by
  cases c <;> unfold Fresh <;> infer_instance

section Runs

variable {s : State} {as : List ℕ} {q : Numbers} {fuel : ℕ} {calls : List Call}

theorem run_none (fuel : ℕ) (calls : List Call) : run (step fuel) none calls = none := by
  induction calls with
  | nil => rfl
  | cons c calls ih => exact ih

/-- A call keeps the list a queue, or is the failed allocation that ends the program. -/
theorem Holds.call (h : s.Holds as q) (c : Call) (hfresh : Fresh (some s) c)
    (hfuel : as.length ≤ fuel) :
    ((∃ g, c = .alloc 0 g) ∧ step fuel (some s) c = none) ∨
      ((∀ g, c ≠ .alloc 0 g) ∧ ∃ s' as', step fuel (some s) c = some s' ∧
        s'.Holds as' (q.step c) ∧ as'.length ≤ as.length + 1) := by
  cases c with
  | alloc result garbage =>
    rcases eq_or_ne result 0 with rfl | hne
    · exact Or.inl ⟨⟨garbage, rfl⟩, h.alloc_zero fuel garbage⟩
    · obtain ⟨s', hs', hholds⟩ := h.alloc (hfresh hne) hne hfuel garbage
      refine Or.inr ⟨fun g hg => hne (Call.alloc.inj hg).1, s', _, hs', hholds, ?_⟩
      rw [List.length_append, List.length_singleton]
  | dealloc =>
    obtain ⟨s', hs', hholds⟩ := h.dealloc
    refine Or.inr ⟨nofun, s', _, hs', hholds, ?_⟩
    rw [List.length_tail]
    omega

theorem Holds.run (h : s.Holds as q) (hfresh : Along (step fuel) Fresh (some s) calls)
    (hfuel : as.length + calls.length ≤ fuel) :
    ((∃ g, .alloc 0 g ∈ calls) ∧ Transition.run (step fuel) (some s) calls = none) ∨
      ((∀ g, .alloc 0 g ∉ calls) ∧ ∃ s' as', Transition.run (step fuel) (some s) calls = some s' ∧
        s'.Holds as' (Transition.run Numbers.step q calls)) := by
  induction calls generalizing s as q with
  | nil => exact Or.inr ⟨fun _ => List.not_mem_nil, s, as, rfl, h⟩
  | cons c calls ih =>
    obtain ⟨hc, hrest⟩ := hfresh
    rw [List.length_cons] at hfuel
    have hlen : as.length ≤ fuel := by omega
    rcases h.call c hc hlen with ⟨⟨g, hg⟩, hstep⟩ | ⟨hnull, s', as', hstep, hholds, hlen'⟩
    · left
      refine ⟨⟨g, by rw [hg]; exact List.mem_cons_self⟩, ?_⟩
      rw [run_cons, hstep, run_none]
    · rw [hstep] at hrest
      rw [run_cons, hstep, run_cons]
      rcases ih hholds hrest (by omega) with ⟨⟨g, hg⟩, hnone⟩ | ⟨hall, hsome⟩
      · exact Or.inl ⟨⟨g, List.mem_cons_of_mem c hg⟩, hnone⟩
      · refine Or.inr ⟨fun g hg => ?_, hsome⟩
        rcases List.mem_cons.mp hg with hg | hg
        · exact hnull g hg.symm
        · exact hall g hg

theorem holds_start : start.Holds [] Numbers.empty where
  chain := .nil
  attrs := rfl
  live _ h := by cases h
  counters := ⟨rfl, rfl, rfl⟩

end Runs

end State

open State

/--
Whatever calls of `alloc` and `dealloc` are made, the program goes on exactly until an allocation
fails, and the list is the queue of the numbers: its elements hold them in order, lie at different
addresses and are all the memory in use.
-/
theorem run_refines_numbers {fuel : ℕ} {calls : List Call}
    (hfresh : Along (step fuel) Fresh (some start) calls) (hfuel : calls.length ≤ fuel) :
    ((run (step fuel) (some start) calls).isSome ↔ ∀ g, .alloc 0 g ∉ calls) ∧
      ∀ s, run (step fuel) (some start) calls = some s →
        ∃ as : List ℕ, Chain s.next 0 s.root as ∧
          as.map s.attr = (run Numbers.step Numbers.empty calls).items.map some ∧ as.Nodup ∧
          ∀ a, (s.heap a).isSome ↔ a ∈ as := by
  rcases holds_start.run hfresh (by simpa using hfuel) with ⟨⟨g, hg⟩, hnone⟩ | ⟨hall, s, as, hs, h⟩
  · rw [hnone]
    refine ⟨iff_of_false (by simp) fun hall => hall g hg, fun s hs => by cases hs⟩
  · rw [hs]
    refine ⟨iff_of_true rfl hall, ?_⟩
    rintro s' hs'
    obtain rfl := Option.some.inj hs'
    refine ⟨as, h.chain, h.attrs, h.chain.nodup, fun a => ⟨h.live a, fun ha => ?_⟩⟩
    rw [← isSome_next]
    exact h.chain.isSome_next ha

/-- Three elements, of which the first is freed; its memory is used again. -/
theorem run_refines_numbers_reuse :
    (run (step 5) (some start) [.alloc 8 ⟨7, 7⟩, .alloc 16 ⟨7, 7⟩, .alloc 24 ⟨7, 7⟩, .dealloc,
      .alloc 8 ⟨0, 16⟩]).isSome := by
  refine (run_refines_numbers ?_ (by decide)).1.mpr (by simp)
  decide

end CSEL1.MemLeaks
