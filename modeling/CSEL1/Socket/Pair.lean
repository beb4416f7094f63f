import CSEL1.Socket.Basic
import CSEL1.Transition.Basic

/-! # The socket pair

The child writes its messages one after the other and closes its end. Meanwhile the parent
reads, and gets some of the bytes that are there, waits for more or is told the end. What
it can get in this way are the cuts of the stream, and nothing else.
-/

namespace CSEL1.Socket

open Transition

/-- The writes still to come, the bytes in the stream, and what the reads have returned. -/
structure Pair where
  todo : List (List Char)
  stream : List Char
  closed : Bool
  reads : List (List Char)
  deriving DecidableEq, Repr

/-- A step of the child, or a read for which the socket has at most `n + 1` bytes. -/
inductive Event
  | child
  | read (n : ℕ)
  deriving DecidableEq, Repr

namespace Pair

/-- The child writes, and closes its end behind the last message. -/
def write (s : Pair) : Pair :=
  match s.todo with
  | [] => { s with closed := true }
  | text :: todo => { s with todo := todo, stream := s.stream ++ text }

/-- A read from an empty stream waits as long as the other end is open. -/
def readSome (s : Pair) (n : ℕ) : Pair :=
  if s.stream = [] then
    if s.closed then { s with reads := s.reads ++ [[]] } else s
  else
    let count := min (n + 1) 1024
    { s with stream := s.stream.drop count, reads := s.reads ++ [s.stream.take count] }

def step (s : Pair) : Event → Pair
  | .child => s.write
  | .read n => s.readSome n

def start (k : ℕ) : Pair := ⟨child (k + 1), [], false, []⟩

/-- The bytes are where they were or further on, and only the end is read as nothing. -/
structure Delivered (k : ℕ) (s : Pair) : Prop where
  conserved : s.reads.flatten ++ (s.stream ++ s.todo.flatten) = (child (k + 1)).flatten
  fits : ∀ r ∈ s.reads, r.length ≤ 1024
  closed : s.closed = true → s.todo = []
  ended : ∃ rs m, s.reads = rs ++ List.replicate m [] ∧ (∀ r ∈ rs, r ≠ []) ∧
    (m = 0 ∨ s.stream = [] ∧ s.closed = true)

section Runs

variable {k n : ℕ} {s : Pair}

theorem delivered_start (k : ℕ) : (start k).Delivered k where
  conserved := rfl
  fits := nofun
  closed := nofun
  ended := ⟨[], 0, rfl, nofun, .inl rfl⟩

theorem delivered_write (h : s.Delivered k) : s.write.Delivered k := by
  obtain ⟨rs, m, hreads, hne, hend⟩ := h.ended
  have hconserved := h.conserved
  rw [write]
  split
  · next htodo =>
    refine ⟨hconserved, h.fits, fun _ => htodo, rs, m, hreads, hne, ?_⟩
    exact hend.imp_right fun hempty => ⟨hempty.1, rfl⟩
  · next text todo htodo =>
    have hopen : ¬ s.closed = true := by
      intro hclosed
      rw [h.closed hclosed] at htodo
      cases htodo
    refine ⟨?_, h.fits, fun hclosed => absurd hclosed hopen, rs, m, hreads, hne, ?_⟩
    · rwa [htodo, List.flatten_cons, ← List.append_assoc s.stream] at hconserved
    · exact .inl (hend.resolve_right fun hempty => hopen hempty.2)

theorem delivered_readSome (h : s.Delivered k) (n : ℕ) : (s.readSome n).Delivered k := by
  obtain ⟨rs, m, hreads, hne, hend⟩ := h.ended
  rw [readSome]
  split_ifs with hstream hclosed
  · refine ⟨?_, ?_, h.closed, rs, m + 1, ?_, hne, .inr ⟨hstream, hclosed⟩⟩
    · rw [List.flatten_append, List.flatten_singleton, List.append_nil]
      exact h.conserved
    · exact List.forall_mem_append.mpr ⟨h.fits, List.forall_mem_singleton.mpr (Nat.zero_le 1024)⟩
    · rw [hreads, List.append_assoc, List.replicate_succ']
  · exact h
  · have hm : m = 0 := hend.resolve_right fun hempty => hstream hempty.1
    have htake : s.stream.take (min (n + 1) 1024) ≠ [] := by
      rw [Ne, List.take_eq_nil_iff]
      rintro (hzero | hnil)
      · omega
      · exact hstream hnil
    have hshort : (s.stream.take (min (n + 1) 1024)).length ≤ 1024 := by
      rw [List.length_take]
      omega
    have hrs : s.reads = rs := by rw [hreads, hm, List.replicate_zero, List.append_nil]
    refine ⟨?_, ?_, h.closed, rs ++ [s.stream.take (min (n + 1) 1024)], 0, ?_, ?_, .inl rfl⟩
    · rw [List.flatten_append, List.flatten_singleton, List.append_assoc,
        ← List.append_assoc (s.stream.take _), List.take_append_drop]
      exact h.conserved
    · exact List.forall_mem_append.mpr ⟨h.fits, List.forall_mem_singleton.mpr hshort⟩
    · rw [hrs, List.replicate_zero, List.append_nil]
    · exact List.forall_mem_append.mpr ⟨hne, List.forall_mem_singleton.mpr htake⟩

theorem delivered_run (h : s.Delivered k) (es : List Event) : (run step s es).Delivered k := by
  induction es generalizing s with
  | nil => exact h
  | cons e es ih =>
    cases e with
    | child => exact ih (delivered_write h)
    | read n => exact ih (delivered_readSome h n)

/-- The reads of a run so far, and the rest of the stream byte by byte. -/
theorem exists_cut (h : s.Delivered k) : ∃ c : Cut (child (k + 1)).flatten,
    s.reads = (List.range s.reads.length).map c.read := by
  obtain ⟨rs, m, hreads, hne, hend⟩ := h.ended
  have hfits := h.fits
  have hconserved := h.conserved
  rw [hreads, List.flatten_append, List.flatten_replicate_nil, List.append_nil] at hconserved
  rw [hreads] at hfits
  have hrest := List.flatMap_singleton' (s.stream ++ s.todo.flatten)
  generalize hbytes : s.stream ++ s.todo.flatten = bytes at hconserved hrest
  have hflatten : (rs ++ bytes.map fun x => [x]).flatten = (child (k + 1)).flatten := by
    rw [List.flatten_append, ← List.flatMap_def, hrest, hconserved]
  refine ⟨⟨rs ++ bytes.map fun x => [x], hflatten, ?_, ?_⟩, ?_⟩
  · refine List.forall_mem_append.mpr ⟨hne, List.forall_mem_map.mpr fun x _ => ?_⟩
    exact List.cons_ne_nil x []
  · refine List.forall_mem_append.mpr ⟨?_, List.forall_mem_map.mpr fun x _ => ?_⟩
    · exact (List.forall_mem_append.mp hfits).1
    · exact Nat.le_add_left 1 1023
  · refine List.ext_getElem (by simp) fun i hi _ => ?_
    rw [List.getElem_map, List.getElem_range, Cut.read, List.getElem_of_eq hreads]
    rcases Nat.lt_or_ge i rs.length with hlt | hge
    · rw [List.getElem_append_left hlt, List.getD_append _ _ _ _ hlt, List.getD_eq_getElem _ _ hlt]
    · -- the read was told the end, so nothing is left
      have hempty : bytes = [] := by
        rcases hend with hm | ⟨hstream, hclosed⟩
        · rw [hreads, hm, List.replicate_zero, List.append_nil] at hi
          omega
        · rw [← hbytes, hstream, h.closed hclosed]
          rfl
      have hlen : (rs ++ bytes.map fun x => [x]).length ≤ i := by
        rwa [hempty, List.map_nil, List.append_nil]
      rw [List.getElem_append_right hge, List.getElem_replicate, List.getD_eq_default _ _ hlen]

theorem run_child (todo : List (List Char)) (stream : List Char) :
    run step ⟨todo, stream, false, []⟩ (List.replicate (todo.length + 1) .child) =
      ⟨[], stream ++ todo.flatten, true, []⟩ := by
  induction todo generalizing stream with
  | nil => rw [List.flatten_nil, List.append_nil]; rfl
  | cons text todo ih =>
    rw [List.length_cons, List.replicate_succ, run_cons, List.flatten_cons, ← List.append_assoc]
    exact ih (stream ++ text)

theorem run_reads (c : Cut (child (k + 1)).flatten) (n : ℕ) :
    run step ⟨[], (child (k + 1)).flatten, true, []⟩
        ((List.range n).map fun i => .read ((c.read i).length - 1)) =
      ⟨[], (c.reads.drop n).flatten, true, (List.range n).map c.read⟩ := by
  induction n with
  | zero => rw [List.drop_zero, c.flatten_eq]; rfl
  | succ n ih =>
    rw [List.range_succ, List.map_append, run_append, ih, List.map_append, List.map_singleton,
      List.map_singleton, run_cons, run_nil, step, readSome]
    rcases Nat.lt_or_ge n c.reads.length with hlt | hge
    · have hread := Cut.read_eq_getElem hlt
      have hstream : (c.reads.drop n).flatten = c.read n ++ (c.reads.drop (n + 1)).flatten := by
        rw [List.drop_eq_getElem_cons hlt, List.flatten_cons, hread]
      have hpos : 0 < (c.read n).length := by
        rw [hread]
        exact List.length_pos_iff.mpr (c.nonempty _ (List.getElem_mem hlt))
      have hcount : min ((c.read n).length - 1 + 1) 1024 = (c.read n).length := by
        have hfits := c.fits_read n
        omega
      have hne : ¬ c.read n ++ (c.reads.drop (n + 1)).flatten = [] := by
        rw [List.append_eq_nil_iff]
        exact fun hnil => hpos.ne' (List.length_eq_zero_iff.mpr hnil.1)
      dsimp only
      rw [hstream, if_neg hne, hcount, List.take_left, List.drop_left]
    · have hread : c.read n = [] := List.getD_eq_default _ _ hge
      rw [List.drop_of_length_le hge, List.drop_of_length_le (Nat.le_succ_of_le hge), hread]
      rfl

/-- The parent's reads in the runs of the pair are the first reads of the cuts of the stream. -/
theorem exists_run_iff (k : ℕ) (rs : List (List Char)) :
    (∃ es, (run step (start k) es).reads = rs) ↔
      ∃ c : Cut (child (k + 1)).flatten, ∃ n, rs = (List.range n).map c.read := by
  constructor
  · rintro ⟨es, rfl⟩
    obtain ⟨c, hc⟩ := exists_cut (delivered_run (delivered_start k) es)
    exact ⟨c, _, hc⟩
  · rintro ⟨c, n, rfl⟩
    refine ⟨List.replicate ((child (k + 1)).length + 1) .child ++
      (List.range n).map fun i => .read ((c.read i).length - 1), ?_⟩
    rw [run_append, start, run_child, List.nil_append, run_reads]

end Runs

end Pair

end CSEL1.Socket
