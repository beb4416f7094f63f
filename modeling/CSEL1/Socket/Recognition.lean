import CSEL1.Socket.Basic
import Mathlib.Data.List.TakeWhile

/-! # When the parent recognises the end

The bytes of the last message occur nowhere else in the stream. The parent finds them if
they start a read, as long as a terminator that was read ends its array up to then. Behind
other bytes of its read the word stands behind a terminator, and a word that is cut is
overwritten by its own end.
-/

namespace CSEL1.Socket

open CText

def messages (k : ℕ) : List Char := (List.replicate k hello).flatten

/-- Whatever the array holds first, the loop ends, and all bytes of the word have been read then. -/
def Cut.Recognises {k : ℕ} (c : Cut (child (k + 1)).flatten) : Prop :=
  ∀ buf, ∃ fuel n, parent c.read fuel 0 buf = .ended n ∧
    messages k ++ exitWord <+: (c.reads.take n).flatten

theorem child_succ (k : ℕ) : child (k + 1) = List.replicate k hello ++ [exitWord ++ ['\x00']] := by
  have hfront : (List.range k).map
      (fun i => if i = k + 1 - 1 then exitWord ++ ['\x00'] else hello) =
        List.replicate k hello := by
    refine List.eq_replicate_iff.mpr ⟨by simp, fun text htext => ?_⟩
    obtain ⟨i, hi, rfl⟩ := List.mem_map.mp htext
    exact if_neg (List.mem_range.mp hi).ne
  rw [child, List.range_succ, List.map_append, hfront, List.map_singleton,
    if_pos (Nat.add_sub_cancel k 1).symm]

theorem stream_eq (k : ℕ) :
    (child (k + 1)).flatten = (messages k ++ ['e', 'x', 'i']) ++ 't' :: ['\x00'] := by
  rw [child_succ, List.flatten_append, List.flatten_singleton, messages, List.append_assoc]
  rfl

theorem t_notMem_front (k : ℕ) : 't' ∉ messages k ++ ['e', 'x', 'i'] := by
  rw [List.mem_append, messages, List.mem_flatten]
  rintro (⟨text, htext, ht⟩ | ht)
  · rw [List.eq_of_mem_replicate htext] at ht
    exact absurd ht (by decide)
  · exact absurd ht (by decide)

namespace Cut

variable {k : ℕ} {c : Cut (child (k + 1)).flatten} {i j m n : ℕ} {u v : List Char}
  {buf : Buffer 1024}

theorem around_t (h : c.read j = u ++ 't' :: v) :
    (c.reads.take j).flatten ++ u = messages k ++ ['e', 'x', 'i'] ∧
      v ++ (c.reads.drop (j + 1)).flatten = ['\x00'] := by
  have hmem : 't' ∈ c.read j := h ▸ List.mem_append_right u List.mem_cons_self
  have hsplit := flatten_split (lt_length_of_mem hmem)
  have hleft : (c.reads.take j).flatten ++ (c.read j ++ (c.reads.drop (j + 1)).flatten) =
      ((c.reads.take j).flatten ++ u) ++ 't' :: (v ++ (c.reads.drop (j + 1)).flatten) := by
    rw [h, List.append_assoc, List.append_assoc, List.cons_append]
  have heq := (stream_eq k).symm.trans (hsplit.symm.trans hleft)
  obtain ⟨hfront, -, hback⟩ :=
    (List.append_cons_inj_of_notMem (t_notMem_front k) (by decide)).mp heq
  exact ⟨hfront.symm, hback.symm⟩

theorem t_unique (hj : 't' ∈ c.read j) (hm : 't' ∈ c.read m) : m = j := by
  obtain ⟨u, v, hread⟩ := List.append_of_mem hj
  obtain ⟨hfront, hback⟩ := around_t hread
  rcases lt_trichotomy m j with hlt | rfl | hgt
  · have hmem := List.mem_append_left u (mem_flatten_take hm hlt)
    rw [hfront] at hmem
    exact absurd hmem (t_notMem_front k)
  · rfl
  · have hmem := List.mem_append_right v (mem_flatten_drop hm hgt)
    rw [hback] at hmem
    exact absurd hmem (by decide)

/-- The word has been read when its last letter has. -/
theorem word_read_iff :
    messages k ++ exitWord <+: (c.reads.take n).flatten ↔ ∃ m < n, 't' ∈ c.read m := by
  constructor
  · intro h
    refine exists_read_of_mem_take (h.subset ?_)
    exact List.mem_append_right _ (by decide)
  · rintro ⟨m, hm, ht⟩
    obtain ⟨u, v, hread⟩ := List.append_of_mem ht
    obtain ⟨hfront, -⟩ := around_t hread
    have hlt := lt_length_of_mem ht
    have htake : (c.reads.take (m + 1)).flatten = (messages k ++ ['e', 'x', 'i']) ++ 't' :: v := by
      rw [List.take_succ_eq_append_getElem hlt, List.flatten_append, List.flatten_singleton,
        ← read_eq_getElem hlt, hread, ← List.append_assoc, hfront]
    have hword : messages k ++ exitWord <+: (c.reads.take (m + 1)).flatten :=
      ⟨v, by rw [htake]; simp [exitWord]⟩
    exact hword.trans (List.take_prefix_take_left (Nat.succ_le_of_lt hm)).flatten

theorem recognises_iff_found : c.Recognises ↔ ∀ buf : Buffer 1024, ∃ n, 0 < n ∧
    Found (buf.after c.read n) ∧ (∀ m, 0 < m → m < n → Missed (buf.after c.read m)) ∧
      ∃ m < n, 't' ∈ c.read m := by
  constructor
  · intro h buf
    obtain ⟨fuel, n, hparent, hword⟩ := h buf
    obtain ⟨hpos, -, hfound, hmissed⟩ := parent_eq_ended_iff.mp hparent
    exact ⟨n, hpos, hfound, hmissed, word_read_iff.mp hword⟩
  · intro h buf
    obtain ⟨n, hpos, hfound, hmissed, ht⟩ := h buf
    have hparent : parent c.read n 0 (buf.after c.read 0) = .ended n :=
      parent_eq_ended_iff.mpr ⟨hpos, by omega, hfound, hmissed⟩
    exact ⟨n, n, hparent, word_read_iff.mpr ht⟩

section Sufficient

theorem cstring_after (buf : Buffer 1024) (h : c.Terminated i) :
    '\x00' ∈ (buf.after c.read (i + 1)).chars ∧
      cstring (buf.after c.read (i + 1)).chars = cstring (received c.read (i + 1)) := by
  have hmem := terminated_iff.mp h
  rw [Buffer.chars_after buf c.fits_read]
  exact ⟨List.mem_append_left _ hmem, cstring_append_of_mem hmem _⟩

theorem found_of_prefix (hword : exitWord <+: c.read j) (h : c.Terminated j) :
    Found (buf.after c.read (j + 1)) := by
  obtain ⟨hmem, hstring⟩ := cstring_after buf h
  obtain ⟨rest, hrest⟩ := hword
  have hchars : ∀ x ∈ exitWord, (x != '\x00') = true := by simp [exitWord]
  refine ⟨hmem, ?_⟩
  rw [hstring, received, ← hrest, List.append_assoc, cstring,
    List.takeWhile_append_of_pos hchars]
  exact (List.prefix_append _ _).isInfix

theorem missed_of_lt (ht : 't' ∈ c.read j) (hij : i < j) (h : c.Terminated i) :
    Missed (buf.after c.read (i + 1)) := by
  obtain ⟨hmem, hstring⟩ := cstring_after buf h
  refine ⟨hmem, fun hinfix => ?_⟩
  rw [hstring] at hinfix
  have hletter : 't' ∈ cstring (received c.read (i + 1)) := hinfix.subset (by decide)
  obtain ⟨m, hm, hread⟩ :=
    exists_read_of_mem_received ((List.takeWhile_prefix _).subset hletter)
  have heq := t_unique ht hread
  omega

theorem recognises_of_heard (h : c.Heard) : c.Recognises := by
  obtain ⟨j, hword, hterminated⟩ := h
  have ht : 't' ∈ c.read j := hword.subset (by decide)
  refine recognises_iff_found.mpr fun buf => ⟨j + 1, Nat.succ_pos j, ?_, ?_, ?_⟩
  · exact found_of_prefix hword (hterminated j le_rfl)
  · intro m hpos hm
    obtain ⟨i, rfl⟩ := Nat.exists_eq_succ_of_ne_zero hpos.ne'
    have hij : i < j := Nat.lt_of_succ_lt_succ hm
    exact missed_of_lt ht hij (hterminated i hij.le)
  · exact ⟨j, Nat.lt_succ_self j, ht⟩

end Sufficient

section Necessary

theorem terminated_of_blanks
    (h : '\x00' ∈ ((Buffer.fill 1024 ' ').after c.read (i + 1)).chars) : c.Terminated i := by
  rw [Buffer.chars_after _ c.fits_read, List.mem_append] at h
  rcases h with h | h
  · exact terminated_iff.mpr h
  · exact absurd (List.eq_of_mem_replicate (List.drop_subset _ _ h)) (by decide)

theorem getElem?_received_of_cstring {p : ℕ} {x : Char}
    (h : (cstring ((Buffer.fill 1024 '\x00').after c.read n).chars)[p]? = some x) :
    (received c.read n)[p]? = some x ∧ x ≠ '\x00' := by
  have hne : x ≠ '\x00' := by simpa using List.mem_takeWhile_imp (List.mem_of_getElem? h)
  have hchars : ((Buffer.fill 1024 '\x00').after c.read n).chars[p]? = some x := by
    rw [← List.takeWhile_append_dropWhile (p := (· != '\x00')) (l := Buffer.chars _)]
    exact List.getElem?_append_left (List.getElem?_eq_some_iff.mp h).1 ▸ h
  rw [Buffer.chars_after _ c.fits_read] at hchars
  rcases Nat.lt_or_ge p (received c.read n).length with hlt | hge
  · rw [List.getElem?_append_left hlt] at hchars
    exact ⟨hchars, hne⟩
  · rw [List.getElem?_append_right hge] at hchars
    exact absurd (List.eq_of_mem_replicate (List.drop_subset _ _ (List.mem_of_getElem? hchars))) hne

theorem last_messages {y : Char} {x : List Char} (h : messages k = x ++ [y]) : y = '\x00' := by
  cases k with
  | zero => simp [messages] at h
  | succ k =>
    have hend : messages (k + 1) = (messages k ++ hello.dropLast) ++ ['\x00'] := by
      rw [messages, List.replicate_succ', List.flatten_append, List.flatten_singleton,
        List.append_assoc]
      rfl
    have hlast := List.append_inj_right' (h.symm.trans hend) rfl
    exact List.head_eq_of_cons_eq hlast

/-- What stands in front of the word in its read is the end of the messages. -/
theorem front_of_word {p : ℕ} (h : (c.read j)[p + 3]? = some 't') : ∃ x v,
    c.read j = x ++ (exitWord ++ v) ∧ x.length = p ∧ (c.reads.take j).flatten ++ x = messages k ∧
      v ++ (c.reads.drop (j + 1)).flatten = ['\x00'] := by
  obtain ⟨hlt, ht⟩ := List.getElem?_eq_some_iff.mp h
  have hread : c.read j = (c.read j).take (p + 3) ++ 't' :: (c.read j).drop (p + 3 + 1) := by
    rw [← ht, ← List.drop_eq_getElem_cons hlt, List.take_append_drop]
  obtain ⟨hfront, hback⟩ := around_t hread
  have hlen : ((c.read j).take (p + 3)).length = p + 3 := List.length_take_of_le hlt.le
  obtain ⟨x, hx⟩ : ['e', 'x', 'i'] <:+ (c.read j).take (p + 3) := by
    refine List.suffix_of_suffix_length_le (List.suffix_append (messages k) _) ⟨_, hfront⟩ ?_
    rw [hlen]
    exact Nat.le_add_left 3 p
  refine ⟨x, (c.read j).drop (p + 3 + 1), ?_, ?_, ?_, hback⟩
  · rw [← hx, List.append_assoc] at hread
    exact hread
  · rw [← hx, List.length_append] at hlen
    exact Nat.add_right_cancel hlen
  · rw [← hx, ← List.append_assoc] at hfront
    exact List.append_cancel_right hfront

/-- In an array of terminators the word is only found if it starts a read. -/
theorem prefix_of_found (h : Found ((Buffer.fill 1024 '\x00').after c.read n)) :
    ∃ j, exitWord <+: c.read j := by
  obtain ⟨-, a, b, hab⟩ := h
  have hletter : (a ++ exitWord ++ b)[a.length + 3]? = some 't' := by
    rw [List.append_assoc, List.getElem?_append_right (by omega), Nat.add_sub_cancel_left]
    rfl
  rw [hab] at hletter
  obtain ⟨j, hj, ht, hlater⟩ := getElem?_received.mp (getElem?_received_of_cstring hletter).1
  obtain ⟨x, v, hread, hlen, hmessages, hback⟩ := front_of_word ht
  rcases List.eq_nil_or_concat' x with rfl | ⟨x, y, rfl⟩
  · exact ⟨j, v, hread.symm⟩
  · exfalso
    -- the terminator in front of the word ends the C string, unless a later read covers it
    have hy : y = '\x00' := by
      rw [← List.append_assoc] at hmessages
      exact last_messages hmessages.symm
    rw [List.length_append, List.length_singleton] at hlen
    have hfront : (a ++ exitWord ++ b)[x.length]? = some a[x.length] := by
      rw [List.append_assoc, List.getElem?_append_left (by omega), List.getElem?_eq_getElem]
    rw [hab] at hfront
    obtain ⟨hreceived, hne⟩ := getElem?_received_of_cstring hfront
    obtain ⟨m, hm, hchar, hcover⟩ := getElem?_received.mp hreceived
    rcases lt_trichotomy m j with hlt | rfl | hgt
    · have hshort := hcover j hj hlt
      have hlong := (List.getElem?_eq_some_iff.mp ht).1
      omega
    · rw [hread, List.append_assoc, List.getElem?_append_right le_rfl, Nat.sub_self] at hchar
      exact hne ((Option.some.inj hchar).symm.trans hy)
    · have hmem := List.mem_append_right v (mem_flatten_drop (List.mem_of_getElem? hchar) hgt)
      rw [hback] at hmem
      exact hne (List.mem_singleton.mp hmem)

end Necessary

/--
The parent recognises the end, whatever its array holds first, exactly if a read starts with the
word and a terminator that was read stands in the array up to this read.
-/
theorem recognises_iff_heard (c : Cut (child (k + 1)).flatten) : c.Recognises ↔ c.Heard := by
  constructor
  · intro h
    obtain ⟨n, -, hzero, -⟩ := recognises_iff_found.mp h (Buffer.fill 1024 '\x00')
    obtain ⟨j, hword⟩ := prefix_of_found hzero
    obtain ⟨n, -, hfound, hmissed, m, hm, ht⟩ := recognises_iff_found.mp h (Buffer.fill 1024 ' ')
    have hmj : m = j := t_unique (hword.subset (by decide)) ht
    refine ⟨j, hword, fun i hi => terminated_of_blanks ?_⟩
    rcases Nat.lt_or_eq_of_le (show i + 1 ≤ n by omega) with hlt | rfl
    · exact (hmissed (i + 1) (Nat.succ_pos i) hlt).1
    · exact hfound.1
  · exact recognises_of_heard

/-- The last message read together with the one in front of it. -/
def merged : Cut (child 2).flatten where
  reads := [(child 2).flatten]
  flatten_eq := List.flatten_singleton
  nonempty := by decide
  fits := by decide

/-- Behind another message the last one is never found. -/
theorem merged_not_recognised : ¬ ∀ k, ∀ c : Cut (child (k + 1)).flatten, c.Recognises := by
  intro hall
  obtain ⟨n, -, hfound, -⟩ := recognises_iff_found.mp (hall 1 merged) (Buffer.fill 1024 '\x00')
  obtain ⟨j, hword⟩ := prefix_of_found hfound
  cases j with
  | zero => exact absurd hword (by decide)
  | succ j => exact absurd (List.prefix_nil.mp hword) (by decide)

theorem terminator_of_mem_child {text : List Char} (h : text ∈ child (k + 1)) :
    ∃ p : ℕ, text[p]? = some '\x00' ∧ 0 < text.length ∧ text.length ≤ 1024 := by
  rw [child_succ, List.mem_append, List.mem_singleton] at h
  rcases h with h | rfl
  · rw [List.eq_of_mem_replicate h]
    exact ⟨12, rfl, by decide, by decide⟩
  · exact ⟨4, rfl, by decide, by decide⟩

/-- The messages read one by one, as the pauses of the child keep them apart. -/
def apart (k : ℕ) : Cut (child (k + 1)).flatten where
  reads := child (k + 1)
  flatten_eq := rfl
  nonempty := by
    intro text htext
    obtain ⟨-, -, hpos, -⟩ := terminator_of_mem_child htext
    exact List.length_pos_iff.mp hpos
  fits := by
    intro text htext
    obtain ⟨-, -, -, hfits⟩ := terminator_of_mem_child htext
    exact hfits

/-- One message a read is recognised. -/
theorem recognises_apart (k : ℕ) : (apart k).Recognises := by
  have hlen : (apart k).reads.length = k + 1 := by simp [apart, child]
  have hlast : (apart k).read k = exitWord ++ ['\x00'] := by
    rw [read_eq_getElem (by omega)]
    simp [apart, child]
  refine recognises_of_heard ⟨k, hlast ▸ List.prefix_append _ _, fun i hi => ?_⟩
  have hlt : i < (apart k).reads.length := by omega
  obtain ⟨p, hp, -⟩ := terminator_of_mem_child (List.getElem_mem hlt)
  refine ⟨i, le_rfl, p, ?_, fun l hl hil => absurd hl (Nat.not_le.mpr hil)⟩
  rwa [read_eq_getElem hlt]

end Cut

end CSEL1.Socket
