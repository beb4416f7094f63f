import CSEL1.Queue.Atomic

/-! # Clients that ask in turn

The queue of replies is shared, so clients that wait at the same time may take each
other's replies. If a client only asks while no other one waits, each gets its own, and
prints what the fan answers to its command.
-/

namespace CSEL1

open CText Queue Transition

namespace Fan

theorem print_ask {fan : Fan} {a : Args} {answer : Outcome} (h : (fan.ask a).2 = some answer) :
    ∃ q, a.question? = some q ∧ ∀ value, q.print answer.text value = q.says answer := by
  have hnumber : ∀ (q : Question) (v value : Int32), q ≠ .setFreq →
      q.print (Outcome.number v).text value = q.says (.number v) := by
    intro q v value hq
    have hscan : sscanfInt (decimal v.toInt) = some v := by
      simpa using sscanfInt_decimal v stopsDigits_nil
    rw [print_number value _ hq, Outcome.text, hscan, Question.says, if_neg hq]
    rfl
  cases a with
  | setFreq freq =>
    refine ⟨.setFreq, rfl, fun value => ?_⟩
    simp only [Fan.ask] at h
    split at h
    · obtain rfl : Outcome.ok = answer := Option.some.inj h
      have hok : (if Reply.ok = "AUTO".toList then autoNotice else []) = [] :=
        if_neg (by decide)
      exact hok
    · obtain rfl : Outcome.auto = answer := Option.some.inj h
      rfl
  | getFreq =>
    obtain rfl : Outcome.number fan.shown = answer := Option.some.inj h
    exact ⟨.getFreq, rfl, fun value => hnumber .getFreq _ value (by decide)⟩
  | getMode =>
    obtain rfl : Outcome.number _ = answer := Option.some.inj h
    exact ⟨.getMode, rfl, fun value => hnumber .getMode _ value (by decide)⟩
  | getTemp =>
    obtain rfl : Outcome.number fan.temp = answer := Option.some.inj h
    exact ⟨.getTemp, rfl, fun value => hnumber .getTemp _ value (by decide)⟩
  | setMode mode => cases h
  | stopdaem => cases h
  | other => cases h

end Fan

namespace Conversation

/-- The client that an answer is meant for prints that answer. -/
def Printable (args : List Args) (c : Conversation) : Prop :=
  ∀ i answer, (i, some answer) ∈ c.said → ∃ a q, args[i]? = some a ∧ a.question? = some q ∧
    ∀ value, q.print answer.text value = q.says answer

theorem printable_step {args : List Args} {c : Conversation} (h : c.Printable args) (e : Effect) :
    (c.step args e).Printable args := by
  cases e with
  | happen happening => exact h
  | ask i =>
    cases ha : args[i]? with
    | none =>
      simp only [step, ha]
      exact h
    | some a =>
      rw [c.step_ask ha]
      intro j answer hmem
      rcases List.mem_append.mp hmem with hmem | hmem
      · exact h j answer hmem
      · rw [List.mem_singleton, Prod.mk.injEq] at hmem
        obtain ⟨rfl, hanswer⟩ := hmem
        obtain ⟨q, hq, hprint⟩ := Fan.print_ask hanswer.symm
        exact ⟨a, q, ha, hq, hprint⟩

end Conversation

namespace Exchange

def asks (s : Exchange) (i : ℕ) : Bool :=
  match s.clients[i]? with
  | some (.mqSend _ :: rest) => waits rest
  | _ => false

def waitsAt (s : Exchange) (i : ℕ) : Bool := s.clients[i]?.any waits

/-- A client only asks while no client waits. -/
def Alone (s : Exchange) : Turn → Prop
  | .client i => s.asks i = true → s.clients.countP waits = 0
  | _ => True

instance (s : Exchange) : (turn : Turn) → Decidable (s.Alone turn)
  | .client _ => inferInstanceAs (Decidable (_ → _))
  | .receive _ => inferInstanceAs (Decidable True)
  | .reply => inferInstanceAs (Decidable True)
  | .event _ _ => inferInstanceAs (Decidable True)

def receipts (s : Exchange) : List Answer := s.deliveries.map fun x => ⟨x.1, x.2.text⟩

/-- The clients have received in the order of their requests, but for the one that waits. -/
structure Owes (s : Exchange) (w : Option ℕ) : Prop where
  order : s.deliveries.map Prod.fst ++ w.toList = s.requestOrder
  waiting : ∀ i, s.waitsAt i = true ↔ w = some i

section Steps

variable {s t : Exchange} {w : Option ℕ}

theorem waitsAt_eq {i : ℕ} {calls : List Call} (h : s.clients[i]? = some calls) :
    s.waitsAt i = waits calls := by
  rw [waitsAt, h, Option.any_some]

theorem any_waits_set {i : ℕ} {calls : List Call} (rest : List Call)
    (h : s.clients[i]? = some calls) (j : ℕ) :
    (s.clients.set i rest)[j]?.any waits = if i = j then waits rest else s.waitsAt j := by
  obtain ⟨hlt, -⟩ := List.getElem?_eq_some_iff.mp h
  rw [List.getElem?_set]
  split
  · exact Option.any_some
  · rfl

theorem map_client_concat (sent : List Asked) (asked : Asked) :
    ((sent ++ [asked]).filter Asked.waits).map Asked.client =
      (sent.filter Asked.waits).map Asked.client ++
        if asked.waits then [asked.client] else [] := by
  rw [List.filter_append, List.map_append]
  cases hw : asked.waits <;> simp [hw]

theorem Owes.eq_none (h : s.Owes w) (hnone : s.clients.countP waits = 0) : w = none := by
  cases w with
  | none => rfl
  | some i =>
    have hwaits := (h.waiting i).mpr rfl
    rw [waitsAt, Option.any_eq_true] at hwaits
    obtain ⟨calls, hcalls, hwaits⟩ := hwaits
    exact absurd hwaits (List.countP_eq_zero.mp hnone _ (List.mem_of_getElem? hcalls))

theorem Owes.client (h : s.Owes w) (hs : s.Balanced) {i : ℕ} (halone : s.Alone (.client i))
    (hstep : step? s (.client i) = some t) : ∃ w, t.Owes w := by
  rcases client_cases hstep with ⟨m, rest, income, hcalls, hsend, rfl⟩ |
    ⟨rest, answer, outcome, hcalls, hreceive, rfl⟩
  · obtain ⟨-, hsent, -⟩ := Channel.of_send? hsend
    have hset := any_waits_set rest hcalls
    have hidle : s.waitsAt i = false := waitsAt_eq hcalls
    have horder := h.order
    have hnew := map_client_concat s.income.sent ⟨i, waits rest, m⟩
    rw [← hsent] at hnew
    cases hw : waits rest with
    | true =>
      have hasks : s.asks i = true := by
        rw [asks, hcalls]
        exact hw
      obtain rfl := h.eq_none (halone hasks)
      refine ⟨some i, ?_, fun j => ?_⟩
      · rw [Option.toList_none, List.append_nil] at horder
        rw [hw, if_pos rfl] at hnew
        exact (congrArg (· ++ [i]) horder).trans hnew.symm
      · refine (Bool.eq_iff_iff.mp (hset j)).trans ?_
        have hj := h.waiting j
        split
        · next hij => simp [hw, hij]
        · next hij => simp [hj, hij]
    | false =>
      refine ⟨w, ?_, fun j => ?_⟩
      · rw [hw, if_neg Bool.false_ne_true, List.append_nil] at hnew
        exact horder.trans hnew.symm
      · refine (Bool.eq_iff_iff.mp (hset j)).trans ?_
        rw [← h.waiting j]
        split
        · next hij => rw [← hij, hw, hidle]
        · exact Iff.rfl
  · obtain rfl := clientAt_after_receive (hs.clients _ (List.mem_of_getElem? hcalls))
    have hset := any_waits_set [] hcalls
    -- the receiver is the client that is owed an answer
    obtain rfl : w = some i := (h.waiting i).mp (waitsAt_eq hcalls)
    refine ⟨none, ?_, fun j => ?_⟩
    · have horder := h.order
      simp only [requestOrder, List.map_append, List.map_cons, List.map_nil, Option.toList_none,
        List.append_nil] at horder ⊢
      exact horder
    · refine (Bool.eq_iff_iff.mp (hset j)).trans ?_
      have hj := h.waiting j
      split
      · simp [waits]
      · next hij => simp [hj, hij]

theorem Owes.step? (h : s.Owes w) (hs : s.Balanced) {turn : Turn} (halone : s.Alone turn)
    (hstep : step? s turn = some t) : ∃ w, t.Owes w := by
  cases turn with
  | client i => exact h.client hs halone hstep
  | receive io =>
    obtain ⟨-, -, asked, income, hreceive, rfl⟩ := receive_cases hstep
    obtain ⟨-, hsent, -⟩ := Channel.of_receive? hreceive
    refine ⟨w, ?_, h.waiting⟩
    have horder := h.order
    simp only [requestOrder, hsent] at horder ⊢
    exact horder
  | reply =>
    obtain ⟨answer, outcome, -, -, rfl⟩ := reply_cases hstep
    exact ⟨w, h.order, h.waiting⟩
  | event io e =>
    obtain ⟨rfl, -⟩ := event_cases hstep
    exact ⟨w, h.order, h.waiting⟩

theorem owes_step (h : s.Balanced ∧ ∃ w, s.Owes w) {turn : Turn} (halone : s.Alone turn) :
    (step s turn).Balanced ∧ ∃ w, (step s turn).Owes w := by
  obtain ⟨hs, w, howes⟩ := h
  refine ⟨balanced_step turn hs, ?_⟩
  cases hstep : step? s turn with
  | none =>
    have hblocked : step s turn = s := stutter_of_none hstep
    rw [hblocked]
    exact ⟨w, howes⟩
  | some t =>
    have htaken : step s turn = t := stutter_of_some hstep
    rw [htaken]
    exact howes.step? hs halone hstep

/-- Clients that have received in the order of the requests have received their own answers. -/
theorem Owes.own (h : s.Owes w) (hs : s.Balanced) : ∀ x ∈ s.deliveries, x.1 = x.2.client := by
  have hreceivers : s.deliveries.map Prod.fst <+: s.requestOrder := ⟨_, h.order⟩
  have hlength : (s.deliveries.map Prod.fst).length = (s.deliveries.map (·.2.client)).length := by
    rw [List.length_map, List.length_map]
  have heq := (List.prefix_of_prefix_length_le hreceivers hs.delivered_prefix
    hlength.le).eq_of_length hlength
  exact List.map_inj_left.mp heq

end Steps

section Runs

variable (clients : List (Args × Buffer 100)) (d : Driver) (locals : Locals)

theorem owes_start (sys : System) : (start clients sys).Owes none := by
  refine ⟨rfl, fun i => iff_of_false ?_ nofun⟩
  have hidle := List.countP_eq_zero.mp
    ((balanced_start clients sys).waiting.trans rfl : (start clients sys).clients.countP waits = 0)
  rw [waitsAt, Option.any_eq_true]
  rintro ⟨calls, hcalls, hwaits⟩
  exact hidle calls (List.mem_of_getElem? hcalls) hwaits

theorem owes_after {sys : System} {turns : List Turn}
    (halone : Along step Alone (start clients sys) turns) :
    (after clients sys turns).Balanced ∧ ∃ w, (after clients sys turns).Owes w :=
  (always_of_along (I := fun s => s.Balanced ∧ ∃ w, s.Owes w) (P := Alone)
    (fun _ _ h hturn => owes_step h hturn)
    ⟨balanced_start clients sys, none, owes_start clients sys⟩ halone).last

theorem printable_conversation (turns : List Turn) :
    (conversation clients d locals turns).Printable (clients.map Prod.fst) :=
  run_invariant (I := Conversation.Printable (clients.map Prod.fst))
    (fun _ e h => Conversation.printable_step h e) (fun _ _ hmem => absurd hmem List.not_mem_nil) _

/--
If each client only asks while no client waits, every client receives its own answer, in the order
in which the fan gives them, and prints what the fan says. Once nobody waits, none is missing.
-/
theorem asked_in_turn {turns : List Turn} (hturns : ∀ turn ∈ turns, Fine turn)
    (halone : Along step Alone (start clients (System.published d locals)) turns) :
    (after clients (System.published d locals) turns).receipts <+:
        (conversation clients d locals turns).replies ∧
      ((after clients (System.published d locals) turns).clients.countP waits = 0 →
        (after clients (System.published d locals) turns).receipts =
          (conversation clients d locals turns).replies) ∧
      ∀ i answer, (i, some answer) ∈ (conversation clients d locals turns).said →
        ∃ a q, (clients.map Prod.fst)[i]? = some a ∧ a.question? = some q ∧
          ∀ outcomeBuffer recvBuffer value,
            (q.receive (answer.send outcomeBuffer) recvBuffer value).printed = q.says answer := by
  have hin := inStep_after clients d locals hturns
  have hprintable := printable_conversation clients d locals turns
  obtain ⟨hs, w, howes⟩ := owes_after clients halone
  generalize after clients (System.published d locals) turns = s at hin hs howes ⊢
  have hown : s.receipts = s.outcome.received := by
    rw [← hs.deliveries, receipts, List.map_inj_left]
    intro x hx
    rw [howes.own hs x hx]
  rw [hown, ← hin.replies]
  refine ⟨?_, fun hnone => ?_, ?_⟩
  · exact s.outcome.received_prefix.trans (List.prefix_append _ _)
  · have hwaiting := hs.waiting
    have hitems : s.outcome.items = [] := List.eq_nil_of_length_eq_zero (by omega)
    have hheld : s.held.toList = [] := List.eq_nil_of_length_eq_zero (by omega)
    rw [hheld, List.append_nil, s.outcome.history, hitems, List.append_nil]
  · intro i answer hmem
    obtain ⟨a, q, ha, hq, hprint⟩ := hprintable i answer hmem
    refine ⟨a, q, ha, hq, fun outcomeBuffer recvBuffer value => ?_⟩
    rw [receive_send]
    exact hprint value

theorem asked_in_turn_session : ¬ ∃ outcomeBuffer recvBuffer value,
    (Question.getFreq.receive ((Outcome.number 7).send outcomeBuffer) recvBuffer value).printed ≠
      "freq set to 7\n".toList := by
  rintro ⟨outcomeBuffer, recvBuffer, value, hne⟩
  have hturns : ∀ turn ∈ sessionTurns, Fine turn := by
    simp [sessionTurns, Fine, Event.Plausible]
  have h := (asked_in_turn session Driver.loaded default hturns (by decide)).2.2
  obtain ⟨a, q, ha, hq, hprint⟩ := h 2 (.number 7) (by decide)
  obtain rfl : Args.getFreq = a := Option.some.inj ha
  obtain rfl : Question.getFreq = q := Option.some.inj hq
  refine hne ((hprint outcomeBuffer recvBuffer value).trans ?_)
  decide

end Runs

end Exchange

end CSEL1
