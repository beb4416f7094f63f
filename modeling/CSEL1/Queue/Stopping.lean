import CSEL1.Queue.Service

/-! # Stopping the daemon

The daemon has been asked to stop exactly if it has handled a stop request, which is
then the last request it handles. The queue behind it is never read again.
-/

namespace CSEL1

open CText Queue Transition

namespace Exchange

structure StopLast (s : Exchange) : Prop where
  stopped : s.sys.daemon.stopRequest = true → ∃ earlier asked,
    s.income.received = earlier ++ [asked] ∧ IsStop asked.msg ∧ ∀ a ∈ earlier, ¬ IsStop a.msg
  running : s.sys.daemon.stopRequest = false → ∀ a ∈ s.income.received, ¬ IsStop a.msg

/-- What a stop that has been handled in `s` leaves at any later time. -/
structure Stranded (s t : Exchange) : Prop where
  handled : t.income.received = s.income.received
  behind : s.income.items <+: t.income.items
  waiting : s.income.items.countP Asked.waits ≤ t.clients.countP waits
  balance : t.clients.countP waits =
    t.income.items.countP Asked.waits + t.outcome.items.length + t.held.toList.length
  delivered : t.deliveries.map (·.2.client) <+:
    (s.income.received.filter Asked.waits).map Asked.client

section Steps

variable {s t : Exchange} {turn : Turn}

theorem StopLast.congr (h : s.StopLast) (hreceived : t.income.received = s.income.received)
    (hstop : t.sys.daemon.stopRequest = s.sys.daemon.stopRequest) : t.StopLast := by
  obtain ⟨hstopped, hrunning⟩ := h
  constructor
  · rw [hstop, hreceived]
    exact hstopped
  · rw [hstop, hreceived]
    exact hrunning

theorem StopLast.step? (h : s.StopLast) (hs : s.Balanced) (hstep : step? s turn = some t) :
    t.StopLast := by
  cases turn with
  | client i =>
    rcases client_cases hstep with ⟨m, rest, income, -, hsend, rfl⟩ |
      ⟨rest, answer, outcome, -, -, rfl⟩
    · exact h.congr (Channel.of_send? hsend).2.2 rfl
    · exact h.congr rfl rfl
  | receive io =>
    obtain ⟨hrun, -, asked, income, hreceive, rfl⟩ := receive_cases hstep
    obtain ⟨hitems, -, hreceived⟩ := Channel.of_receive? hreceive
    obtain ⟨w, v, sendBuffer, hmsg, -⟩ := hs.requests asked (hitems ▸ List.mem_cons_self)
    have hearlier := h.running hrun
    have hstop : (s.sys.handle io asked.msg).1.daemon.stopRequest = decide (w = .stop) := by
      rw [hmsg, System.handle_stopRequest, hrun, Bool.false_or]
    constructor
    · intro hstopped
      have hw : w = .stop := of_decide_eq_true (hstop.symm.trans hstopped)
      exact ⟨s.income.received, asked, hreceived, hmsg ▸ (isStop_send_iff ..).mpr hw, hearlier⟩
    · intro hrunning a hmem
      have hw : w ≠ .stop := of_decide_eq_false (hstop.symm.trans hrunning)
      rw [hreceived, List.mem_append, List.mem_singleton] at hmem
      rcases hmem with hmem | rfl
      · exact hearlier a hmem
      · rw [hmsg, isStop_send_iff]
        exact hw
  | reply =>
    obtain ⟨answer, outcome, -, -, rfl⟩ := reply_cases hstep
    exact h.congr rfl rfl
  | event io e =>
    obtain ⟨rfl, he⟩ := event_cases hstep
    exact h.congr rfl (System.step_stopRequest io s.sys he)

/-- After a stop requests are sent, but none is taken from the queue. -/
structure Halted (s t : Exchange) : Prop where
  stopped : t.sys.daemon.stopRequest = true
  received : t.income.received = s.income.received
  items : s.income.items <+: t.income.items

theorem Halted.step? {u : Exchange} (h : Halted s t) (hstep : Exchange.step? t turn = some u) :
    Halted s u := by
  obtain ⟨hstopped, hreceived, hitems⟩ := h
  cases turn with
  | client i =>
    rcases client_cases hstep with ⟨m, rest, income, -, hsend, rfl⟩ |
      ⟨rest, answer, outcome, -, -, rfl⟩
    · obtain ⟨hnew, -, hsame⟩ := Channel.of_send? hsend
      refine ⟨hstopped, hsame.trans hreceived, ?_⟩
      dsimp only
      rw [hnew]
      exact hitems.trans (List.prefix_append _ _)
    · exact ⟨hstopped, hreceived, hitems⟩
  | receive io =>
    obtain ⟨hrun, -⟩ := receive_cases hstep
    rw [hstopped] at hrun
    cases hrun
  | reply =>
    obtain ⟨answer, outcome, -, -, rfl⟩ := reply_cases hstep
    exact ⟨hstopped, hreceived, hitems⟩
  | event io e =>
    obtain ⟨rfl, he⟩ := event_cases hstep
    exact ⟨(System.step_stopRequest io t.sys he).trans hstopped, hreceived, hitems⟩

theorem Halted.stranded (h : Halted s t) (ht : t.Balanced) : Stranded s t := by
  refine ⟨h.received, h.items, ?_, ht.waiting, ?_⟩
  · have hcount := h.items.sublist.countP_le (p := Asked.waits)
    have := ht.waiting
    omega
  · have hmap : t.deliveries.map (·.2.client) = t.outcome.received.map Answer.client := by
      rw [← ht.deliveries, List.map_map]
      rfl
    rw [hmap, ← h.received, ← ht.replies]
    exact (t.outcome.received_prefix.map _).trans (List.prefix_append _ _)

end Steps

section Runs

variable (clients : List (Args × Buffer 100)) {sys : System}

theorem stopLast_after (hsys : sys.daemon.stopRequest = false) (turns : List Turn) :
    (after clients sys turns).StopLast := by
  have hstart : (start clients sys).Balanced ∧ (start clients sys).StopLast := by
    refine ⟨balanced_start clients sys, ?_, ?_⟩
    · intro hstop
      exact absurd (hsys.symm.trans hstop) (by simp)
    · simp [start, Channel.empty]
  have hstep : ∀ s turn, Balanced s ∧ StopLast s →
      Balanced (step s turn) ∧ StopLast (step s turn) :=
    stutter_invariant fun _ _ _ ht hs =>
      ⟨balanced_took (took_of_step? ht) hs.1, hs.2.step? hs.1 ht⟩
  exact (run_invariant hstep hstart turns).2

theorem halted_run {s : Exchange} (hstop : s.sys.daemon.stopRequest = true) (turns : List Turn) :
    Halted s (run step s turns) :=
  run_invariant (I := Halted s) (stutter_invariant fun _ _ _ ht hs => hs.step? ht)
    ⟨hstop, rfl, List.prefix_rfl⟩ turns

theorem after_append (sys : System) (turns turns' : List Turn) :
    after clients sys (turns ++ turns') = run step (after clients sys turns) turns' :=
  run_append step (start clients sys) turns turns'

/--
In every run the daemon has been asked to stop exactly if it has handled a stop request, and then
that is the last request it ever handles: only requests before it are answered, and the clients that
wait are those with a request behind it or with a reply in flight.
-/
theorem stop_last (hsys : sys.daemon.stopRequest = false) (turns : List Turn) :
    ((after clients sys turns).sys.daemon.stopRequest = true ↔
      ∃ asked ∈ (after clients sys turns).income.received, IsStop asked.msg) ∧
    ((after clients sys turns).sys.daemon.stopRequest = true →
      (∃ earlier asked, (after clients sys turns).income.received = earlier ++ [asked] ∧
        IsStop asked.msg ∧ ∀ a ∈ earlier, ¬ IsStop a.msg) ∧
      ∀ turns', Stranded (after clients sys turns) (after clients sys (turns ++ turns'))) := by
  have hlast := stopLast_after clients hsys turns
  constructor
  · constructor
    · intro hstop
      obtain ⟨earlier, asked, hreceived, hasked, -⟩ := hlast.stopped hstop
      exact ⟨asked, by simp [hreceived], hasked⟩
    · rintro ⟨asked, hmem, hasked⟩
      by_contra hrun
      exact hlast.running (by simpa using hrun) asked hmem hasked
  · intro hstop
    refine ⟨hlast.stopped hstop, fun turns' => ?_⟩
    have hbalanced := balanced_after clients sys (turns ++ turns')
    rw [after_append] at hbalanced ⊢
    exact (halted_run hstop turns').stranded hbalanced

end Runs

/-- One client stops the daemon before the other one's question is read. -/
theorem stop_last_stranded :
    ¬ ∃ turns', (after [(.stopdaem, Buffer.fill 100 ' '), (.getTemp, Buffer.fill 100 ' ')]
      (System.published Driver.loaded default)
      ([.client 0, .client 1, .receive .ok] ++ turns')).clients.countP waits = 0 := by
  rintro ⟨turns', hnone⟩
  have hsys : (System.published Driver.loaded default).daemon.stopRequest = false := rfl
  have h := stop_last [(.stopdaem, Buffer.fill 100 ' '), (.getTemp, Buffer.fill 100 ' ')] hsys
    [.client 0, .client 1, .receive .ok]
  have hwaiting := ((h.2 (by decide)).2 turns').waiting
  rw [hnone] at hwaiting
  exact absurd hwaiting (by decide)

end Exchange

end CSEL1
