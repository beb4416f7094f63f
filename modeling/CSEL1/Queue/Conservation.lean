import CSEL1.Queue.Exchange

/-! # Requests and replies

Each reply in the system is owed to one waiting client, replies come in the order
of the requests, and no process waits for another in a circle. Which client takes
a reply from the queue is up to the scheduler.
-/

namespace CSEL1

open CText Queue Transition

namespace Exchange

def requestOrder (s : Exchange) : List ℕ := (s.income.sent.filter Asked.waits).map Asked.client

/--
A waiting client has its request in the income queue, or its reply in the outcome queue or held.
-/
def Conserved (s : Exchange) : Prop :=
  s.clients.countP waits = s.income.items.countP Asked.waits + s.outcome.items.length +
    if s.held.isSome then 1 else 0

/-- The replies sent, held and still owed are those of the requests that wait, in their order. -/
def InOrder (s : Exchange) : Prop :=
  s.outcome.sent.map Answer.client ++ (s.held.toList.map Answer.client ++
    (s.income.items.filter Asked.waits).map Asked.client) = s.requestOrder

structure Balanced (s : Exchange) : Prop where
  clients : ∀ calls ∈ s.clients, ClientAt calls
  requests : ∀ asked ∈ s.income.items, ∃ w v sendBuffer,
    asked.msg = Word.send w v sendBuffer ∧ asked.waits = w.answered
  replies : s.outcome.sent.map Answer.client ++ s.held.toList.map Answer.client =
    (s.income.received.filter Asked.waits).map Asked.client
  deliveries : s.deliveries.map Prod.snd = s.outcome.received
  waiting : s.clients.countP waits =
    s.income.items.countP Asked.waits + s.outcome.items.length + s.held.toList.length

section Steps

variable {s t : Exchange}

theorem clientAt_after_send {m : Msg} {rest : List Call} (h : ClientAt (.mqSend m :: rest)) :
    ClientAt rest ∧ ∃ w v sendBuffer, m = Word.send w v sendBuffer ∧ waits rest = w.answered := by
  cases h with
  | ready w v sendBuffer =>
    constructor
    · split
      · exact .waiting
      · exact .done
    · refine ⟨w, v, sendBuffer, rfl, ?_⟩
      cases w <;> rfl

theorem clientAt_after_receive {rest : List Call} (h : ClientAt (.mqReceive :: rest)) :
    rest = [] := by
  cases h with
  | waiting => rfl

theorem clientAt_set {clients : List (List Call)} {rest : List Call}
    (h : ∀ calls ∈ clients, ClientAt calls) (hrest : ClientAt rest) (i : ℕ) :
    ∀ calls ∈ clients.set i rest, ClientAt calls := by
  intro calls hmem
  rcases List.mem_or_eq_of_mem_set hmem with hmem | rfl
  · exact h calls hmem
  · exact hrest

theorem countP_waits_set {clients : List (List Call)} {i : ℕ} {calls : List Call} (rest : List Call)
    (h : clients[i]? = some calls) :
    (clients.set i rest).countP waits + (if waits calls then 1 else 0) =
      clients.countP waits + if waits rest then 1 else 0 := by
  obtain ⟨hlt, rfl⟩ := List.getElem?_eq_some_iff.mp h
  have hpos : waits clients[i] = true → 0 < clients.countP waits := fun hw =>
    List.countP_pos_iff.mpr ⟨clients[i], List.getElem_mem hlt, hw⟩
  rw [List.countP_set hlt]
  split_ifs <;> grind

theorem map_client_held (client : ℕ) {text : Option (List Char)} {wait : Bool}
    (h : text.isSome = wait) :
    (text.map (Answer.mk client)).toList.map Answer.client = if wait then [client] else [] := by
  subst h
  cases text <;> rfl

theorem balanced_send {i : ℕ} {m : Msg} {rest : List Call} {income : Channel Asked 10}
    (hs : s.Balanced) (hcalls : s.clients[i]? = some (.mqSend m :: rest))
    (hsend : s.income.send? ⟨i, waits rest, m⟩ = some income) :
    Balanced { s with clients := s.clients.set i rest, income := income } := by
  obtain ⟨hitems, -, hreceived⟩ := Channel.of_send? hsend
  obtain ⟨hrest, hmsg⟩ := clientAt_after_send (hs.clients _ (List.mem_of_getElem? hcalls))
  have hcount := countP_waits_set rest hcalls
  have hwaiting := hs.waiting
  refine ⟨clientAt_set hs.clients hrest i, fun asked hmem => ?_, ?_, hs.deliveries, ?_⟩
  · rw [hitems, List.mem_append, List.mem_singleton] at hmem
    rcases hmem with hmem | rfl
    · exact hs.requests asked hmem
    · exact hmsg
  · rw [hreceived]
    exact hs.replies
  · have hold : waits (.mqSend m :: rest) = false := rfl
    rw [hitems, List.countP_append]
    simp only [hold, Bool.false_eq_true, if_false, List.countP_singleton] at hcount ⊢
    omega

theorem balanced_deliver {i : ℕ} {rest : List Call} {answer : Answer} {outcome : Channel Answer 10}
    (hs : s.Balanced) (hcalls : s.clients[i]? = some (.mqReceive :: rest))
    (hreceive : s.outcome.receive? = some (answer, outcome)) :
    Balanced { s with
      clients := s.clients.set i rest
      outcome := outcome
      deliveries := s.deliveries ++ [(i, answer)] } := by
  obtain ⟨hitems, hsent, hreceived⟩ := Channel.of_receive? hreceive
  obtain rfl := clientAt_after_receive (hs.clients _ (List.mem_of_getElem? hcalls))
  have hcount := countP_waits_set [] hcalls
  have hwaiting := hs.waiting
  refine ⟨clientAt_set hs.clients .done i, hs.requests, ?_, ?_, ?_⟩
  · rw [hsent]
    exact hs.replies
  · rw [hreceived, List.map_append, hs.deliveries]
    rfl
  · have hold : waits [.mqReceive] = true := rfl
    have hnew : waits [] = false := rfl
    rw [hitems, List.length_cons] at hwaiting
    simp only [hold, hnew, if_true, Bool.false_eq_true, if_false] at hcount
    dsimp only
    omega

theorem balanced_receive {io : Io} {asked : Asked} {income : Channel Asked 10} (hs : s.Balanced)
    (hheld : s.held = none) (hreceive : s.income.receive? = some (asked, income)) :
    Balanced { s with
      income := income
      sys := (s.sys.handle io asked.msg).1
      held := (s.sys.handle io asked.msg).2.map (⟨asked.client, ·⟩) } := by
  obtain ⟨hclients, hrequests, hreplies, hdeliveries, hwaiting⟩ := hs
  obtain ⟨hitems, -, hreceived⟩ := Channel.of_receive? hreceive
  obtain ⟨w, v, sendBuffer, hmsg, hwaits⟩ := hrequests asked (hitems ▸ List.mem_cons_self)
  have hreply : (s.sys.handle io asked.msg).2.isSome = asked.waits := by
    rw [hmsg, hwaits, isSome_handle_send]
  have hheld' := map_client_held asked.client hreply
  have hlength := congrArg List.length hheld'
  rw [hheld] at hreplies hwaiting
  rw [hitems, List.countP_cons] at hwaiting
  refine ⟨hclients, fun asked' hmem => hrequests asked' (hitems ▸ List.mem_cons_of_mem _ hmem),
    ?_, hdeliveries, ?_⟩
  · dsimp only
    rw [hreceived, List.filter_append, List.map_append, ← hreplies, hheld']
    cases hw : asked.waits <;> simp [hw]
  · rw [List.length_map] at hlength
    dsimp only at hwaiting ⊢
    rw [hwaiting, hlength, Option.toList_none, List.length_nil]
    cases asked.waits <;> simp only [Bool.false_eq_true, if_true, if_false, List.length_nil,
      List.length_singleton] <;> omega

theorem balanced_reply {answer : Answer} {outcome : Channel Answer 10} (hs : s.Balanced)
    (hheld : s.held = some answer) (hsend : s.outcome.send? answer = some outcome) :
    Balanced { s with outcome := outcome, held := none } := by
  obtain ⟨hclients, hrequests, hreplies, hdeliveries, hwaiting⟩ := hs
  obtain ⟨hitems, hsent, hreceived⟩ := Channel.of_send? hsend
  rw [hheld] at hreplies hwaiting
  refine ⟨hclients, hrequests, ?_, ?_, ?_⟩
  · rw [hsent, ← hreplies, List.map_append]
    exact List.append_nil _
  · rw [hreceived]
    exact hdeliveries
  · rw [hwaiting, hitems]
    simp only [Option.toList_some, Option.toList_none, List.length_append, List.length_singleton,
      List.length_nil]
    omega

theorem balanced_took (h : Took s t) (hs : s.Balanced) : t.Balanced := by
  cases h with
  | send hcalls hsend => exact balanced_send hs hcalls hsend
  | deliver hcalls hreceive => exact balanced_deliver hs hcalls hreceive
  | receive hheld hreceive => exact balanced_receive hs hheld hreceive
  | reply hheld hsend => exact balanced_reply hs hheld hsend
  | event => exact ⟨hs.clients, hs.requests, hs.replies, hs.deliveries, hs.waiting⟩

theorem balanced_step (turn : Turn) (hs : s.Balanced) : (step s turn).Balanced :=
  stutter_invariant (fun _ _ _ h => balanced_took (took_of_step? h)) s turn hs

theorem balanced_start (clients : List (Args × Buffer 100)) (sys : System) :
    (start clients sys).Balanced := by
  refine ⟨fun calls hmem => ?_, by simp [start, Channel.empty], rfl, rfl, ?_⟩
  · obtain ⟨c, -, rfl⟩ := List.mem_map.mp hmem
    exact clientAt_clientMain c.1 c.2
  · have hnone : ∀ c : Args × Buffer 100, waits (clientMain c.1 c.2) = false := by
      rintro ⟨args, sendBuffer⟩
      cases args <;> simp only [clientMain] <;> (try split) <;> rfl
    have hzero : (start clients sys).clients.countP waits = 0 := by
      simp [start, List.countP_map, Function.comp_def, hnone]
    rw [hzero]
    rfl

end Steps

section Progress

variable {s : Exchange}

/-- One more message or reply has been sent or received. -/
def Moved (s t : Exchange) : Prop :=
  (∃ asked, t.income.sent = s.income.sent ++ [asked]) ∨
    (∃ asked, t.income.received = s.income.received ++ [asked]) ∨
    (∃ answer, t.outcome.sent = s.outcome.sent ++ [answer]) ∨
    ∃ answer, t.outcome.received = s.outcome.received ++ [answer]

/-- The next call is not blocked, and it moves a message or a reply. -/
def Advances (s : Exchange) (turn : Turn) : Prop := ∃ t, step? s turn = some t ∧ s.Moved t

/-- Some process advances with its next call. -/
def Progresses (s : Exchange) : Prop :=
  (∃ i, s.Advances (.client i)) ∨ (∀ io, s.Advances (.receive io)) ∨ s.Advances .reply

/-- Until a stop is handled, an unfinished client leaves some process with a call to make. -/
def Unblocked (s : Exchange) : Prop :=
  s.sys.daemon.stopRequest = false → (∃ calls ∈ s.clients, calls ≠ []) → s.Progresses

theorem advances_client {i : ℕ} (h : (step? s (.client i)).isSome) : s.Advances (.client i) := by
  obtain ⟨t, ht⟩ := Option.isSome_iff_exists.mp h
  refine ⟨t, ht, ?_⟩
  rcases client_cases ht with ⟨m, rest, income, -, hsend, rfl⟩ |
    ⟨rest, answer, outcome, -, hreceive, rfl⟩
  · exact .inl ⟨_, (Channel.of_send? hsend).2.1⟩
  · exact .inr (.inr (.inr ⟨_, (Channel.of_receive? hreceive).2.2⟩))

theorem advances_receive {io : Io} (h : (step? s (.receive io)).isSome) :
    s.Advances (.receive io) := by
  obtain ⟨t, ht⟩ := Option.isSome_iff_exists.mp h
  obtain ⟨-, -, asked, income, hreceive, rfl⟩ := receive_cases ht
  exact ⟨_, ht, .inr (.inl ⟨_, (Channel.of_receive? hreceive).2.2⟩)⟩

theorem advances_reply (h : (step? s .reply).isSome) : s.Advances .reply := by
  obtain ⟨t, ht⟩ := Option.isSome_iff_exists.mp h
  obtain ⟨answer, outcome, -, hsend, rfl⟩ := reply_cases ht
  exact ⟨_, ht, .inr (.inr (.inl ⟨_, (Channel.of_send? hsend).2.1⟩))⟩

theorem isSome_step?_send {i : ℕ} {m : Msg} {rest : List Call}
    (hi : s.clients[i]? = some (.mqSend m :: rest)) (hfree : s.income.items = []) :
    (step? s (.client i)).isSome := by
  have hsend : (s.income.send? ⟨i, waits rest, m⟩).isSome :=
    Channel.isSome_send? (by rw [hfree]; decide)
  simpa [step?, hi, clientStep] using hsend

theorem exists_deliver (hs : s.Balanced) (hreply : s.outcome.items ≠ []) :
    ∃ i, (step? s (.client i)).isSome := by
  have hwaiting : 0 < s.clients.countP waits := by
    have hpos := List.length_pos_iff.mpr hreply
    rw [hs.waiting]
    omega
  obtain ⟨calls, hmem, hwaits⟩ := List.countP_pos_iff.mp hwaiting
  obtain ⟨i, hi⟩ := List.mem_iff_getElem?.mp hmem
  have hreceive := Channel.isSome_receive? hreply
  refine ⟨i, ?_⟩
  cases hs.clients calls hmem with
  | done => cases hwaits
  | waiting => simpa [step?, hi, clientStep] using hreceive
  | ready w v sendBuffer => cases hwaits

/-- While the message loop runs, an unfinished client never leaves every process blocked. -/
theorem progresses (hs : s.Balanced) (hrun : s.sys.daemon.stopRequest = false)
    (hunfinished : ∃ calls ∈ s.clients, calls ≠ []) : s.Progresses := by
  by_cases hreply : s.outcome.items = []
  · cases hheld : s.held with
    | some answer =>
      -- the outcome queue is empty, so the reply can be sent
      have hsend : (s.outcome.send? answer).isSome :=
        Channel.isSome_send? (by rw [hreply]; decide)
      exact .inr (.inr (advances_reply (by simpa [step?, replyStep, hheld] using hsend)))
    | none =>
      by_cases hincome : s.income.items = []
      · -- nothing is owed to anybody, so the client has still to send
        obtain ⟨calls, hmem, hne⟩ := hunfinished
        obtain ⟨i, hi⟩ := List.mem_iff_getElem?.mp hmem
        have hnone : s.clients.countP waits = 0 := by
          rw [hs.waiting, hincome, hreply, hheld]
          rfl
        refine .inl ⟨i, advances_client ?_⟩
        cases hs.clients calls hmem with
        | done => exact absurd rfl hne
        | waiting => exact absurd rfl (List.countP_eq_zero.mp hnone _ hmem)
        | ready w v sendBuffer => exact isSome_step?_send hi hincome
      · have hreceive := Channel.isSome_receive? hincome
        refine .inr (.inl fun io => advances_receive ?_)
        simpa [step?, receiveStep, hrun, hheld] using hreceive
  · obtain ⟨i, hi⟩ := exists_deliver hs hreply
    exact .inl ⟨i, advances_client hi⟩

end Progress

section Runs

variable (clients : List (Args × Buffer 100)) (sys : System) (turns : List Turn)

def after : Exchange := run step (start clients sys) turns

theorem balanced_after : (after clients sys turns).Balanced :=
  run_invariant (fun _ turn hs => balanced_step turn hs) (balanced_start clients sys) turns

theorem Balanced.conserved {s : Exchange} (hs : s.Balanced) : s.Conserved := by
  rw [Conserved, hs.waiting]
  cases s.held <;> rfl

theorem Balanced.inOrder {s : Exchange} (hs : s.Balanced) : s.InOrder := by
  rw [InOrder, ← List.append_assoc, hs.replies, requestOrder, s.income.history, List.filter_append,
    List.map_append]

theorem Balanced.delivered_prefix {s : Exchange} (hs : s.Balanced) :
    s.deliveries.map (·.2.client) <+: s.requestOrder := by
  have hmap : s.deliveries.map (·.2.client) = s.outcome.received.map Answer.client := by
    rw [← hs.deliveries, List.map_map]
    rfl
  rw [hmap, ← hs.inOrder]
  exact (s.outcome.received_prefix.map _).trans (List.prefix_append _ _)

/--
In every state that clients and daemon can reach: each waiting client has its request in the income
queue, its reply in the outcome queue or its reply held by the daemon; the replies sent, held and
still owed are those of the requests that wait, in their order; and until a stop is handled an
unfinished client leaves some process with a call that does not block and moves a message.
-/
theorem requests_conserved :
    (after clients sys turns).Conserved ∧ (after clients sys turns).InOrder ∧
      (after clients sys turns).Unblocked := by
  have hs : (after clients sys turns).Balanced := balanced_after clients sys turns
  exact ⟨hs.conserved, hs.inOrder, fun hrun hunfinished => progresses hs hrun hunfinished⟩

/--
Replies are received in the order of the requests that wait, whoever receives them. So every client
has got its own answer exactly if the clients have received in the order of their requests.
-/
theorem replies_in_request_order :
    (after clients sys turns).deliveries.map (·.2.client) <+:
        (after clients sys turns).requestOrder ∧
      ((∀ d ∈ (after clients sys turns).deliveries, d.1 = d.2.client) ↔
        (after clients sys turns).deliveries.map (·.1) <+:
          (after clients sys turns).requestOrder) := by
  have hs : (after clients sys turns).Balanced := balanced_after clients sys turns
  have hordered := hs.delivered_prefix
  generalize after clients sys turns = s at hs hordered ⊢
  refine ⟨hordered, ?_⟩
  rw [← List.map_inj_left]
  constructor
  · intro heq
    rwa [heq]
  · intro hreceivers
    have hlength : (s.deliveries.map (·.1)).length = (s.deliveries.map (·.2.client)).length := by
      rw [List.length_map, List.length_map]
    exact (List.prefix_of_prefix_length_le hreceivers hordered hlength.le).eq_of_length hlength

/--
A client that asks for the temperature takes the answer to another's request for the frequency.
-/
theorem answers_swapped :
    ¬ ∀ d ∈ (run step
      (start [(.getFreq, Buffer.fill 100 ' '), (.getTemp, Buffer.fill 100 ' ')]
        (System.ready default))
      [.client 0, .client 1, .receive .ok, .reply, .client 1]).deliveries, d.1 = d.2.client := by
  decide

end Runs

end Exchange

end CSEL1
