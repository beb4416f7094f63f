import CSEL1.Queue.Conservation
import CSEL1.Transition.Progress

/-! # Serving the clients

While nobody asks the daemon to stop, fair rounds of its two loops and of the clients
bring every client to its end. A stop is the last request that is handled: the clients
whose requests are behind it wait for good.
-/

namespace CSEL1

open CText Queue Transition

def IsStop (m : Msg) : Prop := ∃ v sendBuffer, m = Word.stop.send v sendBuffer

theorem isStop_send_iff (w : Word) (v : Int32) (sendBuffer : Buffer 100) :
    IsStop (w.send v sendBuffer) ↔ w = .stop := by
  constructor
  · rintro ⟨v', sendBuffer', h⟩
    have hw := System.command_send w v sendBuffer (System.ready default)
    rw [h, System.command_send] at hw
    have hword := congrArg word? hw
    rw [word?_text, word?_text] at hword
    exact (Option.some.inj hword).symm
  · rintro rfl
    exact ⟨v, sendBuffer, rfl⟩

namespace System

variable (io : Io) (s : System)

theorem setFreq_stopRequest (v : Int32) :
    (s.setFreq io v).daemon.stopRequest = s.daemon.stopRequest := by
  by_cases h : s.FreqReaches io
  · rw [setFreq_reaches io s v h]
    rfl
  · rw [setFreq_lost io s v h]
    rfl

theorem buttonHandler_stopRequest (key : Key) (gpio : UInt8) (action : System → System)
    (h : ∀ s, (action s).daemon.stopRequest = s.daemon.stopRequest) :
    (s.buttonHandler key io gpio action).daemon.stopRequest = s.daemon.stopRequest := by
  unfold buttonHandler
  dsimp only
  generalize (if io.pread then gpio else 255) = value
  split
  · exact h _
  · rfl

theorem handler_stopRequest (h : Handler) :
    (h.run io s).daemon.stopRequest = s.daemon.stopRequest := by
  cases h with
  | freq =>
    have hdaemon := congrArg Daemon.stopRequest (freqHandler_daemon io s)
    exact hdaemon
  | cpuTemp read =>
    obtain ⟨temp, hdaemon, -⟩ := cpuTempHandler_stores io read s
    have hstop := congrArg Daemon.stopRequest hdaemon
    exact hstop
  | timer => rfl
  | k1 gpio =>
    refine buttonHandler_stopRequest io s .k1 gpio _ fun s => ?_
    rw [incrementFreq_eq]
    split
    · exact setFreq_stopRequest io s _
    · rfl
  | k2 gpio =>
    refine buttonHandler_stopRequest io s .k2 gpio _ fun s => ?_
    rw [decrementFreq_eq]
    split_ifs
    · exact setFreq_stopRequest io s _
    · rfl
    · rfl
  | k3 gpio =>
    refine buttonHandler_stopRequest io s .k3 gpio _ fun s => ?_
    simp [toggleMode]

theorem step_stopRequest {e : Event} (he : ∀ m, e ≠ .message m) :
    (s.step io e).daemon.stopRequest = s.daemon.stopRequest := by
  cases e with
  | message m => exact absurd rfl (he m)
  | publish opened =>
    simp only [step]
    split <;> rfl
  | handler h =>
    simp only [step]
    split
    · exact handler_stopRequest io s h
    · rfl
  | callback read => rfl

theorem handle_stopRequest (w : Word) (v : Int32) (sendBuffer : Buffer 100) :
    (s.handle io (w.send v sendBuffer)).1.daemon.stopRequest =
      (s.daemon.stopRequest || decide (w = .stop)) := by
  have hreceive : ∀ m, (s.receive m).daemon.stopRequest = s.daemon.stopRequest := fun _ => rfl
  rw [handle_send]
  cases w with
  | setfreq =>
    dsimp only
    split
    · simp [setFreq_stopRequest, hreceive]
    · simp [hreceive]
  | _ => simp [hreceive]

end System

namespace Exchange

section Rank

variable {s t : Exchange}

def callRank : Call → ℕ
  | .mqSend _ => 4
  | .mqReceive => 1

def callsRank (calls : List Call) : ℕ := (calls.map callRank).sum

/-- The number of steps until every client has made its calls and every reply has been taken. -/
def rank (s : Exchange) : ℕ :=
  (s.clients.map callsRank).sum + 3 * s.income.items.length + 2 * s.held.toList.length +
    s.outcome.items.length

theorem callsRank_set {clients : List (List Call)} {i : ℕ} {call : Call} {rest : List Call}
    (h : clients[i]? = some (call :: rest)) :
    ((clients.set i rest).map callsRank).sum + callRank call = (clients.map callsRank).sum := by
  induction clients generalizing i with
  | nil => cases h
  | cons calls clients ih =>
    cases i with
    | zero =>
      obtain rfl : calls = call :: rest := by simpa using h
      simp only [List.set_cons_zero, List.map_cons, List.sum_cons, callsRank]
      omega
    | succ i =>
      have := ih (by simpa using h)
      simp only [List.set_cons_succ, List.map_cons, List.sum_cons]
      omega

theorem rank_client {i : ℕ} (h : step? s (.client i) = some t) : t.rank < s.rank := by
  rcases client_cases h with ⟨m, rest, income, hcalls, hsend, rfl⟩ |
    ⟨rest, answer, outcome, hcalls, hreceive, rfl⟩
  · obtain ⟨hitems, -, -⟩ := Channel.of_send? hsend
    have hsum := callsRank_set hcalls
    simp only [callRank] at hsum
    simp only [rank, hitems, List.length_append, List.length_singleton]
    omega
  · obtain ⟨hitems, -, -⟩ := Channel.of_receive? hreceive
    have hsum := callsRank_set hcalls
    simp only [callRank] at hsum
    simp only [rank, hitems, List.length_cons]
    omega

theorem rank_receive {io : Io} (h : step? s (.receive io) = some t) : t.rank < s.rank := by
  obtain ⟨-, hheld, asked, income, hreceive, rfl⟩ := receive_cases h
  obtain ⟨hitems, -, -⟩ := Channel.of_receive? hreceive
  have hone : ∀ reply : Option (List Char),
      (reply.map (fun text => (⟨asked.client, text⟩ : Answer))).toList.length ≤ 1 := by
    rintro (_ | text) <;> simp
  have := hone (s.sys.handle io asked.msg).2
  simp only [rank, hitems, hheld, List.length_cons, Option.toList_none, List.length_nil]
  omega

theorem rank_reply (h : step? s .reply = some t) : t.rank < s.rank := by
  obtain ⟨answer, outcome, hheld, hsend, rfl⟩ := reply_cases h
  obtain ⟨hitems, -, -⟩ := Channel.of_send? hsend
  simp only [rank, hitems, hheld, List.length_append, List.length_singleton, Option.toList_some,
    Option.toList_none, List.length_nil]
  omega

theorem rank_eq_zero_iff : s.rank = 0 ↔
    (∀ calls ∈ s.clients, calls = []) ∧ s.income.items = [] ∧ s.held = none ∧
      s.outcome.items = [] := by
  have hcalls : ∀ calls : List Call, callsRank calls = 0 ↔ calls = [] := by
    intro calls
    cases calls with
    | nil => simp [callsRank]
    | cons call calls => cases call <;> simp [callsRank, callRank]
  have hheld : s.held.toList.length = 0 ↔ s.held = none := by
    cases s.held <;> simp
  have hsum : (s.clients.map callsRank).sum = 0 ↔ ∀ calls ∈ s.clients, calls = [] := by
    simp [List.sum_eq_zero_iff, hcalls]
  unfold rank
  rw [← hsum, ← hheld, ← List.length_eq_zero_iff, ← List.length_eq_zero_iff]
  omega

end Rank

section Fair

variable {s t : Exchange} {n : ℕ}

/-- Who is scheduled: one of `n` clients, a call of the message loop, or anything else. -/
inductive Party (n : ℕ)
  | client (i : Fin n)
  | receive
  | reply
  | elsewhere
  deriving DecidableEq

/-- What the kernel and the hardware do at each time. -/
structure Surroundings where
  io : ℕ → Io
  event : ℕ → Event

def Party.turn (w : Surroundings) (time : ℕ) : Party n → Turn
  | .client i => .client i
  | .receive => .receive (w.io time)
  | .reply => .reply
  | .elsewhere => .event (w.io time) (w.event time)

def stepParty (w : Surroundings) (x : Exchange × ℕ) (p : Party n) : Exchange × ℕ :=
  (step x.1 (p.turn w x.2), x.2 + 1)

def clientParty (n i : ℕ) : Party n := if h : i < n then .client ⟨i, h⟩ else .elsewhere

/-- A party that can make its next call. -/
def helper (n : ℕ) (s : Exchange) : Party n :=
  if s.outcome.items ≠ [] then clientParty n (s.clients.findIdx waits)
  else if s.held.isSome then .reply
  else if s.income.items ≠ [] then .receive
  else clientParty n (s.clients.findIdx (· ≠ []))

/-- The daemon runs, and nobody is about to stop it. -/
structure Serving (n : ℕ) (s : Exchange) : Prop where
  balanced : s.Balanced
  running : s.sys.daemon.stopRequest = false
  requests : ∀ calls ∈ s.clients, ∀ m, .mqSend m ∈ calls → ¬ IsStop m
  income : ∀ asked ∈ s.income.items, ¬ IsStop asked.msg
  length : s.clients.length = n

theorem requests_set {clients : List (List Call)} {i : ℕ} {call : Call} {rest : List Call}
    (h : ∀ calls ∈ clients, ∀ m, .mqSend m ∈ calls → ¬ IsStop m)
    (hcalls : clients[i]? = some (call :: rest)) :
    ∀ calls ∈ clients.set i rest, ∀ m, .mqSend m ∈ calls → ¬ IsStop m := by
  intro calls hmem m hm
  rcases List.mem_or_eq_of_mem_set hmem with hmem | rfl
  · exact h calls hmem m hm
  · exact h _ (List.mem_of_getElem? hcalls) m (List.mem_cons_of_mem call hm)

theorem Serving.step? (h : s.Serving n) {turn : Turn} (hstep : step? s turn = some t) :
    t.Serving n := by
  obtain ⟨hbalanced, hrunning, hrequests, hincome, hlength⟩ := h
  have hbalanced' := balanced_took (took_of_step? hstep) hbalanced
  cases turn with
  | client i =>
    rcases client_cases hstep with ⟨m, rest, income, hcalls, hsend, rfl⟩ |
      ⟨rest, answer, outcome, hcalls, hreceive, rfl⟩
    · obtain ⟨hitems, -, -⟩ := Channel.of_send? hsend
      refine ⟨hbalanced', hrunning, requests_set hrequests hcalls, ?_, by simpa using hlength⟩
      intro asked hmem
      rw [hitems, List.mem_append, List.mem_singleton] at hmem
      rcases hmem with hmem | rfl
      · exact hincome asked hmem
      · exact hrequests _ (List.mem_of_getElem? hcalls) m List.mem_cons_self
    · exact ⟨hbalanced', hrunning, requests_set hrequests hcalls, hincome, by simpa using hlength⟩
  | receive io =>
    obtain ⟨-, -, asked, income, hreceive, rfl⟩ := receive_cases hstep
    obtain ⟨hitems, -, -⟩ := Channel.of_receive? hreceive
    have hmem : asked ∈ s.income.items := hitems ▸ List.mem_cons_self
    obtain ⟨w, v, sendBuffer, hmsg, -⟩ := hbalanced.requests asked hmem
    have hword : w ≠ .stop := fun hw => hincome asked hmem (hmsg ▸ (isStop_send_iff ..).mpr hw)
    refine ⟨hbalanced', ?_, hrequests, ?_, hlength⟩
    · simp [hmsg, System.handle_stopRequest, hrunning, hword]
    · exact fun asked' hmem' => hincome asked' (hitems ▸ List.mem_cons_of_mem _ hmem')
  | reply =>
    obtain ⟨answer, outcome, -, -, rfl⟩ := reply_cases hstep
    exact ⟨hbalanced', hrunning, hrequests, hincome, hlength⟩
  | event io e =>
    obtain ⟨rfl, he⟩ := event_cases hstep
    exact ⟨hbalanced', (System.step_stopRequest io s.sys he).trans hrunning, hrequests, hincome,
      hlength⟩

theorem isSome_step?_deliver {i : ℕ} (hi : s.clients[i]? = some [.mqReceive])
    (hreply : s.outcome.items ≠ []) : (step? s (.client i)).isSome := by
  have hreceive := Channel.isSome_receive? hreply
  simpa [step?, hi, clientStep] using hreceive

/-- While something is left to do the helper is not blocked. -/
theorem helper_enabled (h : s.Serving n) (h0 : s.rank ≠ 0) (w : Surroundings) (time : ℕ) :
    s.helper n ≠ .elsewhere ∧ (step? s ((s.helper n).turn w time)).isSome := by
  have hclient : ∀ {p : List Call → Bool}, (∃ calls ∈ s.clients, p calls = true) →
      ∃ hlt : s.clients.findIdx p < n, clientParty n (s.clients.findIdx p) = .client ⟨_, hlt⟩ ∧
        ∃ calls ∈ s.clients, p calls = true ∧ s.clients[s.clients.findIdx p]? = some calls := by
    intro p hex
    have hlt := List.findIdx_lt_length_of_exists hex
    have hget := List.getElem?_eq_getElem hlt
    rw [h.length] at hlt
    exact ⟨hlt, dif_pos hlt, _, List.getElem_mem _, List.findIdx_getElem, hget⟩
  unfold helper
  by_cases hreply : s.outcome.items = []
  · rw [if_neg (not_not.mpr hreply)]
    cases hheld : s.held with
    | some answer =>
      have hsend : (s.outcome.send? answer).isSome :=
        Channel.isSome_send? (by rw [hreply]; decide)
      refine ⟨by simp, ?_⟩
      simpa [Party.turn, step?, replyStep, hheld] using hsend
    | none =>
      by_cases hincome : s.income.items = []
      · have hunfinished : ∃ calls ∈ s.clients, decide (calls ≠ []) = true := by
          by_contra hall
          refine h0 (rank_eq_zero_iff.mpr ⟨?_, hincome, hheld, hreply⟩)
          intro calls hmem
          by_contra hne
          exact hall ⟨calls, hmem, by simpa using hne⟩
        obtain ⟨hlt, hparty, calls, hmem, hne, hget⟩ := hclient hunfinished
        have hnone : s.clients.countP waits = 0 := by
          rw [h.balanced.waiting, hincome, hreply, hheld]
          rfl
        simp only [Option.isSome_none, Bool.false_eq_true, if_false, hincome, not_true, ne_eq,
          hparty]
        refine ⟨by simp, ?_⟩
        cases h.balanced.clients calls hmem with
        | done => simp at hne
        | waiting => exact absurd rfl (List.countP_eq_zero.mp hnone _ hmem)
        | ready w v sendBuffer => exact isSome_step?_send hget hincome
      · have hreceive := Channel.isSome_receive? hincome
        simp only [Option.isSome_none, Bool.false_eq_true, if_false, ne_eq, hincome,
          not_false_eq_true, if_true]
        refine ⟨by simp, ?_⟩
        simpa [Party.turn, step?, receiveStep, h.running, hheld] using hreceive
  · rw [if_pos hreply]
    have hwaiting : 0 < s.clients.countP waits := by
      have hpos := List.length_pos_iff.mpr hreply
      rw [h.balanced.waiting]
      omega
    obtain ⟨hlt, hparty, calls, hmem, hwaits, hget⟩ := hclient (List.countP_pos_iff.mp hwaiting)
    rw [hparty]
    refine ⟨by simp, ?_⟩
    cases h.balanced.clients calls hmem with
    | done => cases hwaits
    | waiting => exact isSome_step?_deliver hget hreply
    | ready w v sendBuffer => cases hwaits

/-- A call that is made brings the end nearer; anything else leaves what is to be done. -/
theorem rank_turn (w : Surroundings) (time : ℕ) (s : Exchange) (p : Party n) :
    (step s (p.turn w time)).rank < s.rank ∨
      ((p = .elsewhere ∨ step? s (p.turn w time) = none) ∧
        (step s (p.turn w time)).rank = s.rank ∧
        (step s (p.turn w time)).helper n = s.helper n) := by
  cases hstep : step? s (p.turn w time) with
  | none =>
    have hsame : step s (p.turn w time) = s := by simp [step, stutter, hstep]
    exact Or.inr ⟨Or.inr rfl, by rw [hsame], by rw [hsame]⟩
  | some t =>
    have ht : step s (p.turn w time) = t := stutter_of_some hstep
    rw [ht]
    cases p with
    | client i => exact Or.inl (rank_client hstep)
    | receive => exact Or.inl (rank_receive hstep)
    | reply => exact Or.inl (rank_reply hstep)
    | elsewhere =>
      obtain ⟨rfl, -⟩ := event_cases hstep
      exact Or.inr ⟨Or.inl rfl, rfl, rfl⟩

theorem helped (w : Surroundings) (n : ℕ) :
    Helped (stepParty w) (fun x => x.1.Serving n) (fun x => x.1.rank) (fun x => x.1.helper n) where
  kept x p h := stutter_invariant (fun _ _ _ ht hs => hs.step? ht) x.1 (p.turn w x.2) h
  moves x p h h0 := by
    obtain ⟨hhere, henabled⟩ := helper_enabled h h0 w x.2
    refine (rank_turn w x.2 x.1 p).imp_right ?_
    rintro ⟨hidle, hrank, hhelper⟩
    refine ⟨?_, hrank, hhelper⟩
    rintro rfl
    rcases hidle with helsewhere | hnone
    · exact hhere helsewhere
    · simp [hnone] at henabled
  stays x p h h0 := by
    rcases rank_turn w x.2 x.1 p with hlt | ⟨-, hrank, -⟩
    · omega
    · exact hrank.trans h0

theorem serving_start {clients : List (Args × Buffer 100)} {sys : System}
    (hclients : ∀ c ∈ clients, c.1 ≠ .stopdaem) (hsys : sys.daemon.stopRequest = false) :
    (start clients sys).Serving clients.length := by
  refine ⟨balanced_start clients sys, hsys, ?_, by simp [start, Channel.empty], by simp [start]⟩
  intro calls hmem m hm
  obtain ⟨⟨args, sendBuffer⟩, hc, rfl⟩ := List.mem_map.mp hmem
  have hargs := hclients _ hc
  cases args with
  | stopdaem => exact absurd rfl hargs
  | setMode mode =>
    simp only [clientMain] at hm
    split at hm
    · obtain rfl : m = Word.setmode.send mode sendBuffer := by simpa using hm
      simp [isStop_send_iff]
    · cases hm
  | other => cases hm
  | setFreq freq =>
    obtain rfl : m = Word.setfreq.send freq sendBuffer := by simpa [clientMain] using hm
    simp [isStop_send_iff]
  | getFreq =>
    obtain rfl : m = Word.getfreq.send 0 sendBuffer := by simpa [clientMain] using hm
    simp [isStop_send_iff]
  | getMode =>
    obtain rfl : m = Word.getmode.send 0 sendBuffer := by simpa [clientMain] using hm
    simp [isStop_send_iff]
  | getTemp =>
    obtain rfl : m = Word.gettemp.send 0 sendBuffer := by simpa [clientMain] using hm
    simp [isStop_send_iff]

theorem rank_start_le (clients : List (Args × Buffer 100)) (sys : System) :
    (start clients sys).rank ≤ 5 * clients.length := by
  have hcalls : ∀ c : Args × Buffer 100, callsRank (clientMain c.1 c.2) ≤ 5 := by
    rintro ⟨args, sendBuffer⟩
    cases args <;> simp only [clientMain] <;> (try split) <;> simp [callsRank, callRank]
  have hsum : ((start clients sys).clients.map callsRank).sum ≤ 5 * clients.length := by
    simp only [start, List.map_map]
    induction clients with
    | nil => simp
    | cons c clients ih =>
      have := hcalls c
      simp only [List.map_cons, List.sum_cons, List.length_cons, Function.comp_apply] at ih ⊢
      omega
  simpa [rank, start, Channel.empty] using hsum

structure Served (s : Exchange) : Prop where
  finished : ∀ calls ∈ s.clients, calls = []
  handled : s.income.received = s.income.sent
  delivered : s.deliveries.map (·.2.client) = s.requestOrder

theorem Serving.served (h : s.Serving n) (h0 : s.rank = 0) : s.Served := by
  obtain ⟨hfinished, hincome, hheld, hreply⟩ := rank_eq_zero_iff.mp h0
  have hreceived : s.outcome.received = s.outcome.sent := by
    rw [s.outcome.history, hreply, List.append_nil]
  have hsent : s.income.received = s.income.sent := by
    rw [s.income.history, hincome, List.append_nil]
  have hreplies := h.balanced.replies
  rw [hheld, Option.toList_none, List.map_nil, List.append_nil, hsent] at hreplies
  refine ⟨hfinished, hsent, ?_⟩
  calc s.deliveries.map (·.2.client)
      = (s.deliveries.map Prod.snd).map Answer.client := by rw [List.map_map]; rfl
    _ = s.outcome.sent.map Answer.client := by rw [h.balanced.deliveries, hreceived]
    _ = s.requestOrder := hreplies

/--
If no client asks the daemon to stop, then whatever the schedule did before and whatever else
happens, five fair rounds for each client later all requests have been handled, all answers
delivered, and all clients are done.
-/
theorem fair_rounds_serve {clients : List (Args × Buffer 100)} {sys : System}
    (hclients : ∀ c ∈ clients, c.1 ≠ .stopdaem) (hsys : sys.daemon.stopRequest = false)
    (w : Surroundings) (before : List (Party clients.length))
    {rounds : List (List (Party clients.length))}
    (hfair : ∀ round ∈ rounds, FairRound round) (hlen : 5 * clients.length ≤ rounds.length) :
    (run (stepParty w) (start clients sys, 0) (before ++ rounds.flatten)).1.Served := by
  have hhelped := helped w clients.length
  have hserving := serving_start hclients hsys
  have hbefore := run_invariant hhelped.kept (s := (start clients sys, 0)) hserving before
  have hrank := hhelped.rank_run_le (s := (start clients sys, 0)) hserving before
  have hstart := (rank_start_le clients sys).trans hlen
  rw [run_append]
  have hzero := hhelped.rank_eq_zero hbefore hfair (hrank.trans hstart)
  have hkept := run_invariant hhelped.kept hbefore rounds.flatten
  exact hkept.served hzero

/-- One client asks for the frequency and one sets the mode, while a button is pressed. -/
def pair : List (Args × Buffer 100) :=
  [(.getFreq, Buffer.fill 100 ' '), (.setMode 1, Buffer.fill 100 ' ')]

def first : Party pair.length := .client ⟨0, by decide⟩

def second : Party pair.length := .client ⟨1, by decide⟩

theorem fair_rounds_serve_pair :
    (run (stepParty ⟨fun _ => .ok, fun _ => .handler (.k3 1)⟩)
      (start pair (System.published Driver.loaded default), 0)
      ([second] ++ (List.replicate 10 [.elsewhere, first, .reply, second, .receive]).flatten)
      ).1.Served := by
  have hclients : ∀ c ∈ pair, c.1 ≠ .stopdaem := by simp [pair]
  refine fair_rounds_serve hclients rfl _ [second] ?_ (by simp [pair])
  intro round hround
  rw [List.eq_of_mem_replicate hround]
  rintro (⟨i, hi⟩ | _ | _ | _)
  · have hcases : i = 0 ∨ i = 1 := by simp [pair] at hi; omega
    rcases hcases with rfl | rfl <;> simp [first, second]
  all_goals simp

end Fair

end Exchange

end CSEL1
