import CSEL1.Client.Fan
import CSEL1.Queue.Service
import CSEL1.Transition.Component

/-! # One command after the other

However clients, daemon and driver interleave, the commands take effect on one fan, each
at the moment in which the message loop receives its request, and the replies are the
answers of that fan. Clients that ask one at a time print what it answers them.
-/

namespace CSEL1

open CText Queue Transition

/-- What takes effect on the fan: the command of a client, or something that happens. -/
inductive Effect
  | ask (client : ℕ)
  | happen (h : Happening)
  deriving DecidableEq, Repr

/-- A fan, and what it has said to each command. -/
structure Conversation where
  fan : Fan
  said : List (ℕ × Option Outcome)
  deriving DecidableEq, Repr

namespace Conversation

def step (args : List Args) (c : Conversation) : Effect → Conversation
  | .ask i =>
    match args[i]? with
    | some a => { fan := (c.fan.ask a).1, said := c.said ++ [(i, (c.fan.ask a).2)] }
    | none => c
  | .happen h => { c with fan := c.fan.happen h }

def replies (c : Conversation) : List Answer :=
  c.said.filterMap fun x => x.2.map fun a => ⟨x.1, a.text⟩

def ofDriver (d : Driver) : Conversation := ⟨⟨d.mode, d.freq, 0, 0⟩, []⟩

theorem step_ask {args : List Args} {a : Args} {i : ℕ} (c : Conversation)
    (h : args[i]? = some a) : c.step args (.ask i) =
      { fan := (c.fan.ask a).1, said := c.said ++ [(i, (c.fan.ask a).2)] } := by
  simp only [step, h]

end Conversation

namespace Exchange

def effect? (s : Exchange) : Turn → Option Effect
  | .receive io =>
    (s.receiveStep io).bind fun _ => s.income.items.head?.map fun asked => .ask asked.client
  | .event _ e => e.happening?.map .happen
  | .client _ => none
  | .reply => none

def Fine : Turn → Prop
  | .receive io => io = .ok
  | .event io e => io = .ok ∧ e.Plausible
  | .client _ => True
  | .reply => True

def Sends (args : List Args) (i : ℕ) (m : Msg) : Prop :=
  ∃ a w v sendBuffer, args[i]? = some a ∧ a.request? = some (w, v) ∧ m = Word.send w v sendBuffer

structure InStep (args : List Args) (s : Exchange) (c : Conversation) : Prop where
  acts : s.sys.ActsAs c.fan
  clients : ∀ i calls, s.clients[i]? = some calls → ∀ m, .mqSend m ∈ calls → Sends args i m
  income : ∀ asked ∈ s.income.items, Sends args asked.client asked.msg
  handled : s.income.received.map Asked.client = c.said.map Prod.fst
  replies : s.outcome.sent ++ s.held.toList = c.replies

section Steps

variable {args : List Args} {s t : Exchange} {c : Conversation}

theorem clients_set {i : ℕ} {call : Call} {rest : List Call}
    (h : ∀ j calls, s.clients[j]? = some calls → ∀ m, .mqSend m ∈ calls → Sends args j m)
    (hcalls : s.clients[i]? = some (call :: rest)) :
    ∀ j calls, (s.clients.set i rest)[j]? = some calls →
      ∀ m, .mqSend m ∈ calls → Sends args j m := by
  intro j calls hj m hm
  rw [List.getElem?_set] at hj
  split at hj
  · next hij =>
    subst hij
    split at hj
    · cases hj
      exact h i _ hcalls m (List.mem_cons_of_mem call hm)
    · cases hj
  · exact h j calls hj m hm

theorem InStep.client (h : InStep args s c) {i : ℕ} (hstep : step? s (.client i) = some t) :
    InStep args t c := by
  obtain ⟨hacts, hclients, hincome, hhandled, hreplies⟩ := h
  rcases client_cases hstep with ⟨m, rest, income, hcalls, hsend, rfl⟩ |
    ⟨rest, answer, outcome, hcalls, hreceive, rfl⟩
  · obtain ⟨hitems, -, hreceived⟩ := Channel.of_send? hsend
    refine ⟨hacts, clients_set hclients hcalls, ?_, ?_, hreplies⟩
    · intro asked hmem
      rw [hitems, List.mem_append, List.mem_singleton] at hmem
      rcases hmem with hmem | rfl
      · exact hincome asked hmem
      · exact hclients i _ hcalls m List.mem_cons_self
    · rw [hreceived]
      exact hhandled
  · obtain ⟨-, hsent, -⟩ := Channel.of_receive? hreceive
    refine ⟨hacts, clients_set hclients hcalls, hincome, hhandled, ?_⟩
    rw [hsent]
    exact hreplies

theorem InStep.reply (h : InStep args s c) (hstep : step? s .reply = some t) :
    InStep args t c := by
  obtain ⟨answer, outcome, hheld, hsend, rfl⟩ := reply_cases hstep
  obtain ⟨-, hsent, -⟩ := Channel.of_send? hsend
  have hreplies := h.replies
  rw [hheld, Option.toList_some] at hreplies
  refine ⟨h.acts, h.clients, h.income, h.handled, ?_⟩
  rw [hsent, Option.toList_none, List.append_nil]
  exact hreplies

/-- A request takes effect when it is received, and the reply is the fan's answer. -/
theorem InStep.receive (h : InStep args s c) (hstep : step? s (.receive .ok) = some t) :
    InStep args t (run (Conversation.step args) c (effect? s (.receive .ok)).toList) := by
  have hsome : s.receiveStep .ok = some t := hstep
  obtain ⟨-, hheld, asked, income, hreceive, rfl⟩ := receive_cases hstep
  obtain ⟨hitems, -, hreceived⟩ := Channel.of_receive? hreceive
  obtain ⟨a, w, v, sendBuffer, hargs, hrequest, hmsg⟩ :=
    h.income asked (hitems ▸ List.mem_cons_self)
  obtain ⟨hacts, hreply⟩ := h.acts.handle hrequest sendBuffer
  have heffect : effect? s (.receive .ok) = some (.ask asked.client) := by
    simp only [effect?, hsome, hitems, Option.bind_some, List.head?_cons, Option.map_some]
  rw [heffect, Option.toList_some, run_cons, run_nil, c.step_ask hargs]
  rw [← hmsg] at hacts hreply
  refine ⟨hacts, h.clients, ?_, ?_, ?_⟩
  · exact fun asked' hmem => h.income asked' (hitems ▸ List.mem_cons_of_mem asked hmem)
  · rw [hreceived, List.map_append, List.map_append, h.handled]
    rfl
  · have hreplies := h.replies
    rw [hheld, Option.toList_none, List.append_nil] at hreplies
    simp only [Conversation.replies, List.filterMap_append] at hreplies ⊢
    rw [← hreplies, hreply]
    cases (c.fan.ask a).2 <;> rfl

theorem InStep.event (h : InStep args s c) {e : Event} (he : e.Plausible)
    (hstep : step? s (.event .ok e) = some t) :
    InStep args t (run (Conversation.step args) c (effect? s (.event .ok e)).toList) := by
  obtain ⟨rfl, hm⟩ := event_cases hstep
  have hacts := h.acts.step he hm
  simp only [effect?]
  cases hhappening : e.happening? with
  | none =>
    rw [hhappening] at hacts
    exact ⟨hacts, h.clients, h.income, h.handled, h.replies⟩
  | some happening =>
    rw [hhappening] at hacts
    exact ⟨hacts, h.clients, h.income, h.handled, h.replies⟩

theorem effect?_of_blocked {turn : Turn} (h : step? s turn = none) : effect? s turn = none := by
  cases turn with
  | client i => rfl
  | reply => rfl
  | receive io =>
    have hnone : s.receiveStep io = none := h
    simp only [effect?, hnone, Option.bind_none]
  | event io e =>
    cases e with
    | message m => rfl
    | _ => cases h

theorem InStep.step (h : InStep args s c) {turn : Turn} (hturn : Fine turn) :
    InStep args (step s turn) (run (Conversation.step args) c (effect? s turn).toList) := by
  cases hstep : step? s turn with
  | none =>
    have hblocked : Exchange.step s turn = s := stutter_of_none hstep
    rw [hblocked, effect?_of_blocked hstep]
    exact h
  | some t =>
    have htaken : Exchange.step s turn = t := stutter_of_some hstep
    rw [htaken]
    cases turn with
    | client i => exact h.client hstep
    | reply => exact h.reply hstep
    | receive io =>
      obtain rfl : io = .ok := hturn
      exact h.receive hstep
    | event io e =>
      obtain ⟨rfl, he⟩ := hturn
      exact h.event he hstep

end Steps

section Runs

variable (clients : List (Args × Buffer 100)) (d : Driver) (locals : Locals)

def effects (sys : System) (turns : List Turn) : List Effect :=
  emitted step effect? (start clients sys) turns

def conversation (turns : List Turn) : Conversation :=
  run (Conversation.step (clients.map Prod.fst)) (Conversation.ofDriver d)
    (effects clients (System.published d locals) turns)

theorem inStep_start : InStep (clients.map Prod.fst) (start clients (System.published d locals))
    (Conversation.ofDriver d) := by
  refine ⟨System.actsAs_published d locals, ?_, by simp [start, Channel.empty], rfl, rfl⟩
  intro i calls hcalls m hm
  simp only [start, List.getElem?_map, Option.map_eq_some_iff] at hcalls
  obtain ⟨client, hclient, rfl⟩ := hcalls
  obtain ⟨w, v, hrequest, rfl⟩ := mem_clientMain hm
  refine ⟨client.1, w, v, client.2, ?_, hrequest, rfl⟩
  rw [List.getElem?_map, hclient, Option.map_some]

theorem inStep_after {turns : List Turn} (hturns : ∀ turn ∈ turns, Fine turn) :
    InStep (clients.map Prod.fst) (after clients (System.published d locals) turns)
      (conversation clients d locals turns) :=
  run_emitted (P := fun _ turn => Fine turn) (fun _ _ _ h hturn => h.step hturn)
    (inStep_start clients d locals) (along_of_forall fun turn hmem _ => hturns turn hmem)

/--
However clients, daemon and driver interleave, the system acts like one fan on which the commands
take effect one after the other: each handled request once, in the order in which the requests were
sent, and the replies are what the fan says.
-/
theorem commands_atomic {turns : List Turn} (hturns : ∀ turn ∈ turns, Fine turn) :
    (after clients (System.published d locals) turns).sys.ActsAs
        (conversation clients d locals turns).fan ∧
      (conversation clients d locals turns).said.map Prod.fst <+:
        (after clients (System.published d locals) turns).income.sent.map Asked.client ∧
      (conversation clients d locals turns).said.length =
        (after clients (System.published d locals) turns).income.received.length ∧
      (after clients (System.published d locals) turns).outcome.sent ++
          (after clients (System.published d locals) turns).held.toList =
        (conversation clients d locals turns).replies := by
  have h := inStep_after clients d locals hturns
  have hlength := congrArg List.length h.handled
  rw [List.length_map, List.length_map] at hlength
  refine ⟨h.acts, ?_, hlength.symm, h.replies⟩
  rw [← h.handled]
  exact (Channel.received_prefix _).map _

/-- Two clients set the mode and the frequency, and a third one reads the copy of the frequency. -/
def session : List (Args × Buffer 100) :=
  [(.setMode 1, Buffer.fill 100 ' '), (.setFreq 7, Buffer.fill 100 ' '),
    (.getFreq, Buffer.fill 100 ' ')]

def sessionTurns : List Turn :=
  [.client 0, .client 1, .receive .ok, .receive .ok, .reply, .client 1,
    .event .ok (.handler .freq), .client 2, .receive .ok, .reply, .client 2]

theorem commands_atomic_session :
    (after session (System.published Driver.loaded default) sessionTurns).outcome.sent =
      [⟨1, Reply.ok⟩, ⟨2, ['7']⟩] := by
  have hturns : ∀ turn ∈ sessionTurns, Fine turn := by
    simp [sessionTurns, Fine, Event.Plausible]
  have h := (commands_atomic session Driver.loaded default hturns).2.2.2
  have hheld : (after session (System.published Driver.loaded default) sessionTurns).held =
      none := by decide
  rw [hheld, Option.toList_none, List.append_nil] at h
  rw [h]
  decide

end Runs

end Exchange

end CSEL1
