import CSEL1.Daemon.Codec
import CSEL1.Daemon.Events
import CSEL1.Queue.Channel

/-! # Clients and daemon over the two queues

Any number of client processes, the queue of requests, the message loop and the
queue of replies. A step is the next blocking call of a client, one of the two
blocking calls of the message loop, or an event elsewhere in the daemon or in
the driver.
-/

namespace CSEL1

open CText Queue Transition

/-- Who is to receive an answer to the request in the income queue, for the record only. -/
structure Asked where
  client : ℕ
  waits : Bool
  msg : Msg
  deriving DecidableEq, Repr

/-- A reply together with the client whose request it answers, again for the record only. -/
structure Answer where
  client : ℕ
  text : List Char
  deriving DecidableEq, Repr

/-- `clients` holds the calls each client still has to make, `held` the reply not yet sent. -/
structure Exchange where
  clients : List (List Call)
  income : Channel Asked 10
  outcome : Channel Answer 10
  held : Option Answer
  sys : System
  deliveries : List (ℕ × Answer)

inductive Turn
  | client (i : ℕ)
  | receive (io : Io)
  | reply
  | event (io : Io) (e : Event)

namespace Exchange

def waits : List Call → Bool
  | .mqReceive :: _ => true
  | _ => false

/-- The next call of a client, which has the remaining calls `rest` after it. -/
def clientStep (s : Exchange) (i : ℕ) (rest : List Call) : Call → Option Exchange
  | .mqSend m =>
    (s.income.send? ⟨i, waits rest, m⟩).map fun income =>
      { s with clients := s.clients.set i rest, income := income }
  | .mqReceive =>
    s.outcome.receive?.map fun (answer, outcome) =>
      { s with
        clients := s.clients.set i rest
        outcome := outcome
        deliveries := s.deliveries ++ [(i, answer)] }

def receiveStep (s : Exchange) (io : Io) : Option Exchange :=
  if s.sys.daemon.stopRequest = false ∧ s.held = none then
    s.income.receive?.map fun (asked, income) =>
      { s with
        income := income
        sys := (s.sys.handle io asked.msg).1
        held := (s.sys.handle io asked.msg).2.map (⟨asked.client, ·⟩) }
  else none

def replyStep (s : Exchange) : Option Exchange :=
  s.held.bind fun answer =>
    (s.outcome.send? answer).map fun outcome => { s with outcome := outcome, held := none }

def step? (s : Exchange) : Turn → Option Exchange
  | .client i =>
    match s.clients[i]? with
    | some (call :: rest) => s.clientStep i rest call
    | _ => none
  | .receive io => s.receiveStep io
  | .reply => s.replyStep
  -- a message only comes from the income queue
  | .event _ (.message _) => none
  | .event io e => some { s with sys := s.sys.step io e }

def step : Exchange → Turn → Exchange := stutter step?

def start (clients : List (Args × Buffer 100)) (sys : System) : Exchange where
  clients := clients.map fun c => clientMain c.1 c.2
  income := Channel.empty Asked 10
  outcome := Channel.empty Answer 10
  held := none
  sys := sys
  deliveries := []

end Exchange

namespace Exchange

inductive Took (s : Exchange) : Exchange → Prop
  | send {i : ℕ} {m : Msg} {rest : List Call} {income : Channel Asked 10} :
    s.clients[i]? = some (.mqSend m :: rest) →
    s.income.send? ⟨i, waits rest, m⟩ = some income →
    Took s { s with clients := s.clients.set i rest, income := income }
  | deliver {i : ℕ} {rest : List Call} {answer : Answer} {outcome : Channel Answer 10} :
    s.clients[i]? = some (.mqReceive :: rest) →
    s.outcome.receive? = some (answer, outcome) →
    Took s { s with
      clients := s.clients.set i rest
      outcome := outcome
      deliveries := s.deliveries ++ [(i, answer)] }
  | receive {io : Io} {asked : Asked} {income : Channel Asked 10} :
    s.held = none →
    s.income.receive? = some (asked, income) →
    Took s { s with
      income := income
      sys := (s.sys.handle io asked.msg).1
      held := (s.sys.handle io asked.msg).2.map (⟨asked.client, ·⟩) }
  | reply {answer : Answer} {outcome : Channel Answer 10} :
    s.held = some answer →
    s.outcome.send? answer = some outcome →
    Took s { s with outcome := outcome, held := none }
  | event {sys : System} : Took s { s with sys := sys }

section Cases

variable {s t : Exchange} {i : ℕ} {io : Io}

theorem client_cases (h : step? s (.client i) = some t) :
    (∃ m rest income, s.clients[i]? = some (.mqSend m :: rest) ∧
      s.income.send? ⟨i, waits rest, m⟩ = some income ∧
      t = { s with clients := s.clients.set i rest, income := income }) ∨
    ∃ rest answer outcome, s.clients[i]? = some (.mqReceive :: rest) ∧
      s.outcome.receive? = some (answer, outcome) ∧
      t = { s with
        clients := s.clients.set i rest
        outcome := outcome
        deliveries := s.deliveries ++ [(i, answer)] } := by
  simp only [step?] at h
  split at h
  · next call rest hcalls =>
    cases call with
    | mqSend m =>
      obtain ⟨income, hsend, rfl⟩ := Option.map_eq_some_iff.mp h
      exact Or.inl ⟨m, rest, income, hcalls, hsend, rfl⟩
    | mqReceive =>
      obtain ⟨⟨answer, outcome⟩, hreceive, rfl⟩ := Option.map_eq_some_iff.mp h
      exact Or.inr ⟨rest, answer, outcome, hcalls, hreceive, rfl⟩
  · cases h

theorem receive_cases (h : step? s (.receive io) = some t) :
    s.sys.daemon.stopRequest = false ∧ s.held = none ∧
      ∃ asked income, s.income.receive? = some (asked, income) ∧
        t = { s with
          income := income
          sys := (s.sys.handle io asked.msg).1
          held := (s.sys.handle io asked.msg).2.map (⟨asked.client, ·⟩) } := by
  simp only [step?, receiveStep] at h
  split at h
  · next hidle =>
    obtain ⟨⟨asked, income⟩, hreceive, rfl⟩ := Option.map_eq_some_iff.mp h
    exact ⟨hidle.1, hidle.2, asked, income, hreceive, rfl⟩
  · cases h

theorem reply_cases (h : step? s .reply = some t) :
    ∃ answer outcome, s.held = some answer ∧ s.outcome.send? answer = some outcome ∧
      t = { s with outcome := outcome, held := none } := by
  obtain ⟨answer, hheld, h⟩ := Option.bind_eq_some_iff.mp h
  obtain ⟨outcome, hsend, rfl⟩ := Option.map_eq_some_iff.mp h
  exact ⟨answer, outcome, hheld, hsend, rfl⟩

theorem event_cases {e : Event} (h : step? s (.event io e) = some t) :
    t = { s with sys := s.sys.step io e } ∧ ∀ m, e ≠ .message m := by
  cases e with
  | message m => cases h
  | _ =>
    cases h
    exact ⟨rfl, fun _ => nofun⟩

end Cases

theorem took_of_step? {s t : Exchange} {turn : Turn} (h : step? s turn = some t) : Took s t := by
  cases turn with
  | client i =>
    rcases client_cases h with ⟨m, rest, income, hcalls, hsend, rfl⟩ |
      ⟨rest, answer, outcome, hcalls, hreceive, rfl⟩
    · exact .send hcalls hsend
    · exact .deliver hcalls hreceive
  | receive io =>
    obtain ⟨-, hheld, asked, income, hreceive, rfl⟩ := receive_cases h
    exact .receive hheld hreceive
  | reply =>
    obtain ⟨answer, outcome, hheld, hsend, rfl⟩ := reply_cases h
    exact .reply hheld hsend
  | event io e =>
    obtain ⟨rfl, -⟩ := event_cases h
    exact .event

end Exchange

def Word.answered : Word → Bool
  | .setmode | .stop => false
  | _ => true

/-- A client has made all its calls, waits for its answer, or is about to send its request. -/
inductive ClientAt : List Call → Prop
  | done : ClientAt []
  | waiting : ClientAt [.mqReceive]
  | ready (w : Word) (v : Int32) (sendBuffer : Buffer 100) :
    ClientAt (.mqSend (w.send v sendBuffer) :: if w.answered then [.mqReceive] else [])

theorem clientAt_clientMain (args : Args) (sendBuffer : Buffer 100) :
    ClientAt (clientMain args sendBuffer) := by
  cases args with
  | setFreq freq => exact .ready .setfreq freq sendBuffer
  | getFreq => exact .ready .getfreq 0 sendBuffer
  | stopdaem => exact .ready .stop 0 sendBuffer
  | getMode => exact .ready .getmode 0 sendBuffer
  | setMode mode =>
    simp only [clientMain]
    split
    · exact .ready .setmode mode sendBuffer
    · exact .done
  | getTemp => exact .ready .gettemp 0 sendBuffer
  | other => exact .done

/-- The message loop replies to exactly the requests whose senders wait. -/
theorem isSome_handle_send (w : Word) (v : Int32) (sendBuffer : Buffer 100) (io : Io) (s : System) :
    (s.handle io (w.send v sendBuffer)).2.isSome = w.answered := by
  rw [System.handle_send]
  cases w with
  | setfreq =>
    dsimp only
    split <;> rfl
  | _ => rfl

end CSEL1
