import VnfDockerNet.Layer2Spec

/-!
# The agent of a local controller

`Layer2Switch` with its `CentralCtrlAgent` and the threads that share it. A
thread runs its turn to the end, except that `send_q.put` makes it wait while
the queue is full and the other threads go on. Which of the waiting threads
gets a free slot is left open. `wire` lists what was put on the connection.
-/

namespace VnfDockerNet

open Python Networkx

/-- The threads: ryu's events, `serve` with the receive loop, and one for each
loop of the app. -/
inductive Thread where
  | ryu
  | serve
  | load_report
  | graph_info
  | packet_timeout
  deriving DecidableEq, Repr

def LocalEvent.thread : LocalEvent → Thread
  | .SwitchFeatures _ | .RoleReply .. | .PacketIn .. | .TopologyChange _ | .SwitchLeave _ => .ryu
  | .Connected | .Downlink .. => .serve
  | .LoadRound => .load_report
  | .GraphInfoRound _ => .graph_info
  | .TimeoutRound _ => .packet_timeout

def SEND_Q_SIZE : Nat := 16

structure LocalSystem (Γ : Type) where
  app : Layer2Switch Γ
  /-- `None` when the send loop has ended. -/
  send_q : Option (List SentUp) := some []
  /-- The threads that wait in `put`, with what they put. -/
  putters : List (Thread × SentUp) := []
  wire : List SentUp := []
  /-- What `_load_report` has left of its list; nothing when it has raised. -/
  load_report : Option (List Nat) := some []

inductive Turn where
  | event (e : LocalEvent)
  | connectFailed
  /-- One message from `send_q` to the socket. -/
  | sendLoop
  | unblock (i : Nat)
  /-- The connection drops, and both loops of the agent end. -/
  | dropped
  deriving DecidableEq, Repr

namespace LocalSystem

section
variable {Γ : Type}

def Waits (a : LocalSystem Γ) (t : Thread) : Prop := t ∈ a.putters.map Prod.fst

instance (a : LocalSystem Γ) (t : Thread) : Decidable (a.Waits t) := inferInstanceAs (Decidable (_ ∈ _))

def send (t : Thread) (a : LocalSystem Γ) (buf : SentUp) : LocalSystem Γ :=
  match a.send_q with
  | none => a
  | some q =>
    if q.length < SEND_Q_SIZE then { a with send_q := some (q ++ [buf]) }
    else { a with putters := a.putters ++ [(t, buf)] }

/-- Thread `t` has taken the app to `app` and sends what it has added to `sent`. -/
def sendNew (t : Thread) (app : Layer2Switch Γ) (a : LocalSystem Γ) : LocalSystem Γ :=
  (app.sent.drop a.app.sent.length).foldl (send t) { a with app }

def _send_loop (a : LocalSystem Γ) : LocalSystem Γ :=
  match a.send_q with
  | some (buf :: q) => if a.app.is_live then { a with send_q := some q, wire := a.wire ++ [buf] } else a
  | _ => a

/-- The `finally` of the send loop. -/
def drain (a : LocalSystem Γ) : LocalSystem Γ :=
  { a with app := { a.app with is_live := false }, send_q := none, putters := [] }

def unblock (a : LocalSystem Γ) (i : Nat) : LocalSystem Γ :=
  match a.send_q, a.putters[i]? with
  | some q, some (_, buf) =>
    if q.length < SEND_Q_SIZE then { a with send_q := some (q ++ [buf]), putters := a.putters.eraseIdx i } else a
  | _, _ => a

end

variable (env : LocalEnv)

/-- What `serve` does when the connection succeeds, up to its receive loop. -/
def greet : Layer2Switch.App env Unit := do
  Layer2Switch.handle env .Connected
  Layer2Switch.send_msg env none .HelloUp

def serve (a : LocalSystem env.nx.Graph) : LocalSystem env.nx.Graph :=
  -- the connect loop is left for good with the first success
  if a.send_q.isSome ∧ ¬ a.app.is_live then
    match greet env a.app with
    | .ok _ app | .error _ app => a.sendNew .serve app
  else a

def _recv_loop (a : LocalSystem env.nx.Graph) (now : Nat) (ev : Event MsgDown) : LocalSystem env.nx.Graph :=
  if a.app.is_live then
    let a' := a.sendNew .serve (Layer2Switch.step env a.app (.Downlink now ev))
    if a'.app.is_live then a' else a'.drain
  else a

/-- `_load_report` from some place in its list on, until it waits. -/
def reportFrom (a : LocalSystem env.nx.Graph) : List Nat → LocalSystem env.nx.Graph
  | [] => { a with load_report := some [] }
  | dpid :: dpids =>
    match Layer2Switch.reportLoads env [dpid] a.app with
    | .error _ app => { a.sendNew .load_report app with load_report := none }
    | .ok _ app =>
      let a' := a.sendNew .load_report app
      if a'.Waits .load_report then { a' with load_report := some dpids } else reportFrom a' dpids

def _load_report (a : LocalSystem env.nx.Graph) : LocalSystem env.nx.Graph :=
  match a.load_report with
  | none => a
  | some [] => if a.app.is_live then reportFrom env a (env.order a.app.datapaths) else a
  | some (dpid :: dpids) => reportFrom env a (dpid :: dpids)

def event (a : LocalSystem env.nx.Graph) : LocalEvent → LocalSystem env.nx.Graph
  | .Connected => serve env a
  | .Downlink now ev => _recv_loop env a now ev
  | .LoadRound => _load_report env a
  | e => a.sendNew e.thread (Layer2Switch.step env a.app e)

def turn (a : LocalSystem env.nx.Graph) : Turn → LocalSystem env.nx.Graph
  | .event e => if a.Waits e.thread then a else event env a e
  | .connectFailed => a
  | .sendLoop => a._send_loop
  | .unblock i => a.unblock i
  | .dropped => if a.app.is_live then a.drain else a

def start (xid : Nat) : LocalSystem env.nx.Graph := { app := Layer2Switch.init env xid }

def run (xid : Nat) (ts : List Turn) : LocalSystem env.nx.Graph := ts.foldl (turn env) (start env xid)

/-! ## Sending -/

section
variable {Γ : Type}

@[simp] theorem send_app (t : Thread) (a : LocalSystem Γ) (buf : SentUp) : (a.send t buf).app = a.app := by
  unfold send
  split
  · rfl
  · split <;> rfl

theorem foldl_send {I : LocalSystem Γ → Prop} {t : Thread} (hsend : ∀ a buf, I a → I (a.send t buf)) :
    ∀ (msgs : List SentUp) {a : LocalSystem Γ}, I a → I (msgs.foldl (send t) a)
  | [], _, h => h
  | buf :: msgs, a, h => foldl_send hsend msgs (hsend a buf h)

@[simp] theorem sendNew_app (t : Thread) (app : Layer2Switch Γ) (a : LocalSystem Γ) : (a.sendNew t app).app = app := by
  apply foldl_send (I := fun b => b.app = app)
  · intro b buf h
    rw [send_app, h]
  · rfl

end

section
variable {env : LocalEnv} {I : LocalSystem env.nx.Graph → Prop}
variable (happ : ∀ (a : LocalSystem env.nx.Graph) app load_report, I a → I { a with app, load_report })
variable (hsend : ∀ (a : LocalSystem env.nx.Graph) t buf, I a → I (a.send t buf))

include happ hsend in
theorem sendNew_of_send {a : LocalSystem env.nx.Graph} (t : Thread) (app : Layer2Switch env.nx.Graph) (h : I a) :
    I (a.sendNew t app) := by
  apply foldl_send
  · exact fun a buf => hsend a t buf
  · exact happ a app a.load_report h

include happ hsend in
theorem reportFrom_of_send : ∀ (dpids : List Nat) {a : LocalSystem env.nx.Graph}, I a → I (reportFrom env a dpids)
  | [], a, h => happ a a.app (some []) h
  | dpid :: dpids, a, h => by
    have hnew := fun app => sendNew_of_send happ hsend .load_report app h
    unfold reportFrom
    split
    · rename_i app _
      have := happ _ (a.sendNew .load_report app).app none (hnew app)
      exact this
    · rename_i app _
      show I (if (a.sendNew .load_report app).Waits .load_report then _ else _)
      split
      · exact happ _ (a.sendNew .load_report app).app (some dpids) (hnew app)
      · exact reportFrom_of_send dpids (hnew app)

variable (hdrain : ∀ (a : LocalSystem env.nx.Graph), I a → I a.drain)

include happ hsend hdrain in
/-- What does not look at the app holds after an event, if it does after each
message sent and after the end of the connection. -/
theorem event_of_send {a : LocalSystem env.nx.Graph} (e : LocalEvent) (h : I a) : I (event env a e) := by
  have hnew := fun t app => sendNew_of_send happ hsend t app h
  unfold event
  cases e with
  | Connected =>
    show I (serve env a)
    unfold serve
    split
    · split <;> exact hnew _ _
    · exact h
  | Downlink now ev =>
    show I (_recv_loop env a now ev)
    unfold _recv_loop
    split
    · show I (if _ then _ else _)
      split
      · exact hnew _ _
      · exact hdrain _ (hnew _ _)
    · exact h
  | LoadRound =>
    show I (_load_report env a)
    unfold _load_report
    split
    · exact h
    · split
      · exact reportFrom_of_send happ hsend _ h
      · exact h
    · exact reportFrom_of_send happ hsend _ h
  | _ => exact hnew _ _

end

section
variable {env : LocalEnv} {R : Layer2Switch env.nx.Graph → Layer2Switch env.nx.Graph → Prop} [IsPreorder _ R]

/-- What a turn does to the app, the report loop aside. -/
theorem app_turn (hgreet : Moves R (greet env)) (hdead : ∀ s : Layer2Switch env.nx.Graph, R s { s with is_live := false })
    {a : LocalSystem env.nx.Graph} {t : Turn} (hround : t ≠ .event .LoadRound)
    (hstep : ∀ e, t = .event e → ¬ a.Waits e.thread → R a.app (Layer2Switch.step env a.app e)) :
    R a.app (turn env a t).app := by
  have hsame := refl_of R a.app
  cases t with
  | connectFailed => exact hsame
  | sendLoop =>
    show R a.app a._send_loop.app
    unfold _send_loop
    split
    · split <;> exact hsame
    · exact hsame
  | unblock i =>
    show R a.app (a.unblock i).app
    unfold LocalSystem.unblock
    split
    · split <;> exact hsame
    · exact hsame
  | dropped =>
    show R a.app (if _ then _ else _ : LocalSystem env.nx.Graph).app
    split
    · exact hdead a.app
    · exact hsame
  | event e =>
    have hturn : turn env a (.event e) = if a.Waits e.thread then a else event env a e := rfl
    rw [hturn]
    split
    · exact hsame
    · rename_i hwaits
      have hstep := hstep e rfl hwaits
      cases e with
      | LoadRound => exact absurd rfl hround
      | Connected =>
        have hgreet := hgreet a.app
        show R a.app (serve env a).app
        unfold serve
        split
        · unfold wp at hgreet
          cases hx : greet env a.app with
          | ok _ app | error _ app =>
            rw [hx] at hgreet
            rw [sendNew_app]
            exact hgreet
        · exact hsame
      | Downlink now ev =>
        show R a.app (_recv_loop env a now ev).app
        unfold _recv_loop
        split
        · show R a.app (if _ then _ else _ : LocalSystem env.nx.Graph).app
          split
          · rw [sendNew_app]
            exact hstep
          · refine trans_of R hstep ?_
            show R _ { (a.sendNew .serve _).app with is_live := false }
            rw [sendNew_app]
            exact hdead _
        · exact hsame
      | _ =>
        show R a.app (a.sendNew _ _).app
        rw [sendNew_app]
        exact hstep

end

end LocalSystem

end VnfDockerNet
