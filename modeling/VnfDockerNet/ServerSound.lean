import VnfDockerNet.RecvSound
import VnfDockerNet.MsgSound
import VnfDockerNet.LocalHostSound
import VnfDockerNet.Network
import VnfDockerNet.Lib.Runs

/-!
# Connections over one application

The receive loops run as threads over one application: a thread gives way at
`recv` and between two passes of its inner loop, and other threads change the
application meanwhile. `ByteServer` has the buffers of the connections,
`MsgServer` only knows whole messages. Whatever the order of the turns and
however the bytes are cut, the application is given the messages of each
connection once and in order, up to the first exception.
-/

namespace VnfDockerNet

open Python Runs

/-- The listeners of one direction, what is done at the end of a connection, and
what the other threads do. -/
structure Listeners (ι α σ ε : Type) where
  host : ByteOrder
  yieldAfter : Nat
  handlers : Nat → Option (Handler α)
  dispatch_event : ι → Nat → Event α → EStateM Exn σ Unit
  close : σ → ι → σ
  happen : σ → ε → σ

/-- The loop of one connection; when it gives way is left to the turns. -/
def Listeners._recv_loop {ι α σ ε : Type} (ls : Listeners ι α σ ε) (lc : ι) (now : Nat) : RecvLoop σ :=
  ⟨ls.yieldAfter, callHandler (handlerTable ls.host ls.handlers (ls.dispatch_event lc now))⟩

/-! ## Messages -/

inductive ServerEvent (ι α ε : Type) where
  | received (lc : ι) (now : Nat) (ev : Event α)
  | closed (lc : ι)
  | other (e : ε)

/-- The messages of one connection. -/
def messagesOf {ι α ε : Type} [DecidableEq ι] (lc : ι) (log : List (ServerEvent ι α ε)) : List (Event α) :=
  log.filterMap fun
    | .received lc' _ ev => if lc' = lc then some ev else none
    | _ => none

structure MsgServer (ι σ : Type) where
  app : σ
  is_active : ι → Bool := fun _ => true

namespace MsgServer

variable {ι α σ ε : Type} [DecidableEq ι]

def close (ls : Listeners ι α σ ε) (s : MsgServer ι σ) (lc : ι) : MsgServer ι σ :=
  ⟨ls.close s.app lc, Function.update s.is_active lc false⟩

def step (ls : Listeners ι α σ ε) (s : MsgServer ι σ) : ServerEvent ι α ε → MsgServer ι σ
  | .received lc now ev =>
    match ls.dispatch_event lc now ev s.app with
    | .ok _ app => { s with app }
    | .error _ app => close ls { s with app } lc
  | .closed lc => s.close ls lc
  | .other e => { s with app := ls.happen s.app e }

theorem step_returned {ls : Listeners ι α σ ε} {s : MsgServer ι σ} {lc : ι} {now : Nat} {ev : Event α} {u : Unit}
    {app : σ} (h : ls.dispatch_event lc now ev s.app = .ok u app) : s.step ls (.received lc now ev) = { s with app } := by
  simp only [step, h]

theorem step_raised {ls : Listeners ι α σ ε} {s : MsgServer ι σ} {lc : ι} {now : Nat} {ev : Event α} {e : Exn}
    {app : σ} (h : ls.dispatch_event lc now ev s.app = .error e app) : s.step ls (.received lc now ev) = close ls { s with app } lc := by
  simp only [step, h]

def Open (s : MsgServer ι σ) : ServerEvent ι α ε → Prop
  | .received lc _ _ | .closed lc => s.is_active lc = true
  | .other _ => True

end MsgServer

/-! ## Bytes -/

inductive ServerTurn (ι ε : Type) where
  | recv (lc : ι) (ret : Bytes)
  /-- One pass of the inner loop. -/
  | pass (lc : ι) (now : Nat)
  | other (e : ε)
  deriving DecidableEq, Repr

/-- `received` lists all bytes that came in on a connection. -/
structure ByteServer (ι σ : Type) where
  app : σ
  conns : ι → Conn Unit := fun _ => { app := () }
  received : ι → Bytes := fun _ => []

namespace ByteServer

variable {ι α σ ε : Type} [DecidableEq ι]

def conn (s : ByteServer ι σ) (lc : ι) : Conn σ := { s.conns lc with app := s.app }

def settle (s : ByteServer ι σ) (lc : ι) (c : Conn σ) : ByteServer ι σ :=
  { s with app := c.app, conns := Function.update s.conns lc { c with app := () } }

def close (ls : Listeners ι α σ ε) (s : ByteServer ι σ) (lc : ι) : ByteServer ι σ :=
  { s with
    app := ls.close s.app lc
    conns := Function.update s.conns lc { s.conns lc with is_active := false } }

def AtRecv (s : ByteServer ι σ) (lc : ι) : Prop :=
  (s.conns lc).is_active = true ∧ (s.conns lc).buf.length < (s.conns lc).required_len

instance (s : ByteServer ι σ) (lc : ι) : Decidable (s.AtRecv lc) := inferInstanceAs (Decidable (_ ∧ _))

def recv (ls : Listeners ι α σ ε) (s : ByteServer ι σ) (lc : ι) (ret : Bytes) : ByteServer ι σ :=
  if ret.length = 0 then s.close ls lc
  else
    { s.settle lc ((s.conn lc).receive ret) with
      received := Function.update s.received lc (s.received lc ++ ret) }

def pass (ls : Listeners ι α σ ε) (s : ByteServer ι σ) (lc : ι) (now : Nat) : ByteServer ι σ :=
  match (ls._recv_loop lc now).pass (s.conn lc) with
  | .recv c | .next c => s.settle lc c
  | .raised _ c => (s.settle lc c).close ls lc

def turn (ls : Listeners ι α σ ε) (s : ByteServer ι σ) : ServerTurn ι ε → ByteServer ι σ
  | .recv lc ret => if s.AtRecv lc then s.recv ls lc ret else s
  | .pass lc now => if (s.conns lc).is_active then s.pass ls lc now else s
  | .other e => { s with app := ls.happen s.app e }

def run (ls : Listeners ι α σ ε) (app : σ) (ts : List (ServerTurn ι ε)) : ByteServer ι σ := ts.foldl (turn ls) { app }

def msgServer (s : ByteServer ι σ) : MsgServer ι σ := ⟨s.app, fun lc => (s.conns lc).is_active⟩

end ByteServer

/-! ## One pass over a frame -/

/-- A frame and what it becomes: whatever follows it in the buffer, its header
and the handler of its type give the event. -/
def Carries {α : Type} (host : ByteOrder) (handlers : Nat → Option (Handler α)) (x : Bytes × Event α) : Prop :=
  ∀ rest, header (x.1 ++ rest) = .ok x.2.header ∧ x.2.header.msg_len = x.1.length ∧
    ∃ handler, handlers x.2.header.msg_type = some handler ∧
      handler host x.2.header (x.1 ++ rest) = .ok (some x.2)

def bytesOf {α : Type} (frames : List (Bytes × Event α)) : Bytes := (frames.map Prod.fst).flatten

theorem bytesOf_append {α : Type} (xs ys : List (Bytes × Event α)) : bytesOf (xs ++ ys) = bytesOf xs ++ bytesOf ys := by
  simp [bytesOf]

section
variable {α σ : Type} {host : ByteOrder} {handlers : Nat → Option (Handler α)} {x : Bytes × Event α}

theorem Carries.length (h : Carries host handlers x) : TFLCP_HEADER_SIZE ≤ x.1.length := by
  have hlen := length_of_header (h []).1
  rwa [List.append_nil] at hlen

theorem pass_raises {loop : RecvLoop σ} {c : Conn σ} {hdr : Header} {e : Exn} {app : σ} (h : ¬ c.buf.length < c.required_len)
    (hh : header c.buf = .ok hdr) (hl : ¬ c.buf.length < hdr.msg_len) (ha : loop.handle hdr c.buf c.app = .error e app) :
    loop.pass c = .raised e { c with required_len := hdr.msg_len, app, calls := c.calls ++ [(hdr, c.buf)] } := by
  unfold RecvLoop.pass
  rw [if_neg h, hh]
  simp only [hl, ite_false, ha]

theorem pass_of_short (loop : RecvLoop σ) (h : Carries host handlers x) {c : Conn σ} (hw : WaitsFor c)
    (hp : c.buf <+: x.1) (hlt : c.buf.length < x.1.length) :
    ∃ n, loop.pass c = .recv { c with required_len := n } ∧ WaitsFor { c with required_len := n } := by
  by_cases hreq : c.buf.length < c.required_len
  · exact ⟨c.required_len, pass_waits hreq, hw⟩
  · -- the header is there, and claims more than the buffer has
    have h8 : TFLCP_HEADER_SIZE ≤ c.buf.length := by
      rcases hw with hw | ⟨_, hh, _⟩
      · omega
      · exact length_of_header hh
    have hframe := (h []).1
    rw [List.append_nil] at hframe
    have hh : header c.buf = .ok x.2.header := (header_of_starts hp h8).symm.trans hframe
    have hlen : c.buf.length < x.2.header.msg_len := by
      rw [(h []).2.1]
      exact hlt
    exact ⟨_, pass_partial hreq hh hlen, Or.inr ⟨_, hh, rfl⟩⟩

theorem pass_of_whole {dispatch_event : Event α → EStateM Exn σ Unit} {loop : RecvLoop σ}
    (hloop : loop.handle = callHandler (handlerTable host handlers dispatch_event)) (h : Carries host handlers x)
    {c : Conn σ} {rest : Bytes} (hw : WaitsFor c) (hbuf : c.buf = x.1 ++ rest) :
    (∀ app, dispatch_event x.2 c.app = .ok () app → loop.pass c = .next (c.handled loop x.2.header app)) ∧
      ∀ e app, dispatch_event x.2 c.app = .error e app → ∃ n calls, loop.pass c =
        .raised e { c with required_len := n, app, calls } := by
  obtain ⟨hh, hlen, handler, hhandler, hev⟩ := h rest
  rw [← hbuf] at hh hev
  have hle : x.1.length ≤ c.buf.length := by
    rw [hbuf, List.length_append]
    omega
  have hreq : ¬ c.buf.length < c.required_len := by
    have h8 := h.length
    rcases hw with hw | ⟨hdr, hh', hw⟩
    · omega
    · rw [hh] at hh'
      cases hh'
      omega
  have hmsg : ¬ c.buf.length < x.2.header.msg_len := by omega
  have hcall : loop.handle x.2.header c.buf c.app = dispatch_event x.2 c.app := by
    rw [hloop]
    simp only [callHandler, handlerTable, hhandler, Option.map_some, hev]
  constructor
  · intro app happ
    exact pass_handled hreq hh hmsg (hcall.trans happ)
  · intro e app happ
    exact ⟨_, _, pass_raises hreq hh hmsg (hcall.trans happ)⟩

end

/-! ## The simulation -/

namespace ByteServer

section
variable {ι α σ ε : Type} [DecidableEq ι] {s : ByteServer ι σ}

theorem msgServer_settle {lc : ι} {c : Conn σ} (h : c.is_active = (s.conns lc).is_active) :
    (s.settle lc c).msgServer = { s.msgServer with app := c.app } := by
  have hactive : (Conn.is_active ∘ (s.settle lc c).conns) = Conn.is_active ∘ s.conns := by
    show Conn.is_active ∘ Function.update s.conns lc _ = _
    rw [Function.comp_update]
    show Function.update (Conn.is_active ∘ s.conns) lc c.is_active = _
    rw [h]
    exact Function.update_eq_self lc _
  show (⟨c.app, _⟩ : MsgServer ι σ) = ⟨c.app, _⟩
  exact congrArg (MsgServer.mk c.app) hactive

theorem msgServer_close (ls : Listeners ι α σ ε) (lc : ι) :
    (s.close ls lc).msgServer = s.msgServer.close ls lc :=
  congrArg (MsgServer.mk (ls.close s.app lc)) (Function.comp_update Conn.is_active s.conns lc _)

theorem active_close (ls : Listeners ι α σ ε) (lc : ι) : ((s.close ls lc).conns lc).is_active = false := by
  show (Function.update s.conns lc _ lc).is_active = false
  rw [Function.update_self]

/-- Where connection `lc` is among its frames. -/
def Streams (frames : List (Bytes × Event α)) (log : List (ServerEvent ι α ε)) (s : ByteServer ι σ) (lc : ι) : Prop :=
  ∃ handled coming, frames = handled ++ coming ∧ messagesOf lc log = handled.map Prod.snd ∧
    bytesOf handled <+: s.received lc ∧
    ((s.conns lc).is_active = true → s.received lc = bytesOf handled ++ (s.conns lc).buf ∧ WaitsFor (s.conns lc))

variable {ls : Listeners ι α σ ε} {frames : ι → List (Bytes × Event α)} {log new : List (ServerEvent ι α ε)} {s' : ByteServer ι σ}
  {lc : ι} {now : Nat}

theorem messagesOf_append (lc : ι) (log new : List (ServerEvent ι α ε)) :
    messagesOf lc (log ++ new) = messagesOf lc log ++ messagesOf lc new := List.filterMap_append

theorem Streams.same {frames : List (Bytes × Event α)} (h : Streams frames log s lc) (hconn : s'.conns lc = s.conns lc)
    (hreceived : s'.received lc = s.received lc) (hnew : messagesOf lc new = []) : Streams frames (log ++ new) s' lc := by
  obtain ⟨handled, coming, hsplit, hlog, hpre, hopen⟩ := h
  refine ⟨handled, coming, hsplit, ?_, by rwa [hreceived], by rwa [hconn, hreceived]⟩
  rw [messagesOf_append, hnew, List.append_nil, hlog]

theorem Streams.buffered {frames : List (Bytes × Event α)} (h : Streams frames log s lc) {ret : Bytes}
    (hactive : (s.conns lc).is_active = true) (hreceived : s'.received lc = s.received lc ++ ret)
    (hbuf : (s'.conns lc).buf = (s.conns lc).buf ++ ret) (hwaits : WaitsFor (s.conns lc) → WaitsFor (s'.conns lc)) :
    Streams frames (log ++ []) s' lc := by
  obtain ⟨handled, coming, hsplit, hlog, hpre, hopen⟩ := h
  obtain ⟨hbytes, hw⟩ := hopen hactive
  refine ⟨handled, coming, hsplit, ?_, ?_, fun _ => ⟨?_, hwaits hw⟩⟩
  · rw [List.append_nil, hlog]
  · rw [hreceived]
    exact hpre.trans (List.prefix_append _ _)
  · rw [hreceived, hbuf, hbytes, List.append_assoc]

theorem Streams.closed {frames : List (Bytes × Event α)} (h : Streams frames log s lc)
    (hreceived : s'.received lc = s.received lc) (hclosed : (s'.conns lc).is_active = false)
    (hnew : messagesOf lc new = []) : Streams frames (log ++ new) s' lc := by
  obtain ⟨handled, coming, hsplit, hlog, hpre, hopen⟩ := h
  refine ⟨handled, coming, hsplit, ?_, by rwa [hreceived], fun hactive => ?_⟩
  · rw [messagesOf_append, hnew, List.append_nil, hlog]
  · rw [hclosed] at hactive
    cases hactive

theorem streams_handled {handled coming : List (Bytes × Event α)} {x : Bytes × Event α} {rest : Bytes}
    (hlog : messagesOf lc log = handled.map Prod.snd) (hbytes : s.received lc = bytesOf handled ++ (x.1 ++ rest))
    (hreceived : s'.received lc = s.received lc)
    (hopen : (s'.conns lc).is_active = true → (s'.conns lc).buf = rest ∧ WaitsFor (s'.conns lc)) :
    Streams (handled ++ x :: coming) (log ++ [.received lc now x.2]) s' lc := by
  have hall : s'.received lc = bytesOf (handled ++ [x]) ++ rest := by
    rw [hreceived, hbytes, bytesOf_append]
    simp [bytesOf]
  refine ⟨handled ++ [x], coming, by rw [List.append_assoc]; rfl, ?_, ?_, fun hactive => ?_⟩
  · rw [messagesOf_append, hlog]
    simp [messagesOf]
  · rw [hall]
    exact List.prefix_append _ _
  · obtain ⟨hbuf, hw⟩ := hopen hactive
    rw [hbuf]
    exact ⟨hall, hw⟩

theorem conns_settle_of_ne {c : Conn σ} {lc' : ι} (h : lc' ≠ lc) : (s.settle lc c).conns lc' = s.conns lc' :=
  Function.update_of_ne h _ _

theorem conns_settle_self (c : Conn σ) : (s.settle lc c).conns lc = { c with app := () } := Function.update_self ..

theorem messagesOf_other {lc' : ι} (h : lc' ≠ lc) (ev : Event α) :
    messagesOf lc' [(.received lc now ev : ServerEvent ι α ε)] = [] := by
  have hne : ¬ lc = lc' := fun he => h he.symm
  simp [messagesOf, hne]

/-- What a turn is at the level of messages, which is nothing for a turn that
only moves bytes. -/
def Simulates (ls : Listeners ι α σ ε) (frames : ι → List (Bytes × Event α)) (log : List (ServerEvent ι α ε))
    (s s' : ByteServer ι σ) : Prop :=
  ∃ new, s'.msgServer = new.foldl (MsgServer.step ls) s.msgServer ∧
    Allowed (MsgServer.step ls) MsgServer.Open s.msgServer new ∧ ∀ lc, Streams (frames lc) (log ++ new) s' lc

theorem simulates_wait (h : ∀ lc, Streams (frames lc) log s lc) (hactive : (s.conns lc).is_active = true) {n : Nat}
    (hpass : (ls._recv_loop lc now).pass (s.conn lc) = .recv { s.conn lc with required_len := n })
    (hw : WaitsFor { s.conn lc with required_len := n }) : Simulates ls frames log s (s.pass ls lc now) := by
  have hturn : s.pass ls lc now = s.settle lc { s.conn lc with required_len := n } := by
    unfold ByteServer.pass
    rw [hpass]
  rw [hturn]
  refine ⟨[], msgServer_settle rfl, trivial, fun lc' => ?_⟩
  by_cases hlc : lc' = lc
  · subst hlc
    have hreceived : (s.settle lc' { s.conn lc' with required_len := n }).received lc' = s.received lc' ++ [] := (List.append_nil _).symm
    refine (h lc').buffered hactive hreceived ?_ fun _ => ?_
    · rw [conns_settle_self, List.append_nil]
      rfl
    · rw [conns_settle_self]
      exact hw
  · exact (h lc').same (conns_settle_of_ne hlc) rfl rfl

section
variable {handled coming : List (Bytes × Event α)} {x : Bytes × Event α} {rest : Bytes} {app : σ}
variable (h : ∀ lc, Streams (frames lc) log s lc) (hactive : (s.conns lc).is_active = true)
variable (hsplit : frames lc = handled ++ x :: coming) (hlog : messagesOf lc log = handled.map Prod.snd)
variable (hbytes : s.received lc = bytesOf handled ++ (x.1 ++ rest)) (hrest : (s.conns lc).buf = x.1 ++ rest)
include h hactive hsplit hlog hbytes hrest

theorem simulates_next (hlen : x.2.header.msg_len = x.1.length) (happ : ls.dispatch_event lc now x.2 s.app = .ok () app)
    (hpass : (ls._recv_loop lc now).pass (s.conn lc) = .next ((s.conn lc).handled (ls._recv_loop lc now) x.2.header app)) :
    Simulates ls frames log s (s.pass ls lc now) := by
  have hturn : s.pass ls lc now = s.settle lc ((s.conn lc).handled (ls._recv_loop lc now) x.2.header app) := by
    unfold ByteServer.pass
    rw [hpass]
  have hdrop : (s.conns lc).buf.drop x.2.header.msg_len = rest := by
    rw [hlen, hrest, List.drop_left]
  have hkept : ((s.conn lc).handled (ls._recv_loop lc now) x.2.header app).is_active = (s.conns lc).is_active := rfl
  rw [hturn]
  refine ⟨[.received lc now x.2], ?_, ⟨hactive, trivial⟩, fun lc' => ?_⟩
  · rw [msgServer_settle hkept, List.foldl_cons, List.foldl_nil, MsgServer.step_returned (s := s.msgServer) happ]
    rfl
  · by_cases hlc : lc' = lc
    · subst hlc
      rw [hsplit]
      refine streams_handled hlog hbytes rfl fun _ => ?_
      rw [conns_settle_self]
      exact ⟨hdrop, Or.inl rfl⟩
    · exact (h lc').same (conns_settle_of_ne hlc) rfl (messagesOf_other hlc x.2)

theorem simulates_raised {e : Exn} {c : Conn σ} (happ : ls.dispatch_event lc now x.2 s.app = .error e app)
    (hpass : (ls._recv_loop lc now).pass (s.conn lc) = .raised e c) (hc : c.app = app) (hkept : c.is_active = (s.conns lc).is_active) :
    Simulates ls frames log s (s.pass ls lc now) := by
  have hturn : s.pass ls lc now = (s.settle lc c).close ls lc := by
    unfold ByteServer.pass
    rw [hpass]
  rw [hturn]
  refine ⟨[.received lc now x.2], ?_, ⟨hactive, trivial⟩, fun lc' => ?_⟩
  · rw [msgServer_close, msgServer_settle hkept, List.foldl_cons, List.foldl_nil, hc,
      MsgServer.step_raised (s := s.msgServer) happ]
  · by_cases hlc : lc' = lc
    · subst hlc
      rw [hsplit]
      refine streams_handled hlog hbytes rfl fun hopen => ?_
      rw [active_close] at hopen
      cases hopen
    · refine (h lc').same ?_ rfl (messagesOf_other hlc x.2)
      exact (Function.update_of_ne hlc _ _).trans (conns_settle_of_ne hlc)

end

theorem simulates_pass (hcarry : ∀ x ∈ frames lc, Carries ls.host ls.handlers x)
    (hin : s.received lc <+: bytesOf (frames lc)) (hactive : (s.conns lc).is_active = true)
    (h : ∀ lc, Streams (frames lc) log s lc) : Simulates ls frames log s (s.pass ls lc now) := by
  obtain ⟨handled, coming, hsplit, hlog, hpre, hopen⟩ := h lc
  obtain ⟨hbytes, hw⟩ := hopen hactive
  have hw : WaitsFor (s.conn lc) := hw
  have hbuf : (s.conns lc).buf <+: bytesOf coming := by
    rw [hbytes, hsplit, bytesOf_append] at hin
    exact (List.prefix_append_right_inj _).mp hin
  cases coming with
  | nil =>
    have hempty : (s.conn lc).buf = [] := List.prefix_nil.mp hbuf
    have hreq : (s.conn lc).buf.length < (s.conn lc).required_len := by
      rcases hw with hw | ⟨hdr, hh, _⟩
      · rw [hw, hempty]
        decide
      · have hlen := length_of_header hh
        rw [hempty] at hlen
        exact absurd hlen (by decide)
    exact simulates_wait h hactive (pass_waits hreq) hw
  | cons x coming =>
    have hx : Carries ls.host ls.handlers x := by
      apply hcarry
      rw [hsplit]
      exact List.mem_append_right _ (List.mem_cons_self ..)
    have hfront : x.1 <+: bytesOf (x :: coming) := List.prefix_append _ _
    by_cases hlt : (s.conns lc).buf.length < x.1.length
    · have hshort := List.prefix_of_prefix_length_le hbuf hfront (Nat.le_of_lt hlt)
      obtain ⟨n, hpass, hw'⟩ := pass_of_short (ls._recv_loop lc now) hx hw hshort hlt
      exact simulates_wait h hactive hpass hw'
    · obtain ⟨rest, hrest⟩ := List.prefix_of_prefix_length_le hfront hbuf (Nat.le_of_not_lt hlt)
      obtain ⟨hok, herror⟩ := pass_of_whole (show (ls._recv_loop lc now).handle = _ from rfl) hx hw hrest.symm
      rw [← hrest] at hbytes
      cases happ : ls.dispatch_event lc now x.2 s.app with
      | ok u app => exact simulates_next h hactive hsplit hlog hbytes hrest.symm (hx []).2.1 happ (hok app happ)
      | error e app =>
        obtain ⟨n, calls, hpass⟩ := herror e app happ
        exact simulates_raised h hactive hsplit hlog hbytes hrest.symm happ hpass rfl rfl

theorem simulates_recv (hactive : (s.conns lc).is_active = true) (h : ∀ lc, Streams (frames lc) log s lc) (ret : Bytes) :
    Simulates ls frames log s (s.recv ls lc ret) := by
  unfold ByteServer.recv
  by_cases hret : ret.length = 0
  · rw [if_pos hret]
    refine ⟨[.closed lc], msgServer_close ls lc, ⟨hactive, trivial⟩, fun lc' => ?_⟩
    by_cases hlc : lc' = lc
    · subst hlc
      exact (h lc').closed rfl (active_close ls lc') rfl
    · exact (h lc').same (Function.update_of_ne hlc _ _) rfl rfl
  · rw [if_neg hret]
    have hreceive : (s.conn lc).receive ret = { s.conn lc with buf := (s.conns lc).buf ++ ret } := if_neg hret
    have hkept : ((s.conn lc).receive ret).is_active = (s.conns lc).is_active := by rw [hreceive]; rfl
    have happ : ((s.conn lc).receive ret).app = s.app := by rw [hreceive]; rfl
    refine ⟨[], ?_, trivial, fun lc' => ?_⟩
    · have hsettle := msgServer_settle hkept
      rw [happ] at hsettle
      exact hsettle
    · by_cases hlc : lc' = lc
      · subst hlc
        refine (h lc').buffered hactive (Function.update_self ..) ?_ fun hw => ?_
        · show ((s.settle lc' _).conns lc').buf = _
          rw [conns_settle_self, hreceive]
        · show WaitsFor ((s.settle lc' _).conns lc')
          rw [conns_settle_self]
          have hw : WaitsFor (s.conn lc') := hw
          exact (hw.receive (fun hnil => hret (by rw [hnil]; rfl))).1
      · exact (h lc').same (conns_settle_of_ne hlc) (Function.update_of_ne hlc _ _) rfl

theorem simulates_turn (hcarry : ∀ lc, ∀ x ∈ frames lc, Carries ls.host ls.handlers x)
    (hin : ∀ lc, s.received lc <+: bytesOf (frames lc)) (h : ∀ lc, Streams (frames lc) log s lc) (t : ServerTurn ι ε) :
    Simulates ls frames log s (s.turn ls t) := by
  have hidle : Simulates ls frames log s s := ⟨[], rfl, trivial, fun lc => (h lc).same rfl rfl rfl⟩
  cases t with
  | recv lc ret =>
    show Simulates ls frames log s (if s.AtRecv lc then _ else _)
    split
    · rename_i hat
      exact simulates_recv hat.1 h ret
    · exact hidle
  | pass lc now =>
    show Simulates ls frames log s (if (s.conns lc).is_active then _ else _)
    split
    · rename_i hactive
      exact simulates_pass (hcarry lc) (hin lc) hactive h
    · exact hidle
  | other e => exact ⟨[.other e], rfl, ⟨trivial, trivial⟩, fun lc => (h lc).same rfl rfl rfl⟩

theorem received_turn (s : ByteServer ι σ) (t : ServerTurn ι ε) (lc : ι) : s.received lc <+: (s.turn ls t).received lc := by
  have hsame := List.prefix_refl (s.received lc)
  cases t with
  | recv lc' ret =>
    show s.received lc <+: (if _ then _ else _ : ByteServer ι σ).received lc
    split
    · unfold ByteServer.recv
      split
      · exact hsame
      · show s.received lc <+: Function.update s.received lc' _ lc
        by_cases hlc : lc = lc'
        · subst hlc
          rw [Function.update_self]
          exact List.prefix_append _ _
        · rw [Function.update_of_ne hlc]
    · exact hsame
  | pass lc' now =>
    show s.received lc <+: (if _ then _ else _ : ByteServer ι σ).received lc
    split
    · unfold ByteServer.pass
      split <;> exact hsame
    · exact hsame
  | other e => exact hsame

/-- The handled frames are the first ones, and at `recv` all that are complete. -/
theorem Streams.handled {frames : List (Bytes × Event α)} (h : Streams frames log s lc)
    (hcarry : ∀ x ∈ frames, Carries ls.host ls.handlers x) (hin : s.received lc <+: bytesOf frames) :
    ∃ n, messagesOf lc log = (frames.take n).map Prod.snd ∧ bytesOf (frames.take n) <+: s.received lc ∧
      (s.AtRecv lc → s.received lc = bytesOf (frames.take n) ++ (s.conns lc).buf ∧
        IncompleteTail (s.conns lc).buf ((frames.drop n).map Prod.fst)) := by
  obtain ⟨handled, coming, hsplit, hlog, hpre, hopen⟩ := h
  have htake : frames.take handled.length = handled := by rw [hsplit, List.take_left]
  have hdrop : frames.drop handled.length = coming := by rw [hsplit, List.drop_left]
  refine ⟨handled.length, by rw [htake, hlog], by rwa [htake], fun hat => ?_⟩
  obtain ⟨hbytes, hw⟩ := hopen hat.1
  rw [htake, hdrop]
  refine ⟨hbytes, ?_⟩
  have hbuf : (s.conns lc).buf <+: bytesOf coming := by
    rw [hbytes, hsplit, bytesOf_append] at hin
    exact (List.prefix_append_right_inj _).mp hin
  cases coming with
  | nil => exact List.prefix_nil.mp hbuf
  | cons x coming =>
    have hx := hcarry x (by rw [hsplit]; exact List.mem_append_right _ (List.mem_cons_self ..))
    have hfront : x.1 <+: bytesOf (x :: coming) := List.prefix_append _ _
    by_contra hwhole
    have hle : x.1.length ≤ (s.conns lc).buf.length := by
      by_contra hlt
      exact hwhole ⟨List.prefix_of_prefix_length_le hbuf hfront (by omega), by omega⟩
    -- a whole frame is in the buffer, so the loop does not wait
    obtain ⟨rest, hrest⟩ := List.prefix_of_prefix_length_le hfront hbuf hle
    have hh := (hx rest).1
    rw [hrest] at hh
    have hlen := (hx []).2.1
    have h8 := hx.length
    have hreq := hat.2
    rcases hw with hw | ⟨hdr, hh', hw⟩
    · omega
    · rw [hh] at hh'
      cases hh'
      omega

theorem streams_run (hcarry : ∀ lc, ∀ x ∈ frames lc, Carries ls.host ls.handlers x) (app : σ) :
    ∀ ts, (∀ lc, (run ls app ts).received lc <+: bytesOf (frames lc)) →
      ∃ log, (run ls app ts).msgServer = log.foldl (MsgServer.step ls) { app } ∧
        Allowed (MsgServer.step ls) MsgServer.Open { app } log ∧ ∀ lc, Streams (frames lc) log (run ls app ts) lc := by
  intro ts
  induction ts using List.reverseRecOn with
  | nil =>
    intro _
    exact ⟨[], rfl, trivial, fun lc => ⟨[], frames lc, rfl, rfl, List.nil_prefix, fun _ => ⟨rfl, Or.inl rfl⟩⟩⟩
  | append_singleton ts t ih =>
    intro hin
    have hsnoc : run ls app (ts ++ [t]) = (run ls app ts).turn ls t := by
      unfold run
      rw [List.foldl_append]
      rfl
    rw [hsnoc] at hin ⊢
    have hbefore : ∀ lc, (run ls app ts).received lc <+: bytesOf (frames lc) :=
      fun lc => (received_turn _ t lc).trans (hin lc)
    obtain ⟨log, hrun, hopen, hstreams⟩ := ih hbefore
    obtain ⟨new, hturn, hopen', hstreams'⟩ := simulates_turn hcarry hbefore hstreams t
    refine ⟨log ++ new, ?_, ?_, hstreams'⟩
    · rw [List.foldl_append, ← hrun, hturn]
    · rw [allowed_append, ← hrun]
      exact ⟨hopen, hopen'⟩

end

end ByteServer

/-! ## The two directions -/

/-- The application is where whole messages take it, of each connection the
first ones of `msgs`, and at `recv` all whose bytes have come in. -/
structure Refines {ι α β σ ε : Type} [DecidableEq ι] (ls : Listeners ι α σ ε) (app : σ) (frame : β → Bytes) (event : β → Event α)
    (msgs : ι → List β) (s : ByteServer ι σ) (log : List (ServerEvent ι α ε)) : Prop where
  run : s.msgServer = log.foldl (MsgServer.step ls) { app }
  opened : Allowed (MsgServer.step ls) MsgServer.Open { app } log
  given : ∀ lc, ∃ n, messagesOf lc log = ((msgs lc).take n).map event ∧
    (((msgs lc).take n).map frame).flatten <+: s.received lc ∧
    (s.AtRecv lc → s.received lc = (((msgs lc).take n).map frame).flatten ++ (s.conns lc).buf ∧
      IncompleteTail (s.conns lc).buf (((msgs lc).drop n).map frame))

theorem refines_of_carries {ι α β σ ε : Type} [DecidableEq ι] {ls : Listeners ι α σ ε} {frame : β → Bytes}
    {event : β → Event α} {msgs : ι → List β} (hcarry : ∀ lc, ∀ buf ∈ msgs lc, Carries ls.host ls.handlers (frame buf, event buf))
    (app : σ) (ts : List (ServerTurn ι ε)) (hin : ∀ lc, (ByteServer.run ls app ts).received lc <+: ((msgs lc).map frame).flatten) :
    ∃ log, Refines ls app frame event msgs (ByteServer.run ls app ts) log := by
  let frames : ι → List (Bytes × Event α) := fun lc => (msgs lc).map fun buf => (frame buf, event buf)
  have hcarry' : ∀ lc, ∀ x ∈ frames lc, Carries ls.host ls.handlers x := by
    intro lc x hx
    obtain ⟨buf, hbuf, rfl⟩ := List.mem_map.mp hx
    exact hcarry lc buf hbuf
  have hfst : ∀ xs : List β, (xs.map fun buf => (frame buf, event buf)).map Prod.fst = xs.map frame := by
    intro xs
    rw [List.map_map]
    rfl
  have hsnd : ∀ xs : List β, (xs.map fun buf => (frame buf, event buf)).map Prod.snd = xs.map event := by
    intro xs
    rw [List.map_map]
    rfl
  have hin' : ∀ lc, (ByteServer.run ls app ts).received lc <+: bytesOf (frames lc) := by
    intro lc
    unfold bytesOf
    rw [hfst]
    exact hin lc
  obtain ⟨log, hrun, hopen, hstreams⟩ := ByteServer.streams_run hcarry' app ts hin'
  refine ⟨log, hrun, hopen, fun lc => ?_⟩
  obtain ⟨n, hlog, hpre, hat⟩ := (hstreams lc).handled (hcarry' lc) (hin' lc)
  simp only [frames, bytesOf, ← List.map_take, ← List.map_drop, hfst, hsnd] at hlog hpre hat
  exact ⟨n, hlog, hpre, hat⟩

/-- The message is in use and fits the fields of its frame. -/
def SentUp.Sendable (buf : SentUp) : Prop := buf.msg.inUse = true ∧ buf.msg.fits = true ∧ buf.xid ≤ MAX_XID

def Sent.Sendable (buf : Sent) : Prop := buf.msg.inUse = true ∧ buf.msg.fits = true ∧ buf.xid ≤ MAX_XID

def SentUp.frame (host : ByteOrder) (buf : SentUp) : Bytes := (buf.msg.serialize host (some buf.xid)).getD []

def Sent.frame (host : ByteOrder) (buf : Sent) : Bytes := (buf.msg.serialize host (some buf.xid)).getD []

theorem carries_of_delivers {α : Type} {host : ByteOrder} {handlers : Nat → Option (Handler α)} {msg_type xid : Nat}
    {frame : Bytes} {msg : α} (h : Delivers host handlers msg_type xid frame msg) :
    Carries host handlers (frame, ⟨⟨TFLC_VERSION_1, msg_type, frame.length, xid⟩, msg⟩) := by
  intro rest
  obtain ⟨hdr, rfl, hheader, handler, hhandler, hev⟩ := h rest
  exact ⟨hheader, rfl, handler, hhandler, hev⟩

theorem SentUp.carries (host : ByteOrder) {buf : SentUp} (h : buf.Sendable) :
    Carries host Tflc.msg_handler (buf.frame host, buf.event host) := by
  obtain ⟨huse, hfits, hxid⟩ := h
  obtain ⟨frame, hframe, hdelivers⟩ := uplink_delivers host (Nat.lt_succ_of_le hxid) buf.msg huse hfits
  unfold SentUp.frame SentUp.event
  rw [hframe]
  exact carries_of_delivers hdelivers

theorem Sent.carries (host : ByteOrder) {buf : Sent} (h : buf.Sendable) :
    Carries host CcClient.msg_handler (buf.frame host, buf.event host) := by
  obtain ⟨huse, hfits, hxid⟩ := h
  obtain ⟨frame, hframe, hdelivers⟩ := downlink_delivers host (Nat.lt_succ_of_le hxid) buf.msg huse hfits
  unfold Sent.frame Sent.event
  rw [hframe]
  exact carries_of_delivers hdelivers

def AppManager.listeners (env : Env) {ε : Type} (happen : AppManager env.nx.Graph → ε → AppManager env.nx.Graph) :
    Listeners Nat MsgUp (AppManager env.nx.Graph) ε where
  host := env.host
  yieldAfter := 1024
  handlers := Tflc.msg_handler
  dispatch_event lc _ ev := dispatch_event env lc ev
  close := close
  happen

def Layer2Switch.listeners (env : LocalEnv) : Listeners Unit MsgDown (Layer2Switch env.nx.Graph) LocalEvent where
  host := env.host
  yieldAfter := 512
  handlers := CcClient.msg_handler
  dispatch_event _ now ev := dispatch_event env now ev
  close s _ := { s with is_live := false }
  happen := Network.happen env

theorem app_step_central {env : Env} {ε : Type} {happen : AppManager env.nx.Graph → ε → AppManager env.nx.Graph}
    (s : MsgServer Nat (AppManager env.nx.Graph)) (lc now : Nat) (ev : Event MsgUp) :
    (s.step (AppManager.listeners env happen) (.received lc now ev)).app = AppManager.receive env s.app ⟨lc, ev⟩ := by
  unfold AppManager.receive
  cases h : AppManager.dispatch_event env lc ev s.app with
  | ok u app =>
    have hstep : s.step (AppManager.listeners env happen) (.received lc now ev) = { s with app } := MsgServer.step_returned h
    rw [hstep]
  | error e app =>
    have hstep : s.step (AppManager.listeners env happen) (.received lc now ev) =
        MsgServer.close (AppManager.listeners env happen) { s with app } lc := MsgServer.step_raised h
    rw [hstep]
    rfl

theorem app_step_local {env : LocalEnv} (s : MsgServer Unit (Layer2Switch env.nx.Graph)) (now : Nat) (ev : Event MsgDown) :
    (s.step (Layer2Switch.listeners env) (.received () now ev)).app = Layer2Switch.step env s.app (.Downlink now ev) := by
  unfold Layer2Switch.step
  have hhandle : Layer2Switch.handle env (.Downlink now ev) s.app = Layer2Switch.dispatch_event env now ev s.app := rfl
  rw [hhandle]
  cases h : Layer2Switch.dispatch_event env now ev s.app with
  | ok u app =>
    have hstep : s.step (Layer2Switch.listeners env) (.received () now ev) = { s with app } := MsgServer.step_returned h
    rw [hstep]
  | error e app =>
    have hstep : s.step (Layer2Switch.listeners env) (.received () now ev) =
        MsgServer.close (Layer2Switch.listeners env) { s with app } () := MsgServer.step_raised h
    rw [hstep]
    rfl

def greetings (lc : Nat) : List SentUp := if lc = 0 then [⟨7, .HelloUp⟩] else if lc = 1 then [⟨5, .HelloUp⟩] else []

/-- The second HELLO_UP comes in between the two halves of the first. -/
def greetingTurns : List (ServerTurn Nat Unit) :=
  [.recv 0 [1, 0, 0], .recv 1 [1, 0, 0, 8, 0, 0, 0, 5], .pass 1 0, .other (), .recv 0 [8, 0, 0, 0, 7], .pass 0 0]

def answerTurns : List (ServerTurn Unit LocalEvent) :=
  [.recv () [1, 1, 0, 16, 0, 0, 0, 1, 0, 0], .pass () 0, .other (.SwitchFeatures ⟨4, "10.0.0.4"⟩),
    .recv () [0, 1, 0, 0, 0, 0], .pass () 0]

end VnfDockerNet
