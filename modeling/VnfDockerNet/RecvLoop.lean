import VnfDockerNet.MsgHandler

/-!
# The receive loop

`LocalController._recv_loop` and `CentralCtrlAgent._recv_loop` differ in the
handler table and in how often they yield. A connection carries its buffer and
`σ`, whatever the handlers change; `calls` records the handler calls.
-/

namespace VnfDockerNet

open Python

structure Conn (σ : Type) where
  buf : Bytes := []
  required_len : Nat := TFLCP_HEADER_SIZE
  count : Nat := 0
  is_active : Bool := true
  app : σ
  calls : List (Header × Bytes) := []

structure RecvLoop (σ : Type) where
  yieldAfter : Nat
  handle : Header → Bytes → EStateM Exn σ Unit

/-- Handlers of one direction with the listeners of the dispatched events. -/
def handlerTable {α σ : Type} (host : ByteOrder) (handlers : Nat → Option (Handler α))
    (dispatch_event : Event α → EStateM Exn σ Unit) (msg_type : Nat) :
    Option (Header → Bytes → EStateM Exn σ Unit) :=
  (handlers msg_type).map fun handler hdr buf =>
    match handler host hdr buf with
    | .error e => throw e
    | .ok none => pure ()
    | .ok (some ev) => dispatch_event ev

section
variable {σ : Type}

/-- `msg_handler[msg_type](...)`: a type without an entry is a `KeyError`. -/
def callHandler (table : Nat → Option (Header → Bytes → EStateM Exn σ Unit)) (hdr : Header) (buf : Bytes) :
    EStateM Exn σ Unit :=
  match table hdr.msg_type with
  | some handler => handler hdr buf
  | none => throw .KeyError

def LocalController._recv_loop (table : Nat → Option (Header → Bytes → EStateM Exn σ Unit)) : RecvLoop σ :=
  ⟨1024, callHandler table⟩

def CentralCtrlAgent._recv_loop (table : Nat → Option (Header → Bytes → EStateM Exn σ Unit)) : RecvLoop σ :=
  ⟨512, callHandler table⟩

/-- How one pass of the inner loop ends: back at `recv`, with one more pass to
go, or with an exception. -/
inductive Pass (σ : Type) where
  | recv (c : Conn σ)
  | next (c : Conn σ)
  | raised (e : Exn) (c : Conn σ)

def RecvLoop.pass (loop : RecvLoop σ) (c : Conn σ) : Pass σ :=
  if c.buf.length < c.required_len then .recv c
  else
    match header c.buf with
    | .error e => .raised e c
    | .ok hdr =>
      let c := { c with required_len := hdr.msg_len }
      if c.buf.length < c.required_len then .recv c
      else
        match loop.handle hdr c.buf c.app with
        | .error e app => .raised e { c with app, calls := c.calls ++ [(hdr, c.buf)] }
        | .ok _ app =>
          .next { c with
            app
            calls := c.calls ++ [(hdr, c.buf)]
            buf := c.buf.drop c.required_len
            required_len := TFLCP_HEADER_SIZE
            -- past `yieldAfter` the loop lets other greenlets run
            count := if c.count + 1 > loop.yieldAfter then 0 else c.count + 1 }

/-- How the inner loop ends; `spinning` when the passes allowed do not end it. -/
inductive Outcome (σ : Type) where
  | recv (c : Conn σ)
  | raised (e : Exn) (c : Conn σ)
  | spinning

def RecvLoop.parse (loop : RecvLoop σ) : Nat → Conn σ → Outcome σ
  | 0, _ => .spinning
  | n + 1, c =>
    match loop.pass c with
    | .recv c' => .recv c'
    | .raised e c' => .raised e { c' with is_active := false }
    | .next c' => loop.parse n c'

/-- `buf += ret`, or the end of the connection. -/
def Conn.receive (c : Conn σ) (ret : Bytes) : Conn σ :=
  if ret.length = 0 then { c with is_active := false } else { c with buf := c.buf ++ ret }

/-- The outer loop on the results of its `recv` calls. -/
def RecvLoop.run (loop : RecvLoop σ) (c : Conn σ) : List Bytes → Outcome σ
  | [] => .recv c
  | ret :: rets =>
    let c' := c.receive ret
    if c'.is_active then
      match loop.parse (c'.buf.length + 1) c' with
      | .recv c'' => loop.run c'' rets
      | out => out
    else .recv c'

end

end VnfDockerNet
