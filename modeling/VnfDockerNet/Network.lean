import VnfDockerNet.Agent
import VnfDockerNet.CentralSpec

/-!
# The controllers together

The central controller, any number of local controllers and the messages on
their way, which arrive as they were sent, in any order or never. A message to
the central controller is known by its sender and its place among the messages
of that sender; one from the central controller comes with the message that was
being handled when it was sent.
-/

namespace VnfDockerNet

open Python Networkx

/-- Message number `pos` of controller `lc`, on its way. -/
structure Uplink where
  lc : Nat
  pos : Nat
  buf : SentUp
  deriving DecidableEq, Repr

/-- A message sent while message number `pos` of controller `lc` was handled. -/
structure Downlink where
  lc : Nat
  pos : Nat
  buf : Sent
  deriving DecidableEq, Repr

structure Network (cenv : Env) (env : Nat → LocalEnv) where
  central : AppManager cenv.nx.Graph
  locals : (lc : Nat) → Layer2Switch (env lc).nx.Graph
  up : List Uplink := []
  down : List Downlink := []

inductive NetTurn where
  /-- An event of ryu or of a thread at a local controller. -/
  | app (lc : Nat) (e : LocalEvent)
  /-- The central controller handles a message on its way. -/
  | central (i : Nat)
  /-- A local controller handles a message on its way. -/
  | deliver (i now : Nat)
  deriving DecidableEq, Repr

/-- What the receiver makes of the frame. -/
def SentUp.event (host : ByteOrder) (buf : SentUp) : Event MsgUp :=
  ⟨⟨TFLC_VERSION_1, buf.msg.msg_type, ((buf.msg.serialize host (some buf.xid)).map List.length).getD 0, buf.xid⟩, buf.msg⟩

def Sent.event (host : ByteOrder) (buf : Sent) : Event MsgDown :=
  ⟨⟨TFLC_VERSION_1, buf.msg.msg_type, ((buf.msg.serialize host (some buf.xid)).map List.length).getD 0, buf.xid⟩, buf.msg⟩

namespace Network

variable {cenv : Env} {env : Nat → LocalEnv}

/-- The messages of `lc` from `s` to `s'`. -/
def fresh {Γ : Type} (lc : Nat) (s s' : Layer2Switch Γ) : List Uplink :=
  (s'.sent.zipIdx.drop s.sent.length).map fun x => ⟨lc, x.2, x.1⟩

/-- Controller `lc` has gone on to `s'`. -/
def settle (a : Network cenv env) (lc : Nat) (s' : Layer2Switch (env lc).nx.Graph) : Network cenv env :=
  { a with locals := Function.update a.locals lc s', up := a.up ++ fresh lc (a.locals lc) s' }

/-- An event that is no message; a new connection sends HELLO_UP. -/
def happen (env : LocalEnv) (s : Layer2Switch env.nx.Graph) : LocalEvent → Layer2Switch env.nx.Graph
  | .Connected =>
    match LocalSystem.greet env s with
    | .ok _ s' | .error _ s' => s'
  | .Downlink .. => s
  | e => Layer2Switch.step env s e

def turn (a : Network cenv env) : NetTurn → Network cenv env
  | .app lc e => a.settle lc (happen (env lc) (a.locals lc) e)
  | .central i =>
    match a.up[i]? with
    | none => a
    | some u =>
      let central := AppManager.receive cenv a.central ⟨u.lc, u.buf.event (env u.lc).host⟩
      { a with
        central
        up := a.up.eraseIdx i
        down := a.down ++ (central.sent.drop a.central.sent.length).map fun buf => ⟨u.lc, u.pos, buf⟩ }
  | .deliver i now =>
    match a.down[i]? with
    | none => a
    | some d =>
      let s' := Layer2Switch.step (env d.buf.lc) (a.locals d.buf.lc) (.Downlink now (d.buf.event cenv.host))
      { a.settle d.buf.lc s' with down := a.down.eraseIdx i }

/-- Any addresses, and any xids to start with. -/
def start (cenv : Env) (env : Nat → LocalEnv) (address : Nat → String × Nat) (cxid xid : Nat → Nat) :
    Network cenv env where
  central := AppManager.init cenv address cxid
  locals lc := Layer2Switch.init (env lc) (xid lc)

/-! ## Messages on their way -/

/-- The messages on their way to the central controller are at their places
among those that their senders have handed over. -/
def Placed (a : Network cenv env) : Prop := ∀ u ∈ a.up, (a.locals u.lc).sent[u.pos]? = some u.buf

theorem sent_of_mem_fresh {Γ : Type} {lc : Nat} {s s' : Layer2Switch Γ} {u : Uplink} (h : u ∈ fresh lc s s') :
    u.lc = lc ∧ s'.sent[u.pos]? = some u.buf := by
  unfold fresh at h
  obtain ⟨x, hx, rfl⟩ := List.mem_map.mp h
  exact ⟨rfl, List.mem_zipIdx_iff_getElem?.mp (List.mem_of_mem_drop hx)⟩

/-- What greeting and a step follow, an event does. -/
theorem happen_of_greet {env : LocalEnv} {R : Layer2Switch env.nx.Graph → Layer2Switch env.nx.Graph → Prop}
    [IsPreorder _ R] (hgreet : Moves R (LocalSystem.greet env)) {s : Layer2Switch env.nx.Graph} (e : LocalEvent)
    (hstep : R s (Layer2Switch.step env s e)) : R s (happen env s e) := by
  cases e with
  | Connected =>
    have hgreet := hgreet s
    unfold wp at hgreet
    unfold happen
    cases hx : LocalSystem.greet env s with
    | ok _ s' => rw [hx] at hgreet; exact hgreet
    | error _ s' => rw [hx] at hgreet; exact hgreet
  | Downlink now ev => exact refl_of R s
  | _ => exact hstep

theorem extends_happen {env : LocalEnv} (s : Layer2Switch env.nx.Graph) (e : LocalEvent) :
    Layer2Switch.Extends s (happen env s e) := by
  apply happen_of_greet _ e (Layer2Switch.extends_step s e)
  refine .bind (.modify fun s => Layer2Switch.extends_of_same rfl) fun _ => ?_
  apply Layer2Switch.moves_send_msg (P := fun _ => True)
  · exact fun s _ => Layer2Switch.extends_of_same rfl
  · exact fun s xid msg _ => List.prefix_append _ _
  · trivial

variable {a : Network cenv env}

theorem placed_settle (h : Placed a) {lc : Nat} {s' : Layer2Switch (env lc).nx.Graph}
    (hext : Layer2Switch.Extends (a.locals lc) s') : Placed (a.settle lc s') := by
  intro u hu
  rcases List.mem_append.mp hu with hold | hnew
  · have hplace := h u hold
    by_cases hlc : u.lc = lc
    · subst hlc
      have hself : (a.settle u.lc s').locals u.lc = s' := Function.update_self ..
      rw [hself]
      obtain ⟨new, hsent⟩ := hext
      rw [← hsent, List.getElem?_append_left (List.getElem?_eq_some_iff.mp hplace).1]
      exact hplace
    · have hother : (a.settle lc s').locals u.lc = a.locals u.lc := Function.update_of_ne hlc ..
      rw [hother]
      exact hplace
  · obtain ⟨rfl, hsent⟩ := sent_of_mem_fresh hnew
    have hself : (a.settle u.lc s').locals u.lc = s' := Function.update_self ..
    rw [hself]
    exact hsent

theorem placed_turn (h : Placed a) (t : NetTurn) : Placed (a.turn t) := by
  cases t with
  | app lc e => exact placed_settle h (extends_happen _ e)
  | central i =>
    unfold turn
    simp only
    cases a.up[i]? with
    | none => exact h
    | some u => exact fun u' hu' => h u' (List.mem_of_mem_eraseIdx hu')
  | deliver i now =>
    unfold turn
    simp only
    cases a.down[i]? with
    | none => exact h
    | some d => exact placed_settle h (Layer2Switch.extends_step _ _)

theorem placed_run (cenv : Env) (env : Nat → LocalEnv) (address : Nat → String × Nat) (cxid xid : Nat → Nat)
    (ts : List NetTurn) : Placed (ts.foldl turn (start cenv env address cxid xid)) := by
  refine List.foldlRecOn (motive := Placed) ts turn ?_ fun a h t _ => placed_turn h t
  exact fun u hu => absurd hu List.not_mem_nil

end Network

end VnfDockerNet
