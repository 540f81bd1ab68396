import VnfDockerNet.Layer2
import VnfDockerNet.Lib.Flooding

/-!
# The application for several paths

`MULTIPATH_13`, which learns the port of an address once and sends what one host
sends in through a group; and a network of switches that runs it. The headers
that `packet.Packet` finds are a parameter. Ports are numbers, a wire joins two
of them; `inflight` has the frames of one host on the wires. The way of a
packet-in to the application and back is part of the time a frame is in flight.
-/

namespace VnfDockerNet

open Python

namespace Multipath

def ETH_TYPE_ARP : Nat := 0x0806
def ETH_TYPE_IPV6 : Nat := 0x86dd
def OFPP_ANY : Nat := 0xffffffff
def OFPQ_ALL : Nat := 0xffffffff
/-- Above it a port number is no port's. -/
def OFPP_MAX : Nat := 0xffffff00

inductive Action where
  | Output (port : Nat) (max_len : Nat := OFPCML_MAX)
  | Group (group_id : Nat)
  | SetQueue (queue_id : Nat)
  deriving DecidableEq, Repr

structure OFPMatch where
  in_port : Option Nat := none
  eth_dst : Option Bytes := none
  eth_type : Option Nat := none
  ipv4_src : Option Bytes := none
  deriving DecidableEq, Repr

structure OFPBucket where
  weight : Nat
  watch_port : Nat
  watch_group : Nat
  actions : List Action
  deriving DecidableEq, Repr

inductive SwitchMsg where
  | FlowMod (priority hard_timeout : Nat) (rule : OFPMatch) (actions : List Action)
  /-- `OFPFC_ADD` of a group of type `OFPGT_SELECT`. -/
  | GroupMod (group_id : Nat) (buckets : List OFPBucket)
  | PacketOut (buffer_id in_port : Nat) (actions : List Action) (data : Option Bytes)
  deriving DecidableEq, Repr

/-- What `get_protocol` finds; of IPv4 the source. -/
structure Packet where
  eth : Option Ethernet
  arp : Bool := false
  ipv4 : Option Bytes := none
  ipv6 : Bool := false
  deriving DecidableEq, Repr

structure PacketIn where
  dpid : Nat
  in_port : Nat
  buffer_id : Nat
  data : Bytes
  deriving DecidableEq, Repr

structure MULTIPATH_13 where
  mac_to_port : Dict Nat (Dict Bytes Nat) := ∅
  datapaths : Dict Nat OfDatapath := ∅
  FLAGS : Bool := true
  /-- What the datapaths were sent. -/
  out : List (Nat × SwitchMsg) := []

abbrev Stmt := EStateM Exn MULTIPATH_13

/-! ## The application -/

def send_msg (dpid : Nat) (msg : SwitchMsg) : Stmt Unit := modify fun s => { s with out := s.out ++ [(dpid, msg)] }

inductive Dispatcher where
  | MAIN
  | DEAD
  deriving DecidableEq, Repr

def _state_change_handler (datapath : OfDatapath) : Dispatcher → Stmt Unit
  | .MAIN => modify fun s => { s with datapaths := s.datapaths.setdefault datapath.id datapath }
  | .DEAD => modify fun s => { s with datapaths := s.datapaths.erase datapath.id }

def add_flow (dpid hard_timeout priority : Nat) (rule : OFPMatch) (actions : List Action) : Stmt Unit :=
  send_msg dpid (.FlowMod priority hard_timeout rule actions)

def switch_features_handler (dpid : Nat) : Stmt Unit := add_flow dpid 0 0 {} [.Output OFPP_CONTROLLER OFPCML_NO_BUFFER]

def _build_packet_out (buffer_id src_port : Nat) (dst_port : Option Nat) (data : Option Bytes) : Option SwitchMsg :=
  let actions : List Action := match dst_port with
    | none | some 0 => []
    | some port => [.Output port]
  if buffer_id = OFP_NO_BUFFER then data.map fun data => .PacketOut buffer_id src_port actions (some data)
  else some (.PacketOut buffer_id src_port actions none)

def send_packet_out (dpid buffer_id src_port : Nat) (dst_port : Option Nat) (data : Option Bytes) : Stmt Unit :=
  match _build_packet_out buffer_id src_port dst_port data with
  | none => pure ()
  | some out => send_msg dpid out

def flood (msg : PacketIn) : Stmt Unit :=
  match _build_packet_out OFP_NO_BUFFER OFPP_CONTROLLER (some OFPP_FLOOD) (some msg.data) with
  | none => throw .AttributeError
  | some out => send_msg msg.dpid out

def arp_forwarding (msg : PacketIn) (eth : Ethernet) : Stmt Unit := do
  let macs ← item (← get).mac_to_port msg.dpid
  match macs.get eth.dst with
  | some out_port => do
    add_flow msg.dpid 0 1 { in_port := some msg.in_port, eth_dst := some eth.dst, eth_type := some eth.ethertype } [.Output out_port]
    send_packet_out msg.dpid msg.buffer_id msg.in_port (some out_port) (some msg.data)
  | none => flood msg

/-- `some false` is for another port than the first; a known address gives `none`. -/
def mac_learning (dpid : Nat) (src_mac : Bytes) (in_port : Nat) : Stmt (Option Bool) := do
  modify fun s => { s with mac_to_port := s.mac_to_port.setdefault dpid ∅ }
  let macs ← item (← get).mac_to_port dpid
  match macs.get src_mac with
  | some port => pure (if in_port ≠ port then some false else none)
  | none => do
    modify fun s => { s with mac_to_port := s.mac_to_port.insert dpid (macs.insert src_mac in_port) }
    pure (some true)

def send_group_mod (dpid : Nat) : Stmt Unit :=
  let bucket (port : Nat) : OFPBucket := ⟨50, OFPP_ANY, OFPQ_ALL, [.SetQueue 0, .Output port]⟩
  send_msg dpid (.GroupMod 50 [bucket 3, bucket 2])

def processArp (msg : PacketIn) (eth : Ethernet) : Stmt Bool := do
  let learned ← mac_learning msg.dpid eth.src msg.in_port
  if learned = some false then pure true
  else do
    arp_forwarding msg eth
    pure false

/-- Whether the packet-in is done with. -/
def arpFirst (arp : Bool) (msg : PacketIn) (eth : Ethernet) : Stmt Bool := if arp then processArp msg eth else pure false

def firstGroup (dpid : Nat) : Stmt Unit := do
  let s ← get
  if s.FLAGS then do
    send_group_mod dpid
    modify fun s => { s with FLAGS := false }
  else pure ()

def useGroup (msg : PacketIn) (eth : Ethernet) (ipv4_src : Bytes) : Stmt Unit := do
  firstGroup msg.dpid
  add_flow msg.dpid 0 3 { in_port := some msg.in_port, eth_type := some eth.ethertype, ipv4_src := some ipv4_src } [.Group 50]
  send_packet_out msg.dpid msg.buffer_id msg.in_port (some 2) (some msg.data)

def processIpv4 (msg : PacketIn) (eth : Ethernet) (ipv4_src : Bytes) : Stmt Unit := do
  let macs ← item (← get).mac_to_port msg.dpid
  match macs.get eth.dst with
  | some out_port =>
    if msg.dpid = 1 ∧ msg.in_port = 1 then useGroup msg eth ipv4_src
    else do
      add_flow msg.dpid 0 1 { in_port := some msg.in_port, eth_dst := some eth.dst, eth_type := some eth.ethertype } [.Output out_port]
      send_packet_out msg.dpid msg.buffer_id msg.in_port (some out_port) (some msg.data)
  | none => do
    let learned ← mac_learning msg.dpid eth.src msg.in_port
    if learned = some false then pure () else flood msg

def ipv4Next (done : Bool) (ipv4 : Option Bytes) (msg : PacketIn) (eth : Ethernet) : Stmt Unit :=
  match done, ipv4 with
  | false, some ipv4_src => processIpv4 msg eth ipv4_src
  | _, _ => pure ()

def _packet_in_handler (parse : Bytes → Packet) (msg : PacketIn) : Stmt Unit :=
  match (parse msg.data).eth with
  | none => throw .IndexError
  | some eth =>
    if (parse msg.data).ipv6 then add_flow msg.dpid 0 1 { eth_type := some ETH_TYPE_IPV6 } []
    else do
      let done ← arpFirst (parse msg.data).arp msg eth
      ipv4Next done (parse msg.data).ipv4 msg eth

inductive Input where
  | SwitchFeatures (dpid : Nat)
  | StateChange (datapath : OfDatapath) (state : Dispatcher)
  | PacketIn (msg : PacketIn)
  deriving DecidableEq, Repr

def handle (parse : Bytes → Packet) : Input → Stmt Unit
  | .SwitchFeatures dpid => switch_features_handler dpid
  | .StateChange datapath state => _state_change_handler datapath state
  | .PacketIn msg => _packet_in_handler parse msg

/-- An exception is logged; what a handler did before it stays. -/
def step (parse : Bytes → Packet) (s : MULTIPATH_13) (i : Input) : MULTIPATH_13 :=
  match handle parse i s with
  | .ok _ s' => s'
  | .error _ s' => s'

/-! ## The network -/

structure FlowRule where
  priority : Nat
  rule : OFPMatch
  actions : List Action
  deriving DecidableEq, Repr

/-- The packet that comes in at the port has every field. -/
def OFPMatch.Matches (rule : OFPMatch) (in_port : Nat) (pkt : Packet) : Prop :=
  (∀ p ∈ rule.in_port, p = in_port) ∧ (∀ d ∈ rule.eth_dst, pkt.eth.map Ethernet.dst = some d) ∧
    (∀ t ∈ rule.eth_type, pkt.eth.map Ethernet.ethertype = some t) ∧ ∀ src ∈ rule.ipv4_src, pkt.ipv4 = some src

instance (rule : OFPMatch) (in_port : Nat) (pkt : Packet) : Decidable (rule.Matches in_port pkt) :=
  inferInstanceAs (Decidable (_ ∧ _ ∧ _ ∧ _))

/-- The rules of a switch, those of high priority first; a rule replaces one with its match and priority. -/
def addRule (r : FlowRule) (rules : List FlowRule) : List FlowRule :=
  (rules.filter fun r' => ¬ (r'.priority = r.priority ∧ r'.rule = r.rule)).orderedInsert (fun a b => b.priority ≤ a.priority) r

def lookup (rules : List FlowRule) (in_port : Nat) (pkt : Packet) : Option FlowRule :=
  rules.find? fun r => decide (r.rule.Matches in_port pkt)

/-- The wires, and out of which ports a group sends a frame at a switch. -/
structure Wiring extends Flooding.Topology Nat Nat where
  group : Nat → Nat → Bytes → List Nat

/-- The frames of the host with this address that are on the wires, and those it sent. -/
structure Net where
  app : MULTIPATH_13 := {}
  rules : Nat → List FlowRule := fun _ => []
  inflight : List ((Nat × Nat) × Bytes) := []
  entered : List Bytes := []
  arrived : Nat := 0

variable (parse : Bytes → Packet) (W : Wiring) (mac : Bytes)

/-- Where an action sends a frame that came in at `in_port`. -/
def outPorts (d in_port : Nat) (data : Bytes) : Action → List Nat
  | .Output port _ =>
    if port = OFPP_FLOOD then (W.ports d).filter fun p => p ≠ in_port
    else (W.ports d).filter fun p => p = port ∧ p ≠ in_port
  | .Group group_id => W.group d group_id data
  | .SetQueue _ => []

def emit (d in_port : Nat) (data : Bytes) (actions : List Action) : List ((Nat × Nat) × Bytes) :=
  (actions.flatMap (outPorts W d in_port data)).filterMap fun p => (W.peer (d, p)).map fun b => (b, data)

/-- The frame was sent by the host. -/
def IsFrom (data : Bytes) : Prop := (parse data).eth.map Ethernet.src = some mac

instance (data : Bytes) : Decidable (IsFrom parse mac data) := inferInstanceAs (Decidable (_ = _))

/-- A switch does what it is told. -/
def execute (net : Net) (d : Nat) : SwitchMsg → Net
  | .FlowMod priority _ rule actions => { net with rules := Function.update net.rules d (addRule ⟨priority, rule, actions⟩ (net.rules d)) }
  | .GroupMod .. => net
  | .PacketOut _ in_port actions (some data) =>
    if IsFrom parse mac data then { net with inflight := net.inflight ++ emit W d in_port data actions } else net
  | .PacketOut _ _ _ none => net

/-- The application handles an event, and the switches what it sends. -/
def control (net : Net) (i : Input) : Net :=
  let app := step parse net.app i
  (app.out.drop net.app.out.length).foldl (fun net x => execute parse W mac net x.1 x.2) { net with app }

/-- A switch has a frame that came in at `in_port`. -/
def applyAction (d in_port : Nat) (data : Bytes) (net : Net) : Action → Net
  | .Output port max_len =>
    if port = OFPP_CONTROLLER then control parse W mac net (.PacketIn ⟨d, in_port, OFP_NO_BUFFER, data⟩)
    else { net with inflight := net.inflight ++ emit W d in_port data [.Output port max_len] }
  | a => { net with inflight := net.inflight ++ emit W d in_port data [a] }

def arrive (net : Net) (x : (Nat × Nat) × Bytes) : Net :=
  match lookup (net.rules x.1.1) x.1.2 (parse x.2) with
  | none => net
  | some r => r.actions.foldl (applyAction parse W mac x.1.1 x.1.2 x.2) net

inductive Turn where
  /-- The host sends a frame. -/
  | enter (data : Bytes)
  /-- A frame comes in at the end of its wire. -/
  | arrive (x : (Nat × Nat) × Bytes)
  /-- Whatever else the application gets to handle. -/
  | other (i : Input)

def turn (net : Net) : Turn → Net
  | .enter data => { net with inflight := net.inflight ++ [(W.source, data)], entered := net.entered ++ [data] }
  | .arrive x =>
    if x ∈ net.inflight then arrive parse W mac { net with inflight := Flooding.without net.inflight x, arrived := net.arrived + 1 } x
    else net
  | .other i => control parse W mac net i

/-- The switches have connected. -/
def connected (nodes : List Nat) : Net := nodes.foldl (fun net d => control parse W mac net (.SwitchFeatures d)) {}

end Multipath

end VnfDockerNet
