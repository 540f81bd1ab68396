import VnfDockerNet.Layer2
import VnfDockerNet.Lldp
import VnfDockerNet.Lib.Linked

/-!
# Link discovery

ryu's `Switches` application: the connected switches and their ports, the
discovery packets sent out of each port, the links their arrivals show, the
hosts, and the two loops, of which a round is one event. Datapaths speak
OpenFlow 1.3; a port is known by its datapath's number and its own; a time is
in milliseconds.
-/

namespace VnfDockerNet

open Python

/-! ## Ports -/

def OFPP_MAX : Nat := 0xffffff00

structure OFPPort where
  port_no : Nat
  hw_addr : Bytes
  config : Nat
  state : Nat
  deriving DecidableEq, Repr

/-- `Port(dpid, ofproto, ofpport)` -/
structure RyuPort where
  dpid : Nat
  ofpport : OFPPort
  deriving DecidableEq, Repr

namespace RyuPort

variable (p : RyuPort)

/-- What two ports are compared by. -/
def key : LinkEnd := ⟨p.dpid, p.ofpport.port_no⟩

def is_reserved : Bool := p.ofpport.port_no > OFPP_MAX

/-- `OFPPS_LINK_DOWN` and `OFPPC_PORT_DOWN` are both 1. -/
def is_down : Bool := (p.ofpport.state &&& 1) > 0 || (p.ofpport.config &&& 1) > 0

end RyuPort

/-- A connection of a switch, with the object's number. -/
structure RyuDatapath where
  conn : Nat
  id : Nat
  ports : Dict Nat OFPPort

structure RyuSwitch where
  dp : RyuDatapath
  ports : List RyuPort

structure RyuHost where
  mac : Bytes
  port : LinkEnd
  ipv4 : List Bytes := []
  ipv6 : List Bytes := []
  deriving DecidableEq, Repr

structure PortData where
  is_down : Bool
  lldp_data : Bytes
  timestamp : Option Nat := none
  sent : Nat := 0
  deriving DecidableEq, Repr

/-- A dictionary whose keys also stand in a linked list. -/
structure PortDataState where
  dict : Dict LinkEnd PortData := ∅
  keys : Linked LinkEnd := {}

/-- `od.items()`; there is none if the list does not end or has another key. -/
def PortDataState.items (ports : PortDataState) : Option (List (LinkEnd × PortData)) := do
  let keys ← ports.keys.iter
  keys.mapM fun key => (ports.dict.get key).map (key, ·)

/-- The timestamps of the links, and the peer of each end. -/
structure LinkState where
  dict : Dict Link Nat := ∅
  map : Dict LinkEnd LinkEnd := ∅

/-! ## What goes out -/

inductive TopologyEvent where
  | SwitchEnter (dpid : Nat) (ports : List LinkEnd)
  | SwitchReconnected (dpid : Nat) (ports : List LinkEnd)
  | SwitchLeave (dpid : Nat) (ports : List LinkEnd)
  | PortAdd (port : LinkEnd)
  | PortDelete (port : LinkEnd)
  | PortModify (port : LinkEnd)
  | LinkAdd (link : Link)
  | LinkDelete (link : Link)
  | HostAdd (host : RyuHost)
  | HostMove (src dst : RyuHost)
  deriving DecidableEq, Repr

inductive DatapathOut where
  | Close (conn : Nat)
  /-- The flow that sends every discovery packet to the controller. -/
  | LldpFlow (conn : Nat)
  /-- A packet for a port of the datapath that has this number. -/
  | LldpOut (dpid port_no : Nat) (data : Bytes)
  | Drop (dpid buffer_id in_port : Nat)
  deriving DecidableEq, Repr

/-- `CONF`, the codecs, and the order in which a loop goes through a dictionary. -/
structure RyuEnv where
  conv : Lldp.Env
  order : DictOrder
  link_discovery : Bool
  install_flow : Bool
  explicit_drop : Bool
  /-- The sender that `arp`, `ipv4` and `ipv6` find in the rest of a packet. -/
  arp_src_ip : Bytes → Except Exn Bytes
  ipv4_src : Bytes → Except Exn Bytes
  ipv6_src : Bytes → Except Exn Bytes

structure Switches where
  dps : Dict Nat RyuDatapath := ∅
  port_state : Dict Nat (Dict Nat OFPPort) := ∅
  ports : PortDataState := {}
  links : LinkState := {}
  hosts : Dict Bytes RyuHost := ∅
  /-- `time.time()` -/
  time : Nat := 0
  /-- What the observers were sent. -/
  events : List TopologyEvent := []
  /-- What the datapaths were sent. -/
  out : List DatapathOut := []

namespace Switches

def DEFAULT_TTL : Nat := 120
def LLDP_SEND_PERIOD_PER_PORT : Nat := 900
def LINK_TIMEOUT : Nat := 10000
def LINK_LLDP_DROP : Nat := 5
def ETH_TYPE_CFM : Nat := 0x8902
def ETH_TYPE_ARP : Nat := 0x0806
def ETH_TYPE_IP : Nat := 0x0800
def ETH_TYPE_IPV6 : Nat := 0x86dd

abbrev Stmt := EStateM Exn Switches

def send_event_to_observers (ev : TopologyEvent) : Stmt Unit := modify fun s => { s with events := s.events ++ [ev] }

def send_msg (msg : DatapathOut) : Stmt Unit := modify fun s => { s with out := s.out ++ [msg] }

/-- `try x except KeyError`, and whether `x` returned. -/
def tryKey {σ α : Type} (x : EStateM Exn σ α) : EStateM Exn σ (Option α) := fun s =>
  match x s with
  | .ok a s' => .ok (some a) s'
  | .error .KeyError s' => .ok none s'
  | .error e s' => .error e s'

/-- `del d[k]` -/
def delItem {κ ν : Type} [DecidableEq κ] (d : Dict κ ν) (k : κ) : Stmt (Dict κ ν) :=
  if k ∈ d then pure (d.erase k) else throw .KeyError

/-! ## `PortDataState` -/

def setData (port : LinkEnd) (data : PortData) : Stmt Unit :=
  modify fun s => { s with ports := { s.ports with dict := s.ports.dict.insert port data } }

def setKeys (keys : Linked LinkEnd) : Stmt Unit := modify fun s => { s with ports := { s.ports with keys } }

def add_port (port : LinkEnd) (is_down : Bool) (lldp_data : Bytes) : Stmt Unit := do
  let s ← get
  match s.ports.dict.get port with
  | none =>
    setKeys (s.ports.keys._prepend_key port)
    setData port { is_down, lldp_data }
  | some data => setData port { data with is_down }

def lldp_sent (port : LinkEnd) : Stmt PortData := do
  let s ← get
  let data ← item s.ports.dict port
  let data := { data with timestamp := some s.time, sent := data.sent + 1 }
  setData port data
  setKeys (← orRaise (s.ports.keys._move_last_key port))
  return data

def lldp_received (port : LinkEnd) : Stmt Unit := do
  let data ← item (← get).ports.dict port
  setData port { data with sent := 0 }

def moveFrontKey (port : LinkEnd) : Stmt Unit := do
  setKeys (← orRaise ((← get).ports.keys._move_front_key port))

def move_front (port : LinkEnd) : Stmt Unit := do
  let s ← get
  match s.ports.dict.get port with
  | none => pure ()
  | some data =>
    setData port { data with timestamp := none }
    moveFrontKey port

def set_down (port : LinkEnd) (is_down : Bool) : Stmt Bool := do
  let data ← item (← get).ports.dict port
  setData port { data with is_down, timestamp := none }
  let _ ← if is_down then pure () else moveFrontKey port
  return is_down

def del_port (port : LinkEnd) : Stmt Unit := do
  let dict ← delItem (← get).ports.dict port
  modify fun s => { s with ports := { s.ports with dict } }
  setKeys (← orRaise ((← get).ports.keys._remove_key port))

/-! ## `LinkState` -/

/-- Whether the reverse link is also up. -/
def update_link (src dst : LinkEnd) : Stmt Bool := do
  modify fun s => { s with links := ⟨s.links.dict.insert ⟨src, dst⟩ s.time, s.links.map.insert src dst⟩ }
  return ⟨dst, src⟩ ∈ (← get).links.dict

/-- `del self[link]` -/
def delLink (link : Link) : Stmt Unit := do
  let dict ← delItem (← get).links.dict link
  modify fun s => { s with links := { s.links with dict } }

def delPeer (src : LinkEnd) : Stmt Unit := do
  let map ← delItem (← get).links.map src
  modify fun s => { s with links := { s.links with map } }

def link_down (link : Link) : Stmt Unit := do
  delLink link
  delPeer link.src

def rev_link_set_timestamp (rev_link : Link) (timestamp : Nat) : Stmt Unit :=
  modify fun s => { s with
    links := { s.links with dict := if rev_link ∈ s.links.dict then s.links.dict.insert rev_link timestamp else s.links.dict } }

def port_deleted (src : LinkEnd) : Stmt (LinkEnd × Option LinkEnd) := do
  let dst ← item (← get).links.map src
  delLink ⟨src, dst⟩
  delPeer src
  let s ← get
  -- the reverse link might not exist
  modify fun s => { s with links := ⟨s.links.dict.erase ⟨dst, src⟩, s.links.map.erase dst⟩ }
  return (dst, s.links.map.get dst)

/-! ## Lookups -/

variable (env : RyuEnv)

/-- `Switch` leaves reserved ports out. -/
def switchPorts (dpid : Nat) (port_state : Dict Nat OFPPort) : List RyuPort :=
  (((env.order.order port_state).filterMap port_state.get).map (RyuPort.mk dpid)).filter fun p => ¬ p.is_reserved

def _get_switch (dpid : Nat) : Stmt (Option RyuSwitch) := do
  let s ← get
  match s.dps.get dpid with
  | none => return none
  | some dp => return some ⟨dp, switchPorts env dpid (← item s.port_state dpid)⟩

def _get_port (dpid port_no : Nat) : Stmt (Option RyuPort) := do
  match ← _get_switch env dpid with
  | none => return none
  | some switch => return switch.ports.find? fun p => p.ofpport.port_no = port_no

def _is_edge_port (s : Switches) (port : LinkEnd) : Bool :=
  (env.order.order s.links.dict).all fun link => port ≠ link.src ∧ port ≠ link.dst

/-! ## Switches and ports -/

def _register (dp : RyuDatapath) : Stmt Unit :=
  modify fun s => { s with
    dps := s.dps.insert dp.id dp
    port_state := if dp.id ∈ s.port_state then s.port_state else s.port_state.insert dp.id dp.ports }

def _unregister (dp : RyuDatapath) : Stmt Unit := do
  match (← get).dps.get dp.id with
  | none => pure ()
  | some dp' =>
    if dp'.conn = dp.conn then
      modify fun s => { s with dps := s.dps.erase dp.id }
      let port_state ← delItem (← get).port_state dp.id
      modify fun s => { s with port_state }

def _port_added (p : RyuPort) : Stmt Unit := do
  let lldp_data ← orRaise (Lldp.lldp_packet env.conv p.dpid p.ofpport.port_no p.ofpport.hw_addr DEFAULT_TTL)
  add_port p.key p.is_down lldp_data

/-- The reverse link, if there was one. -/
def tellReverse (dst : LinkEnd) : Option LinkEnd → Stmt Unit
  | none => pure ()
  | some peer => send_event_to_observers (.LinkDelete ⟨dst, peer⟩)

def _link_down (port : LinkEnd) : Stmt Unit := do
  match ← tryKey (port_deleted port) with
  | none => pure ()
  | some (dst, rev_link_dst) =>
    send_event_to_observers (.LinkDelete ⟨port, dst⟩)
    tellReverse dst rev_link_dst
    move_front dst

def closeOld : Option RyuDatapath → Stmt Unit
  | none => pure ()
  | some old => send_msg (.Close old.conn)

def installFlow (dp : RyuDatapath) : Stmt Unit := if env.install_flow then send_msg (.LldpFlow dp.conn) else pure ()

/-- `state_change_handler` in `MAIN_DISPATCHER`. -/
def main_dispatcher (dp : RyuDatapath) : Stmt Unit := do
  let old := (← get).dps.get dp.id
  closeOld old
  _register dp
  match ← _get_switch env dp.id with
  | none => throw .AttributeError
  | some switch =>
    let ports := switch.ports.map RyuPort.key
    send_event_to_observers (if old.isNone then .SwitchEnter dp.id ports else .SwitchReconnected dp.id ports)
    if env.link_discovery then
      installFlow env dp
      -- not while there are several connections
      if old.isNone then
        forEach (fun p => if p.is_reserved then pure () else _port_added env p) switch.ports

/-- `state_change_handler` in `DEAD_DISPATCHER`, for a datapath with a number. -/
def dead_dispatcher (dp : RyuDatapath) : Stmt Unit := do
  match ← _get_switch env dp.id with
  | none => pure ()
  | some switch =>
    if switch.dp.conn = dp.conn then
      _unregister dp
      send_event_to_observers (.SwitchLeave dp.id (switch.ports.map RyuPort.key))
      if env.link_discovery then
        forEach (fun p => if p.is_reserved then pure () else do
          del_port p.key
          _link_down p.key) switch.ports

inductive Reason where
  | ADD
  | DELETE
  | MODIFY
  deriving DecidableEq, Repr

/-- What is done with a port that is there and not reserved. -/
def withPort (dpid port_no : Nat) (body : RyuPort → Stmt Unit) : Stmt Unit := do
  if env.link_discovery then
    match ← _get_port env dpid port_no with
    | none => pure ()
    | some p => if p.is_reserved then pure () else body p

/-- `self.port_state[dpid].add`, which is also `modify`. -/
def setPort (dpid : Nat) (ofpport : OFPPort) : Stmt Unit := do
  let state ← item (← get).port_state dpid
  modify fun s => { s with port_state := s.port_state.insert dpid (state.insert ofpport.port_no ofpport) }

def removePort (dpid port_no : Nat) : Stmt Unit := do
  let state ← item (← get).port_state dpid
  let state ← delItem state port_no
  modify fun s => { s with port_state := s.port_state.insert dpid state }

def port_status_handler (dpid : Nat) (ofpport : OFPPort) : Reason → Stmt Unit
  | .ADD => do
    setPort dpid ofpport
    send_event_to_observers (.PortAdd ⟨dpid, ofpport.port_no⟩)
    withPort env dpid ofpport.port_no fun p => _port_added env p
  | .DELETE => do
    send_event_to_observers (.PortDelete ⟨dpid, ofpport.port_no⟩)
    withPort env dpid ofpport.port_no fun p => do
      del_port p.key
      _link_down p.key
    if env.link_discovery then
      removePort dpid ofpport.port_no
  | .MODIFY => do
    setPort dpid ofpport
    send_event_to_observers (.PortModify ⟨dpid, ofpport.port_no⟩)
    withPort env dpid ofpport.port_no fun p => do
      if ← set_down p.key p.is_down then
        _link_down p.key

/-! ## Packets -/

structure RyuPacketIn where
  dpid : Nat
  in_port : Nat
  buffer_id : Nat
  data : Bytes
  deriving DecidableEq, Repr

def _drop_packet (msg : RyuPacketIn) : Stmt Unit :=
  if msg.buffer_id = OFP_NO_BUFFER then pure () else send_msg (.Drop msg.dpid msg.buffer_id msg.in_port)

def delHost (host_mac : Bytes) : Stmt Unit := do
  let hosts ← delItem (← get).hosts host_mac
  modify fun s => { s with hosts }

/-- Hosts off the edge are removed; the new link is not there yet. -/
def removeInnerHosts : Stmt Unit := do
  let s ← get
  let hosts := (env.order.order s.hosts).filterMap s.hosts.get
  let host_to_del := (hosts.filter fun host => ¬ _is_edge_port env s host.port).map RyuHost.mac
  forEach delHost host_to_del

/-- `del self.links[old_link]` for another peer, and the announcement. -/
def dropOldLink (src dst : LinkEnd) : Stmt Unit := do
  match (← get).links.map.get src with
  | none => pure ()
  | some old_peer =>
    if old_peer ≠ dst then
      delLink ⟨src, old_peer⟩
      send_event_to_observers (.LinkDelete ⟨src, old_peer⟩)

def announceLink (link : Link) : Stmt Unit := do
  if link ∉ (← get).links.dict then
    send_event_to_observers (.LinkAdd link)
    removeInnerHosts env

def learnLink (src dst : LinkEnd) : Stmt Unit := do
  dropOldLink src dst
  announceLink env ⟨src, dst⟩
  if ¬ (← update_link src dst) then
    move_front dst

def lldp_packet_in_handler (msg : RyuPacketIn) : Stmt Unit := do
  if env.link_discovery then
    match Lldp.lldp_parse env.conv msg.data with
    | .error (.LLDPUnknownFormat _) => pure ()
    | .error (.raised e) => throw e
    -- `StopIteration`; whatever it is, ryu only logs it
    | .error .StopIteration => throw .RuntimeError
    | .ok (src_dpid, src_port_no) =>
      match ← _get_port env src_dpid src_port_no with
      | none => pure ()
      | some src =>
        if src.dpid = msg.dpid then pure ()
        else
          let _ ← tryKey (lldp_received src.key)
          match ← _get_port env msg.dpid msg.in_port with
          | none => pure ()
          | some dst =>
            learnLink env src.key dst.key
            if env.explicit_drop then
              _drop_packet msg

/-- `ip` at the end of the list, once. -/
def updated (ips : List Bytes) (ip : Bytes) : List Bytes := ips.erase ip ++ [ip]

/-- `self.hosts.update_ip`, with what it does to the host. -/
def update_ip (mac : Bytes) (f : RyuHost → RyuHost) : Stmt Unit :=
  modify fun s => { s with
    hosts := match s.hosts.get mac with
      | none => s.hosts
      | some host => s.hosts.insert mac (f host) }

def learnHost (mac : Bytes) (port : LinkEnd) : Stmt Unit := do
  match (← get).hosts.get mac with
  | none =>
    modify fun s => { s with hosts := s.hosts.insert mac { mac, port } }
    send_event_to_observers (.HostAdd { mac, port })
  | some host =>
    -- the host is assumed to have moved
    if host.port ≠ port then
      modify fun s => { s with hosts := s.hosts.insert mac { mac, port } }
      send_event_to_observers (.HostMove host { mac, port })

/-- The sender's address in a packet of ARP or IP. -/
def learnIp (host_mac : Bytes) (ethertype : Nat) (pkt_data : Bytes) : Stmt Unit :=
  if ethertype = ETH_TYPE_ARP then do
    let ip ← orRaise (env.arp_src_ip pkt_data)
    update_ip host_mac fun host => { host with ipv4 := updated host.ipv4 ip }
  else if ethertype = ETH_TYPE_IP then do
    let ip ← orRaise (env.ipv4_src pkt_data)
    update_ip host_mac fun host => { host with ipv4 := updated host.ipv4 ip }
  else if ethertype = ETH_TYPE_IPV6 then do
    let ip ← orRaise (env.ipv6_src pkt_data)
    update_ip host_mac fun host => { host with ipv6 := updated host.ipv6 ip }
  else pure ()

def host_discovery_packet_in_handler (msg : RyuPacketIn) : Stmt Unit := do
  match ← orRaise (Lldp.unpack [.s 6, .s 6, .H] (msg.data.take 14)) with
  | [_, .str src, .int ethertype] =>
    if ethertype = Lldp.ETH_TYPE_LLDP ∨ ethertype = ETH_TYPE_CFM then pure ()
    else
      match ← _get_port env msg.dpid msg.in_port with
      | none => pure ()
      | some port =>
        if _is_edge_port env (← get) port.key then
          let host_mac := env.conv.bin_to_text src
          learnHost host_mac port.key
          learnIp env host_mac ethertype (msg.data.drop 14)
  | _ => throw .StructError

/-! ## The loops -/

def send_lldp_packet (port : LinkEnd) : Stmt Unit := do
  match ← tryKey (lldp_sent port) with
  | none => pure ()
  | some port_data =>
    if port_data.is_down then pure ()
    else
      match (← get).dps.get port.dpid with
      | none => pure ()
      | some _ => send_msg (.LldpOut port.dpid port.port_no port_data.lldp_data)

/-- What a round of `lldp_loop` sends at once, what it sends with pauses, and
how long it then waits. -/
def due (now : Nat) : List (LinkEnd × PortData) → List LinkEnd × List LinkEnd × Option Nat
  | [] => ([], [], none)
  | (key, data) :: items =>
    match data.timestamp with
    | none => ((key :: (due now items).1), (due now items).2)
    | some timestamp =>
      let expire := timestamp + LLDP_SEND_PERIOD_PER_PORT
      if expire ≤ now then ((due now items).1, key :: (due now items).2.1, (due now items).2.2)
      else ([], [], some (expire - now))

/-- Whether `link_loop` takes the link for lost. -/
def lost (s : Switches) (link : Link) : Bool :=
  match s.links.dict.get link, s.ports.dict.get link.src with
  | some timestamp, some port_data => timestamp + LINK_TIMEOUT < s.time ∧ port_data.sent > LINK_LLDP_DROP
  | _, _ => false

/-- A round of `link_loop`. -/
def link_loop : Stmt Unit := do
  let s ← get
  let deleted := (env.order.order s.links.dict).filter s.lost
  forEach (fun link => do
    link_down link
    send_event_to_observers (.LinkDelete link)
    let rev_link := ⟨link.dst, link.src⟩
    if rev_link ∉ deleted then
      -- it is very likely that the reverse link is also disconnected
      rev_link_set_timestamp rev_link (s.time - LINK_TIMEOUT)
      move_front link.dst) deleted

/-! ## Events -/

inductive Input where
  | Main (dp : RyuDatapath)
  /-- A datapath that dies before the handshake has no number. -/
  | Dead (dp : Option RyuDatapath)
  | PortStatus (dpid : Nat) (ofpport : OFPPort) (reason : Reason)
  | LldpPacketIn (msg : RyuPacketIn)
  | HostPacketIn (msg : RyuPacketIn)
  /-- The turn of a port in a round of `lldp_loop`. -/
  | SendLldp (port : LinkEnd)
  | LinkRound
  /-- Time goes by. -/
  | Elapse (time : Nat)

def handle : Input → Stmt Unit
  | .Main dp => main_dispatcher env dp
  | .Dead none => pure ()
  | .Dead (some dp) => dead_dispatcher env dp
  | .PortStatus dpid ofpport reason => port_status_handler env dpid ofpport reason
  | .LldpPacketIn msg => lldp_packet_in_handler env msg
  | .HostPacketIn msg => host_discovery_packet_in_handler env msg
  | .SendLldp port => send_lldp_packet port
  | .LinkRound => link_loop env
  | .Elapse time => modify fun s => { s with time := s.time + time }

/-- An exception of a handler is logged. -/
def step (s : Switches) (i : Input) : Switches :=
  match handle env i s with
  | .ok _ s' => s'
  | .error _ s' => s'

end Switches

end VnfDockerNet
