import VnfDockerNet.Central

/-!
# The local controller

`Layer2Switch` with the part of its agent that sends. A handler runs as one
step; the threads appear as one round of their loops. `sent` lists what was
handed to the agent's `send_msg`, `switch_out` what the datapaths were sent.
OpenFlow is version 1.3. The graph class, the order of a loop over a
dictionary, `json.dumps` and the MD5 of a window list are parameters.
-/

namespace VnfDockerNet

open Python Networkx

/-! ## OpenFlow -/

def OFP_NO_BUFFER : Nat := 0xffffffff
def OFPP_FLOOD : Nat := 0xfffffffb
def OFPP_CONTROLLER : Nat := 0xfffffffd
def OFPCML_MAX : Nat := 0xffe5
def OFPCML_NO_BUFFER : Nat := 0xffff
def LLDP_MAC_NEAREST_BRIDGE : Bytes := asciiText "01:80:c2:00:00:0e"
def BROADCAST_STR : Bytes := asciiText "ff:ff:ff:ff:ff:ff"
def PACKET_OUT_TIMEOUT : Nat := 65536

structure OFPActionOutput where
  port : Nat
  max_len : Nat := OFPCML_MAX
  deriving DecidableEq, Repr

/-- A keyword of `OFPMatch`. Addresses of IPv4 are given by their octets. -/
inductive MatchField where
  | ipv4_src (ip : Bytes)
  | ipv4_dst (ip : Bytes)
  | ip_proto (proto : Nat)
  | eth_type (ethertype : Nat)
  | tcp_src (port : Nat)
  | tcp_dst (port : Nat)
  | eth_dst (mac : Bytes)
  deriving DecidableEq, Repr

abbrev OFPMatch := List MatchField

inductive SwitchMsg where
  | FlowMod (buffer_id priority : Nat) (rule : OFPMatch) (actions : List OFPActionOutput)
  | PacketOut (buffer_id in_port : Nat) (actions : List OFPActionOutput) (data : Option Bytes)
  | RoleRequest (role generation_id : Nat)
  /-- `set_controller` of the bridge behind an OVSDB address. -/
  | SetController (ovsdb_addr : String) (controllers : List String)
  deriving DecidableEq, Repr

/-- ryu's object for a connected switch. -/
structure OfDatapath where
  id : Nat
  address : String
  deriving DecidableEq, Repr

/-! ## Packets -/

structure Ethernet where
  src : Bytes
  dst : Bytes
  ethertype : Nat
  deriving DecidableEq, Repr

structure Ipv4 where
  src : Bytes
  dst : Bytes
  proto : Nat
  /-- Where the payload starts in that of the whole packet: 0 but in a later fragment. -/
  offset : Nat
  deriving DecidableEq, Repr

structure Transport where
  src_port : Nat
  dst_port : Nat
  deriving DecidableEq, Repr

/-- The headers that `get_protocol` finds. `ipv4.parser` hands the payload to the
parser of `proto` whatever the offset is. -/
structure Packet where
  eth : Option Ethernet
  nw : Option Ipv4 := none
  tp : Option Transport := none
  up : Option Transport := none
  deriving DecidableEq, Repr

/-- A packet-in message; `pkt` is `packet.Packet(data)`. -/
structure PacketIn where
  datapath : OfDatapath
  in_port : Nat
  buffer_id : Nat
  data : Bytes
  pkt : Packet
  deriving DecidableEq, Repr

namespace Packet

/-- The four header variables of the handler: `src_ip`, `dst_ip`, `src_port`,
`dst_port`, with their defaults. -/
def headers (pkt : Packet) : Bytes × Bytes × Nat × Nat :=
  match pkt.nw with
  | none => ([0, 0, 0, 0], [0, 0, 0, 0], 0, 0)
  | some nw =>
    match pkt.tp, pkt.up with
    | _, some up => (nw.src, nw.dst, up.src_port, up.dst_port)
    | some tp, none => (nw.src, nw.dst, tp.src_port, tp.dst_port)
    | none, none => (nw.src, nw.dst, 0, 0)

def rule (pkt : Packet) (eth : Ethernet) : Except Exn OFPMatch :=
  let (src_ip, dst_ip, src_port, dst_port) := pkt.headers
  -- the texts of the addresses are never empty
  if src_port ≠ 0 ∧ dst_port ≠ 0 then
    match pkt.nw with
    | some nw => .ok [.ipv4_src src_ip, .ipv4_dst dst_ip, .ip_proto nw.proto, .eth_type eth.ethertype,
        .tcp_src src_port, .tcp_dst dst_port]
    | none => .error .AttributeError
  else .ok [.eth_dst eth.dst]

end Packet

/-! ## State -/

/-- A node of the graph: a switch, by its number, or a host, by its MAC text. -/
inductive Node where
  | dpid (dpid : Nat)
  | mac (mac : Bytes)
  deriving DecidableEq, Repr

structure LinkEnd where
  dpid : Nat
  port_no : Nat
  deriving DecidableEq, Repr

structure Link where
  src : LinkEnd
  dst : LinkEnd
  deriving DecidableEq, Repr

/-- What ryu's topology API answers. -/
structure Topology where
  switch_list : List Nat
  window_switches : List Window
  links_list : List Link
  deriving DecidableEq, Repr

structure LocalEnv where
  host : ByteOrder
  /-- The attribute of an edge is its `'port'`, if it has one. -/
  nx : DiGraph Node (Option Nat)
  /-- The order in which a loop goes through a dictionary. -/
  order : {κ ν : Type} → [DecidableEq κ] → Dict κ ν → List κ
  order_perm : ∀ {κ ν : Type} [DecidableEq κ] (d : Dict κ ν), (order d).Perm d.keys
  json_dumps : List Window → Bytes
  /-- `md5(''.join([str(ws) for ws in windows])).digest()`. -/
  windows_digest : List Window → Bytes
  /-- `md5("{}").hexdigest()`. -/
  empty_hexdigest : Bytes

structure SentUp where
  xid : Nat
  msg : MsgUp
  deriving DecidableEq, Repr

structure Layer2Switch (Γ : Type) where
  lcid : Option Nat := none
  mac_to_port : Dict Nat (Dict Bytes Nat) := ∅
  datapaths : Dict Nat OfDatapath := ∅
  dpid_to_load : Dict Nat Nat := ∅
  dpid_to_inter_connection_port : Dict Nat (List Nat) := ∅
  dpid_to_is_win : Dict Nat Bool := ∅
  dpid_to_out_port : Dict Nat Nat := ∅
  window_info_hash : Bytes
  window_switches_hash : Option Bytes := none
  net : Γ
  xid_to_packet : Dict Nat (Option Bytes) := ∅
  xid_to_packet_timestamp : Dict Nat Nat := ∅
  xid_to_buffer_id : Dict Nat Nat := ∅
  is_live : Bool := false
  xid : Nat
  sent : List SentUp := []
  switch_out : List (Nat × SwitchMsg) := []

namespace Layer2Switch

variable (env : LocalEnv)

abbrev App := EStateM Exn (Layer2Switch env.nx.Graph)

/-! ## Sending -/

def set_xid : App env Nat := do
  modify fun s => { s with xid := (s.xid + 1) &&& MAX_XID }
  return (← get).xid

/-- A message has an xid of its own or gets one in `send_msg`. -/
def messageXid : Option Nat → App env Nat
  | some xid => pure xid
  | none => set_xid env

/-- `msg.serialize()` and `send(msg.buf)`. -/
def transmit (xid : Nat) (msg : MsgUp) : App env Unit :=
  match msg.serialize env.host (some xid) with
  | some _ => modify fun s => { s with sent := s.sent ++ [⟨xid, msg⟩] }
  | none => throw .StructError

def send_msg (own_xid : Option Nat) (msg : MsgUp) : App env Unit := do
  let xid ← messageXid env own_xid
  transmit env xid msg

def send_switch (datapath : OfDatapath) (msg : SwitchMsg) : App env Unit :=
  modify fun s => { s with switch_out := s.switch_out ++ [(datapath.id, msg)] }

def add_flow (datapath : OfDatapath) (priority : Nat) (rule : OFPMatch) (actions : List OFPActionOutput)
    (buffer_id : Option Nat) : App env Unit :=
  -- `if buffer_id:` is false for `None` and for 0, and `OFPFlowMod` defaults to no buffer
  let buffer_id := if buffer_id.getD 0 = 0 then OFP_NO_BUFFER else buffer_id.getD 0
  send_switch env datapath (.FlowMod buffer_id priority rule actions)

/-- A packet-out with the data when the switch has not buffered the packet. Its
`in_port` came in a message of the switch, in 32 bits. -/
def packetOut (msg : PacketIn) (datapath : OfDatapath) (actions : List OFPActionOutput) : App env Unit :=
  send_switch env datapath (.PacketOut msg.buffer_id msg.in_port actions
    (if msg.buffer_id = OFP_NO_BUFFER then some msg.data else none))

/-! ## Switches -/

def ofp_switch_features_handler (datapath : OfDatapath) : App env Unit := do
  let dpid := datapath.id
  modify fun s => { s with
    datapaths := s.datapaths.insert dpid datapath
    dpid_to_load := s.dpid_to_load.insert dpid 0
    mac_to_port := s.mac_to_port.setdefault dpid ∅
    dpid_to_inter_connection_port := s.dpid_to_inter_connection_port.setdefault dpid [] }
  let is_window := ((← get).dpid_to_is_win.get dpid).getD false
  send_msg env none (.DPConnected dpid is_window)
  add_flow env datapath 0 [] [⟨OFPP_CONTROLLER, OFPCML_NO_BUFFER⟩] none

def ofp_role_reply_handler (dpid role : Nat) : App env Unit := do
  send_msg env none (.RoleNotify dpid (← get).lcid role)

/-- `self.net.remove_node(n)`. -/
def removeNode (n : Node) : App env Unit := do
  let g ← orRaise (env.nx.remove_node (← get).net n)
  modify fun s => { s with net := g }

/-- The loop over the hosts of a leaving switch; `except: pass` keeps the graph. -/
def removeMacs : List Bytes → App env Unit
  | [] => pure ()
  | mac_t :: macs => do
    modify fun s => { s with net := (env.nx.remove_node s.net (.mac mac_t)).toOption.getD s.net }
    removeMacs macs

def switch_leave_handler (dpid : Nat) : App env Unit := do
  removeNode env (.dpid dpid)
  let _ ← item (← get).datapaths dpid
  modify fun s => { s with datapaths := s.datapaths.erase dpid }
  let _ ← item (← get).dpid_to_load dpid
  modify fun s => { s with dpid_to_load := s.dpid_to_load.erase dpid }
  let _ ← item (← get).dpid_to_inter_connection_port dpid
  modify fun s => { s with dpid_to_inter_connection_port := s.dpid_to_inter_connection_port.erase dpid }
  let macs ← item (← get).mac_to_port dpid
  removeMacs env (env.order macs)
  modify fun s => { s with mac_to_port := s.mac_to_port.erase dpid }
  send_msg env none (.DatapathLeave dpid)
  modify fun s => { s with window_info_hash := env.empty_hexdigest }

/-! ## Packets from the switches -/

/-- `_pkt_not_protocol`: `dst_mac[0:2]` is not `'33'`. -/
def _pkt_not_protocol (dst_mac : Bytes) : Bool := dst_mac.take 2 != asciiText "33"

/-- An LLDP packet marks its port. -/
def markPort (dpid in_port : Nat) : App env Unit := do
  let ports ← item (← get).dpid_to_inter_connection_port dpid
  if in_port ∉ ports then
    modify fun s => { s with
      dpid_to_inter_connection_port := s.dpid_to_inter_connection_port.insert dpid (ports ++ [in_port]) }

def countPacket (dpid : Nat) : App env Unit := do
  let load ← item (← get).dpid_to_load dpid
  modify fun s => { s with dpid_to_load := s.dpid_to_load.insert dpid (load + 1) }

/-- The three statements that forget a host of `mac_to_port[dpid]`. -/
def dropHost (dpid : Nat) (macs : Dict Bytes Nat) (mac : Bytes) : App env Unit := do
  modify fun s => { s with mac_to_port := s.mac_to_port.insert dpid (macs.erase mac) }
  removeNode env (.mac mac)
  send_msg env none (.HostLeave dpid mac)

/-- The loop that looks for an old host on the port and stops there. -/
def dropOnPort (dpid in_port : Nat) : List Bytes → App env Unit
  | [] => pure ()
  | old_mac :: old_macs => do
    let macs ← item (← get).mac_to_port dpid
    if macs.get old_mac = some in_port then
      dropHost env dpid macs old_mac
    else dropOnPort dpid in_port old_macs

/-- The loop that looks for the old place of a host and stops there. -/
def dropElsewhere (src : Bytes) : List Nat → App env Unit
  | [] => pure ()
  | old_dpid :: old_dpids => do
    let macs ← item (← get).mac_to_port old_dpid
    if src ∈ macs then
      dropHost env old_dpid macs src
    else dropElsewhere src old_dpids

def addHost (dpid in_port : Nat) (src : Bytes) : App env Unit := do
  let macs ← item (← get).mac_to_port dpid
  modify fun s => { s with mac_to_port := s.mac_to_port.insert dpid (macs.insert src in_port) }
  modify fun s => { s with net := env.nx.add_node s.net (.mac src) }
  modify fun s => { s with net := env.nx.add_edge s.net (.dpid dpid) (.mac src) fun _ => some in_port }
  modify fun s => { s with net := env.nx.add_edge s.net (.mac src) (.dpid dpid) id }
  send_msg env none (.HostConnected dpid src)

def learnHost (dpid in_port : Nat) (src : Bytes) : App env Unit := do
  if ! env.nx.has_node (← get).net (.mac src) then
    let ports ← item (← get).dpid_to_inter_connection_port dpid
    if in_port ∉ ports then
      let macs ← item (← get).mac_to_port dpid
      dropOnPort env dpid in_port (env.order macs)
      dropElsewhere env src (env.order (← get).mac_to_port)
      addHost env dpid in_port src

/-- `self.net[u][v]['port']`. -/
def edgePort (u v : Node) : App env Nat := do
  let data ← key (env.nx.edge (← get).net u v)
  key data

/-- `self.datapaths[node]`. -/
def nodeDatapath : Node → App env OfDatapath
  | .dpid dpid => do item (← get).datapaths dpid
  | .mac _ => throw .KeyError

/-- The loop over the hops of the path. -/
def forwardPath (msg : PacketIn) (eth : Ethernet) : List Node → App env Unit
  | last_hop :: next_hop :: rest => do
    let out_port ← edgePort env last_hop next_hop
    let rule ← orRaise (msg.pkt.rule eth)
    let datapath ← nodeDatapath env last_hop
    if msg.buffer_id ≠ OFP_NO_BUFFER then
      add_flow env datapath 1 rule [{ port := out_port }] (some msg.buffer_id)
    else do
      add_flow env datapath 1 rule [{ port := out_port }] none
      packetOut env msg datapath [{ port := out_port }]
      forwardPath msg eth (next_hop :: rest)
  | _ => pure ()

/-- The request to the central controller, which leaves the packet pending. -/
def askCentral (now : Nat) (msg : PacketIn) (eth : Ethernet) : App env Unit := do
  let (src_ip, dst_ip, src_port, dst_port) := msg.pkt.headers
  let xid ← set_xid env
  modify fun s => { s with
    xid_to_packet := s.xid_to_packet.insert xid (if msg.buffer_id = OFP_NO_BUFFER then some msg.data else none)
    xid_to_packet_timestamp := s.xid_to_packet_timestamp.insert xid now
    xid_to_buffer_id := s.xid_to_buffer_id.insert xid msg.buffer_id }
  send_msg env (some xid)
    (TFLCPPacketIn msg.datapath.id eth.src eth.dst (some src_ip) (some dst_ip) src_port dst_port)

/-- The path finding, the flooding or the request. -/
def forward (now : Nat) (msg : PacketIn) (eth : Ethernet) : App env Unit := do
  let s ← get
  if env.nx.has_node s.net (.mac eth.dst) then
    match env.nx.shortest_path s.net (.dpid msg.datapath.id) (.mac eth.dst) with
    | .ok path => forwardPath env msg eth path
    | .error .NetworkXNoPath => pure ()
    | .error e => throw e
  else if eth.dst = BROADCAST_STR then
    packetOut env msg msg.datapath [{ port := OFPP_FLOOD }]
  else if _pkt_not_protocol eth.dst then
    askCentral env now msg eth

/-- `now` is `int(round(time.time() * 10000))`. -/
def ofp_packet_in_handler (now : Nat) (msg : PacketIn) : App env Unit := do
  match msg.pkt.eth with
  | none => throw .AttributeError
  | some eth =>
    if eth.dst = LLDP_MAC_NEAREST_BRIDGE then
      markPort env msg.datapath.id msg.in_port
    else do
      countPacket env msg.datapath.id
      learnHost env msg.datapath.id msg.in_port eth.src
      forward env now msg eth

/-! ## Messages from the central controller -/

def cc_hello_down_handler (lcid : Nat) : App env Unit := modify fun s => { s with lcid := some lcid }

def cc_role_assign_handler (dpid role gid : Nat) : App env Unit := do
  let datapath ← item (← get).datapaths dpid
  send_switch env datapath (.RoleRequest role gid)

/-- The packet waiting for the answer `xid`, which is taken out of the tables. -/
def takePending (xid : Nat) : App env (Option Bytes × Nat) := do
  match (← get).xid_to_packet.get xid with
  | none => return (none, OFP_NO_BUFFER)
  | some data =>
    let buffer_id ← item (← get).xid_to_buffer_id xid
    modify fun s => { s with xid_to_packet := s.xid_to_packet.erase xid }
    let _ ← item (← get).xid_to_packet_timestamp xid
    modify fun s => { s with
      xid_to_packet_timestamp := s.xid_to_packet_timestamp.erase xid
      xid_to_buffer_id := s.xid_to_buffer_id.erase xid }
    return (data, buffer_id)

/-- The rules of the path's nodes but the last. -/
def pathRules (dst_mac : Bytes) : List Node → App env Unit
  | node :: next :: rest => do
    let out_port ← edgePort env node next
    let dpid_path ← nodeDatapath env node
    add_flow env dpid_path 1 [.eth_dst dst_mac] [{ port := out_port }] none
    pathRules dst_mac (next :: rest)
  | _ => pure ()

/-- The branch for a packet that the switch has buffered. -/
def installBuffered (in_dp : OfDatapath) (in_dpid out_dpid region_out_port : Nat) (dst_mac : Bytes)
    (buffer_id : Nat) (path : List Node) : App env Unit := do
  if in_dpid = out_dpid then
    add_flow env in_dp 1 [.eth_dst dst_mac] [{ port := region_out_port }] (some buffer_id)
  else
    match path[path.idxOf (.dpid in_dpid) + 1]? with
    | none => throw .IndexError
    | some next_hop =>
      let out_port ← edgePort env (.dpid in_dpid) next_hop
      add_flow env in_dp 1 [.eth_dst dst_mac] [{ port := out_port }] (some buffer_id)
      pathRules env dst_mac (path.drop 1)
      let out_dp ← item (← get).datapaths out_dpid
      add_flow env out_dp 1 [.eth_dst dst_mac] [{ port := region_out_port }] none

/-- The packet-out at the way out. `serialize` packs its `in_port`, which is given
`in_dpid`, into 32 bits. -/
def exitPacketOut (out_dp : OfDatapath) (in_dpid : Nat) (actions : List OFPActionOutput) (data : Option Bytes) : App env Unit :=
  if in_dpid < 2 ^ 32 then
    send_switch env out_dp (.PacketOut OFP_NO_BUFFER in_dpid actions data)
  else throw .StructError

/-- The branch for a packet that came whole, or that waits elsewhere. -/
def installUnbuffered (in_dp : OfDatapath) (in_dpid out_dpid region_out_port : Nat) (dst_mac : Bytes)
    (data : Option Bytes) (path : List Node) : App env Unit := do
  if in_dpid = out_dpid then
    add_flow env in_dp 1 [.eth_dst dst_mac] [{ port := region_out_port }] none
  else do
    pathRules env dst_mac path
    let out_dp ← item (← get).datapaths out_dpid
    add_flow env out_dp 1 [.eth_dst dst_mac] [{ port := region_out_port }] none
    exitPacketOut env out_dp in_dpid [{ port := region_out_port }] data

def cc_flow_mod_handler (xid in_dpid out_dpid region_out_port : Nat) (dst_mac : Bytes) : App env Unit := do
  if out_dpid ∈ (← get).dpid_to_is_win then
    let in_dp ← item (← get).datapaths in_dpid
    let (data, buffer_id) ← takePending env xid
    match env.nx.shortest_path (← get).net (.dpid in_dpid) (.dpid out_dpid) with
    | .ok path =>
      if buffer_id ≠ OFP_NO_BUFFER then
        installBuffered env in_dp in_dpid out_dpid region_out_port dst_mac buffer_id path
      else
        installUnbuffered env in_dp in_dpid out_dpid region_out_port dst_mac data path
    | .error .NetworkXNoPath => pure ()
    | .error e => throw e

/-- The texts of the controllers. The handler reads fields by name, and the
decoder has made plain tuples. -/
def controllerTexts : List LocalCtrlAddr → Except Exn (List String)
  | [] => .ok []
  | _ :: _ => .error .AttributeError

def cc_ctrl_pool_change_handler (dpid : Nat) (lc_list : List LocalCtrlAddr) : App env Unit := do
  let lc_list_str ← orRaise (controllerTexts lc_list)
  let datapath ← item (← get).datapaths dpid
  send_switch env datapath (.SetController ("tcp:" ++ datapath.address ++ ":6632") lc_list_str)

def cc_echo_request_handler (now xid : Nat) : App env Unit := send_msg env (some xid) (.EchoReply now)

/-! ## Threads -/

def reportLoads : List Nat → App env Unit
  | [] => pure ()
  | dpid :: dpids => do
    let pkt_in_cnt := ((← get).dpid_to_load.get dpid).getD 0
    modify fun s => { s with dpid_to_load := s.dpid_to_load.insert dpid 0 }
    send_msg env none (.LoadReport dpid pkt_in_cnt)
    reportLoads dpids

def _load_report : App env Unit := do
  if (← get).is_live then
    reportLoads env (env.order (← get).datapaths)

/-- The loop over a window list. -/
def recordWindows : List Window → App env Unit
  | [] => pure ()
  | t :: window_switches => do
    let dst_dpid ← key t.dst_dpid
    modify fun s => { s with dpid_to_is_win := s.dpid_to_is_win.insert dst_dpid true }
    let dst_port_no ← key t.dst_port_no
    modify fun s => { s with dpid_to_out_port := s.dpid_to_out_port.insert dst_dpid dst_port_no }
    recordWindows window_switches

def _graph_info_thread (window_switches : List Window) : App env Unit := do
  if (← get).is_live then
    recordWindows env window_switches
    let window_switches_hash := env.windows_digest window_switches
    if window_switches_hash ≠ (← get).window_info_hash then
      send_msg env none (.GraphInfo (env.json_dumps window_switches))
      modify fun s => { s with window_info_hash := window_switches_hash }

def expirePacket (timestamp_now xid : Nat) : App env Unit := do
  let timestamp ← item (← get).xid_to_packet_timestamp xid
  if timestamp_now - timestamp > PACKET_OUT_TIMEOUT then
    let _ ← item (← get).xid_to_packet xid
    modify fun s => { s with
      xid_to_packet := s.xid_to_packet.erase xid
      xid_to_packet_timestamp := s.xid_to_packet_timestamp.erase xid }
    let _ ← item (← get).xid_to_buffer_id xid
    modify fun s => { s with xid_to_buffer_id := s.xid_to_buffer_id.erase xid }

/-- The loop over the keys of the timestamps. -/
def expirePackets (timestamp_now : Nat) : List Nat → App env Unit
  | [] => pure ()
  | xid :: xids => do
    expirePacket env timestamp_now xid
    expirePackets timestamp_now xids

def _packet_timeout_handler (now : Nat) : App env Unit := do
  expirePackets env now (env.order (← get).xid_to_packet_timestamp)

/-! ## Topology -/

/-- `",".join(window_switches)`, where a window is not a string. -/
def joinWindows : List Window → Except Exn Unit
  | [] => .ok ()
  | _ :: _ => .error .TypeError

def addSwitches (g : env.nx.Graph) (switches : List Nat) : env.nx.Graph :=
  switches.foldl (fun g dpid => env.nx.add_node g (.dpid dpid)) g

/-- The edges from each link's one end to the other. -/
def addLinks (g : env.nx.Graph) (src dst : Link → LinkEnd) (links : List Link) : env.nx.Graph :=
  links.foldl (fun g link => env.nx.add_edge g (.dpid (src link).dpid) (.dpid (dst link).dpid)
    fun _ => some (src link).port_no) g

def get_topology_data (api : Topology) : App env Unit := do
  modify fun s => { s with
    dpid_to_is_win := api.switch_list.foldl (fun d dpid => d.insert dpid false) s.dpid_to_is_win }
  orRaise (joinWindows api.window_switches)
  recordWindows env api.window_switches
  modify fun s => { s with net := addSwitches env s.net api.switch_list }
  modify fun s => { s with net := addLinks env s.net Link.src Link.dst api.links_list }
  modify fun s => { s with net := addLinks env s.net Link.dst Link.src api.links_list }
  send_msg env none (.GraphInfo (env.json_dumps api.window_switches))
  modify fun s => { s with window_switches_hash := some (env.windows_digest api.window_switches) }

/-! ## Steps -/

end Layer2Switch

inductive LocalEvent where
  | SwitchFeatures (datapath : OfDatapath)
  | RoleReply (dpid role : Nat)
  | PacketIn (now : Nat) (msg : PacketIn)
  | TopologyChange (api : Topology)
  | SwitchLeave (dpid : Nat)
  /-- The connection to the central controller succeeds. -/
  | Connected
  | Downlink (now : Nat) (ev : Event MsgDown)
  | LoadRound
  | GraphInfoRound (window_switches : List Window)
  | TimeoutRound (now : Nat)
  deriving DecidableEq, Repr

namespace Layer2Switch

variable (env : LocalEnv)

/-- The listener of a message from the central controller. -/
def dispatch_event (now : Nat) (ev : Event MsgDown) : App env Unit :=
  match ev.msg with
  | .HelloDown lcid => cc_hello_down_handler env lcid
  | .RoleAssign dpid _ role gid => cc_role_assign_handler env dpid role gid
  | .FlowMod in_dpid out_dpid out_port dst_mac _ =>
    cc_flow_mod_handler env ev.header.xid in_dpid out_dpid out_port dst_mac
  | .CtrlPoolChange dpid _ lc_list => cc_ctrl_pool_change_handler env dpid lc_list
  | .EchoRequest _ => cc_echo_request_handler env now ev.header.xid
  -- no listener, or one that only asks another server to move switches
  | .GidReply .. | .DpMigration .. | .BarrierRequest | .SwitchControllerMapUpdate => pure ()

def handle : LocalEvent → App env Unit
  | .SwitchFeatures datapath => ofp_switch_features_handler env datapath
  | .RoleReply dpid role => ofp_role_reply_handler env dpid role
  | .PacketIn now msg => ofp_packet_in_handler env now msg
  | .TopologyChange api => get_topology_data env api
  | .SwitchLeave dpid => switch_leave_handler env dpid
  | .Connected => modify fun s => { s with is_live := true }
  | .Downlink now ev => dispatch_event env now ev
  | .LoadRound => _load_report env
  | .GraphInfoRound window_switches => _graph_info_thread env window_switches
  | .TimeoutRound now => _packet_timeout_handler env now

/-- An exception keeps what was done before it; in a downlink handler it also
ends the agent's receive loop. -/
def step (s : Layer2Switch env.nx.Graph) (e : LocalEvent) : Layer2Switch env.nx.Graph :=
  match handle env e s with
  | .ok _ s' => s'
  | .error _ s' =>
    match e with
    | .Downlink .. => { s' with is_live := false }
    | _ => s'

def init (xid : Nat) : Layer2Switch env.nx.Graph :=
  { window_info_hash := env.empty_hexdigest, net := env.nx.empty, xid }

end Layer2Switch

end VnfDockerNet
