import VnfDockerNet.Lib.Networkx
import VnfDockerNet.MsgHandler

/-!
# The central controller

`AppManager` with the `Datapath` and `LocalController` objects it works on. A
`LocalController` is known by its number among the accepted connections; a
`Datapath` object lives in `datapath_list` or in a local variable. `sent` lists
what was handed to `send_msg`. The listing order of `datapath_list`, the JSON
parser and the graph class are parameters.
-/

namespace VnfDockerNet

open Python Networkx

/-! ## Objects -/

def MAX_LC_ID : Nat := 0xffffffff
def FLOW_DISPATCH_STEPBYSTEP : Bool := false

/-- The id of a local controller, `None` until it has said HELLO_UP. -/
abbrev Lcid := Option Nat

inductive LcState where
  | LC_STATE_HANDSHAKE
  | LC_STATE_CONFIG
  | LC_STATE_LIVE
  | LC_STATE_DEAD
  deriving DecidableEq, Repr

structure LocalController where
  address : String × Nat
  id : Lcid := none
  is_active : Bool := true
  state : LcState := .LC_STATE_HANDSHAKE
  xid : Nat
  dpid_to_role : Dict Nat Nat := ∅
  dpid_to_load : Dict Nat Nat := ∅
  dp_win : Dict Nat Nat := ∅

structure Datapath where
  id : Nat
  _generation_id : Nat := 1
  mac : List Bytes := []
  lc_home : Option Nat := none
  lc_connected : List Nat := []
  load : Nat := 0

namespace Datapath

def add_lc (dp : Datapath) (lc : Nat) : Datapath :=
  if lc ∈ dp.lc_connected then dp else { dp with lc_connected := dp.lc_connected ++ [lc] }

def del_lc (dp : Datapath) (lc : Nat) : Except Exn Datapath :=
  if lc ∈ dp.lc_connected then .ok { dp with lc_connected := dp.lc_connected.erase lc } else .error .ValueError

def set_home_lc (dp : Datapath) (lc : Nat) : Datapath := { dp with lc_home := some lc }

def add_mac (dp : Datapath) (mac : Bytes) : Datapath :=
  if mac ∈ dp.mac then dp else { dp with mac := dp.mac ++ [mac] }

def del_mac (dp : Datapath) (mac : Bytes) : Except Exn Datapath :=
  if mac ∈ dp.mac then .ok { dp with mac := dp.mac.erase mac } else .error .ValueError

def set_load (dp : Datapath) (load : Nat) : Datapath := { dp with load }

end Datapath

/-- The attributes of an edge of `LC_LEVEL_TOPO`. -/
structure LinkData where
  left_dpid : Nat
  out_port : Nat
  right_dpid : Nat
  in_port : Nat
  deriving DecidableEq, Repr

/-- `data[name]`; no handler gives an edge other attributes. -/
def LinkData.attribute (data : LinkData) : String → Option Nat
  | "left_dpid" => some data.left_dpid
  | "out_port" => some data.out_port
  | "right_dpid" => some data.right_dpid
  | "in_port" => some data.in_port
  | _ => none

/-- The attributes of a node of `LC_LEVEL_TOPO`. -/
structure LcNode where
  type : Option String := none
  win_dpid : Option (List Nat) := none
  deriving DecidableEq, Repr, Inhabited

/-- An entry of the window list in a GRAPH_INFO; a key may be missing. -/
structure Window where
  src_dpid : Option Nat
  src_port_no : Option Nat
  dst_dpid : Option Nat
  dst_port_no : Option Nat
  deriving DecidableEq, Repr

structure Env where
  host : ByteOrder
  nx : MultiDiGraph Lcid LcNode LinkData
  json_loads : Bytes → Except Exn (List Window)
  /-- The order in which a loop goes through `datapath_list`. -/
  datapath_order : Dict Nat Datapath → List Nat
  datapath_order_perm : ∀ dps, (datapath_order dps).Perm dps.keys

structure Sent where
  lc : Nat
  xid : Nat
  msg : MsgDown
  deriving DecidableEq, Repr

structure AppManager (Γ : Type) where
  glcid : Nat := 1
  lcip_to_lcid : Dict (String × Nat) Nat := ∅
  local_windows : Dict Nat (List Window) := ∅
  local_ctrl_list : Dict Lcid Nat := ∅
  datapath_list : Dict Nat Datapath := ∅
  host_to_lcid : Dict Bytes Lcid := ∅
  LC_LEVEL_TOPO : Γ
  UPDATE_COUNTER : Nat := 0
  lc_outline : Dict Lcid Bool := ∅
  lc_outline_0 : Dict Lcid Bool := ∅
  lc_outline_1 : Dict Lcid Bool := ∅
  lcs : Nat → LocalController
  sent : List Sent := []

namespace AppManager

variable (env : Env)

abbrev App := EStateM Exn (AppManager env.nx.Graph)

def modifyLc (lc : Nat) (f : LocalController → LocalController) : App env Unit :=
  modify fun s => { s with lcs := Function.update s.lcs lc (f (s.lcs lc)) }

/-- Writes to the object under `dpid`. -/
def setDatapath (dpid : Nat) (dp : Datapath) : App env Unit :=
  modify fun s => { s with datapath_list := s.datapath_list.insert dpid dp }

def delHost (mac : Bytes) : App env Unit := do
  let _ ← item (← get).host_to_lcid mac
  modify fun s => { s with host_to_lcid := s.host_to_lcid.erase mac }

/-! ## Sending -/

def set_xid (lc : Nat) : App env Nat := do
  modifyLc env lc fun c => { c with xid := (c.xid + 1) &&& MAX_XID }
  return ((← get).lcs lc).xid

/-- With a message that has an xid of its own, or gets one here. -/
def send_msg (lc : Nat) (own_xid : Option Nat) (msg : MsgDown) : App env Unit := do
  let xid ← match own_xid with
    | some xid => pure xid
    | none => set_xid env lc
  match msg.serialize env.host (some xid) with
  | some _ => modify fun s => { s with sent := s.sent ++ [⟨lc, xid, msg⟩] }
  | none => throw .StructError

/-! ## Handlers -/

def _tflcp_hello_up_handler (lc : Nat) : App env Unit := do
  modifyLc env lc fun c => { c with state := .LC_STATE_LIVE }
  let s ← get
  let lcip := (s.lcs lc).address
  let lcid := (s.lcip_to_lcid.get lcip).getD s.glcid
  modifyLc env lc fun c => { c with id := some lcid }
  if lcip ∉ s.lcip_to_lcid then
    modify fun s => { s with
      lcip_to_lcid := s.lcip_to_lcid.insert lcip s.glcid
      LC_LEVEL_TOPO := env.nx.add_node s.LC_LEVEL_TOPO (some s.glcid) fun n => { n with type := some "controller" }
      glcid := if s.glcid + 1 > MAX_LC_ID then 1 else s.glcid + 1 }
  modify fun s => { s with
    local_ctrl_list := s.local_ctrl_list.insert (some lcid) lc
    lc_outline := s.lc_outline.insert (some lcid) false
    lc_outline_0 := s.lc_outline_0.insert (some lcid) false
    lc_outline_1 := s.lc_outline_1.insert (some lcid) false }
  send_msg env lc none (.HelloDown lcid)

/-- `for mac_t in datapath.mac`, from index `i` on, with a body that takes
`mac_t` out of the list it runs over. -/
def purgeMacs (dpid : Nat) : Nat → Nat → App env Unit
  | 0, _ => pure ()
  | fuel + 1, i => do
    let datapath ← item (← get).datapath_list dpid
    match datapath.mac[i]? with
    | none => pure ()
    | some mac_t =>
      delHost env mac_t
      let datapath ← orRaise (datapath.del_mac mac_t)
      setDatapath env dpid datapath
      purgeMacs dpid fuel (i + 1)

def get_generation_id (dpid : Nat) : App env Nat := do
  let datapath ← item (← get).datapath_list dpid
  setDatapath env dpid { datapath with _generation_id := datapath._generation_id + 1 }
  return datapath._generation_id

/-- The new home of a listed datapath, and the answer to it. -/
def assignRole (lc dpid : Nat) : App env Unit := do
  let datapath ← item (← get).datapath_list dpid
  setDatapath env dpid ((datapath.add_lc lc).set_home_lc lc)
  modifyLc env lc fun c => { c with
    dpid_to_role := c.dpid_to_role.insert dpid OFPCR_ROLE_MASTER
    dpid_to_load := c.dpid_to_load.insert dpid datapath.load }
  let gid ← get_generation_id env dpid
  send_msg env lc none (.RoleAssign dpid ((← get).lcs lc).id OFPCR_ROLE_MASTER gid)

def _tflcp_datapath_connected_handler (lc dpid : Nat) : App env Unit := do
  match (← get).datapath_list.get dpid with
  | some datapath => purgeMacs env dpid datapath.mac.length 0
  | none => setDatapath env dpid { id := dpid }
  assignRole env lc dpid

def _tflcp_gid_request_handler (lc dpid : Nat) : App env Unit := do
  let gid ← get_generation_id env dpid
  send_msg env lc none (.GidReply dpid gid)

/-- The one hop of `FLOW_DISPATCH_STEPBYSTEP`. -/
def dispatchStep (lc xid in_dpid : Nat) (dst_mac : Bytes) (src_lcid : Lcid) (path : List Lcid) : App env Unit := do
  let s ← get
  let start_lcid := (s.lcs lc).id
  match path[path.idxOf start_lcid + 1]? with
  | none => throw .IndexError
  | some next_lc =>
    let wildcards := if src_lcid = start_lcid then 1 else 0
    match (env.nx.edge s.LC_LEVEL_TOPO start_lcid next_lc).entries.head? with
    | none => throw .AttributeError
    | some ⟨_, data⟩ =>
      send_msg env lc (some xid) (.FlowMod in_dpid data.left_dpid data.out_port dst_mac wildcards)

/-- The loop over the nodes of the path but the last; `prev` is
`path[node_index-1]`, which for the first node is the last one. -/
def dispatchPath (xid : Nat) (dst_mac : Bytes) (src_lcid : Lcid) : Lcid → Nat → List Lcid → App env Unit
  | prev, in_dpid, node :: next :: rest => do
    let s ← get
    match (env.nx.edge s.LC_LEVEL_TOPO node next).entries.head? with
    | none => throw .AttributeError
    | some ⟨_, data⟩ =>
      let local_ctrl_path ← item s.local_ctrl_list node
      let wildcards := if src_lcid = (s.lcs local_ctrl_path).id then 1 else 0
      let in_dpid ← if wildcards = 0 then do
          let entry ← item (env.nx.edge s.LC_LEVEL_TOPO prev node) 0
          pure entry.right_dpid
        else pure in_dpid
      send_msg env local_ctrl_path (some xid) (.FlowMod in_dpid data.left_dpid data.out_port dst_mac wildcards)
      dispatchPath xid dst_mac src_lcid node in_dpid (next :: rest)
  | _, _, _ => pure ()

def _tflcp_packet_in_handler (lc xid in_dpid : Nat) (src_mac dst_mac : Bytes) : App env Unit := do
  modify fun s => { s with UPDATE_COUNTER := s.UPDATE_COUNTER + 1 }
  let s ← get
  match s.host_to_lcid.get src_mac, s.host_to_lcid.get dst_mac with
  | some src_lcid, some dst_lcid =>
    let start_lcid := (s.lcs lc).id
    if start_lcid = dst_lcid then pure ()
    else
      match env.nx.shortest_path s.LC_LEVEL_TOPO start_lcid dst_lcid with
      | .ok path =>
        if FLOW_DISPATCH_STEPBYSTEP then dispatchStep env lc xid in_dpid dst_mac src_lcid path
        else
          match path.getLast? with
          | some last => dispatchPath env xid dst_mac src_lcid last in_dpid path
          | none => pure ()
      | .error .NetworkXNoPath => pure ()
      | .error e => throw e
  | _, _ => pure ()

def _tflcp_load_report_handler (lc dpid pkt_in_cnt : Nat) : App env Unit := do
  let datapath ← item (← get).datapath_list dpid
  setDatapath env dpid (datapath.set_load pkt_in_cnt)
  modifyLc env lc fun c => { c with dpid_to_load := c.dpid_to_load.insert dpid pkt_in_cnt }

def _tflcp_echo_reply_handler (lc : Nat) : App env Unit :=
  modify fun s => { s with
    lc_outline := s.lc_outline.insert (s.lcs lc).id false
    lc_outline_0 := s.lc_outline_0.insert (s.lcs lc).id false
    lc_outline_1 := s.lc_outline_1.insert (s.lcs lc).id false }

/-- The loop that looks for the old place of a host and stops there. -/
def forgetHost (mac : Bytes) : List Nat → App env Unit
  | [] => pure ()
  | old_dpid :: dpids => do
    let old_dp ← item (← get).datapath_list old_dpid
    if mac ∈ old_dp.mac then
      let old_dp ← orRaise (old_dp.del_mac mac)
      setDatapath env old_dpid old_dp
    else forgetHost mac dpids

/-- `mac` enters both tables. -/
def recordHost (lc dpid : Nat) (mac : Bytes) : App env Unit := do
  modify fun s => { s with host_to_lcid := s.host_to_lcid.insert mac (s.lcs lc).id }
  let datapath ← item (← get).datapath_list dpid
  setDatapath env dpid (datapath.add_mac mac)

def _tflcp_host_connected_handler (lc dpid : Nat) (mac : Bytes) : App env Unit := do
  if mac ∈ (← get).host_to_lcid then
    delHost env mac
    forgetHost env mac (env.datapath_order (← get).datapath_list)
  recordHost env lc dpid mac

def removeEdgeIf (hit : Bool) (u v : Lcid) : App env Unit := do
  if hit then
    let g ← orRaise (env.nx.remove_edge (← get).LC_LEVEL_TOPO u v)
    modify fun s => { s with LC_LEVEL_TOPO := g }

/-- The loop over a listing of the edges. -/
def removeWindowEdges (dpid : Nat) : List (Lcid × Lcid × LinkData) → App env Unit
  | [] => pure ()
  | (u, v, data) :: edges => do
    removeEdgeIf env (data.left_dpid = dpid) u v
    removeEdgeIf env (data.right_dpid = dpid) u v
    removeWindowEdges dpid edges

/-- The end of the connection between `lc` and a listed datapath. -/
def dropDatapath (lc dpid : Nat) : App env Unit := do
  let datapath ← item (← get).datapath_list dpid
  if datapath.lc_connected.length = 1 then
    modify fun s => { s with datapath_list := s.datapath_list.erase dpid }
  let _ ← item ((← get).lcs lc).dpid_to_role dpid
  modifyLc env lc fun c => { c with dpid_to_role := c.dpid_to_role.erase dpid }
  let _ ← item ((← get).lcs lc).dpid_to_load dpid
  modifyLc env lc fun c => { c with dpid_to_load := c.dpid_to_load.erase dpid }
  let datapath ← orRaise (datapath.del_lc lc)
  -- the object may have left `datapath_list` above
  if dpid ∈ (← get).datapath_list then
    setDatapath env dpid datapath
  modifyLc env lc fun c => { c with dp_win := c.dp_win.erase dpid }

def _tflcp_datapath_leave_handler (lc dpid : Nat) : App env Unit := do
  let datapath ← item (← get).datapath_list dpid
  purgeMacs env dpid datapath.mac.length 0
  dropDatapath env lc dpid
  removeWindowEdges env dpid (env.nx.edges (← get).LC_LEVEL_TOPO)

def _tflcp_host_leave_handler (dpid : Nat) (mac : Bytes) : App env Unit := do
  modify fun s => { s with host_to_lcid := s.host_to_lcid.erase mac }
  let datapath ← item (← get).datapath_list dpid
  if mac ∈ datapath.mac then
    let datapath ← orRaise (datapath.del_mac mac)
    setDatapath env dpid datapath

/-- `self.datapath_list[dpid].lc_home.id`. -/
def homeId (dpid : Nat) : App env Lcid := do
  let datapath ← item (← get).datapath_list dpid
  match datapath.lc_home with
  | some lc => return ((← get).lcs lc).id
  | none => throw .AttributeError

def hasEdges (g : env.nx.Graph) (u v : Lcid) : Bool := (env.nx.edges g).any fun e => e.1 = u && e.2.1 = v

/-- `node[lcid]['win_dpid'].append(dpid)`. -/
def appendWinDpid (lcid : Lcid) (dpid : Nat) : App env Unit := do
  let s ← get
  match env.nx.node s.LC_LEVEL_TOPO lcid with
  | some { win_dpid := some dpids, .. } =>
    modify fun s => { s with
      LC_LEVEL_TOPO := env.nx.add_node s.LC_LEVEL_TOPO lcid fun n => { n with win_dpid := some (dpids ++ [dpid]) } }
  | _ => throw .KeyError

/-- `node[lcid]['win_dpid'] = [dpid]`. -/
def setWinDpid (lcid : Lcid) (dpid : Nat) : App env Unit := do
  let s ← get
  match env.nx.node s.LC_LEVEL_TOPO lcid with
  | some _ =>
    modify fun s => { s with
      LC_LEVEL_TOPO := env.nx.add_node s.LC_LEVEL_TOPO lcid fun n => { n with win_dpid := some [dpid] } }
  | none => throw .KeyError

def addWindowEdges (u v : Lcid) (check : LinkData) : App env Unit :=
  modify fun s => { s with
    LC_LEVEL_TOPO := env.nx.add_edge (env.nx.add_edge s.LC_LEVEL_TOPO u v check) v u
      ⟨check.right_dpid, check.in_port, check.left_dpid, check.out_port⟩ }

/-- The keyword arguments of `check`, read from the window. -/
def linkData (window : Window) : App env LinkData := do
  let left_dpid ← key window.src_dpid
  let out_port ← key window.src_port_no
  let right_dpid ← key window.dst_dpid
  let in_port ← key window.dst_port_no
  return ⟨left_dpid, out_port, right_dpid, in_port⟩

/-- The two `if` statements for a window between two controllers. -/
def linkWindow (window : Window) (src_dpid dst_dpid : Nat) (src_ctrl dst_ctrl : Lcid) : App env Unit := do
  if hasEdges env (← get).LC_LEVEL_TOPO src_ctrl dst_ctrl then
    let check ← linkData env window
    if check ∉ (env.nx.edge (← get).LC_LEVEL_TOPO src_ctrl dst_ctrl).entries.map fun e => e.2 then
      appendWinDpid env src_ctrl src_dpid
      appendWinDpid env dst_ctrl dst_dpid
      addWindowEdges env src_ctrl dst_ctrl check
  if ! hasEdges env (← get).LC_LEVEL_TOPO src_ctrl dst_ctrl then
    setWinDpid env src_ctrl src_dpid
    setWinDpid env dst_ctrl dst_dpid
    let check ← linkData env window
    addWindowEdges env src_ctrl dst_ctrl check

def handleWindow (window : Window) : App env Unit := do
  let src_dpid ← key window.src_dpid
  if src_dpid ∈ (← get).datapath_list then
    let dst_dpid ← key window.dst_dpid
    if dst_dpid ∈ (← get).datapath_list then
      let src_ctrl ← homeId env src_dpid
      let dst_ctrl ← homeId env dst_dpid
      if src_ctrl ≠ dst_ctrl then
        linkWindow env window src_dpid dst_dpid src_ctrl dst_ctrl

def handleWindows : List Window → App env Unit
  | [] => pure ()
  | window :: windows => do
    handleWindow env window
    handleWindows windows

def _tflcp_graph_info_handler (lc : Nat) (json_window_switches : Bytes) : App env Unit := do
  let windows ← orRaise (env.json_loads json_window_switches)
  modify fun s => { s with local_windows := s.local_windows.insert lc windows }
  handleWindows env windows

/-! ## Threads -/

/-- The loop over a listing of the edges. -/
def checkWindowLinks : List (Lcid × Lcid × LinkData) → App env Unit
  | [] => pure ()
  | (u, v, data) :: edges => do
    let src_dpid ← key (data.attribute "src_dpid")
    let ctrl1 ← homeId env src_dpid
    let dst_dpid ← key (data.attribute "dst_dpid")
    let ctrl2 ← homeId env dst_dpid
    removeEdgeIf env (ctrl2 = ctrl1) u v
    checkWindowLinks edges

/-- One pass, in which nothing else runs while it sleeps. -/
def _check_window_link_validity : App env Unit := do
  checkWindowLinks env (env.nx.edges (← get).LC_LEVEL_TOPO)

/-! ## Steps -/

/-- The listener of the event; BARRIER_REPLY has none. -/
def dispatch_event (lc : Nat) (ev : Event MsgUp) : App env Unit :=
  match ev.msg with
  | .HelloUp => _tflcp_hello_up_handler env lc
  | .DPConnected dpid _ => _tflcp_datapath_connected_handler env lc dpid
  | .GidRequest dpid => _tflcp_gid_request_handler env lc dpid
  | .PacketIn in_dpid src_mac dst_mac _ _ _ _ =>
    _tflcp_packet_in_handler env lc ev.header.xid in_dpid src_mac dst_mac
  | .LoadReport dpid pkt_in_cnt => _tflcp_load_report_handler env lc dpid pkt_in_cnt
  | .EchoReply _ => _tflcp_echo_reply_handler env lc
  | .HostConnected dpid mac => _tflcp_host_connected_handler env lc dpid mac
  | .DatapathLeave dpid => _tflcp_datapath_leave_handler env lc dpid
  | .HostLeave dpid mac => _tflcp_host_leave_handler env dpid mac
  | .GraphInfo text => _tflcp_graph_info_handler env lc text
  -- these handlers only log
  | .RoleNotify .. | .Error .. | .BarrierReply => pure ()

end AppManager

/-- An event that a local controller's message became. -/
structure Received where
  lc : Nat
  ev : Event MsgUp
  deriving DecidableEq, Repr

namespace AppManager

variable (env : Env)

/-- What is left of a connection when an exception ended its `serve`. -/
def close {Γ : Type} (s : AppManager Γ) (lc : Nat) : AppManager Γ :=
  { s with lcs := Function.update s.lcs lc { s.lcs lc with is_active := false, state := .LC_STATE_DEAD } }

def receive (s : AppManager env.nx.Graph) (r : Received) : AppManager env.nx.Graph :=
  match dispatch_event env r.lc r.ev s with
  | .ok _ s' => s'
  | .error _ s' => s'.close r.lc

/-- The controller is connected, and its first message is HELLO_UP. -/
def Accepts (s : AppManager env.nx.Graph) (r : Received) : Prop :=
  (s.lcs r.lc).is_active = true ∧ ((s.lcs r.lc).id ≠ none ∨ r.ev.msg = .HelloUp)

instance (s : AppManager env.nx.Graph) (r : Received) : Decidable (Accepts env s r) :=
  inferInstanceAs (Decidable (_ ∧ _))

/-- The start: any number of connections to come, with any addresses and xids. -/
def init (address : Nat → String × Nat) (xid : Nat → Nat) : AppManager env.nx.Graph :=
  { LC_LEVEL_TOPO := env.nx.empty, lcs := fun lc => { address := address lc, xid := xid lc } }

end AppManager

/-! ## The rounds of `_ms_switch_decide` -/

/-- `_ms_switch_execute` does nothing; its calls are recorded. -/
structure MsSwitch (Γ : Type) where
  app : AppManager Γ
  executed : List Lcid := []

inductive MsTurn where
  | received (r : Received)
  /-- One pass of the `while` loop, with the keys of `local_ctrl_list` as it lists them. -/
  | round (lcids : List Lcid)
  deriving DecidableEq, Repr

namespace MsSwitch

variable (env : Env)

abbrev App := EStateM Exn (MsSwitch env.nx.Graph)

def _ms_switch_execute (lcid : Lcid) : App env Unit := modify fun m => { m with executed := m.executed ++ [lcid] }

def checkOutline (lcid : Lcid) : App env Unit := do
  let outline ← item (← get).app.lc_outline lcid
  if ! outline then
    let outline_0 ← item (← get).app.lc_outline_0 lcid
    if ! outline_0 then
      modify fun m => { m with app := { m.app with lc_outline_0 := m.app.lc_outline_0.insert lcid true } }
      let outline_1 ← item (← get).app.lc_outline_1 lcid
      if outline_1 then
        modify fun m => { m with app := { m.app with lc_outline_1 := m.app.lc_outline_1.insert lcid false } }
    else
      let outline_1 ← item (← get).app.lc_outline_1 lcid
      if outline_1 then
        modify fun m => { m with app := { m.app with lc_outline := m.app.lc_outline.insert lcid true } }
        _ms_switch_execute env lcid
      else
        modify fun m => { m with app := { m.app with lc_outline_1 := m.app.lc_outline_1.insert lcid true } }

def _ms_switch_decide : List Lcid → App env Unit
  | [] => pure ()
  | lcid :: lcids => do
    checkOutline env lcid
    _ms_switch_decide lcids

def next (m : MsSwitch env.nx.Graph) : MsTurn → MsSwitch env.nx.Graph
  | .received r => { m with app := m.app.receive env r }
  | .round lcids =>
    match _ms_switch_decide env lcids m with
    | .ok _ m' => m'
    | .error _ m' => m'

/-- A round goes once through every registered controller. -/
def Lists {Γ : Type} (m : MsSwitch Γ) : MsTurn → Prop
  | .received _ => True
  | .round lcids => lcids.Perm m.app.local_ctrl_list.keys

instance {Γ : Type} (m : MsSwitch Γ) : ∀ t, Decidable (Lists m t)
  | .received _ => isTrue trivial
  | .round _ => inferInstanceAs (Decidable (List.Perm _ _))

def init (address : Nat → String × Nat) (xid : Nat → Nat) : MsSwitch env.nx.Graph := { app := AppManager.init env address xid }

end MsSwitch

end VnfDockerNet
