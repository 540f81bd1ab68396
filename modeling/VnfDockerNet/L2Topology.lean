import VnfDockerNet.Lib.Networkx
import VnfDockerNet.RyuNet

/-!
# The topology of the learning controller

`L2Topology` keeps a graph of the switches and hosts that ryu reports, and a
table of their hardware addresses. The items come as ryu's objects, which
`to_dict` turns into texts; a departure brings the number of the datapath. Left
out are the names of the ports, which nothing reads, and the printing.
-/

namespace VnfDockerNet

open Python Networkx

open RyuNet (dpid_to_str port_no_to_str)

namespace L2Topology

/-! ## What ryu reports -/

/-- The text of a hardware address has colons. -/
abbrev HwAddr := { text : List Char // ':' ∈ text }

structure Port where
  dpid : Nat
  port_no : Nat
  hw_addr : HwAddr
  deriving DecidableEq

/-- `ports` may be empty. -/
structure Switch where
  dpid : Nat
  ports : List Port
  deriving DecidableEq

structure Link where
  src : Port
  dst : Port
  deriving DecidableEq

structure Host where
  mac : HwAddr
  ipv4 : List (List Char)
  ipv6 : List (List Char)
  port : Port
  deriving DecidableEq

structure PortDict where
  dpid : List Char
  port_no : List Char
  hw_addr : HwAddr
  deriving DecidableEq

structure SwitchDict where
  dpid : List Char
  ports : List PortDict
  deriving DecidableEq

structure LinkDict where
  src : PortDict
  dst : PortDict
  deriving DecidableEq

structure HostDict where
  mac : HwAddr
  ipv4 : List (List Char)
  ipv6 : List (List Char)
  port : PortDict
  deriving DecidableEq

def Port.to_dict (port : Port) : PortDict := ⟨dpid_to_str port.dpid, port_no_to_str port.port_no, port.hw_addr⟩

def Switch.to_dict (s : Switch) : SwitchDict := ⟨dpid_to_str s.dpid, s.ports.map Port.to_dict⟩

def Link.to_dict (l : Link) : LinkDict := ⟨l.src.to_dict, l.dst.to_dict⟩

def Host.to_dict (h : Host) : HostDict := ⟨h.mac, h.ipv4, h.ipv6, h.port.to_dict⟩

/-! ## The state -/

/-- What a node may be called. A text is never equal to a number. -/
inductive Name where
  | text (s : List Char)
  | number (n : Nat)
  deriving DecidableEq

inductive NodeType where
  | switch | wswitch | host
  deriving DecidableEq

/-- The attributes of a node; an edge to an unknown name gives it none. -/
structure NodeAttr where
  type : Option NodeType := none
  ports : Option (List (List Char)) := none
  dt : Option HostDict := none
  deriving DecidableEq, Inhabited

/-- `info`, the port at each end of an edge. -/
abbrev Info := Dict (List Char) (List Char)

instance : Inhabited Info := ⟨∅⟩

structure Topo (Γ : Type) where
  net : Γ
  mac_to_port : Dict HwAddr PortDict

variable (nx : AttrDiGraph Name NodeAttr Info)

def init : Topo nx.Graph := ⟨nx.empty, ∅⟩

abbrev Stmt (α : Type) := EStateM Exn (Topo nx.Graph) α

/-! ## Switches -/

/-- The loop body of `removeNode`; `except: pass` keeps what was done. -/
def removeMac (dpid : Name) (mac : HwAddr) : Stmt nx Unit := do
  if mac ∈ (← get).mac_to_port then
    modify fun self => { self with mac_to_port := self.mac_to_port.erase mac }
    modify fun self => { self with net := (nx.remove_node self.net dpid).toOption.getD self.net }

def removeMacs (dpid : Name) : List HwAddr → Stmt nx Unit
  | [] => pure ()
  | mac :: hw_addrs => do
    removeMac nx dpid mac
    removeMacs dpid hw_addrs

def removeNode (dpid : Name) : Stmt nx Unit := do
  let mac_to_port := (← get).mac_to_port
  removeMacs nx dpid
    (mac_to_port.keys.filter fun hw => (mac_to_port.get hw).map (fun port => Name.text port.dpid) = some dpid)

def addPort (dpid : List Char) : Option PortDict → Stmt nx Unit
  | none => throw .TypeError
  | some port => do
    modify fun self => { self with mac_to_port := self.mac_to_port.insert port.hw_addr port }
    let attr ← key (nx.node (← get).net (.text dpid))
    let _ ← key attr.ports

/-- The loop body of `addSwitches`. -/
def addSwitch (node_type : NodeType) (s : SwitchDict) : Stmt nx Unit := do
  modify fun self => { self with
    mac_to_port := s.ports.foldl (fun table port => table.insert port.hw_addr port) self.mac_to_port }
  let port_list := s.ports.map PortDict.port_no
  modify fun self => { self with
    net := nx.add_node self.net (.text s.dpid) fun attr =>
      { attr with type := some node_type, ports := some port_list } }
  if s.dpid = "0000000000000003".toList then addPort nx "0000000000000003".toList none

def addSwitchesAs (node_type : NodeType) : List Switch → Stmt nx Unit
  | [] => pure ()
  | s :: items => do
    addSwitch nx node_type s.to_dict
    addSwitchesAs node_type items

def addSwitches (items : List Switch) : Stmt nx Unit := addSwitchesAs nx .switch items

def addWindowSwitches (items : List Switch) : Stmt nx Unit := addSwitchesAs nx .wswitch items

/-! ## Hosts and links -/

def addHost (name : HwAddr) (dt : HostDict) : Stmt nx Unit := do
  match (← get).mac_to_port.get name with
  | some known =>
    let label : Info := AList.insert dt.port.dpid dt.port.port_no (AList.insert name.val known.port_no ∅)
    modify fun self => {
      net := nx.add_edge self.net (.text name.val) (.text dt.port.dpid) fun _ => label
      mac_to_port := self.mac_to_port.insert dt.port.hw_addr dt.port }
  | none =>
    modify fun self => { self with mac_to_port := self.mac_to_port.insert name dt.port }
    modify fun self => { self with
      net := nx.add_node self.net (.text name.val) fun attr => { attr with type := some .host, dt := some dt } }
    modify fun self => { self with
      net := nx.add_edge self.net (.text name.val) (.text dt.port.dpid) fun _ =>
        AList.insert dt.port.dpid dt.port.port_no ∅ }

def addHosts : List HostDict → Stmt nx Unit
  | [] => pure ()
  | h :: items => do
    addHost nx h.mac h
    addHosts items

def addLinks : List LinkDict → Stmt nx Unit
  | [] => pure ()
  | l :: items => do
    modify fun self => { self with
      net := nx.add_edge self.net (.text l.src.dpid) (.text l.dst.dpid) fun _ =>
        AList.insert l.dst.dpid l.dst.port_no (AList.insert l.src.dpid l.src.port_no ∅) }
    addLinks items

/-! ## The calls of the application -/

/-- What `get_topology_data`, `add_hosts` and `switch_leave_handler` call. -/
inductive Call where
  | addSwitches (switch_list : List Switch)
  | addWindowSwitches (window_switches : List Switch)
  | addLinks (links_list : List Link)
  | addHosts (host_list : List Host)
  | removeNode (dpid : Nat)

def run : Call → Stmt nx Unit
  | .addSwitches switch_list => addSwitches nx switch_list
  | .addWindowSwitches window_switches => addWindowSwitches nx window_switches
  | .addLinks links_list => addLinks nx (links_list.map Link.to_dict)
  | .addHosts host_list => addHosts nx (host_list.map Host.to_dict)
  | .removeNode dpid => removeNode nx (.number dpid)

/-- An exception keeps what was done before it. -/
def step (self : Topo nx.Graph) (call : Call) : Topo nx.Graph :=
  match run nx call self with
  | .ok _ self' => self'
  | .error _ self' => self'

end L2Topology

end VnfDockerNet
