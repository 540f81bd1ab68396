import VnfDockerNet.Layer2

/-!
# The service-chain application

`ryuNet`, the topology that `L3Switch13` keeps, its path finding, and the
messages that install a path. A node of the graph is the object for a switch or
a host; an edge carries the dictionary of one of its links, or an empty one.
The timer that prints the topology is left out, and so are rule timeouts.
-/

namespace VnfDockerNet

open Python Networkx

namespace RyuNet

/-! ## Topology objects -/

abbrev Port := LinkEnd

structure Switch where
  dp : OfDatapath
  ports : List Port
  deriving DecidableEq, Repr

structure Host where
  mac : Bytes
  port : Port
  ipv4 : List Bytes
  deriving DecidableEq, Repr

/-- `noNode` is Python's `None`, which `add_edge` takes for a node. -/
inductive TopoNode where
  | switch (s : Switch)
  | host (h : Host)
  | noNode
  deriving DecidableEq, Repr

structure PortDict where
  dpid : List Char
  port_no : List Char
  deriving DecidableEq, Repr

structure LinkDict where
  src : PortDict
  dst : PortDict
  deriving DecidableEq, Repr

def dpid_to_str (dpid : Nat) : List Char := hexText 16 dpid

def port_no_to_str (port_no : Nat) : List Char := hexText 8 port_no

def portDict (port : Port) : PortDict := ⟨dpid_to_str port.dpid, port_no_to_str port.port_no⟩

def linkDict (link : Link) : LinkDict := ⟨portDict link.src, portDict link.dst⟩

/-- A text is never equal to a number. -/
def isNumber (_ : List Char) (_ : Nat) : Bool := false

/-- A release of networkx that does not refuse `None`. -/
abbrev TopoGraph := MultiGraph TopoNode (Option LinkDict) (· = .noNode)

variable (nx : TopoGraph)

/-! ## Looking up nodes -/

/-- One attribute and the value looked for. -/
inductive Key where
  | port (port : Port)
  | ports (port : Port)
  | ipv4 (ip : Bytes)
  deriving DecidableEq, Repr

/-- A list matches by its members; a node without the attribute does not match. -/
def hasKey (key : Key) : TopoNode → Bool
  | .host h =>
    match key with
    | .port port => h.port = port
    | .ports _ => false
    | .ipv4 ip => h.ipv4.contains ip
  | .switch s =>
    match key with
    | .port _ => false
    | .ports port => s.ports.contains port
    | .ipv4 _ => false
  | .noNode => false

/-- The search gives up at `None`, which has no attributes. -/
def keys_to_node (topo : nx.Graph) (key : Key) : Option TopoNode :=
  ((nx.nodes topo).takeWhile (· ≠ .noNode)).find? (hasKey key)

def port_to_node (topo : nx.Graph) (port : Port) : Option TopoNode :=
  match keys_to_node nx topo (.port port) with
  | some n => some n
  | none => keys_to_node nx topo (.ports port)

def getSwitch (topo : nx.Graph) (dpid : List Char) : Option TopoNode :=
  (nx.nodes topo).find? fun
    | .switch s => dpid_to_str s.dp.id = dpid
    | _ => false

/-! ## Building the topology -/

/-- An edge whose first record gets the link's dictionary. -/
def joinNodes (topo : nx.Graph) (u v : TopoNode) (link : Link) : nx.Graph :=
  nx.add_edge topo u v fun _ => some (linkDict link)

/-- Without a switch the host is joined to `None`. -/
def attachHost (topo : nx.Graph) (h : Host) : nx.Graph :=
  joinNodes nx topo (.host h) ((getSwitch nx topo (dpid_to_str h.port.dpid)).getD .noNode) ⟨h.port, h.port⟩

def addLink (topo : nx.Graph) (l : Link) : nx.Graph :=
  match port_to_node nx topo l.src, port_to_node nx topo l.dst with
  | some src, some dst => joinNodes nx topo src dst l
  | _, _ => topo

/-- `ryuNet(switches, links, hosts).topo`. -/
def update (switches : List Switch) (links : List Link) (hosts : List Host) : nx.Graph :=
  let topo := (switches.map TopoNode.switch ++ hosts.map TopoNode.host).foldl nx.add_node nx.empty
  links.foldl (addLink nx) (hosts.foldl (attachHost nx) topo)

/-! ## Finding paths -/

inductive Source where
  | dpid (dpid : Nat)
  | ip (ip : Bytes)
  deriving DecidableEq, Repr

structure Action where
  datapath : OfDatapath
  out_port : List Nat
  deriving DecidableEq, Repr

/-- The node a path starts from. The number 0 is false for Python. -/
def sourceNode (topo : nx.Graph) : Source → Option TopoNode
  | .ip ip => keys_to_node nx topo (.ipv4 ip)
  | .dpid dpid => if dpid = 0 then none else getSwitch nx topo (dpid_to_str dpid)

/-- `actions_str`: the switches of a path with the texts of their ports. -/
def actionTexts (topo : nx.Graph) : List TopoNode → Except Exn (List (OfDatapath × List Char))
  | u :: v :: rest =>
    match nx.edge topo u v, u with
    | some (some record), .switch s =>
      let out_port := if isNumber record.src.dpid s.dp.id then record.src.port_no else record.dst.port_no
      (actionTexts topo (v :: rest)).map ((s.dp, out_port) :: ·)
    -- neither a host nor `None` has a `dp`
    | some (some _), _ => .error .AttributeError
    | _, _ => .error .KeyError
  | _ => .ok []

/-- The actions, or `None` when a port is not read. -/
def readActions : List (OfDatapath × List Char) → Option (List Action)
  | [] => some []
  | (datapath, out_port) :: rest =>
    match int out_port with
    | .ok port => (readActions rest).map (⟨datapath, [port]⟩ :: ·)
    | .error _ => none

/-- `path[1:]` of a path that starts at a host. -/
def dropHost : List TopoNode → List TopoNode
  | .host _ :: rest => rest
  | path => path

def pathActions (topo : nx.Graph) (path : List TopoNode) : Except Exn (Option (List Action)) :=
  (actionTexts nx topo path).map readActions

/-- `find_path` without waypoints. -/
def find_direct (topo : nx.Graph) (src : Source) (dst : Bytes) : Except Exn (Option (List Action)) :=
  match sourceNode nx topo src, keys_to_node nx topo (.ipv4 dst) with
  | some m, some h =>
    match nx.shortest_path topo m h with
    | .ok path => pathActions nx topo (dropHost path)
    | .error _ => .ok none
  | _, _ => .ok none

/-- `tot[idx-1]`, where an index -1 is the last one. -/
def before (tot : List Source) (src : Source) (idx : Nat) : Source :=
  if idx = 0 then tot.getLastD src else tot.getD (idx - 1) src

/-- The loop over `enumerate(tot[1:])`. -/
def find_legs (topo : nx.Graph) (tot : List Source) (src : Source) :
    Nat → List Bytes → Except Exn (Option (List (List Action)))
  | _, [] => .ok (some [])
  | idx, medium :: rest =>
    match find_direct nx topo (before tot src idx) medium with
    | .error e => .error e
    | .ok none => .ok none
    | .ok (some A) => (find_legs topo tot src (idx + 1) rest).map fun As => As.map (A :: ·)

def find_path (topo : nx.Graph) (src : Source) (dst : Bytes) (via : List Bytes) : Except Exn (Option (List Action)) :=
  if via = [] then find_direct nx topo src dst
  else
    (find_legs nx topo (src :: via.map .ip ++ [.ip dst]) src 0 (via ++ [dst])).map fun As => As.map List.flatten

/-! ## Installing a path -/

/-- The messages of `send_flow` to the switch of an action. -/
def send_flow (ipv4_dst ipv4_src : Bytes) (msg : PacketIn) (action : Action) : List (Nat × SwitchMsg) :=
  let actions := action.out_port.map fun p => { port := p : OFPActionOutput }
  (if action.out_port.head? ≠ some OFPP_FLOOD then
    [(action.datapath.id, .FlowMod OFP_NO_BUFFER 1 [.eth_type 0x800, .ipv4_dst ipv4_dst, .ipv4_src ipv4_src] actions)]
  else []) ++
  [(action.datapath.id, .PacketOut msg.buffer_id OFPP_CONTROLLER actions
    (if msg.buffer_id = OFP_NO_BUFFER then some msg.data else none))]

end RyuNet

end VnfDockerNet
