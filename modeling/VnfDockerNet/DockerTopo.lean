import VnfDockerNet.Lib.Ipv4

/-!
# VNF addresses in the Docker topology

Of `ClosTree` in DockerTopo: `addVNF`, `getCurrVnfIp`, `getNextVnfIp`, and the
part of `startNetwork` that gives the VNFs their addresses and the hosts their
routes, with what they call of mininet's `util`, `Node` and `Intf`. A node
records the commands it is given for this.
-/

namespace VnfDockerNet

open Python Ipv4

/-! ## mininet -/

namespace Mininet

def ipStr (ip : Nat) : List Char :=
  let w := ip >>> 24 &&& 0xff
  let x := ip >>> 16 &&& 0xff
  let y := ip >>> 8 &&& 0xff
  let z := ip &&& 0xff
  quad w x y z

def ipNum (w x y z : Nat) : Nat := w <<< 24 ||| x <<< 16 ||| y <<< 8 ||| z

def ipAdd (i prefixLen ipBaseNum : Nat) : Except Exn (List Char) :=
  let imax := 0xffffffff >>> prefixLen
  if i ≤ imax then
    let mask := 0xffffffff ^^^ imax
    let ipnum := (ipBaseNum &&& mask) + i
    .ok (ipStr ipnum)
  else .error .AssertionError

/-- Of octets without spaces and signs. -/
def ipParse (ip : List Char) : Except Exn Nat := do
  let args ← (ip.splitOn '.').mapM int
  -- octets that are missing are 0
  match args ++ List.replicate (4 - args.length) 0 with
  | [w, x, y, z] => pure (ipNum w x y z)
  | _ => throw .TypeError

def netParse (ipstr : List Char) : Except Exn (Nat × Nat) :=
  if '/' ∈ ipstr then
    match ipstr.splitOn '/' with
    | [ip, pf] => do
      let prefixLen ← int pf
      let ipNum ← ipParse ip
      pure (ipNum, prefixLen)
    | _ => throw .ValueError
  else do
    let ipNum ← ipParse ipstr
    pure (ipNum, 24)

structure Intf where
  name : List Char
  ip : Option (List Char) := none
  prefixLen : Option (List Char) := none

structure Node where
  name : List Char
  intfs : Dict Nat Intf := ∅
  cmds : List (List Char) := []

/-- One more than the largest port, and 0 for a node without ports. -/
def Node.newPort (node : Node) : Nat :=
  match node.intfs.keys with
  | [] => 0
  | port :: ports => ports.foldl max port + 1

/-- One end of `addLink`. -/
def Node.addIntf (node : Node) : Node :=
  let port := node.newPort
  { node with intfs := node.intfs.insert port { name := node.name ++ "-eth".toList ++ str port } }

def Intf.setIP (intf : Intf) (ipstr : List Char) : Except Exn Intf :=
  if '/' ∈ ipstr then
    match ipstr.splitOn '/' with
    | [ip, prefixLen] => .ok { intf with ip := some ip, prefixLen := some prefixLen }
    | _ => .error .ValueError
  else .ok { intf with ip := some ipstr, prefixLen := some ['8'] }

/-- `setIP(ip, intf=intfs[port])` -/
def Node.setIP (node : Node) (ipstr : List Char) (port : Nat) : Except Exn Node :=
  match node.intfs.get port with
  | none => .error .KeyError
  | some intf => do
    let intf' ← intf.setIP ipstr
    pure { node with
      intfs := node.intfs.insert port intf'
      cmds := node.cmds ++ ["ip address flush dev ".toList ++ intf.name,
        "ip address add ".toList ++ ipstr ++ " dev ".toList ++ intf.name] }

end Mininet

/-! ## The topology -/

namespace DockerTopo

open Mininet

structure ClosTree where
  vnfIpBase : List Char
  vnfNextIP : Nat := 1
  hosts : List Node := []
  /-- the items of the multi-dictionary, in the order in which they were added -/
  VNFs : List (List Char × Node) := []

/-- The hosts, each with its link to its rack. -/
def ClosTree.init (racks hostsPerRack : Nat) (vnfIpBase : List Char) : ClosTree where
  vnfIpBase
  hosts := (List.range racks).flatMap fun rack_id =>
    (List.range' 1 hostsPerRack).map fun x => Node.addIntf { name := 'h' :: str (rack_id * hostsPerRack + x) }

/-- A VNF without a parent is not kept. -/
def ClosTree.addVNF (tree : ClosTree) (name : List Char) (parentNode : Option (List Char)) : ClosTree :=
  let v : Node := { name }
  match parentNode with
  | some parent => { tree with VNFs := tree.VNFs ++ [(parent, v.addIntf.addIntf)] }
  | none => tree

def getCurrVnfIp : EStateM Exn ClosTree (List Char) := do
  let tree ← get
  let (ipBaseNum, prefixLen) ← orRaise (netParse tree.vnfIpBase)
  let ip ← orRaise (ipAdd tree.vnfNextIP prefixLen ipBaseNum)
  pure (ip ++ '/' :: str prefixLen)

def getNextVnfIp : EStateM Exn ClosTree (List Char) := do
  let ip ← getCurrVnfIp
  modify fun tree => { tree with vnfNextIP := tree.vnfNextIP + 1 }
  pure ip

/-- `".".join([ip.split(".")[0]]+[str(int(ip.split(".")[1])+i)]+ip.split(".")[2:])` -/
def addToSecond (ip : List Char) (i : Nat) : Except Exn (List Char) :=
  match ip.splitOn '.' with
  | first :: second :: rest => do
    let n ← int second
    pure (['.'].intercalate (first :: str (n + i) :: rest))
  | _ => .error .IndexError

/-- `for i,i_no in enumerate(v.intfs.keys())`, from `i` on. -/
def setIntfIps (node_ip : List Char) : Nat → List Nat → Node → Except Exn Node
  | _, [], v => pure v
  | i, i_no :: ports, v => do
    let intf_ip ← addToSecond node_ip i
    let v ← v.setIP intf_ip i_no
    setIntfIps node_ip (i + 1) ports v

/-- `for v in self.VNFs.values()` -/
def configureVNFs (o : DictOrder) : List (List Char × Node) → EStateM Exn ClosTree (List (List Char × Node))
  | [] => pure []
  | (parentNode, v) :: vnfs => do
    let node_ip ← getNextVnfIp
    let v ← orRaise (setIntfIps node_ip 0 (o.order v.intfs) v)
    let vnfs ← configureVNFs o vnfs
    pure ((parentNode, v) :: vnfs)

def routeAdd (net netmask dev : List Char) : List Char :=
  "route add -net ".toList ++ net ++ " netmask ".toList ++ netmask ++ " dev ".toList ++ dev

/-- The two routes of a host. -/
def setRoutes (ipBase ipBase2 subNetMask : List Char) (h : Node) : Except Exn Node :=
  match h.intfs.get 0 with
  | none => .error .KeyError
  | some intf => .ok { h with
      cmds := h.cmds ++ [routeAdd ipBase subNetMask intf.name, routeAdd ipBase2 subNetMask intf.name] }

/-- The VNF addresses and the routes of the hosts in `startNetwork`. -/
def startNetwork (o : DictOrder) (netaddr : Netaddr) : EStateM Exn ClosTree Unit := do
  let tree ← get
  let vnfs ← configureVNFs o tree.VNFs
  modify fun tree => { tree with VNFs := vnfs }
  let ipBase := netaddr.network tree.vnfIpBase
  let subNetMask := netaddr.netmask tree.vnfIpBase
  let ipBase2 ← orRaise (addToSecond ipBase 1)
  let hosts ← orRaise (tree.hosts.mapM (setRoutes ipBase ipBase2 subNetMask))
  modify fun tree => { tree with hosts }

end DockerTopo

end VnfDockerNet
