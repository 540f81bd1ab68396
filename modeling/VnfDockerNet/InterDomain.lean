import VnfDockerNet.Lib.Text

/-!
# Expected inter-domain flows

`count_inter_domain_flow` of the traffic generator, on the mapping and the lines
that it reads from its two files, and how the `ClosTree` of TestTopo names its
switches and hosts and links them.
-/

namespace VnfDockerNet

open Python

/-! ## The topology -/

namespace TestTopo

def switchName (n : Nat) : List Char := 's' :: str n

def hostName (n : Nat) : List Char := 'h' :: str n

def rackSwitches (spineSwitchNum rackSwitchNum : Nat) : List (List Char) :=
  (List.range' 1 rackSwitchNum).map fun rack => switchName (rack + spineSwitchNum)

/-- `hostLinks` of the racks from `rack_id` on. -/
def rackLinks (hostsPerRack : Nat) : Nat → List (List Char) → List (List Char × List Char)
  | _, [] => []
  | rack_id, rack :: racks =>
    (List.range' 1 hostsPerRack).map (fun x => (rack, hostName (rack_id * hostsPerRack + x))) ++
      rackLinks hostsPerRack (rack_id + 1) racks

def hostLinks (spineSwitchNum rackSwitchNum hostsPerRack : Nat) : List (List Char × List Char) :=
  rackLinks hostsPerRack 0 (rackSwitches spineSwitchNum rackSwitchNum)

/-- The links of the hosts in `ClosTree(racks, hostsPerRack)`. -/
def ClosTree.hostLinks (racks hostsPerRack : Nat) : List (List Char × List Char) :=
  TestTopo.hostLinks (racks / 2) racks hostsPerRack

end TestTopo

/-! ## The count -/

namespace CountInterDomainFlows

/-- The local variables of `count_inter_domain_flow`. -/
structure Locals (Ctl : Type) where
  controllers : Dict Ctl (List (List Char)) := ∅
  host_controller_map : Dict Ctl (List Int) := ∅
  inverted_dict : Dict Int Ctl := ∅
  count : Nat := 0

section
variable {Ctl : Type} [DecidableEq Ctl]

/-- `for k in data` -/
def groupSwitch (data : Dict (List Char) Ctl) (k : List Char) : EStateM Exn (Locals Ctl) Unit := do
  let c ← item data k
  let s ← get
  if c ∉ s.controllers then
    modify fun s => { s with controllers := s.controllers.insert c [k] }
  else
    let switches ← item s.controllers c
    modify fun s => { s with controllers := s.controllers.insert c (switches ++ [k]) }

/-- `host_controller_map[c].append(host)` -/
def appendHost (c : Ctl) (host : Int) : EStateM Exn (Locals Ctl) Unit := do
  let s ← get
  let hosts ← item s.host_controller_map c
  modify fun s => { s with host_controller_map := s.host_controller_map.insert c (hosts ++ [host]) }

/-- `for s in controllers[c]` -/
def addHosts (c : Ctl) (switch : List Char) : EStateM Exn (Locals Ctl) Unit := do
  let n ← orRaise (intText switch)
  if n ∉ [1, 2, 3] then
    appendHost c ((n - 3) * 2 - 1)
    appendHost c ((n - 3) * 2)

/-- `for c in controllers` -/
def mapController (c : Ctl) : EStateM Exn (Locals Ctl) Unit := do
  modify fun s => { s with host_controller_map := s.host_controller_map.insert c [] }
  let s ← get
  let switches ← item s.controllers c
  forEach (addHosts c) switches

/-- `for k,v in host_controller_map.items()` -/
def invert (k : Ctl) : EStateM Exn (Locals Ctl) Unit := do
  let s ← get
  let v ← item s.host_controller_map k
  forEach (fun host => modify fun s => { s with inverted_dict := s.inverted_dict.insert host k }) v

/-- `int(values[i])` -/
def hostField (values : List (List Char)) (i : Nat) : Except Exn Int := do
  let value ← index values i
  intText value

/-- `for line in lines` -/
def countLine (line : List Char) : EStateM Exn (Locals Ctl) Unit := do
  let values := line.splitOn ','
  let from_host ← orRaise (hostField values 0)
  let to_host ← orRaise (hostField values 1)
  let s ← get
  if from_host ∈ s.inverted_dict ∧ to_host ∈ s.inverted_dict then
    let from_controller ← item s.inverted_dict from_host
    let to_controller ← item s.inverted_dict to_host
    if from_controller ≠ to_controller then
      modify fun s => { s with count := s.count + 1 }

def count_inter_domain_flow (o : DictOrder) (data : Dict (List Char) Ctl) (lines : List (List Char)) :
    EStateM Exn (Locals Ctl) Nat := do
  forEach (groupSwitch data) (o.order data)
  let s ← get
  forEach mapController (o.order s.controllers)
  let s ← get
  forEach invert (o.order s.host_controller_map)
  forEach countLine lines
  let s ← get
  pure s.count

end

end CountInterDomainFlows

end VnfDockerNet
