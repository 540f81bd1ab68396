import Mathlib.Data.List.TakeWhile
import VnfDockerNet.RyuNet

/-!
# What ryuNet builds

A host is joined to the switch that its port names, and to `None` where that has
left. A link joins the nodes that its ends resolve to. No link adds a node, so
the ends of each resolve as they do in the finished graph, and the edge between
two nodes shows the last link that was listed for them.
-/

namespace VnfDockerNet

open Python Networkx

namespace RyuNet

variable {nx : TopoGraph}

abbrev Joined (topo : nx.Graph) : TopoNode → TopoNode → Prop := nx.Joined topo

instance (topo : nx.Graph) (u v : TopoNode) : Decidable (Joined topo u v) := inferInstanceAs (Decidable (_ = true))

/-! ## Reports -/

/-- What ryu lists: one object for each switch, with ports that name it, and any links and hosts. -/
structure Reported where
  switches : List Switch
  links : List Link
  hosts : List Host
  one : ∀ s ∈ switches, ∀ s' ∈ switches, s.dp.id = s'.dp.id → s = s'
  own : ∀ s ∈ switches, ∀ p ∈ s.ports, p.dpid = s.dp.id

namespace Reported

variable (r : Reported)

def nodes : List TopoNode := r.switches.map .switch ++ r.hosts.map .host

def topo (nx : TopoGraph) : nx.Graph := update nx r.switches r.links r.hosts

def switchOf (dpid : Nat) : Option Switch := r.switches.find? fun s => s.dp.id = dpid

/-- What the host is joined to. -/
def home (h : Host) : TopoNode := ((r.switchOf h.port.dpid).map .switch).getD .noNode

def Attaches (h : Host) (u v : TopoNode) : Prop := (u = .host h ∧ v = r.home h) ∨ (u = r.home h ∧ v = .host h)

instance (h : Host) (u v : TopoNode) : Decidable (r.Attaches h u v) := inferInstanceAs (Decidable (_ ∨ _))

def attachment (hosts : List Host) (u v : TopoNode) : Option (Option LinkDict) :=
  (hosts.find? fun h => r.Attaches h u v).map fun h => some (linkDict ⟨h.port, h.port⟩)

variable {r} {s : Switch} {h : Host} {dpid : Nat}

@[simp] theorem mem_nodes_switch : .switch s ∈ r.nodes ↔ s ∈ r.switches := by simp [nodes]

@[simp] theorem mem_nodes_host : .host h ∈ r.nodes ↔ h ∈ r.hosts := by simp [nodes]

theorem switchOf_eq_some : r.switchOf dpid = some s ↔ s ∈ r.switches ∧ s.dp.id = dpid := by
  unfold switchOf
  constructor
  · intro hs
    exact ⟨List.mem_of_find?_eq_some hs, by simpa using List.find?_some hs⟩
  · intro hs
    obtain ⟨hs, hd⟩ := hs
    have hsome : (r.switches.find? fun s => s.dp.id = dpid).isSome = true := List.find?_isSome.mpr ⟨s, hs, by simpa using hd⟩
    obtain ⟨s', hs'⟩ := Option.isSome_iff_exists.mp hsome
    have hd' : s'.dp.id = dpid := by simpa using List.find?_some hs'
    rw [hs', r.one s' (List.mem_of_find?_eq_some hs') s hs (hd'.trans hd.symm)]

theorem home_eq_switch : r.home h = .switch s ↔ s ∈ r.switches ∧ s.dp.id = h.port.dpid := by
  rw [← switchOf_eq_some]
  unfold home
  cases r.switchOf h.port.dpid <;> simp

theorem home_cases (r : Reported) (h : Host) : (∃ s, r.home h = .switch s) ∨ r.home h = .noNode := by
  unfold home
  cases r.switchOf h.port.dpid <;> simp

theorem home_ne_host {g : Host} : r.home h ≠ .host g := by
  rcases r.home_cases h with ⟨s, hs⟩ | hnone
  · simp [hs]
  · simp [hnone]

theorem attaches_host {g : Host} {v : TopoNode} : r.Attaches g (.host h) v ↔ g = h ∧ v = r.home h := by
  unfold Attaches
  constructor
  · intro hends
    rcases hends with ⟨hg, hv⟩ | ⟨hg, _⟩
    · cases hg
      exact ⟨rfl, hv⟩
    · exact absurd hg.symm home_ne_host
  · intro hends
    obtain ⟨rfl, hv⟩ := hends
    exact Or.inl ⟨rfl, hv⟩

theorem not_attaches_switches {s' : Switch} : ¬ r.Attaches h (.switch s) (.switch s') := by simp [Attaches]

end Reported

/-! ## Nodes -/

section
variable {topo : nx.Graph} {r : Reported} {u v n : TopoNode} {h : Host} {l : Link}

/-- The nodes but `None` are those of the report. -/
def Lists (r : Reported) (topo : nx.Graph) : Prop := ∀ n, n ≠ .noNode → (n ∈ nx.nodes topo ↔ n ∈ r.nodes)

theorem Lists.switch {s : Switch} (hl : Lists r topo) : .switch s ∈ nx.nodes topo ↔ s ∈ r.switches := by
  simp [hl (.switch s) nofun]

theorem Lists.host {h : Host} (hl : Lists r topo) : .host h ∈ nx.nodes topo ↔ h ∈ r.hosts := by
  simp [hl (.host h) nofun]

theorem mem_nodes_foldl (l : List TopoNode) (topo : nx.Graph) (n : TopoNode) :
    n ∈ nx.nodes (l.foldl nx.add_node topo) ↔ n ∈ l ∨ n ∈ nx.nodes topo := by
  induction l generalizing topo with
  | nil => simp
  | cons m l ih =>
    rw [List.foldl_cons, ih, nx.mem_nodes_add_node, List.mem_cons]
    tauto

theorem edge_foldl (l : List TopoNode) (topo : nx.Graph) (u v : TopoNode) :
    nx.edge (l.foldl nx.add_node topo) u v = nx.edge topo u v := by
  induction l generalizing topo with
  | nil => rfl
  | cons m l ih => rw [List.foldl_cons, ih, nx.edge_add_node]

theorem getSwitch_eq (hl : Lists r topo) (dpid : Nat) :
    getSwitch nx topo (dpid_to_str dpid) = (r.switchOf dpid).map .switch := by
  have hfound : ∀ n, getSwitch nx topo (dpid_to_str dpid) = some n →
      ∃ s, n = .switch s ∧ r.switchOf dpid = some s := by
    intro n hn
    unfold getSwitch at hn
    have hmem := List.mem_of_find?_eq_some hn
    have hid := List.find?_some hn
    cases n with
    | switch s =>
      have hd : s.dp.id = dpid := hexText_injective (of_decide_eq_true hid)
      exact ⟨s, rfl, Reported.switchOf_eq_some.mpr ⟨hl.switch.mp hmem, hd⟩⟩
    | host h => cases hid
    | noNode => cases hid
  cases hs : r.switchOf dpid with
  | none =>
    cases hn : getSwitch nx topo (dpid_to_str dpid) with
    | none => rfl
    | some n =>
      obtain ⟨s, _, hs'⟩ := hfound n hn
      rw [hs] at hs'
      cases hs'
  | some s =>
    obtain ⟨hmem, hd⟩ := Reported.switchOf_eq_some.mp hs
    have hsome : (getSwitch nx topo (dpid_to_str dpid)).isSome = true := by
      unfold getSwitch
      exact List.find?_isSome.mpr ⟨.switch s, hl.switch.mpr hmem, decide_eq_true (by rw [hd])⟩
    obtain ⟨n, hn⟩ := Option.isSome_iff_exists.mp hsome
    obtain ⟨s', rfl, hs'⟩ := hfound n hn
    rw [hs] at hs'
    cases hs'
    exact hn

theorem edge_joinNodes (topo : nx.Graph) (u v : TopoNode) (link : Link) (u' v' : TopoNode) :
    nx.edge (joinNodes nx topo u v link) u' v' =
      if (u' = u ∧ v' = v) ∨ (u' = v ∧ v' = u) then some (some (linkDict link)) else nx.edge topo u' v' := by
  unfold joinNodes
  rw [nx.edge_add_edge]

/-! ## Attaching the hosts -/

/-- These hosts are joined to what they find, and nothing else is joined. -/
structure Attached (r : Reported) (hosts : List Host) (topo : nx.Graph) : Prop where
  lists : Lists r topo
  null : .noNode ∈ nx.nodes topo ↔ ∃ h ∈ hosts, r.home h = .noNode
  edge : ∀ u v, nx.edge topo u v = r.attachment hosts u v

theorem attachment_cons (r : Reported) (h : Host) (hosts : List Host) (u v : TopoNode) : r.attachment (h :: hosts) u v =
    if r.Attaches h u v then some (some (linkDict ⟨h.port, h.port⟩)) else r.attachment hosts u v := by
  unfold Reported.attachment
  rw [List.find?_cons]
  by_cases hends : r.Attaches h u v
  · simp [hends]
  · simp [hends]

theorem Attached.attachHost {hosts : List Host} (ha : Attached r hosts topo) (hh : h ∈ r.hosts) :
    Attached r (h :: hosts) (attachHost nx topo h) := by
  have hhome : (getSwitch nx topo (dpid_to_str h.port.dpid)).getD .noNode = r.home h := by
    rw [getSwitch_eq ha.lists]
    rfl
  unfold RyuNet.attachHost
  rw [hhome]
  refine ⟨fun n hn => ?_, ?_, fun u v => ?_⟩
  · unfold joinNodes
    rw [nx.mem_nodes_add_edge, ha.lists n hn]
    refine ⟨fun hmem => ?_, fun hmem => Or.inr (Or.inr hmem)⟩
    rcases hmem with rfl | rfl | hmem
    · exact Reported.mem_nodes_host.mpr hh
    · rcases r.home_cases h with ⟨s, hs⟩ | hnone
      · rw [hs]
        exact Reported.mem_nodes_switch.mpr (Reported.home_eq_switch.mp hs).1
      · exact absurd hnone hn
    · exact hmem
  · unfold joinNodes
    rw [nx.mem_nodes_add_edge, ha.null]
    simp [eq_comm]
  · rw [edge_joinNodes, attachment_cons, ha.edge]
    rfl

theorem attached_foldl {done : List Host} (hosts : List Host) (ha : Attached r done topo) (hh : ∀ h ∈ hosts, h ∈ r.hosts) :
    Attached r (hosts.reverse ++ done) (hosts.foldl (attachHost nx) topo) := by
  induction hosts generalizing topo done with
  | nil => exact ha
  | cons h hosts ih =>
    obtain ⟨hhere, hrest⟩ := List.forall_mem_cons.mp hh
    rw [List.reverse_cons, List.append_assoc]
    exact ih (ha.attachHost hhere) hrest

def attachedTopo (nx : TopoGraph) (r : Reported) : nx.Graph := r.hosts.foldl (attachHost nx) (r.nodes.foldl nx.add_node nx.empty)

theorem attached_topo (nx : TopoGraph) (r : Reported) : Attached r r.hosts.reverse (attachedTopo nx r) := by
  have hstart : Attached r [] (r.nodes.foldl nx.add_node nx.empty) := by
    refine ⟨fun n _ => ?_, ?_, fun u v => ?_⟩
    · simp [mem_nodes_foldl, nx.nodes_empty]
    · simp [mem_nodes_foldl, nx.nodes_empty, Reported.nodes]
    · rw [edge_foldl, nx.edge_empty]
      rfl
  have := attached_foldl r.hosts hstart fun h hh => hh
  rw [List.append_nil] at this
  exact this

/-! ## Adding the links -/

theorem keys_to_node_some {key : Key} (hn : keys_to_node nx topo key = some n) :
    n ∈ nx.nodes topo ∧ n ≠ .noNode ∧ hasKey key n = true := by
  unfold keys_to_node at hn
  have hmem := List.mem_of_find?_eq_some hn
  exact ⟨(List.takeWhile_sublist _).subset hmem, by simpa using List.mem_takeWhile_imp hmem, List.find?_some hn⟩

theorem port_to_node_mem {p : Port} (hn : port_to_node nx topo p = some n) : n ∈ nx.nodes topo ∧ n ≠ .noNode := by
  unfold port_to_node at hn
  split at hn
  · rename_i m hkey
    cases hn
    exact ⟨(keys_to_node_some hkey).1, (keys_to_node_some hkey).2.1⟩
  · exact ⟨(keys_to_node_some hn).1, (keys_to_node_some hn).2.1⟩

theorem port_to_node_congr {topo' : nx.Graph} (hn : nx.nodes topo' = nx.nodes topo) (p : Port) :
    port_to_node nx topo' p = port_to_node nx topo p := by
  unfold port_to_node keys_to_node
  rw [hn]

/-- The ends of the link resolve to the two nodes, in one direction or the other. -/
def Resolves (topo : nx.Graph) (l : Link) (u v : TopoNode) : Prop :=
  (port_to_node nx topo l.src = some u ∧ port_to_node nx topo l.dst = some v) ∨
    (port_to_node nx topo l.src = some v ∧ port_to_node nx topo l.dst = some u)

instance : Decidable (Resolves topo l u v) := inferInstanceAs (Decidable (_ ∨ _))

theorem Resolves.mem (hres : Resolves topo l u v) : u ∈ nx.nodes topo ∧ u ≠ .noNode := by
  rcases hres with ⟨hu, _⟩ | ⟨_, hu⟩
  · exact port_to_node_mem hu
  · exact port_to_node_mem hu

theorem resolves_congr {topo' : nx.Graph} (hn : nx.nodes topo' = nx.nodes topo) :
    Resolves topo' l u v ↔ Resolves topo l u v := by
  unfold Resolves
  rw [port_to_node_congr hn, port_to_node_congr hn]

theorem edge_addLink (topo : nx.Graph) (l : Link) (u v : TopoNode) : nx.edge (addLink nx topo l) u v =
    if Resolves topo l u v then some (some (linkDict l)) else nx.edge topo u v := by
  unfold addLink
  split
  · rename_i src dst hsrc hdst
    have hends : (u = src ∧ v = dst) ∨ (u = dst ∧ v = src) ↔ Resolves topo l u v := by
      unfold Resolves
      rw [hsrc, hdst]
      simp only [Option.some.injEq, @eq_comm _ u, @eq_comm _ v]
      tauto
    rw [edge_joinNodes]
    simp only [hends]
  · rename_i hnone
    rw [if_neg]
    rintro (⟨hsrc, hdst⟩ | ⟨hsrc, hdst⟩)
    · exact hnone u v hsrc hdst
    · exact hnone v u hsrc hdst

theorem nodes_addLink (topo : nx.Graph) (l : Link) : nx.nodes (addLink nx topo l) = nx.nodes topo := by
  unfold addLink
  split
  · rename_i src dst hsrc hdst
    exact nx.nodes_add_edge _ _ _ _ (port_to_node_mem hsrc).1 (port_to_node_mem hdst).1
  · rfl

theorem nodes_foldl_addLink (links : List Link) (topo : nx.Graph) :
    nx.nodes (links.foldl (addLink nx) topo) = nx.nodes topo := by
  induction links generalizing topo with
  | nil => rfl
  | cons l links ih => rw [List.foldl_cons, ih, nodes_addLink]

/-- The last link that is listed for the two nodes. -/
def lastLink (topo : nx.Graph) (links : List Link) (u v : TopoNode) : Option Link :=
  (links.filter fun l => Resolves topo l u v).getLast?

theorem lastLink_cons (topo : nx.Graph) (links : List Link) : lastLink topo (l :: links) u v =
    (lastLink topo links u v).or (if Resolves topo l u v then some l else none) := by
  unfold lastLink
  rw [List.filter_cons]
  by_cases hres : Resolves topo l u v
  · rw [if_pos (decide_eq_true hres), if_pos hres, List.getLast?_cons]
    cases (links.filter fun l => Resolves topo l u v).getLast? <;> rfl
  · rw [if_neg (by simpa using hres), if_neg hres, Option.or_none]

theorem lastLink_congr {topo' : nx.Graph} (hn : nx.nodes topo' = nx.nodes topo) (links : List Link) (u v : TopoNode) :
    lastLink topo' links u v = lastLink topo links u v := by
  unfold lastLink
  simp only [resolves_congr hn]

theorem lastLink_some {links : List Link} (hlast : lastLink topo links u v = some l) : l ∈ links ∧ Resolves topo l u v := by
  have hmem := List.mem_filter.mp (List.mem_of_getLast? hlast)
  exact ⟨hmem.1, of_decide_eq_true hmem.2⟩

theorem lastLink_isSome {links : List Link} : (lastLink topo links u v).isSome = true ↔ ∃ l ∈ links, Resolves topo l u v := by
  unfold lastLink
  rw [List.getLast?_isSome, Ne, List.filter_eq_nil_iff]
  simp

theorem edge_foldl_addLink (links : List Link) (topo : nx.Graph) (u v : TopoNode) :
    nx.edge (links.foldl (addLink nx) topo) u v =
      ((lastLink topo links u v).map fun l => some (linkDict l)).or (nx.edge topo u v) := by
  induction links generalizing topo with
  | nil => rfl
  | cons l links ih =>
    rw [List.foldl_cons, ih, edge_addLink, lastLink_congr (nodes_addLink topo l), lastLink_cons]
    by_cases hres : Resolves topo l u v
    · rw [if_pos hres, if_pos hres]
      cases lastLink topo links u v <;> rfl
    · rw [if_neg hres, if_neg hres, Option.or_none]

end

/-! ## The whole graph -/

section
variable {r : Reported} {u v : TopoNode}

theorem nodes_topo (nx : TopoGraph) (r : Reported) : nx.nodes (r.topo nx) = nx.nodes (attachedTopo nx r) :=
  nodes_foldl_addLink r.links _

theorem lists_topo (nx : TopoGraph) (r : Reported) : Lists r (r.topo nx) := by
  intro n hn
  rw [nodes_topo]
  exact (attached_topo nx r).lists n hn

theorem mem_noNode : .noNode ∈ nx.nodes (r.topo nx) ↔ ∃ h ∈ r.hosts, r.home h = .noNode := by
  rw [nodes_topo, (attached_topo nx r).null]
  simp

theorem edge_topo (nx : TopoGraph) (r : Reported) (u v : TopoNode) : nx.edge (r.topo nx) u v =
    ((lastLink (r.topo nx) r.links u v).map fun l => some (linkDict l)).or (r.attachment r.hosts.reverse u v) := by
  rw [lastLink_congr (nodes_topo nx r), ← (attached_topo nx r).edge]
  exact edge_foldl_addLink r.links _ u v

theorem attachment_some {data : Option LinkDict} (ha : r.attachment r.hosts.reverse u v = some data) :
    ∃ h ∈ r.hosts, r.Attaches h u v ∧ data = some (linkDict ⟨h.port, h.port⟩) := by
  obtain ⟨h, hfind, rfl⟩ := Option.map_eq_some_iff.mp ha
  exact ⟨h, List.mem_reverse.mp (List.mem_of_find?_eq_some hfind), by simpa using List.find?_some hfind, rfl⟩

theorem joined_topo : Joined (r.topo nx) u v ↔ (∃ l ∈ r.links, Resolves (r.topo nx) l u v) ∨ ∃ h ∈ r.hosts, r.Attaches h u v := by
  unfold Joined MultiGraph.Joined
  rw [edge_topo, Option.isSome_or, Bool.or_eq_true, Option.isSome_map, lastLink_isSome]
  unfold Reported.attachment
  rw [Option.isSome_map, List.find?_isSome]
  simp

theorem joined_comm {topo : nx.Graph} (huv : Joined topo u v) : Joined topo v u := by
  unfold Joined MultiGraph.Joined at huv ⊢
  rw [nx.edge_comm]
  exact huv

/-- Switches have their own ids, edges join nodes, and every edge has a record. -/
structure Held (topo : nx.Graph) : Prop where
  unique : ∀ s s', .switch s ∈ nx.nodes topo → .switch s' ∈ nx.nodes topo → s.dp.id = s'.dp.id → s = s'
  ends : ∀ u v, Joined topo u v → u ∈ nx.nodes topo
  record : ∀ u v, nx.edge topo u v ≠ some none

theorem held_topo (nx : TopoGraph) (r : Reported) : Held (r.topo nx) := by
  have hl := lists_topo nx r
  refine ⟨fun s s' hs hs' => ?_, fun u v huv => ?_, fun u v hedge => ?_⟩
  · exact r.one s (hl.switch.mp hs) s' (hl.switch.mp hs')
  · rcases joined_topo.mp huv with ⟨l, _, hres⟩ | ⟨h, hh, ⟨rfl, _⟩ | ⟨rfl, _⟩⟩
    · exact hres.mem.1
    · exact hl.host.mpr hh
    · rcases r.home_cases h with ⟨s, hs⟩ | hnone
      · rw [hs]
        exact hl.switch.mpr (Reported.home_eq_switch.mp hs).1
      · rw [hnone]
        exact mem_noNode.mpr ⟨h, hh, hnone⟩
  · rw [edge_topo] at hedge
    cases hlast : lastLink (r.topo nx) r.links u v with
    | some l =>
      rw [hlast] at hedge
      cases hedge
    | none =>
      rw [hlast] at hedge
      obtain ⟨_, _, _, hdata⟩ := attachment_some hedge
      cases hdata

end

end RyuNet

end VnfDockerNet
