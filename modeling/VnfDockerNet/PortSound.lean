import VnfDockerNet.ChainSound

/-!
# The ports of a path

An edge shows the last link that was listed for its nodes, in whichever
direction it was listed. The path finding reads the text of its far end and
takes its hexadecimal digits for decimal ones, so the action for a hop has a
port of its switch only where that number is one by chance or because the link
was listed towards the switch and the port is below ten.
-/

namespace VnfDockerNet

open Python Networkx

namespace RyuNet

variable {nx : TopoGraph} {r : Reported}

/-! ## The right ports -/

/-- A port of `s` on a link that joins it to the node, or where the host is. -/
def OwnPort (r : Reported) (s : Switch) : TopoNode → Nat → Prop
  | .switch s', port => ∃ l ∈ r.links, (l.src ∈ s.ports ∧ l.dst ∈ s'.ports ∧ port = l.src.port_no) ∨
      (l.dst ∈ s.ports ∧ l.src ∈ s'.ports ∧ port = l.dst.port_no)
  | .host h, port => h.port = ⟨s.dp.id, port⟩ ∨ ∃ l ∈ r.links, (l.src ∈ s.ports ∧ l.dst = h.port ∧ port = l.src.port_no) ∨
      (l.dst ∈ s.ports ∧ l.src = h.port ∧ port = l.dst.port_no)
  | .noNode, _ => False

/-- One action for each switch of the path, with a port of it towards the next node. -/
def RightActions (r : Reported) : List TopoNode → List Action → Prop
  | .switch s :: v :: rest, a :: actions =>
    (∃ port, OwnPort r s v port ∧ a = ⟨s.dp, [port]⟩) ∧ RightActions r (v :: rest) actions
  | [_], [] => True
  | [], [] => True
  | _, _ => False

/-- The port at the far end of the record that the edge to the node shows. -/
def shownPort (r : Reported) (topo : nx.Graph) (s : Switch) (v : TopoNode) : Option Nat :=
  match lastLink topo r.links (.switch s) v, v with
  | some l, _ => some l.dst.port_no
  | none, .host h => some h.port.port_no
  | none, _ => none

/-- The shown port has the decimal digits of a right port for its hexadecimal ones. -/
def Shows (r : Reported) (topo : nx.Graph) : TopoNode → TopoNode → Prop
  | .switch s, v => ∃ port, shownPort r topo s v = some (asHex port) ∧ OwnPort r s v port
  | _, _ => False

section
variable {s : Switch} {u v : TopoNode} {path : List TopoNode} {actions : List Action}

theorem shownPort_of_edge {record : LinkDict} (hedge : nx.edge (r.topo nx) (.switch s) v = some (some record)) :
    ∃ port, shownPort r (r.topo nx) s v = some port ∧ record.dst.port_no = port_no_to_str port := by
  rw [edge_topo] at hedge
  unfold shownPort
  cases hlast : lastLink (r.topo nx) r.links (.switch s) v with
  | some l =>
    rw [hlast] at hedge
    cases hedge
    exact ⟨l.dst.port_no, rfl, rfl⟩
  | none =>
    rw [hlast] at hedge
    obtain ⟨h, _, hends, hdata⟩ := attachment_some hedge
    cases hdata
    rcases hends with ⟨hs, _⟩ | ⟨_, rfl⟩
    · cases hs
    · exact ⟨h.port.port_no, rfl, rfl⟩

theorem read_hop {record : LinkDict} (hedge : nx.edge (r.topo nx) (.switch s) v = some (some record)) (port : Nat) :
    int record.dst.port_no = .ok port ↔ shownPort r (r.topo nx) s v = some (asHex port) := by
  obtain ⟨q, hq, htext⟩ := shownPort_of_edge hedge
  rw [htext, hq, port_no_to_str, int_hexText, Option.some.injEq, eq_comm]

theorem right_iff_shows : ∀ {path : List TopoNode} {actions : List Action}, RouteActions (r.topo nx) path actions →
    (RightActions r path actions ↔ path.IsChain (Shows r (r.topo nx)))
  | path, actions, hroute => by
    rcases route_cases hroute with ⟨⟨u, rfl⟩, rfl⟩ | ⟨s, v, rest, record, port, actions', rfl, rfl, hedge, hport, hrest⟩
    · refine iff_of_true ?_ (.singleton _)
      cases u <;> trivial
    · have ih := right_iff_shows hrest
      have hhop : (∃ port', OwnPort r s v port' ∧ (⟨s.dp, [port]⟩ : Action) = ⟨s.dp, [port']⟩) ↔
          Shows r (r.topo nx) (.switch s) v := by
        constructor
        · intro h
          obtain ⟨port', hright, heq⟩ := h
          cases heq
          exact ⟨port, (read_hop hedge port).mp hport, hright⟩
        · intro h
          obtain ⟨port', hshown, hright⟩ := h
          have hsame := (read_hop hedge port').mpr hshown
          rw [hport] at hsame
          cases hsame
          exact ⟨port, hright, rfl⟩
      rw [List.isChain_cons_cons, ← ih, ← hhop]
      exact Iff.rfl
  termination_by path => path.length

theorem switch_of_shows (h : Shows r (r.topo nx) u v) : ∃ s, u = .switch s := by
  cases u with
  | switch s => exact ⟨s, rfl⟩
  | host g => exact h.elim
  | noNode => exact h.elim

theorem readable_of_shows (hshows : path.IsChain (Shows r (r.topo nx))) : Readable (r.topo nx) path := by
  refine hshows.imp fun u v hhop record hedge => ?_
  obtain ⟨s, rfl⟩ := switch_of_shows hhop
  obtain ⟨port, hshown, _⟩ := hhop
  exact ⟨port, (read_hop hedge port).mpr hshown⟩

end

/-- **The actions of a path are right exactly when** each of its hops leaves a
switch and shows, in the far end of the link listed last, a port whose
hexadecimal digits are the decimal digits of a port of the switch towards the
next node. -/
theorem path_ports_right_iff (nx : TopoGraph) (r : Reported) (src : Source) (dst : Bytes) (m n : TopoNode)
    (hm : sourceNode nx (r.topo nx) src = some m) (hn : keys_to_node nx (r.topo nx) (.ipv4 dst) = some n)
    (path : List TopoNode) (hpath : nx.shortest_path (r.topo nx) m n = .ok path) :
    (∃ actions, find_path nx (r.topo nx) src dst [] = .ok (some actions) ∧ RightActions r (dropHost path) actions) ↔
      (dropHost path).IsChain (Shows r (r.topo nx)) := by
  have hdirect : find_path nx (r.topo nx) src dst [] = pathActions nx (r.topo nx) (dropHost path) := by
    rw [show find_path nx (r.topo nx) src dst [] = find_direct nx (r.topo nx) src dst from if_pos rfl, find_direct_eq hm hn]
    unfold tripActions
    rw [hpath]
  rw [hdirect]
  constructor
  · intro hright
    obtain ⟨actions, hactions, hright⟩ := hright
    obtain ⟨texts, htexts, hread⟩ := pathActions_some hactions
    by_cases hnil : dropHost path = []
    · rw [hnil]
      exact .nil
    · exact (right_iff_shows (routeActions_of_path hnil htexts hread)).mp hright
  · intro hshows
    rcases actionTexts_cases (held_topo nx r) (chain_of_found hpath) with ⟨_, texts, htexts, hiff⟩ | ⟨hover, _⟩
    · obtain ⟨actions, hread⟩ := Option.isSome_iff_exists.mp (hiff.mp (readable_of_shows hshows))
      refine ⟨actions, by unfold pathActions; rw [htexts, ← hread]; rfl, ?_⟩
      by_cases hnil : dropHost path = []
      · rw [hnil] at htexts ⊢
        cases htexts
        cases hread
        trivial
      · exact (right_iff_shows (routeActions_of_path hnil htexts hread)).mpr hshows
    · exact absurd (hshows.imp fun u v => switch_of_shows) hover

theorem path_ports_right_iff_pair : ∃ actions,
    find_path sampleNx (pairNet.topo sampleNx) (.dpid 1) [10, 0, 0, 2] [] = .ok (some actions) ∧
      RightActions pairNet [.switch nearSwitch, .switch farSwitch, .host server] actions := by
  refine (path_ports_right_iff sampleNx pairNet (.dpid 1) [10, 0, 0, 2] _ _ rfl rfl
    [.switch nearSwitch, .switch farSwitch, .host server] (by decide +kernel)).mpr ?_
  refine .cons_cons ⟨1, ?_, ⟨⟨2, 1⟩, ⟨1, 1⟩⟩, by decide, by decide⟩ (.cons_cons ⟨3, ?_, Or.inl rfl⟩ (.singleton _))
  · rw [asHex_lt (by decide)]
    decide +kernel
  · rw [asHex_lt (by decide)]
    decide +kernel

/-- The link between two switches is listed towards the second one last, and the
server is at port 16 of that. -/
def farNet : Reported where
  switches := [⟨⟨1, "10.0.0.1"⟩, [⟨1, 2⟩]⟩, ⟨⟨2, "10.0.0.1"⟩, [⟨2, 1⟩, ⟨2, 16⟩]⟩]
  links := [⟨⟨2, 1⟩, ⟨1, 2⟩⟩, ⟨⟨1, 2⟩, ⟨2, 1⟩⟩]
  hosts := [⟨asciiText "00:00:00:00:00:0b", ⟨2, 16⟩, [[10, 0, 0, 2]]⟩]
  one := by decide
  own := by decide

/-- The first switch sends out of the second one's port number, and the second out of port 10. -/
theorem path_ports_wrong_far :
    sampleNx.shortest_path (farNet.topo sampleNx) (.switch ⟨⟨1, "10.0.0.1"⟩, [⟨1, 2⟩]⟩)
      (.host ⟨asciiText "00:00:00:00:00:0b", ⟨2, 16⟩, [[10, 0, 0, 2]]⟩) = .ok farNet.nodes ∧
    ¬ ∃ actions, find_path sampleNx (farNet.topo sampleNx) (.dpid 1) [10, 0, 0, 2] [] = .ok (some actions) ∧
      RightActions farNet farNet.nodes actions := by
  refine ⟨by decide +kernel, fun h => ?_⟩
  obtain ⟨actions, hfound, hright⟩ := h
  have hactions : find_path sampleNx (farNet.topo sampleNx) (.dpid 1) [10, 0, 0, 2] [] =
      .ok (some [⟨⟨1, "10.0.0.1"⟩, [1]⟩, ⟨⟨2, "10.0.0.1"⟩, [10]⟩]) := by decide +kernel
  rw [hactions] at hfound
  cases hfound
  obtain ⟨⟨port, ⟨l, hl, hends⟩, heq⟩, _⟩ := hright
  cases heq
  revert l
  decide

end RyuNet

end VnfDockerNet
