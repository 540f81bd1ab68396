import VnfDockerNet.RyuNetSpec
import VnfDockerNet.Lib.FnGraph

/-!
# The graph of a report

A host is joined to the switch that its port names, and to `None`, which becomes
a node, when that has left. A link joins what has its ports, and that is a host
before it is a switch. So the graph shows what was reported exactly when the
switch of every host is listed, and a link that ends where a host is leads to no
host, and to no port of another switch.
-/

namespace VnfDockerNet

open Python Networkx

namespace RyuNet

variable {nx : TopoGraph}

/-- The link joins the two switches, in one direction or the other. -/
def joinsPair (s s' : Switch) (l : Link) : Bool :=
  (l.src ∈ s.ports ∧ l.dst ∈ s'.ports) ∨ (l.src ∈ s'.ports ∧ l.dst ∈ s.ports)

namespace Reported

variable (r : Reported)

/-- The listed switch that the host's port belongs to. -/
def Home (h : Host) (n : TopoNode) : Prop := ∃ s ∈ r.switches, n = .switch s ∧ s.dp.id = h.port.dpid

def HostPort (p : Port) : Prop := ∃ h ∈ r.hosts, h.port = p

def SwitchPort (p : Port) : Prop := ∃ s ∈ r.switches, p ∈ s.ports

/-- From a port where a host is, a link leads to no host, and to no other switch. -/
def LeadsHome (p q : Port) : Prop := r.HostPort p → ¬ r.HostPort q ∧ (r.SwitchPort q → q.dpid = p.dpid)

/-- Every host has its switch, and no link takes a host for its end. -/
structure Showable : Prop where
  homes : ∀ h ∈ r.hosts, ∃ s ∈ r.switches, s.dp.id = h.port.dpid
  ends : ∀ l ∈ r.links, r.LeadsHome l.src l.dst ∧ r.LeadsHome l.dst l.src

theorem home_iff {r : Reported} {h : Host} {n : TopoNode} (hnull : r.home h ≠ .noNode) : r.Home h n ↔ n = r.home h := by
  rcases r.home_cases h with ⟨s, hs⟩ | hnone
  · have hmem := home_eq_switch.mp hs
    constructor
    · intro hhome
      obtain ⟨s', hs', rfl, hd⟩ := hhome
      exact (home_eq_switch.mpr ⟨hs', hd⟩).symm
    · intro hn
      exact ⟨s, hmem.1, hn.trans hs, hmem.2⟩
  · exact absurd hnone hnull

end Reported

/-- The graph is the report's. -/
structure Mirrors (r : Reported) (topo : nx.Graph) : Prop where
  nodes : ∀ n, n ∈ nx.nodes topo ↔ n ∈ r.nodes
  hosts : ∀ h ∈ r.hosts, ∀ n, Joined topo (.host h) n ↔ r.Home h n
  switches : ∀ s ∈ r.switches, ∀ s' ∈ r.switches, s ≠ s' →
    (Joined topo (.switch s) (.switch s') ↔ ∃ l ∈ r.links, joinsPair s s' l = true)
  records : ∀ s ∈ r.switches, ∀ s' ∈ r.switches, s ≠ s' → ∀ record, nx.edge topo (.switch s) (.switch s') = some record →
    ∃ l ∈ r.links, joinsPair s s' l = true ∧ record = some (linkDict l)

section
variable {r : Reported} {topo : nx.Graph} {s s' : Switch} {h : Host} {p q : Port} {l : Link} {u v n : TopoNode}

/-! ## Resolving the ends of a link -/

theorem keys_to_node_eq (hreal : .noNode ∉ nx.nodes topo) (key : Key) :
    keys_to_node nx topo key = (nx.nodes topo).find? (hasKey key) := by
  unfold keys_to_node
  rw [List.takeWhile_eq_self_iff.mpr]
  intro n hn
  exact decide_eq_true fun he => hreal (he ▸ hn)

section
variable (hl : Lists r topo) (hreal : .noNode ∉ nx.nodes topo)
include hl hreal

theorem port_to_node_cases (p : Port) : (∃ h ∈ r.hosts, h.port = p ∧ port_to_node nx topo p = some (.host h)) ∨
    ¬ r.HostPort p ∧ port_to_node nx topo p = keys_to_node nx topo (.ports p) := by
  unfold port_to_node
  cases hkey : keys_to_node nx topo (.port p) with
  | some n =>
    obtain ⟨hmem, _, hfound⟩ := keys_to_node_some hkey
    cases n with
    | switch s => cases hfound
    | host h => exact Or.inl ⟨h, hl.host.mp hmem, of_decide_eq_true hfound, rfl⟩
    | noNode => cases hfound
  | none =>
    refine Or.inr ⟨fun hport => ?_, rfl⟩
    obtain ⟨h, hh, hport⟩ := hport
    rw [keys_to_node_eq hreal] at hkey
    exact List.find?_eq_none.mp hkey (.host h) (hl.host.mpr hh) (decide_eq_true hport)

theorem port_to_node_host (hp : r.HostPort p) : ∃ h ∈ r.hosts, h.port = p ∧ port_to_node nx topo p = some (.host h) := by
  rcases port_to_node_cases hl hreal p with hfound | ⟨hnone, _⟩
  · exact hfound
  · exact absurd hp hnone

theorem switch_of_ports : keys_to_node nx topo (.ports p) = some n ↔ ∃ s ∈ r.switches, p ∈ s.ports ∧ n = .switch s := by
  have hfound : ∀ m, keys_to_node nx topo (.ports p) = some m → ∃ s ∈ r.switches, p ∈ s.ports ∧ m = .switch s := by
    intro m hm
    obtain ⟨hmem, _, hkey⟩ := keys_to_node_some hm
    cases m with
    | host h => cases hkey
    | switch s => exact ⟨s, hl.switch.mp hmem, List.contains_iff_mem.mp hkey, rfl⟩
    | noNode => cases hkey
  refine ⟨hfound n, fun hex => ?_⟩
  obtain ⟨s, hs, hport, rfl⟩ := hex
  have hsome : (keys_to_node nx topo (.ports p)).isSome = true := by
    rw [keys_to_node_eq hreal]
    exact List.find?_isSome.mpr ⟨.switch s, hl.switch.mpr hs, List.contains_iff_mem.mpr hport⟩
  obtain ⟨m, hm⟩ := Option.isSome_iff_exists.mp hsome
  obtain ⟨s₁, hs₁, hport₁, rfl⟩ := hfound m hm
  -- the port names its switch, so no other switch has it
  have hid : s₁.dp.id = s.dp.id := by rw [← r.own s₁ hs₁ p hport₁, r.own s hs p hport]
  rw [hm, r.one s₁ hs₁ s hs hid]

theorem port_to_node_switch :
    port_to_node nx topo p = some (.switch s) ↔ ¬ r.HostPort p ∧ s ∈ r.switches ∧ p ∈ s.ports := by
  rcases port_to_node_cases hl hreal p with ⟨h, hh, hport, hfound⟩ | ⟨hnone, hfound⟩
  · refine iff_of_false (fun hs => ?_) fun hs => hs.1 ⟨h, hh, hport⟩
    rw [hfound] at hs
    cases hs
  · rw [hfound, switch_of_ports hl hreal]
    constructor
    · intro hex
      obtain ⟨s', hs', hp, heq⟩ := hex
      cases heq
      exact ⟨hnone, hs', hp⟩
    · exact fun hs => ⟨s, hs.2.1, hs.2.2, rfl⟩

/-! ## Links that take a host for their end -/

omit hl hreal in
theorem resolves_swap : Resolves topo ⟨l.dst, l.src⟩ u v ↔ Resolves topo l u v := by
  unfold Resolves
  tauto

theorem stray_end (hends : ¬ r.LeadsHome l.src l.dst) :
    ∃ h ∈ r.hosts, ∃ n, Resolves topo l (.host h) n ∧ ¬ r.Home h n := by
  unfold Reported.LeadsHome at hends
  rw [Classical.not_imp] at hends
  obtain ⟨hport, haway⟩ := hends
  obtain ⟨h, hh, hhport, hsrc⟩ := port_to_node_host hl hreal hport
  by_cases hdst : r.HostPort l.dst
  · obtain ⟨h', _, _, hdst⟩ := port_to_node_host hl hreal hdst
    refine ⟨h, hh, .host h', Or.inl ⟨hsrc, hdst⟩, fun hhome => ?_⟩
    obtain ⟨s, _, heq, _⟩ := hhome
    cases heq
  · have hswitch : r.SwitchPort l.dst ∧ l.dst.dpid ≠ l.src.dpid := by
      by_contra hnot
      exact haway ⟨hdst, fun hswitch => by_contra fun hne => hnot ⟨hswitch, hne⟩⟩
    obtain ⟨⟨s, hs, hp⟩, hne⟩ := hswitch
    refine ⟨h, hh, .switch s, Or.inl ⟨hsrc, (port_to_node_switch hl hreal).mpr ⟨hdst, hs, hp⟩⟩, fun hhome => ?_⟩
    obtain ⟨s', _, heq, hd⟩ := hhome
    cases heq
    exact hne (by rw [r.own s hs _ hp, hd, hhport])

theorem stray_link (hends : ¬ (r.LeadsHome l.src l.dst ∧ r.LeadsHome l.dst l.src)) :
    ∃ h ∈ r.hosts, ∃ n, Resolves topo l (.host h) n ∧ ¬ r.Home h n := by
  by_cases hsrc : r.LeadsHome l.src l.dst
  · obtain ⟨h, hh, n, hres, hnot⟩ := @stray_end nx r topo ⟨l.dst, l.src⟩ hl hreal fun hdst => hends ⟨hsrc, hdst⟩
    exact ⟨h, hh, n, resolves_swap.mp hres, hnot⟩
  · exact stray_end hl hreal hsrc

/-! ## Links that lead home -/

theorem resolves_iff_joins (hsrc : r.LeadsHome l.src l.dst)
    (hdst : r.LeadsHome l.dst l.src) (hs : s ∈ r.switches) (hs' : s' ∈ r.switches) (hne : s ≠ s') :
    Resolves topo l (.switch s) (.switch s') ↔ joinsPair s s' l = true := by
  -- a host at one end would keep the other end at its switch
  have hends : ∀ {p q : Port}, r.LeadsHome p q → ∀ {s s' : Switch}, s ∈ r.switches → s' ∈ r.switches → s ≠ s' →
      p ∈ s.ports → q ∈ s'.ports → ¬ r.HostPort p := by
    intro p q hhome s s' hs hs' hne hp hq hport
    have hd := (hhome hport).2 ⟨s', hs', hq⟩
    rw [r.own s hs p hp, r.own s' hs' q hq] at hd
    exact hne (r.one s hs s' hs' hd.symm)
  have hone : ∀ {s s' : Switch}, s ∈ r.switches → s' ∈ r.switches → s ≠ s' →
      (port_to_node nx topo l.src = some (.switch s) ∧ port_to_node nx topo l.dst = some (.switch s') ↔
        l.src ∈ s.ports ∧ l.dst ∈ s'.ports) := by
    intro s s' hs hs' hne
    rw [port_to_node_switch hl hreal, port_to_node_switch hl hreal]
    constructor
    · exact fun hres => ⟨hres.1.2.2, hres.2.2.2⟩
    · exact fun hp => ⟨⟨hends hsrc hs hs' hne hp.1 hp.2, hs, hp.1⟩, hends hdst hs' hs hne.symm hp.2 hp.1, hs', hp.2⟩
  unfold Resolves joinsPair
  rw [decide_eq_true_eq, hone hs hs' hne, hone hs' hs hne.symm]

theorem home_of_resolves (hsrc : r.LeadsHome l.src l.dst)
    (hdst : r.LeadsHome l.dst l.src) (hres : Resolves topo l (.host h) n) : r.Home h n := by
  have hend : ∀ {p q : Port}, r.LeadsHome p q → port_to_node nx topo p = some (.host h) → port_to_node nx topo q = some n →
      r.Home h n := by
    intro p q hhome hp hq
    rcases port_to_node_cases hl hreal p with ⟨h', hh', hport, hfound⟩ | ⟨_, hfound⟩
    · rw [hp] at hfound
      cases hfound
      obtain ⟨hnone, hhere⟩ := hhome ⟨h, hh', hport⟩
      rcases port_to_node_cases hl hreal q with ⟨h', hh', hport', _⟩ | ⟨_, hfound⟩
      · exact absurd ⟨h', hh', hport'⟩ hnone
      · rw [hq] at hfound
        obtain ⟨s, hs, hqs, rfl⟩ := (switch_of_ports hl hreal).mp hfound.symm
        exact ⟨s, hs, rfl, by rw [← r.own s hs q hqs, hhere ⟨s, hs, hqs⟩, hport]⟩
    · rw [hp] at hfound
      obtain ⟨s, _, _, heq⟩ := (switch_of_ports hl hreal).mp hfound.symm
      cases heq
  rcases hres with ⟨hp, hq⟩ | ⟨hq, hp⟩
  · exact hend hsrc hp hq
  · exact hend hdst hp hq

end

/-! ## The whole graph -/

theorem home_ne_noNode (hreal : .noNode ∉ nx.nodes (r.topo nx)) (hh : h ∈ r.hosts) : r.home h ≠ .noNode :=
  fun hnone => hreal (mem_noNode.mpr ⟨h, hh, hnone⟩)

theorem mirrors_of_showable (hshow : r.Showable) : Mirrors r (r.topo nx) := by
  have hl := lists_topo nx r
  have hreal : .noNode ∉ nx.nodes (r.topo nx) := by
    rw [mem_noNode]
    intro hex
    obtain ⟨h, hh, hnone⟩ := hex
    obtain ⟨s, hs, hd⟩ := hshow.homes h hh
    rw [Reported.home_eq_switch.mpr ⟨hs, hd⟩] at hnone
    cases hnone
  have hjoins : ∀ l ∈ r.links, ∀ s ∈ r.switches, ∀ s' ∈ r.switches, s ≠ s' →
      (Resolves (r.topo nx) l (.switch s) (.switch s') ↔ joinsPair s s' l = true) := fun l hmem s hs s' hs' hne =>
    resolves_iff_joins hl hreal (hshow.ends l hmem).1 (hshow.ends l hmem).2 hs hs' hne
  refine ⟨fun n => ?_, fun h hh n => ?_, fun s hs s' hs' hne => ?_, fun s hs s' hs' hne record hrec => ?_⟩
  · by_cases hn : n = .noNode
    · subst hn
      exact iff_of_false hreal (by simp [Reported.nodes])
    · exact hl n hn
  · rw [joined_topo]
    constructor
    · intro hjoined
      rcases hjoined with ⟨l, hmem, hres⟩ | ⟨g, _, hends⟩
      · exact home_of_resolves hl hreal (hshow.ends l hmem).1 (hshow.ends l hmem).2 hres
      · exact (Reported.home_iff (home_ne_noNode hreal hh)).mpr (Reported.attaches_host.mp hends).2
    · intro hhome
      have hn := (Reported.home_iff (home_ne_noNode hreal hh)).mp hhome
      exact Or.inr ⟨h, hh, Reported.attaches_host.mpr ⟨rfl, hn⟩⟩
  · rw [joined_topo]
    constructor
    · intro hjoined
      rcases hjoined with ⟨l, hmem, hres⟩ | ⟨g, _, hends⟩
      · exact ⟨l, hmem, (hjoins l hmem s hs s' hs' hne).mp hres⟩
      · exact absurd hends Reported.not_attaches_switches
    · intro hex
      obtain ⟨l, hmem, hj⟩ := hex
      exact Or.inl ⟨l, hmem, (hjoins l hmem s hs s' hs' hne).mpr hj⟩
  · rw [edge_topo] at hrec
    cases hlast : lastLink (r.topo nx) r.links (.switch s) (.switch s') with
    | none =>
      rw [hlast] at hrec
      obtain ⟨g, _, hends, _⟩ := attachment_some hrec
      exact absurd hends Reported.not_attaches_switches
    | some l =>
      rw [hlast] at hrec
      cases hrec
      obtain ⟨hmem, hres⟩ := lastLink_some hlast
      exact ⟨l, hmem, (hjoins l hmem s hs s' hs' hne).mp hres, rfl⟩

theorem showable_of_mirrors (hm : Mirrors r (r.topo nx)) : r.Showable := by
  have hreal : .noNode ∉ nx.nodes (r.topo nx) := by
    rw [hm.nodes]
    simp [Reported.nodes]
  refine ⟨fun h hh => ?_, fun l hmem => ?_⟩
  · rcases r.home_cases h with ⟨s, hs⟩ | hnone
    · exact ⟨s, Reported.home_eq_switch.mp hs⟩
    · exact absurd hnone (home_ne_noNode hreal hh)
  · by_contra hends
    obtain ⟨h, hh, n, hres, hnot⟩ := stray_link (lists_topo nx r) hreal hends
    exact hnot ((hm.hosts h hh n).mp (joined_topo.mpr (Or.inl ⟨l, hmem, hres⟩)))

end

/-- **The graph is that of the report exactly when** the switch of every host is
listed, and no link that ends where a host is leads to a host or to a port of
another switch. -/
theorem report_mirrored_iff (nx : TopoGraph) (r : Reported) : Mirrors r (r.topo nx) ↔ r.Showable := by
  constructor
  · exact showable_of_mirrors
  · exact mirrors_of_showable

/-! ### A graph class to compute with -/

def sampleNx : TopoGraph := fnMultiGraph TopoNode (Option LinkDict) _

/-- Two linked switches, and a host that is listed at the first one's end of the link. -/
def crossedNet : Reported where
  switches := [⟨⟨1, "10.0.0.1"⟩, [⟨1, 1⟩]⟩, ⟨⟨2, "10.0.0.1"⟩, [⟨2, 1⟩]⟩]
  links := [⟨⟨1, 1⟩, ⟨2, 1⟩⟩]
  hosts := [⟨asciiText "00:00:00:00:00:0b", ⟨1, 1⟩, [[10, 0, 0, 2]]⟩]
  one := by decide
  own := by decide

/-- The link joins the host to the second switch. -/
theorem host_takes_link : (∃ h ∈ crossedNet.hosts, ∃ s ∈ crossedNet.switches, s.dp.id ≠ h.port.dpid ∧
      Joined (crossedNet.topo sampleNx) (.host h) (.switch s)) ∧
    ¬ Mirrors crossedNet (crossedNet.topo sampleNx) := by
  have hstray : Joined (crossedNet.topo sampleNx) (.host ⟨asciiText "00:00:00:00:00:0b", ⟨1, 1⟩, [[10, 0, 0, 2]]⟩)
      (.switch ⟨⟨2, "10.0.0.1"⟩, [⟨2, 1⟩]⟩) := by decide +kernel
  refine ⟨⟨_, by decide, _, by decide, by decide, hstray⟩, fun hm => ?_⟩
  obtain ⟨s, _, heq, hd⟩ := (hm.hosts _ (by decide) _).mp hstray
  cases heq
  exact absurd hd (by decide)

end RyuNet

end VnfDockerNet
