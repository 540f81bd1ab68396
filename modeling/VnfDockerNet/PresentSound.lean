import VnfDockerNet.L2Topology
import VnfDockerNet.Lib.FnGraph
import VnfDockerNet.Lib.Runs

/-!
# When the topology shows the present switches

A departure never matches a switch, since the table holds texts; switch 3 makes
`addSwitches` raise; and nothing takes an address out of the table. So the graph
and the table are right exactly in the runs that never need any of these.
-/

namespace VnfDockerNet

open Python Networkx Runs

open RyuNet (dpid_to_str)

namespace L2Topology

/-! ## What has been reported -/

/-- The present switches with the addresses of their ports, and the switch that
each host was last reported at. -/
structure Present where
  ports : Nat → Option (List HwAddr)
  home : HwAddr → Option Nat

def Present.nobody : Present := ⟨fun _ => none, fun _ => none⟩

def Switch.addrs (s : Switch) : List HwAddr := s.ports.map Port.hw_addr

def noteSwitch (p : Present) (s : Switch) : Present :=
  { p with ports := fun d => if d = s.dpid then some s.addrs else p.ports d }

def noteHost (p : Present) (h : Host) : Present :=
  { p with home := fun m => if m = h.mac then some h.port.dpid else p.home m }

def noteLeave (p : Present) (dpid : Nat) : Present :=
  { p with ports := fun d => if d = dpid then none else p.ports d }

def note (p : Present) : Call → Present
  | .addSwitches items => items.foldl noteSwitch p
  | .addWindowSwitches items => items.foldl noteSwitch p
  | .addLinks _ => p
  | .addHosts items => items.foldl noteHost p
  | .removeNode dpid => noteLeave p dpid

/-- The address is that of a port of a present switch, or of a host attached to one. -/
def Placed (p : Present) (hw : HwAddr) : Prop :=
  (∃ d addrs, p.ports d = some addrs ∧ hw ∈ addrs) ∨ ∃ d, p.home hw = some d ∧ (p.ports d).isSome = true

variable (nx : AttrDiGraph Name NodeAttr Info)

def isSwitch (net : nx.Graph) (n : Name) : Prop :=
  (nx.node net n).bind NodeAttr.type ∈ [some NodeType.switch, some NodeType.wswitch]

instance (net : nx.Graph) (n : Name) : Decidable (isSwitch nx net n) :=
  inferInstanceAs (Decidable (_ ∈ [some NodeType.switch, some NodeType.wswitch]))

/-- The graph shows the present switches, and the table has their addresses. -/
structure Mirrors (t : Topo nx.Graph) (p : Present) : Prop where
  switches : ∀ n, isSwitch nx t.net n ↔ ∃ d, n = .text (dpid_to_str d) ∧ (p.ports d).isSome = true
  entries : ∀ hw, hw ∈ t.mac_to_port ↔ Placed p hw

/-! ## What a call needs -/

/-- The addresses that are known once `h` has been reported. -/
def knownAfter (known : HwAddr → Prop) (h : Host) (hw : HwAddr) : Prop :=
  known hw ∨ hw = h.mac ∨ known h.mac ∧ hw = h.port.hw_addr

/-- Every reported host is placed, and so is the port of one that is known when it is reported. -/
def HostsFit (placed : HwAddr → Prop) : (HwAddr → Prop) → List Host → Prop
  | _, [] => True
  | known, h :: items =>
    (placed h.mac ∧ (known h.mac → placed h.port.hw_addr)) ∧ HostsFit placed (knownAfter known h) items

/-- Switch 3 does not come, and every address that a switch of the list had or
has is placed after the call. -/
def SwitchesFit (p : Present) (items : List Switch) : Prop :=
  (∀ s ∈ items, s.dpid ≠ 3) ∧
    ∀ s ∈ items, ∀ hw, hw ∈ s.addrs ∨ hw ∈ (p.ports s.dpid).getD [] → Placed (items.foldl noteSwitch p) hw

/-- The switch that leaves is not there. -/
def Fits (p : Present) : Call → Prop
  | .addSwitches items => SwitchesFit p items
  | .addWindowSwitches items => SwitchesFit p items
  | .addLinks _ => True
  | .addHosts items => HostsFit (Placed (items.foldl noteHost p)) (Placed p) items
  | .removeNode dpid => p.ports dpid = none

/-! ## The record after a call -/

theorem ports_noteSwitches (d : Nat) : ∀ (items : List Switch) (p : Present),
    (∃ s ∈ items, s.dpid = d ∧ (items.foldl noteSwitch p).ports d = some s.addrs) ∨
      (∀ s ∈ items, s.dpid ≠ d) ∧ (items.foldl noteSwitch p).ports d = p.ports d
  | [], _ => Or.inr ⟨fun _ hs => absurd hs List.not_mem_nil, rfl⟩
  | s :: items, p => by
    rw [List.foldl_cons]
    rcases ports_noteSwitches d items (noteSwitch p s) with ⟨s', hs', hd, hports⟩ | ⟨hnone, hports⟩
    · exact Or.inl ⟨s', List.mem_cons_of_mem s hs', hd, hports⟩
    · rw [hports]
      by_cases hd : d = s.dpid
      · exact Or.inl ⟨s, List.mem_cons_self, hd.symm, if_pos hd⟩
      · refine Or.inr ⟨fun s' hs' => ?_, if_neg hd⟩
        rcases List.mem_cons.mp hs' with rfl | hs'
        · exact Ne.symm hd
        · exact hnone s' hs'

theorem home_noteSwitches : ∀ (items : List Switch) (p : Present), (items.foldl noteSwitch p).home = p.home
  | [], _ => rfl
  | s :: items, p => home_noteSwitches items (noteSwitch p s)

theorem isSome_ports_noteSwitches {items : List Switch} {p : Present} {d : Nat} :
    ((items.foldl noteSwitch p).ports d).isSome = true ↔ (p.ports d).isSome = true ∨ ∃ s ∈ items, s.dpid = d := by
  rcases ports_noteSwitches d items p with ⟨s, hs, hd, hports⟩ | ⟨hnone, hports⟩
  · rw [hports]
    exact ⟨fun _ => Or.inr ⟨s, hs, hd⟩, fun _ => rfl⟩
  · rw [hports]
    refine ⟨Or.inl, fun h => ?_⟩
    rcases h with h | ⟨s, hs, hd⟩
    · exact h
    · exact absurd hd (hnone s hs)

theorem SwitchesFit.placed {items : List Switch} {p : Present} {hw : HwAddr} (hfit : SwitchesFit p items)
    (h : Placed p hw ∨ ∃ s ∈ items, hw ∈ s.addrs) : Placed (items.foldl noteSwitch p) hw := by
  rcases h with (⟨d, addrs, hd, hmem⟩ | ⟨d, hhome, hd⟩) | ⟨s, hs, hnew⟩
  · rcases ports_noteSwitches d items p with ⟨s, hs, rfl, _⟩ | ⟨_, hports⟩
    · exact hfit.2 s hs hw (Or.inr (by rw [hd]; exact hmem))
    · exact Or.inl ⟨d, addrs, hports.trans hd, hmem⟩
  · refine Or.inr ⟨d, ?_, isSome_ports_noteSwitches.mpr (Or.inl hd)⟩
    rw [home_noteSwitches]
    exact hhome
  · exact hfit.2 s hs hw (Or.inl hnew)

theorem of_placed_noteSwitches {items : List Switch} {p : Present} {hw : HwAddr}
    (h : Placed (items.foldl noteSwitch p) hw) :
    (Placed p hw ∨ ∃ s ∈ items, hw ∈ s.addrs) ∨ ∃ d, p.home hw = some d := by
  rcases h with ⟨d, addrs, hd, hmem⟩ | ⟨d, hhome, _⟩
  · rcases ports_noteSwitches d items p with ⟨s, hs, _, hports⟩ | ⟨_, hports⟩
    · rw [hports] at hd
      cases hd
      exact Or.inl (Or.inr ⟨s, hs, hmem⟩)
    · exact Or.inl (Or.inl (Or.inl ⟨d, addrs, hports.symm.trans hd, hmem⟩))
  · rw [home_noteSwitches] at hhome
    exact Or.inr ⟨d, hhome⟩

theorem ports_noteHosts : ∀ (items : List Host) (p : Present), (items.foldl noteHost p).ports = p.ports
  | [], _ => rfl
  | h :: items, p => ports_noteHosts items (noteHost p h)

theorem home_noteHosts (m : HwAddr) : ∀ (items : List Host) (p : Present),
    (∃ h ∈ items, h.mac = m) ∨ (items.foldl noteHost p).home m = p.home m
  | [], _ => Or.inr rfl
  | h :: items, p => by
    rw [List.foldl_cons]
    rcases home_noteHosts m items (noteHost p h) with ⟨h', hh', hm⟩ | hhome
    · exact Or.inl ⟨h', List.mem_cons_of_mem h hh', hm⟩
    · by_cases hm : m = h.mac
      · exact Or.inl ⟨h, List.mem_cons_self, hm.symm⟩
      · exact Or.inr (hhome.trans (if_neg hm))

/-! ## The graph and the table after a call -/

theorem colon_notMem (d : Nat) : ':' ∉ dpid_to_str d := notMem_hexText (by decide) 16 d

theorem dpid_to_str_eq_three {d : Nat} : dpid_to_str d = "0000000000000003".toList ↔ d = 3 := by
  have hthree : dpid_to_str 3 = "0000000000000003".toList := by decide
  rw [← hthree]
  exact ⟨fun h => hexText_injective h, fun h => h ▸ rfl⟩

section
variable {nx} {t t' : Topo nx.Graph} {p : Present} {E : Exn → Topo nx.Graph → Prop}

theorem isSwitch_add_edge {g : nx.Graph} {u v n : Name} {f : Info → Info} :
    isSwitch nx (nx.add_edge g u v f) n ↔ isSwitch nx g n := by
  unfold isSwitch
  rw [nx.node_add_edge]
  split
  · cases nx.node g n with
    | none => exact Iff.rfl
    | some attr => exact Iff.rfl
  · exact Iff.rfl

theorem isSwitch_add_switch {g : nx.Graph} {m n : Name} {node_type : NodeType} (ht : node_type ≠ .host)
    {ports : Option (List (List Char))} :
    isSwitch nx (nx.add_node g m fun attr => { attr with type := some node_type, ports }) n ↔
      isSwitch nx g n ∨ n = m := by
  unfold isSwitch
  rw [nx.node_add_node]
  by_cases hn : n = m
  · rw [if_pos hn]
    refine ⟨fun _ => Or.inr hn, fun _ => ?_⟩
    cases node_type with
    | switch => exact List.mem_cons_self
    | wswitch => exact List.mem_cons_of_mem _ List.mem_cons_self
    | host => exact absurd rfl ht
  · rw [if_neg hn]
    exact ⟨Or.inl, fun h => h.resolve_right hn⟩

theorem isSwitch_add_host {g : nx.Graph} {m n : Name} {dt : HostDict} (hm : ¬ isSwitch nx g m) :
    isSwitch nx (nx.add_node g m fun attr => { attr with type := some .host, dt := some dt }) n ↔ isSwitch nx g n := by
  by_cases hn : n = m
  · subst hn
    refine ⟨fun h => ?_, fun h => absurd h hm⟩
    unfold isSwitch at h
    rw [nx.node_add_node, if_pos rfl] at h
    rcases List.mem_cons.mp h with h | h
    · cases h
    · cases List.mem_singleton.mp h
  · unfold isSwitch
    rw [nx.node_add_node, if_neg hn]

theorem mem_insertPorts {hw : HwAddr} : ∀ (ports : List PortDict) (table : Dict HwAddr PortDict),
    hw ∈ ports.foldl (fun table port => table.insert port.hw_addr port) table ↔
      hw ∈ table ∨ hw ∈ ports.map PortDict.hw_addr
  | [], table => by rw [List.foldl_nil, List.map_nil, or_iff_left List.not_mem_nil]
  | port :: ports, table => by
    rw [List.foldl_cons, mem_insertPorts ports, AList.mem_insert, List.map_cons, List.mem_cons, or_assoc,
      or_left_comm]

theorem addrs_to_dict (s : Switch) : s.to_dict.ports.map PortDict.hw_addr = s.addrs := by
  unfold Switch.to_dict Switch.addrs
  rw [List.map_map]
  rfl

/-- `names` became switches, and `addrs` came into the table. -/
structure Grown (names : Name → Prop) (addrs : HwAddr → Prop) (t t' : Topo nx.Graph) : Prop where
  switches : ∀ n, isSwitch nx t'.net n ↔ isSwitch nx t.net n ∨ names n
  entries : ∀ hw, hw ∈ t'.mac_to_port ↔ hw ∈ t.mac_to_port ∨ addrs hw

theorem wp_addSwitch {node_type : NodeType} (ht : node_type ≠ .host) {s : Switch} (hs : s.dpid ≠ 3) :
    wp (addSwitch nx node_type s.to_dict) t
      (fun _ => Grown (· = .text (dpid_to_str s.dpid)) (· ∈ s.addrs) t) E := by
  unfold addSwitch
  have hthree : s.to_dict.dpid ≠ "0000000000000003".toList := fun h => hs (dpid_to_str_eq_three.mp h)
  rw [if_neg hthree]
  simp only [wp_bind, wp_modify, wp_pure]
  refine ⟨fun n => isSwitch_add_switch ht, fun hw => ?_⟩
  rw [mem_insertPorts, addrs_to_dict]

theorem wp_addSwitchesAs {node_type : NodeType} (ht : node_type ≠ .host) :
    ∀ (items : List Switch) (t : Topo nx.Graph), (∀ s ∈ items, s.dpid ≠ 3) →
      wp (addSwitchesAs nx node_type items) t (fun _ => Grown (fun n => ∃ s ∈ items, n = .text (dpid_to_str s.dpid))
        (fun hw => ∃ s ∈ items, hw ∈ s.addrs) t) E
  | [], t, _ => by
    refine ⟨fun n => (or_iff_left ?_).symm, fun hw => (or_iff_left ?_).symm⟩
    all_goals simp
  | s :: items, t, hitems => by
    obtain ⟨hs, hitems⟩ := List.forall_mem_cons.mp hitems
    unfold addSwitchesAs
    rw [wp_bind]
    refine wp_mono (wp_addSwitch ht hs) (fun _ t₁ hone => ?_) fun _ _ he => he
    refine wp_mono (wp_addSwitchesAs ht items t₁ hitems) (fun _ t' hrest => ?_) fun _ _ he => he
    constructor
    · intro n
      rw [hrest.switches, hone.switches, or_assoc, List.exists_mem_cons_iff]
    · intro hw
      rw [hrest.entries, hone.entries, or_assoc, List.exists_mem_cons_iff]

theorem raises_addSwitchesAs {node_type : NodeType} (ht : node_type ≠ .host) :
    ∀ (items : List Switch) (t : Topo nx.Graph), (∃ s ∈ items, s.dpid = 3) →
      Raises (addSwitchesAs nx node_type items) t fun _ => True
  | [], _, h => by
    obtain ⟨_, hs, _⟩ := h
    exact absurd hs List.not_mem_nil
  | s :: items, t, h => by
    unfold Raises addSwitchesAs
    rw [wp_bind]
    by_cases hs : s.dpid = 3
    · have hthree : s.to_dict.dpid = "0000000000000003".toList := dpid_to_str_eq_three.mpr hs
      unfold addSwitch
      rw [if_pos hthree]
      exact trivial
    · have hrest : ∃ s ∈ items, s.dpid = 3 := by
        rw [List.exists_mem_cons_iff] at h
        rcases h with hd | hrest
        · exact absurd hd hs
        · exact hrest
      exact wp_mono (wp_addSwitch ht hs) (fun _ t₁ _ => raises_addSwitchesAs ht items t₁ hrest) fun _ _ he => he

theorem wp_addLinks : ∀ (items : List LinkDict) (t : Topo nx.Graph),
    wp (addLinks nx items) t (fun _ t' => (∀ n, isSwitch nx t'.net n ↔ isSwitch nx t.net n) ∧
      t'.mac_to_port = t.mac_to_port) E
  | [], _ => ⟨fun _ => Iff.rfl, rfl⟩
  | l :: items, t => by
    unfold addLinks
    rw [wp_bind, wp_modify]
    refine wp_mono (wp_addLinks items _) (fun _ t' h => ?_) fun _ _ he => he
    exact ⟨fun n => (h.1 n).trans isSwitch_add_edge, h.2⟩

theorem wp_removeNode_number {Q : Unit → Topo nx.Graph → Prop} (dpid : Nat) :
    wp (removeNode nx (.number dpid)) t Q E ↔ Q () t := by
  unfold removeNode
  rw [wp_bind, wp_get]
  dsimp only
  have hnone : (t.mac_to_port.keys.filter fun hw =>
      (t.mac_to_port.get hw).map (fun port => Name.text port.dpid) = some (.number dpid)) = [] := by
    refine List.filter_eq_nil_iff.mpr fun hw _ h => ?_
    obtain ⟨_, _, hname⟩ := Option.map_eq_some_iff.mp (of_decide_eq_true h)
    cases hname
  rw [hnone]
  exact Iff.rfl

theorem wp_addHost (hcolon : ∀ m : HwAddr, ¬ isSwitch nx t.net (.text m.val)) (h : Host) :
    wp (addHost nx h.mac h.to_dict) t (fun _ t' => (∀ n, isSwitch nx t'.net n ↔ isSwitch nx t.net n) ∧
      ∀ hw, hw ∈ t'.mac_to_port ↔ knownAfter (· ∈ t.mac_to_port) h hw) E := by
  unfold addHost knownAfter
  rw [wp_bind, wp_get]
  cases hget : t.mac_to_port.get h.mac with
  | some known =>
    have hmem : h.mac ∈ t.mac_to_port := Dict.mem_iff_get.mpr ⟨known, hget⟩
    simp only [wp_modify]
    refine ⟨fun n => isSwitch_add_edge, fun hw => ?_⟩
    rw [AList.mem_insert]
    constructor
    · rintro (hport | hin)
      · exact Or.inr (Or.inr ⟨hmem, hport⟩)
      · exact Or.inl hin
    · rintro (hin | rfl | ⟨_, hport⟩)
      · exact Or.inr hin
      · exact Or.inr hmem
      · exact Or.inl hport
  | none =>
    have hmem : h.mac ∉ t.mac_to_port := Dict.get_eq_none.mp hget
    simp only [wp_bind, wp_modify]
    refine ⟨fun n => isSwitch_add_edge.trans (isSwitch_add_host (hcolon h.mac)), fun hw => ?_⟩
    rw [AList.mem_insert, or_iff_left fun hport : _ ∧ _ => hmem hport.1, or_comm]

theorem forall_knownAfter {placed known : HwAddr → Prop} {h : Host} :
    (∀ hw, knownAfter known h hw → placed hw) ↔
      (∀ hw, known hw → placed hw) ∧ placed h.mac ∧ (known h.mac → placed h.port.hw_addr) := by
  constructor
  · intro hall
    exact ⟨fun hw hin => hall hw (Or.inl hin), hall _ (Or.inr (Or.inl rfl)),
      fun hk => hall _ (Or.inr (Or.inr ⟨hk, rfl⟩))⟩
  · rintro ⟨hall, hmac, hport⟩ hw (hin | rfl | ⟨hk, rfl⟩)
    · exact hall hw hin
    · exact hmac
    · exact hport hk

theorem HostsFit.placed {placed : HwAddr → Prop} : ∀ {items : List Host} {known : HwAddr → Prop},
    HostsFit placed known items → ∀ h ∈ items, placed h.mac
  | [], _, _, _, hmem => absurd hmem List.not_mem_nil
  | h :: items, _, hfit, h', hmem => by
    rcases List.mem_cons.mp hmem with rfl | hmem
    · exact hfit.1.1
    · exact HostsFit.placed hfit.2 h' hmem

/-- What `addHosts` leaves. -/
structure HostsAdded (placed : HwAddr → Prop) (items : List Host) (t t' : Topo nx.Graph) : Prop where
  switches : ∀ n, isSwitch nx t'.net n ↔ isSwitch nx t.net n
  kept : ∀ hw ∈ t.mac_to_port, hw ∈ t'.mac_to_port
  listed : ∀ h ∈ items, h.mac ∈ t'.mac_to_port
  fit : (∀ hw ∈ t'.mac_to_port, placed hw) ↔
    (∀ hw ∈ t.mac_to_port, placed hw) ∧ HostsFit placed (· ∈ t.mac_to_port) items

theorem wp_addHosts (placed : HwAddr → Prop) : ∀ (items : List Host) (t : Topo nx.Graph),
    (∀ m : HwAddr, ¬ isSwitch nx t.net (.text m.val)) →
      wp (addHosts nx (items.map Host.to_dict)) t (fun _ => HostsAdded placed items t) E
  | [], t, _ => ⟨fun _ => Iff.rfl, fun _ hw => hw, fun _ h => absurd h List.not_mem_nil, (and_iff_left trivial).symm⟩
  | h :: items, t, hcolon => by
    rw [List.map_cons]
    unfold addHosts
    rw [wp_bind]
    refine wp_mono (wp_addHost hcolon h) (fun _ t₁ hone => ?_) fun _ _ he => he
    obtain ⟨hsame, hentries⟩ := hone
    have hcolon' : ∀ m : HwAddr, ¬ isSwitch nx t₁.net (.text m.val) := fun m hm => hcolon m ((hsame _).mp hm)
    refine wp_mono (wp_addHosts placed items t₁ hcolon') (fun _ t' hrest => ?_) fun _ _ he => he
    refine ⟨fun n => (hrest.switches n).trans (hsame n), fun hw hhw => ?_, fun h' hh' => ?_, ?_⟩
    · exact hrest.kept hw ((hentries hw).mpr (Or.inl hhw))
    · rcases List.mem_cons.mp hh' with rfl | hh'
      · exact hrest.kept _ ((hentries _).mpr (Or.inr (Or.inl rfl)))
      · exact hrest.listed h' hh'
    · have hknown : (· ∈ t₁.mac_to_port) = knownAfter (· ∈ t.mac_to_port) h := funext fun hw => propext (hentries hw)
      have hall : (∀ hw ∈ t₁.mac_to_port, placed hw) ↔ ∀ hw, knownAfter (· ∈ t.mac_to_port) h hw → placed hw :=
        forall_congr' fun hw => imp_congr_left (hentries hw)
      rw [hrest.fit, hknown, hall, forall_knownAfter, and_assoc]
      rfl

/-! ## One call -/

structure Kept (nx : AttrDiGraph Name NodeAttr Info) (t : Topo nx.Graph) (p : Present) : Prop where
  mirrors : Mirrors nx t p
  homes : ∀ m d, p.home m = some d → m ∈ t.mac_to_port

theorem Mirrors.not_isSwitch_mac (h : Mirrors nx t p) (m : HwAddr) : ¬ isSwitch nx t.net (.text m.val) := by
  intro hm
  obtain ⟨d, hd, _⟩ := (h.switches _).mp hm
  exact colon_notMem d (Name.text.inj hd ▸ m.property)

theorem mirrors_switches {items : List Switch} (h : Kept nx t p) (h3 : ∀ s ∈ items, s.dpid ≠ 3)
    (hadded : Grown (fun n => ∃ s ∈ items, n = .text (dpid_to_str s.dpid)) (fun hw => ∃ s ∈ items, hw ∈ s.addrs) t t') :
    Mirrors nx t' (items.foldl noteSwitch p) ↔ SwitchesFit p items := by
  constructor
  · intro hm
    refine ⟨h3, fun s hs hw hhw => (hm.entries hw).mp ((hadded.entries hw).mpr ?_)⟩
    rcases hhw with hnew | hold
    · exact Or.inr ⟨s, hs, hnew⟩
    · cases hports : p.ports s.dpid with
      | none =>
        rw [hports] at hold
        exact absurd hold List.not_mem_nil
      | some addrs =>
        rw [hports] at hold
        exact Or.inl ((h.mirrors.entries hw).mpr (Or.inl ⟨s.dpid, addrs, hports, hold⟩))
  · intro hfit
    refine ⟨fun n => ?_, fun hw => ?_⟩
    · rw [hadded.switches, h.mirrors.switches]
      constructor
      · rintro (⟨d, rfl, hd⟩ | ⟨s, hs, rfl⟩)
        · exact ⟨d, rfl, isSome_ports_noteSwitches.mpr (Or.inl hd)⟩
        · exact ⟨s.dpid, rfl, isSome_ports_noteSwitches.mpr (Or.inr ⟨s, hs, rfl⟩)⟩
      · rintro ⟨d, rfl, hd⟩
        rcases isSome_ports_noteSwitches.mp hd with hd | ⟨s, hs, rfl⟩
        · exact Or.inl ⟨d, rfl, hd⟩
        · exact Or.inr ⟨s, hs, rfl⟩
    · rw [hadded.entries, h.mirrors.entries]
      refine ⟨hfit.placed, fun hplaced => ?_⟩
      rcases of_placed_noteSwitches hplaced with hplaced | ⟨d, hhome⟩
      · exact hplaced
      · exact Or.inl ((h.mirrors.entries hw).mp (h.homes hw d hhome))

theorem homes_hosts {placed : HwAddr → Prop} {items : List Host} (h : Kept nx t p)
    (hadded : HostsAdded placed items t t') (m : HwAddr) (d : Nat) (hhome : (items.foldl noteHost p).home m = some d) :
    m ∈ t'.mac_to_port := by
  rcases home_noteHosts m items p with ⟨h', hh', rfl⟩ | hsame
  · exact hadded.listed h' hh'
  · exact hadded.kept m (h.homes m d (hsame.symm.trans hhome))

theorem mirrors_hosts {items : List Host} (h : Kept nx t p)
    (hadded : HostsAdded (Placed (items.foldl noteHost p)) items t t') :
    Mirrors nx t' (items.foldl noteHost p) ↔ HostsFit (Placed (items.foldl noteHost p)) (Placed p) items := by
  have hknown : (· ∈ t.mac_to_port) = Placed p := funext fun hw => propext (h.mirrors.entries hw)
  have hfit := hadded.fit
  rw [hknown] at hfit
  constructor
  · intro hm
    exact (hfit.mp fun hw hin => (hm.entries hw).mp hin).2
  · intro hf
    have hold : ∀ hw ∈ t.mac_to_port, Placed (items.foldl noteHost p) hw := by
      intro hw hin
      rcases (h.mirrors.entries hw).mp hin with ⟨d, addrs, hd, hmem⟩ | ⟨d, hhome, hd⟩
      · exact Or.inl ⟨d, addrs, by rw [ports_noteHosts]; exact hd, hmem⟩
      · rcases home_noteHosts hw items p with ⟨h', hh', rfl⟩ | hsame
        · exact hf.placed h' hh'
        · exact Or.inr ⟨d, hsame.trans hhome, by rw [ports_noteHosts]; exact hd⟩
    refine ⟨fun n => ?_, fun hw => ⟨hfit.mpr ⟨hold, hf⟩ hw, ?_⟩⟩
    · rw [hadded.switches, h.mirrors.switches, ports_noteHosts]
    · rintro (⟨d, addrs, hd, hmem⟩ | ⟨d, hhome, _⟩)
      · rw [ports_noteHosts] at hd
        exact hadded.kept hw ((h.mirrors.entries hw).mpr (Or.inl ⟨d, addrs, hd, hmem⟩))
      · exact homes_hosts h hadded hw d hhome

theorem mirrors_removeNode {dpid : Nat} (h : Kept nx t p) :
    Mirrors nx t (noteLeave p dpid) ↔ p.ports dpid = none := by
  constructor
  · intro hm
    by_contra hne
    have hthere : isSwitch nx t.net (.text (dpid_to_str dpid)) :=
      (h.mirrors.switches _).mpr ⟨dpid, rfl, Option.isSome_iff_ne_none.mpr hne⟩
    obtain ⟨d, hd, hsome⟩ := (hm.switches _).mp hthere
    have hsame : d = dpid := (hexText_injective (Name.text.inj hd)).symm
    have hgone : (noteLeave p dpid).ports d = none := if_pos hsame
    rw [hgone] at hsome
    cases hsome
  · intro hnone
    have hsame : noteLeave p dpid = p := by
      unfold noteLeave
      congr 1
      funext d
      split
      · rename_i hd
        rw [hd, hnone]
      · rfl
    rw [hsame]
    exact h.mirrors

structure Judged (p : Present) (call : Call) (t' : Topo nx.Graph) : Prop where
  homes : ∀ m d, (note p call).home m = some d → m ∈ t'.mac_to_port
  mirrors_iff : Mirrors nx t' (note p call) ↔ Fits p call

theorem wp_addSwitchesAs_fits {node_type : NodeType} (ht : node_type ≠ .host) (h : Kept nx t p) (items : List Switch) :
    wp (addSwitchesAs nx node_type items) t
      (fun _ t' => (∀ m d, (items.foldl noteSwitch p).home m = some d → m ∈ t'.mac_to_port) ∧
        (Mirrors nx t' (items.foldl noteSwitch p) ↔ SwitchesFit p items))
      fun _ _ => ¬ SwitchesFit p items := by
  by_cases h3 : ∀ s ∈ items, s.dpid ≠ 3
  · refine wp_mono (wp_addSwitchesAs ht items t h3) (fun _ t' hadded => ⟨fun m d hhome => ?_, ?_⟩) fun _ _ he => he
    · rw [home_noteSwitches] at hhome
      exact (hadded.entries m).mpr (Or.inl (h.homes m d hhome))
    · exact mirrors_switches h h3 hadded
  · have hthree : ∃ s ∈ items, s.dpid = 3 := by
      push Not at h3
      exact h3
    exact wp_mono (raises_addSwitchesAs ht items t hthree) (fun _ _ hf => hf.elim) fun _ _ _ hfit => h3 hfit.1

theorem wp_run (h : Kept nx t p) (call : Call) :
    wp (run nx call) t (fun _ => Judged p call) fun _ _ => ¬ Fits p call := by
  cases call with
  | addSwitches items =>
    exact wp_mono (wp_addSwitchesAs_fits (by decide) h items) (fun _ _ hj => ⟨hj.1, hj.2⟩) fun _ _ he => he
  | addWindowSwitches items =>
    exact wp_mono (wp_addSwitchesAs_fits (by decide) h items) (fun _ _ hj => ⟨hj.1, hj.2⟩) fun _ _ he => he
  | addLinks items =>
    refine wp_mono (wp_addLinks _ t) (fun _ t' hsame => ?_) fun _ _ he => he
    obtain ⟨hswitches, htable⟩ := hsame
    refine ⟨fun m d hhome => ?_, iff_of_true ⟨fun n => ?_, fun hw => ?_⟩ trivial⟩
    · rw [htable]
      exact h.homes m d hhome
    · exact (hswitches n).trans (h.mirrors.switches n)
    · rw [htable]
      exact h.mirrors.entries hw
  | addHosts items =>
    have hadded := wp_addHosts (E := fun _ _ => ¬ Fits p (.addHosts items)) (Placed (items.foldl noteHost p)) items t
      h.mirrors.not_isSwitch_mac
    exact wp_mono hadded (fun _ t' hadded => ⟨homes_hosts h hadded, mirrors_hosts h hadded⟩) fun _ _ he => he
  | removeNode dpid => exact (wp_removeNode_number dpid).mpr ⟨h.homes, mirrors_removeNode h⟩

theorem kept_init : Kept nx (init nx) .nobody where
  mirrors := by
    refine ⟨fun n => iff_of_false ?_ ?_, fun hw => iff_of_false ?_ ?_⟩
    · unfold isSwitch init
      rw [nx.node_empty]
      decide
    · rintro ⟨_, _, hd⟩
      cases hd
    · exact AList.notMem_empty hw
    · rintro (⟨_, _, hd, _⟩ | ⟨_, hhome, _⟩)
      · cases hd
      · cases hhome
  homes m d h := by cases h

/-- The call returns, and the graph and the table are right after it. -/
def CallMirrors (nx : AttrDiGraph Name NodeAttr Info) (t : Topo nx.Graph) (p : Present) (call : Call) : Prop :=
  wp (run nx call) t (fun _ t' => Mirrors nx t' (note p call)) fun _ _ => False

theorem callMirrors_iff (h : Kept nx t p) (call : Call) : CallMirrors nx t p call ↔ Fits p call := by
  have hrun := wp_run h call
  unfold CallMirrors
  unfold wp at hrun ⊢
  cases hcall : run nx call t with
  | ok _ t' =>
    rw [hcall] at hrun
    exact hrun.mirrors_iff
  | error _ t' =>
    rw [hcall] at hrun
    exact iff_of_false id hrun

theorem Kept.next (h : Kept nx t p) (call : Call) (hgood : CallMirrors nx t p call) :
    Kept nx (step nx t call) (note p call) := by
  have hrun := wp_run h call
  unfold CallMirrors at hgood
  unfold wp at hgood hrun
  unfold step
  cases hcall : run nx call t with
  | ok _ t' =>
    rw [hcall] at hgood hrun
    exact ⟨hgood, hrun.homes⟩
  | error _ t' =>
    rw [hcall] at hgood
    exact hgood.elim

end

/-- **The graph and the table are right after every call exactly when** no present
switch leaves, switch 3 never comes, and every address of a port or a host that is
reported has its place after the call. -/
theorem present_shown_iff (calls : List Call) :
    (∀ before call, before ++ [call] <+: calls →
      CallMirrors nx (before.foldl (step nx) (init nx)) (before.foldl note .nobody) call) ↔
      Allowed note Fits .nobody calls :=
  good_iff_allowed (Kept nx) (CallMirrors nx) (fun _ _ call h => callMirrors_iff h call)
    (fun _ _ call h hgood => h.next call hgood) kept_init

def samplePort : Port := ⟨1, 1, "00:00:00:00:01:01".toList, by decide⟩

/-- The switch is shown after it has left. -/
theorem departed_switch_shown : ¬ ∀ (nx : AttrDiGraph Name NodeAttr Info) (calls : List Call) (before : List Call)
    (call : Call), before ++ [call] <+: calls →
      CallMirrors nx (before.foldl (step nx) (init nx)) (before.foldl note .nobody) call := by
  intro h
  have hmirrors := h (fnAttrDiGraph Name NodeAttr Info) [.addSwitches [⟨1, [samplePort]⟩], .removeNode 1]
    [.addSwitches [⟨1, [samplePort]⟩]] (.removeNode 1) (List.prefix_refl _)
  have hgone := (wp_removeNode_number 1).mp hmirrors
  obtain ⟨d, hd, hsome⟩ := (hgone.switches (.text (dpid_to_str 1))).mp (by decide +kernel)
  cases hexText_injective (Name.text.inj hd)
  cases hsome

end L2Topology

end VnfDockerNet
