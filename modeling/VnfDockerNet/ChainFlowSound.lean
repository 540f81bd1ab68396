import VnfDockerNet.ChainSound
import VnfDockerNet.Lib.Forwarding

/-!
# The rules of a service chain

The rules match on the two addresses only, so a switch has one port for all the
visits of a packet. A middlebox that sends the packet back gets it again, and
again.
-/

namespace VnfDockerNet

open Python Networkx Forwarding

namespace RyuNet

variable {nx : TopoGraph}

/-! ## Journeys -/

inductive Place where
  | switch (dpid : Nat)
  | host (h : Host)
  deriving DecidableEq, Repr

/-- Where the ports of the switches lead, and where the hosts are attached. -/
structure Cabling where
  peer : Nat → Nat → Option Place
  attach : Host → Nat
  delivers : ∀ dpid port h, peer dpid port = some (.host h) → attach h = dpid

def dpidOf : Place → Option Nat
  | .switch dpid => some dpid
  | .host _ => none

def flowRules (ipv4_src ipv4_dst : Bytes) (switch_out : List (Nat × SwitchMsg)) : List (Nat × List OFPActionOutput) :=
  switch_out.filterMap fun x =>
    match x.2 with
    | .FlowMod _ priority rule actions =>
      if priority = 1 ∧ rule = [.eth_type 0x800, .ipv4_dst ipv4_dst, .ipv4_src ipv4_src] then some (x.1, actions)
      else none
    | _ => none

def flowTable (ipv4_src ipv4_dst : Bytes) (msg : PacketIn) (actions : List Action) : Nat → Option (List OFPActionOutput) :=
  installAll (fun _ => none) (flowRules ipv4_src ipv4_dst (actions.flatMap (send_flow ipv4_dst ipv4_src msg)))

/-- A switch sends a packet out of the ports of its rule, and a waypoint sends it
back to the switch it is attached to. -/
def Sends (w : Cabling) (T : Nat → Option (List OFPActionOutput)) (waypoints : List Host) : Place → Place → Prop
  | .switch dpid, next => ∃ actions, T dpid = some actions ∧ ∃ a ∈ actions, w.peer dpid a.port = some next
  | .host h, next => h ∈ waypoints ∧ next = .switch (w.attach h)

/-- The journey passes the hosts in order; one visit counts for several of them. -/
def Passes : List Place → List Host → Prop
  | _, [] => True
  | [], _ :: _ => False
  | p :: rest, h :: hosts => (p = .host h ∧ Passes (p :: rest) hosts) ∨ Passes rest (h :: hosts)
  termination_by journey hosts => journey.length + hosts.length

/-- A packet that enters at the first switch goes through the switches of the
actions, passes the waypoints in order and ends at the destination. -/
def RealisesChain (nx : TopoGraph) (topo : nx.Graph) (w : Cabling) (ipv4_src dst : Bytes)
    (via : List Bytes) (msg : PacketIn) (actions : List Action) : Prop :=
  ∃ waypoints h first journey,
    List.Forall₂ (fun ip h => keys_to_node nx topo (.ipv4 ip) = some (.host h)) via waypoints ∧
    keys_to_node nx topo (.ipv4 dst) = some (.host h) ∧ (actions.map fun a => a.datapath.id).head? = some first ∧
    IsPath (Sends w (flowTable ipv4_src dst msg actions) waypoints) (.switch first) (.host h) journey ∧
    journey.filterMap dpidOf = actions.map (fun a => a.datapath.id) ∧ Passes journey waypoints

/-! ## A waypoint keeps the packet -/

theorem mem_of_passes : ∀ {journey : List Place} {hosts : List Host}, Passes journey hosts →
    ∀ h ∈ hosts, Place.host h ∈ journey := by
  intro journey
  induction journey with
  | nil =>
    intro hosts hpass h hh
    cases hosts with
    | nil => cases hh
    | cons h' hosts => simp [Passes] at hpass
  | cons p rest ih =>
    intro hosts
    induction hosts with
    | nil => exact fun _ h hh => absurd hh List.not_mem_nil
    | cons h' hosts ihh =>
      intro hpass h hh
      rw [Passes] at hpass
      rcases hpass with ⟨hp, hpass⟩ | hpass
      · rcases List.mem_cons.mp hh with rfl | hh
        · rw [hp]
          exact List.mem_cons_self
        · exact ihh hpass h hh
      · exact List.mem_cons_of_mem _ (ih hpass h hh)

theorem mem_closed {R : Place → Place → Prop} {C : Place → Prop} (hclosed : ∀ p q, C p → R p q → C q) :
    ∀ {journey : List Place}, journey.IsChain R → (∀ p, journey.head? = some p → C p) → ∀ p ∈ journey, C p
  | [], _, _ => fun p hp => absurd hp List.not_mem_nil
  | p :: rest, hchain, hhead => by
    have hp := hhead p rfl
    intro q hq
    rcases List.mem_cons.mp hq with rfl | hq
    · exact hp
    · refine mem_closed hclosed hchain.tail (fun q' hq' => ?_) q hq
      exact hclosed p q' hp ((List.isChain_cons.mp hchain).1 q' hq')

section
variable {w : Cabling} {T : Nat → Option (List OFPActionOutput)} {waypoints : List Host} {first : Nat} {h : Host}
  {journey : List Place}

theorem ends_at_waypoint (hone : ∀ dpid actions, T dpid = some actions → ∃ a, actions = [a])
    (hpath : IsPath (Sends w T waypoints) (.switch first) (.host h) journey) {h' : Host} (hmem : .host h' ∈ journey) :
    h' = h := by
  obtain ⟨l₁, l₂, rfl⟩ := List.append_of_mem hmem
  rcases List.eq_nil_or_concat l₁ with rfl | ⟨l, p, rfl⟩
  · cases hpath.head
  · rw [List.concat_eq_append, List.append_assoc] at hpath
    have hto := List.isChain_iff_forall_rel_of_append_cons_cons.mp hpath.chain rfl
    cases p with
    | host g => cases hto.2
    | switch dpid =>
      obtain ⟨actions, hT, a, ha, hpeer⟩ := hto
      obtain ⟨b, rfl⟩ := hone dpid actions hT
      have ha := List.mem_singleton.mp ha
      subst ha
      have hattach := w.delivers dpid _ h' hpeer
      -- the host and its switch send to each other only
      have hclosed : ∀ p q, (p = .host h' ∨ p = .switch dpid) → Sends w T waypoints p q →
          (q = .host h' ∨ q = .switch dpid) := by
        intro p q hp hpq
        rcases hp with rfl | rfl
        · exact Or.inr (hpq.2.trans (by rw [hattach]))
        · obtain ⟨actions, hT', c, hc, hpeer'⟩ := hpq
          rw [hT] at hT'
          cases hT'
          have hc := List.mem_singleton.mp hc
          subst hc
          rw [hpeer] at hpeer'
          cases hpeer'
          exact Or.inl rfl
      have hsplit : l ++ ([.switch dpid] ++ .host h' :: l₂) = (l ++ [.switch dpid]) ++ .host h' :: l₂ :=
        (List.append_assoc ..).symm
      have htail := hpath.from_node hsplit
      have hlast := mem_closed hclosed htail.chain (fun p hp => by cases hp; exact Or.inl rfl) (.host h)
        (List.mem_of_getLast? htail.last)
      rcases hlast with he | he
      · cases he
        rfl
      · cases he

end

/-! ## Actions and their rules -/

theorem flowRules_send_flow (ipv4_src ipv4_dst : Bytes) (msg : PacketIn) (action : Action) :
    flowRules ipv4_src ipv4_dst (send_flow ipv4_dst ipv4_src msg action) =
      if action.out_port.head? ≠ some OFPP_FLOOD then
        [(action.datapath.id, action.out_port.map fun p => { port := p : OFPActionOutput })]
      else [] := by
  unfold flowRules send_flow
  by_cases h : action.out_port.head? ≠ some OFPP_FLOOD
  · simp [h]
  · simp [h]

theorem flowRules_flatMap (ipv4_src ipv4_dst : Bytes) (msg : PacketIn) (actions : List Action) :
    flowRules ipv4_src ipv4_dst (actions.flatMap (send_flow ipv4_dst ipv4_src msg)) =
      actions.flatMap fun a => flowRules ipv4_src ipv4_dst (send_flow ipv4_dst ipv4_src msg a) := by
  induction actions with
  | nil => rfl
  | cons a actions ih =>
    rw [List.flatMap_cons, List.flatMap_cons, ← ih]
    exact List.filterMap_append

theorem mem_flowRules {ipv4_src ipv4_dst : Bytes} {msg : PacketIn} {actions : List Action}
    {r : Nat × List OFPActionOutput}
    (h : r ∈ flowRules ipv4_src ipv4_dst (actions.flatMap (send_flow ipv4_dst ipv4_src msg))) :
    ∃ a ∈ actions, a.out_port.head? ≠ some OFPP_FLOOD ∧ r.1 = a.datapath.id ∧
      r.2 = a.out_port.map fun p => { port := p : OFPActionOutput } := by
  rw [flowRules_flatMap, List.mem_flatMap] at h
  obtain ⟨a, ha, hr⟩ := h
  rw [flowRules_send_flow] at hr
  split at hr
  · rename_i hport
    have hr := List.mem_singleton.mp hr
    subst hr
    exact ⟨a, ha, hport, rfl, rfl⟩
  · exact absurd hr List.not_mem_nil

def OnePort (actions : List Action) : Prop := ∀ a ∈ actions, ∃ port, a.out_port = [port]

theorem onePort_readActions : ∀ {texts : List (OfDatapath × List Char)} {actions : List Action},
    readActions texts = some actions → OnePort actions
  | [], _, h => by
    cases h
    exact fun _ ha => absurd ha List.not_mem_nil
  | (datapath, out_port) :: texts, actions, h => by
    unfold readActions at h
    cases hport : int out_port with
    | error e => rw [hport] at h; cases h
    | ok port =>
      rw [hport] at h
      obtain ⟨rest, hrest, rfl⟩ := Option.map_eq_some_iff.mp h
      intro a ha
      rcases List.mem_cons.mp ha with rfl | ha
      · exact ⟨port, rfl⟩
      · exact onePort_readActions hrest a ha

theorem onePort_direct {topo : nx.Graph} {a : Source} {t : Bytes} {actions : List Action}
    (h : find_direct nx topo a t = .ok (some actions)) : OnePort actions := by
  obtain ⟨_, _, _, _, _, _, hpath⟩ := direct_some h
  obtain ⟨texts, _, hread⟩ := pathActions_some hpath
  exact onePort_readActions hread

theorem onePort_paths {topo : nx.Graph} {l : List (Source × Bytes)} {As : List (List Action)} (h : Paths topo l As) :
    OnePort As.flatten := by
  induction h with
  | nil => exact fun _ ha => absurd ha List.not_mem_nil
  | cons hA _ ih =>
    intro a ha
    rw [List.flatten_cons, List.mem_append] at ha
    rcases ha with ha | ha
    · exact onePort_direct hA a ha
    · exact ih a ha

theorem onePort_find_path {topo : nx.Graph} {src : Source} {dst : Bytes} {via : List Bytes} {actions : List Action}
    (hvia : via ≠ []) (h : find_path nx topo src dst via = .ok (some actions)) : OnePort actions := by
  rw [find_path_legs hvia] at h
  cases hlegs : answers nx topo (legs src dst via) with
  | error e => rw [hlegs] at h; cases h
  | ok As =>
    rw [hlegs] at h
    obtain ⟨As, rfl, rfl⟩ := Option.map_eq_some_iff.mp (Except.ok.inj h)
    exact onePort_paths (paths_of_answers hlegs)

theorem one_action (ipv4_src ipv4_dst : Bytes) (msg : PacketIn) {actions : List Action} (hone : OnePort actions)
    (dpid : Nat) (outs : List OFPActionOutput) (h : flowTable ipv4_src ipv4_dst msg actions dpid = some outs) :
    ∃ a, outs = [a] := by
  unfold flowTable at h
  rcases installAll_cases h with hmem | hold
  · obtain ⟨a, ha, _, _, houts⟩ := mem_flowRules hmem
    obtain ⟨port, hport⟩ := hone a ha
    have houts : outs = a.out_port.map fun p => { port := p : OFPActionOutput } := houts
    rw [hport] at houts
    exact ⟨_, houts⟩
  · cases hold

theorem waypoint_of_mem {topo : nx.Graph} {via : List Bytes} {waypoints : List Host}
    (h : List.Forall₂ (fun ip h => keys_to_node nx topo (.ipv4 ip) = some (.host h)) via waypoints) :
    ∀ ip ∈ via, ∃ g ∈ waypoints, keys_to_node nx topo (.ipv4 ip) = some (.host g) := by
  induction h with
  | nil => exact fun _ hip => absurd hip List.not_mem_nil
  | cons hkey _ ih =>
    intro ip hip
    rcases List.mem_cons.mp hip with rfl | hip
    · exact ⟨_, List.mem_cons_self, hkey⟩
    · obtain ⟨g, hg, hkey'⟩ := ih ip hip
      exact ⟨g, List.mem_cons_of_mem _ hg, hkey'⟩

/-- A chain that is realised has no waypoint but the destination. -/
theorem allSame_of_realises {topo : nx.Graph} {w : Cabling} {src : Source} {ipv4_src dst : Bytes} {via : List Bytes}
    {msg : PacketIn} {actions : List Action} (hvia : via ≠ [])
    (hactions : find_path nx topo src dst via = .ok (some actions))
    (h : RealisesChain nx topo w ipv4_src dst via msg actions) : AllSame topo dst via := by
  obtain ⟨waypoints, host, first, journey, hvias, hdst, _, hpath, _, hpass⟩ := h
  have hone := one_action ipv4_src dst msg (onePort_find_path hvia hactions)
  have hall : ∀ g ∈ waypoints, g = host := fun g hg => ends_at_waypoint hone hpath (mem_of_passes hpass g hg)
  refine ⟨.host host, fun ip hip => ?_⟩
  rcases List.mem_cons.mp hip with rfl | hip
  · exact hdst
  · obtain ⟨g, hg, hkey⟩ := waypoint_of_mem hvias ip hip
    rw [hkey, hall g hg]

/-! ## The direct path -/

/-- The switches of a path, and the host in the place of its last node. -/
def places (h : Host) : List TopoNode → List Place
  | .switch s :: v :: rest => .switch s.dp.id :: places h (v :: rest)
  | _ => [.host h]

/-- The port that is read from the record of each hop leads to the next switch,
and that of the last hop to the host. -/
def Cabled (topo : nx.Graph) (w : Cabling) (h : Host) : List TopoNode → Prop
  | .switch s :: v :: rest =>
    (∃ record port, nx.edge topo (.switch s) v = some (some record) ∧ int record.dst.port_no = .ok port ∧
      port ≠ OFPP_FLOOD ∧ w.peer s.dp.id port = (places h (v :: rest)).head?) ∧ (rest = [] ∨ Cabled topo w h (v :: rest))
  | _ => False

section
variable {topo : nx.Graph} {w : Cabling}

theorem senders_joined {path : List TopoNode} {actions : List Action} (h : RouteActions topo path actions) :
    ∀ a ∈ actions, ∃ s v, .switch s ∈ path ∧ a.datapath = s.dp ∧ Joined topo (.switch s) v := by
  induction actions generalizing path with
  | nil => exact fun a ha => absurd ha List.not_mem_nil
  | cons a actions ih =>
    rcases route_cases h with ⟨_, hnil⟩ | ⟨s, v, rest, record, port, actions', rfl, hcons, hedge, _, hrest⟩
    · cases hnil
    · cases hcons
      intro b hb
      rcases List.mem_cons.mp hb with rfl | hb
      · exact ⟨s, v, List.mem_cons_self, rfl, joined_of_edge hedge⟩
      · obtain ⟨s', v', hs', hd, hj⟩ := ih hrest b hb
        exact ⟨s', v', List.mem_cons_of_mem _ hs', hd, hj⟩

theorem route_nodup (hh : Held topo) {path : List TopoNode} {actions : List Action}
    (h : RouteActions topo path actions) (hnodup : path.Nodup) : (actions.map fun a => a.datapath.id).Nodup := by
  induction actions generalizing path with
  | nil => exact List.nodup_nil
  | cons a actions ih =>
    rcases route_cases h with ⟨_, hnil⟩ | ⟨s, v, rest, record, port, actions', rfl, hcons, hedge, _, hrest⟩
    · cases hnil
    · cases hcons
      obtain ⟨hs, hnodup⟩ := List.nodup_cons.mp hnodup
      refine List.nodup_cons.mpr ⟨fun hmem => hs ?_, ih hrest hnodup⟩
      obtain ⟨b, hb, hid⟩ := List.mem_map.mp hmem
      obtain ⟨s', v', hs', hd, hj⟩ := senders_joined hrest b hb
      have hid : b.datapath.id = s.dp.id := hid
      have hsame : s' = s := hh.unique s' s (hh.ends _ _ hj) (hh.ends _ _ (joined_of_edge hedge)) (by rw [← hid, hd])
      rw [← hsame]
      exact hs'

theorem flowTable_of_mem {ipv4_src ipv4_dst : Bytes} {msg : PacketIn} {actions : List Action} {a : Action} {port : Nat}
    (hnodup : (actions.map fun a => a.datapath.id).Nodup) (ha : a ∈ actions) (hport : a.out_port = [port]) :
    flowTable ipv4_src ipv4_dst msg actions a.datapath.id =
      if port ≠ OFPP_FLOOD then some [{ port := port : OFPActionOutput }] else none := by
  have hrules : ((flowRules ipv4_src ipv4_dst (actions.flatMap (send_flow ipv4_dst ipv4_src msg))).map Prod.fst).Nodup := by
    rw [flowRules_flatMap]
    refine List.Nodup.sublist ?_ hnodup
    clear ha hnodup
    induction actions with
    | nil => exact List.Sublist.refl _
    | cons b actions ih =>
      rw [List.flatMap_cons, List.map_append, List.map_cons, flowRules_send_flow]
      split
      · exact ih.cons_cons _
      · exact ih.cons _
  have hhead : a.out_port.head? ≠ some OFPP_FLOOD ↔ port ≠ OFPP_FLOOD := by simp [hport]
  unfold flowTable
  by_cases hflood : port ≠ OFPP_FLOOD
  · rw [if_pos hflood]
    refine installAll_of_mem hrules ?_
    rw [flowRules_flatMap, List.mem_flatMap]
    refine ⟨a, ha, ?_⟩
    rw [flowRules_send_flow, if_pos (hhead.mpr hflood), hport]
    exact List.mem_singleton.mpr rfl
  · rw [if_neg hflood, installAll_of_notMem]
    intro r hr he
    obtain ⟨b, hb, hport', hid, _⟩ := mem_flowRules hr
    have hab : b = a := List.inj_on_of_nodup_map hnodup hb ha (hid.symm.trans he)
    rw [hab] at hport'
    exact hflood (hhead.mp hport')

/-! ## Following the direct path -/

variable {T : Nat → Option (List OFPActionOutput)} {waypoints : List Host} {h : Host}

def Ruled (T : Nat → Option (List OFPActionOutput)) (actions : List Action) : Prop :=
  ∀ a ∈ actions, ∀ port, a.out_port = [port] →
    T a.datapath.id = if port ≠ OFPP_FLOOD then some [{ port := port : OFPActionOutput }] else none

theorem peer_of_sends {dpid port : Nat} {q : Place}
    (hrule : T dpid = if port ≠ OFPP_FLOOD then some [{ port := port : OFPActionOutput }] else none)
    (hsend : Sends w T waypoints (.switch dpid) q) : port ≠ OFPP_FLOOD ∧ w.peer dpid port = some q := by
  obtain ⟨outs, houts, o, ho, hpeer⟩ := hsend
  rw [houts] at hrule
  by_cases hflood : port ≠ OFPP_FLOOD
  · rw [if_pos hflood] at hrule
    cases hrule
    have ho := List.mem_singleton.mp ho
    subst ho
    exact ⟨hflood, hpeer⟩
  · rw [if_neg hflood] at hrule
    cases hrule

theorem cabled_of_journey {path : List TopoNode} {actions : List Action} {journey : List Place} {s : Switch}
    (hroute : RouteActions topo path actions) (hhead : path.head? = some (.switch s)) (hsome : actions ≠ [])
    (hnodup : (actions.map fun a => a.datapath.id).Nodup) (hT : Ruled T actions)
    (hj : IsPath (Sends w T waypoints) (.switch s.dp.id) (.host h) journey)
    (hids : journey.filterMap dpidOf = actions.map fun a => a.datapath.id) : Cabled topo w h path := by
  induction actions generalizing path journey s with
  | nil => exact absurd rfl hsome
  | cons a actions ih =>
    rcases route_cases hroute with ⟨_, hnil⟩ | ⟨s', v, rest, record, port, actions', rfl, hcons, hedge, hport, hrest⟩
    · cases hnil
    cases hcons
    cases hhead
    obtain ⟨q, js, rfl⟩ := hj.first_hop nofun
    obtain ⟨hsend, htail⟩ := List.isChain_cons_cons.mp hj.chain
    obtain ⟨hflood, hpeer⟩ := peer_of_sends (hT _ List.mem_cons_self port rfl) hsend
    have hids : (q :: js).filterMap dpidOf = actions.map fun a => a.datapath.id := (List.cons.inj hids).2
    obtain ⟨hfresh, hnodup⟩ := List.nodup_cons.mp hnodup
    have hT' : Ruled T actions := fun a ha => hT a (List.mem_cons_of_mem _ ha)
    have hlast' : (q :: js).getLast? = some (.host h) := by
      have := hj.last
      rw [List.getLast?_cons_cons] at this
      exact this
    cases q with
    | switch dpid =>
      -- the next switch is that of the next action
      have hids' : dpid :: js.filterMap dpidOf = actions.map fun a => a.datapath.id := hids
      rcases route_cases hrest with ⟨_, rfl⟩ | ⟨s', v', rest', record', port', actions', hv, rfl, _⟩
      · cases hids'
      · cases hv
        have hid : dpid = s'.dp.id := (List.cons.inj hids').1
        subst hid
        refine ⟨⟨record, port, hedge, hport, hflood, hpeer⟩, Or.inr ?_⟩
        exact ih hrest rfl (List.cons_ne_nil _ _) hnodup hT' ⟨htail, rfl, hlast'⟩ hids
    | host g =>
      cases js with
      | nil =>
        cases hlast'
        have hids' : [] = actions.map fun a => a.datapath.id := hids
        rcases route_cases hrest with ⟨⟨u, hv⟩, _⟩ | ⟨s', v', rest', record', port', actions', _, rfl, _⟩
        · cases hv
          refine ⟨⟨record, port, hedge, hport, hflood, ?_⟩, Or.inl rfl⟩
          rw [hpeer]
          cases v <;> rfl
        · cases hids'
      | cons z js =>
        -- a host would send it back to the switch it comes from
        have hback := (List.isChain_cons_cons.mp htail).1
        have hz : z = .switch s.dp.id := by
          rw [← w.delivers _ _ _ hpeer]
          exact hback.2
        subst hz
        have hids' : s.dp.id :: js.filterMap dpidOf = actions.map fun a => a.datapath.id := hids
        refine absurd ?_ hfresh
        show s.dp.id ∈ actions.map fun a => a.datapath.id
        rw [← hids']
        exact List.mem_cons_self

theorem journey_of_cabled (waypoints : List Host) {path : List TopoNode} {actions : List Action}
    (hroute : RouteActions topo path actions) (hcabled : Cabled topo w h path) (hT : Ruled T actions) :
    (places h path).IsChain (Sends w T waypoints) ∧ (places h path).getLast? = some (.host h) ∧
      ((places h path).filterMap dpidOf = actions.map fun a => a.datapath.id) ∧
      ∃ s, path.head? = some (.switch s) ∧ (places h path).head? = some (.switch s.dp.id) ∧
        (actions.map fun a => a.datapath.id).head? = some s.dp.id := by
  induction actions generalizing path with
  | nil =>
    rcases route_cases hroute with ⟨⟨u, rfl⟩, _⟩ | ⟨s, v, rest, record, port, actions', _, hcons, _⟩
    · cases u <;> exact hcabled.elim
    · cases hcons
  | cons a actions ih =>
    rcases route_cases hroute with ⟨_, hnil⟩ | ⟨s, v, rest, record, port, actions', rfl, hcons, hedge, hport, hrest⟩
    · cases hnil
    cases hcons
    obtain ⟨⟨record', port', hedge', hport', hflood, hpeer⟩, hcabled⟩ := hcabled
    rw [hedge] at hedge'
    cases hedge'
    rw [hport] at hport'
    cases hport'
    have hrule := hT _ List.mem_cons_self port rfl
    rw [if_pos hflood] at hrule
    have hsend : ∀ q, (places h (v :: rest)).head? = some q → Sends w T waypoints (.switch s.dp.id) q := by
      intro q hq
      rw [hq] at hpeer
      exact ⟨_, hrule, _, List.mem_singleton.mpr rfl, hpeer⟩
    have htail : (places h (v :: rest)).IsChain (Sends w T waypoints) ∧
        (places h (v :: rest)).getLast? = some (.host h) ∧
        (places h (v :: rest)).filterMap dpidOf = actions.map fun a => a.datapath.id := by
      rcases hcabled with rfl | hcabled
      · rcases route_cases hrest with ⟨_, rfl⟩ | ⟨s', v', rest', record', port', actions', hv, _⟩
        · have hplaces : places h [v] = [.host h] := by cases v <;> rfl
          rw [hplaces]
          exact ⟨.singleton _, rfl, rfl⟩
        · cases hv
      · obtain ⟨hchain, hlast, hids, _⟩ := ih hrest hcabled fun a ha => hT a (List.mem_cons_of_mem _ ha)
        exact ⟨hchain, hlast, hids⟩
    obtain ⟨hchain, hlast, hids⟩ := htail
    have hplaces : places h (.switch s :: v :: rest) = .switch s.dp.id :: places h (v :: rest) := rfl
    rw [hplaces]
    refine ⟨List.isChain_cons.mpr ⟨hsend, hchain⟩, ?_, congrArg (s.dp.id :: ·) hids, s, rfl, rfl, rfl⟩
    rw [List.getLast?_cons, hlast]
    rfl

theorem passes_of_all {journey : List Place} (hmem : .host h ∈ journey) :
    ∀ {hosts : List Host}, (∀ g ∈ hosts, g = h) → Passes journey hosts := by
  induction journey with
  | nil => cases hmem
  | cons p rest ih =>
    intro hosts hall
    by_cases hp : p = .host h
    · induction hosts with
      | nil => simp [Passes]
      | cons g hosts ihh =>
        rw [Passes]
        refine Or.inl ⟨?_, ihh fun g' hg => hall g' (List.mem_cons_of_mem _ hg)⟩
        rw [hp, hall g List.mem_cons_self]
    · have hrest := ih ((List.mem_cons.mp hmem).resolve_left fun he => hp he.symm) hall
      cases hosts with
      | nil => simp [Passes]
      | cons g hosts =>
        rw [Passes]
        exact Or.inr hrest

end

theorem exists_waypoints {topo : nx.Graph} {h : Host} : ∀ {via : List Bytes},
    (∀ ip ∈ via, keys_to_node nx topo (.ipv4 ip) = some (.host h)) →
    ∃ waypoints, List.Forall₂ (fun ip h => keys_to_node nx topo (.ipv4 ip) = some (.host h)) via waypoints ∧
      ∀ g ∈ waypoints, g = h
  | [], _ => ⟨[], .nil, fun _ hg => absurd hg List.not_mem_nil⟩
  | ip :: via, hall => by
    obtain ⟨waypoints, hvias, hsame⟩ := exists_waypoints fun ip hip => hall ip (List.mem_cons_of_mem _ hip)
    refine ⟨h :: waypoints, .cons (hall ip List.mem_cons_self) hvias, fun g hg => ?_⟩
    rcases List.mem_cons.mp hg with rfl | hg
    · rfl
    · exact hsame g hg

theorem head_of_route {topo : nx.Graph} {path : List TopoNode} {actions : List Action} {first : Nat}
    (hroute : RouteActions topo path actions) (hfirst : (actions.map fun a => a.datapath.id).head? = some first) :
    ∃ s, path.head? = some (.switch s) ∧ s.dp.id = first ∧ actions ≠ [] := by
  rcases route_cases hroute with ⟨_, rfl⟩ | ⟨s, v, rest, record, port, actions', rfl, rfl, _⟩
  · cases hfirst
  · exact ⟨s, rfl, Option.some.inj hfirst, List.cons_ne_nil _ _⟩

theorem direct_of_allSame {topo : nx.Graph} (hh : Held topo) {src : Source} {dst : Bytes} {via : List Bytes}
    (hvia : via ≠ []) {actions : List Action} (hactions : find_path nx topo src dst via = .ok (some actions))
    (ipv4_src : Bytes) (msg : PacketIn) (hsame : AllSame topo dst via) :
    ∃ m h path, sourceNode nx topo src = some m ∧ keys_to_node nx topo (.ipv4 dst) = some (.host h) ∧
      nx.shortest_path topo m (.host h) = .ok path ∧ (dropHost path = [] ∧ actions = [] ∨
        RouteActions topo (dropHost path) actions) ∧ (actions.map fun a => a.datapath.id).Nodup ∧
      Ruled (flowTable ipv4_src dst msg actions) actions := by
  rw [find_path_same hvia hsame] at hactions
  obtain ⟨m, n, path, hm, hn, hpath, htexts⟩ := direct_some hactions
  obtain ⟨h, rfl⟩ := host_of_ipv4 hn
  obtain ⟨texts, htexts, hread⟩ := pathActions_some htexts
  by_cases hnil : dropHost path = []
  · rw [hnil] at htexts
    cases htexts
    cases hread
    exact ⟨m, h, path, hm, hn, hpath, Or.inl ⟨hnil, rfl⟩, List.nodup_nil, fun a ha => absurd ha List.not_mem_nil⟩
  · have hroute := routeActions_of_path hnil htexts hread
    have hnodup := route_nodup hh hroute (nodup_of_found hpath)
    exact ⟨m, h, path, hm, hn, hpath, Or.inr hroute, hnodup, fun a ha port hport => flowTable_of_mem hnodup ha hport⟩

/-- **Where the rules realise the chain**: exactly where there is no waypoint but
the destination and the records of the direct path name ports that lead along it. -/
theorem chain_rules_realise_iff (nx : TopoGraph) (r : Reported) (w : Cabling) (dpid : Nat) (ipv4_src dst : Bytes)
    (via : List Bytes) (hvia : via ≠ []) (msg : PacketIn) (actions : List Action)
    (hactions : find_path nx (r.topo nx) (.dpid dpid) dst via = .ok (some actions)) :
    RealisesChain nx (r.topo nx) w ipv4_src dst via msg actions ↔
      AllSame (r.topo nx) dst via ∧ ∃ m h path, sourceNode nx (r.topo nx) (.dpid dpid) = some m ∧
        keys_to_node nx (r.topo nx) (.ipv4 dst) = some (.host h) ∧ nx.shortest_path (r.topo nx) m (.host h) = .ok path ∧
        Cabled (r.topo nx) w h (dropHost path) := by
  have hdirect := direct_of_allSame (held_topo nx r) hvia hactions ipv4_src msg
  constructor
  · intro hreal
    have hsame := allSame_of_realises hvia hactions hreal
    obtain ⟨m, g, path, hm, hn, hpath, hroute, hnodup, hT⟩ := hdirect hsame
    obtain ⟨waypoints, g', first, journey, _, hdst, hfirst, hj, hids, _⟩ := hreal
    rw [hn] at hdst
    cases hdst
    refine ⟨hsame, m, g, path, hm, hn, hpath, ?_⟩
    rcases hroute with ⟨_, rfl⟩ | hroute
    · cases hfirst
    · obtain ⟨s, hhead, rfl, hsome⟩ := head_of_route hroute hfirst
      exact cabled_of_journey hroute hhead hsome hnodup hT hj hids
  · intro hcond
    obtain ⟨hsame, m, g, path, hm, hn, hpath, hcabled⟩ := hcond
    obtain ⟨m', g', path', hm', hn', hpath', hroute, hnodup, hT⟩ := hdirect hsame
    rw [hm] at hm'
    cases hm'
    rw [hn] at hn'
    cases hn'
    obtain rfl : path' = path := Except.ok.inj (hpath'.symm.trans hpath)
    rcases hroute with ⟨hnil, _⟩ | hroute
    · rw [hnil] at hcabled
      exact hcabled.elim
    obtain ⟨node, hall⟩ := hsame
    have hnode := hall dst List.mem_cons_self
    rw [hn] at hnode
    cases hnode
    obtain ⟨waypoints, hvias, hg⟩ := exists_waypoints fun ip hip => hall ip (List.mem_cons_of_mem _ hip)
    obtain ⟨hchain, hlast, hids, s, _, hhead, hfirst⟩ := journey_of_cabled waypoints hroute hcabled hT
    refine ⟨waypoints, g, s.dp.id, places g (dropHost path'), hvias, hn, hfirst, ⟨hchain, hhead, hlast⟩, hids, ?_⟩
    exact passes_of_all (List.mem_of_getLast? hlast) hg

/-! ### The cables of a reported network -/

def cablingOf (r : Reported) : Cabling where
  peer dpid port :=
    match r.hosts.find? (fun h => h.port = ⟨dpid, port⟩), r.links.find? (fun l => l.src = ⟨dpid, port⟩) with
    | some h, _ => some (.host h)
    | none, some l => some (.switch l.dst.dpid)
    | none, none => none
  attach h := h.port.dpid
  delivers dpid port h hpeer := by
    split at hpeer
    · rename_i g hg
      cases hpeer
      have hport := List.find?_some hg
      rw [of_decide_eq_true hport]
    · cases hpeer
    · cases hpeer

/-- The second switch has one rule for the visits before and after the middlebox. -/
theorem chain_rules_loop :
    ∃ actions, find_path sampleNx (pairNet.topo sampleNx) (.dpid 1) [10, 0, 0, 2] [[11, 1, 0, 1]] = .ok (some actions) ∧
      ∀ msg, ¬ RealisesChain sampleNx (pairNet.topo sampleNx) (cablingOf pairNet) [10, 0, 0, 1] [10, 0, 0, 2] [[11, 1, 0, 1]]
        msg actions := by
  have hloop : find_path sampleNx (pairNet.topo sampleNx) (.dpid 1) [10, 0, 0, 2] [[11, 1, 0, 1]] =
      .ok (some [⟨⟨2, "10.0.0.1"⟩, [2]⟩, ⟨⟨1, "10.0.0.1"⟩, [1]⟩, ⟨⟨2, "10.0.0.1"⟩, [3]⟩]) := by decide +kernel
  refine ⟨_, hloop, fun msg h => ?_⟩
  obtain ⟨m, hall⟩ := allSame_of_realises (by decide) hloop h
  have hdst := hall [10, 0, 0, 2] List.mem_cons_self
  rw [← hall [11, 1, 0, 1] (by decide)] at hdst
  exact absurd hdst (by decide +kernel)

theorem chain_rules_realise_server :
    RealisesChain sampleNx (pairNet.topo sampleNx) (cablingOf pairNet) [10, 0, 0, 1] [10, 0, 0, 2] [[10, 0, 0, 2]]
      ⟨⟨1, "10.0.0.1"⟩, 2, OFP_NO_BUFFER, [], ⟨none, none, none, none⟩⟩ [⟨⟨1, "10.0.0.1"⟩, [1]⟩, ⟨⟨2, "10.0.0.1"⟩, [3]⟩] := by
  have hcabled : Cabled (pairNet.topo sampleNx) (cablingOf pairNet) server
      [.switch nearSwitch, .switch farSwitch, .host server] := by
    refine ⟨⟨⟨⟨dpid_to_str 2, port_no_to_str 1⟩, ⟨dpid_to_str 1, port_no_to_str 1⟩⟩, 1, ?_⟩,
      Or.inr ⟨⟨⟨⟨dpid_to_str 2, port_no_to_str 3⟩, ⟨dpid_to_str 2, port_no_to_str 3⟩⟩, 3, ?_⟩, Or.inl rfl⟩⟩
    · decide +kernel
    · decide +kernel
  have hpath : sampleNx.shortest_path (pairNet.topo sampleNx) (.switch nearSwitch) (.host server) =
      .ok [.switch nearSwitch, .switch farSwitch, .host server] := by decide +kernel
  have hsame : AllSame (pairNet.topo sampleNx) [10, 0, 0, 2] [[10, 0, 0, 2]] := by
    refine ⟨.host server, fun ip hip => ?_⟩
    simp only [List.mem_cons, List.not_mem_nil, or_false, or_self] at hip
    subst hip
    decide +kernel
  exact (chain_rules_realise_iff sampleNx pairNet _ 1 _ _ _ (by decide) _ _ (by decide +kernel)).mpr
    ⟨hsame, _, _, _, by decide +kernel, by decide +kernel, hpath, hcabled⟩

end RyuNet

end VnfDockerNet
