import VnfDockerNet.Lib.Forwarding
import VnfDockerNet.LocalHostSound

/-!
# The destination rules never loop

A rule is read as the hop of the path it was installed for. Within a domain the
distance to the host falls along every rule, whichever paths overwrote each
other. Between domains a handler installs a whole path up to its exit, and the
newest path absorbs every older one that runs into it.
-/

namespace VnfDockerNet

open Python Networkx Runs Forwarding

namespace Layer2Switch

variable {env : LocalEnv}

/-! ## Reading rules -/

/-- The rules for a destination among the messages to the switches. -/
def rulesFor (dst_mac : Bytes) (switch_out : List (Nat × SwitchMsg)) : List (Nat × List OFPActionOutput) :=
  switch_out.filterMap fun x =>
    match x.2 with
    | .FlowMod _ priority rule actions =>
      if priority = 1 ∧ rule = [.eth_dst dst_mac] then some (x.1, actions) else none
    | _ => none

/-- The hop of a switch on a path, which leaves at its last node. -/
def hopAfter : List Node → Nat → Hop Node
  | u :: v :: rest, dpid => if u = .dpid dpid then .next v else hopAfter (v :: rest) dpid
  | _, _ => .leave

/-- The rules for a destination with the hops of the path they were installed for. -/
def readRules (dst_mac : Bytes) (path : List Node) (switch_out : List (Nat × SwitchMsg)) :
    List (Node × Hop Node × List OFPActionOutput) :=
  (rulesFor dst_mac switch_out).map fun r => (.dpid r.1, hopAfter path r.1, r.2)

theorem rulesFor_append (dst_mac : Bytes) (out out' : List (Nat × SwitchMsg)) :
    rulesFor dst_mac (out ++ out') = rulesFor dst_mac out ++ rulesFor dst_mac out' := List.filterMap_append

theorem rulesFor_flowMod (dst_mac : Bytes) (dpid buffer_id : Nat) (rule : OFPMatch) (actions : List OFPActionOutput) :
    rulesFor dst_mac [(dpid, .FlowMod buffer_id 1 rule actions)] =
      if rule = [.eth_dst dst_mac] then [(dpid, actions)] else [] := by
  unfold rulesFor
  by_cases h : rule = [.eth_dst dst_mac]
  · simp [h]
  · simp [h]

theorem rulesFor_packetOut (dst_mac : Bytes) (dpid buffer_id in_port : Nat) (actions : List OFPActionOutput)
    (data : Option Bytes) : rulesFor dst_mac [(dpid, .PacketOut buffer_id in_port actions data)] = [] := rfl

theorem hopAfter_cons_of_ne {u : Node} {dpid : Nat} (h : u ≠ .dpid dpid) (l : List Node) :
    hopAfter (u :: l) dpid = hopAfter l dpid := by
  cases l with
  | nil => rfl
  | cons v rest =>
    show (if u = .dpid dpid then _ else _) = _
    rw [if_neg h]

theorem hopAfter_append {l₁ l₂ : List Node} {dpid : Nat} (hnodup : (l₁ ++ .dpid dpid :: l₂).Nodup) :
    hopAfter (l₁ ++ .dpid dpid :: l₂) dpid = hopAfter (.dpid dpid :: l₂) dpid := by
  induction l₁ with
  | nil => rfl
  | cons w l₁ ih =>
    rw [List.cons_append] at hnodup ⊢
    obtain ⟨hw, hnodup⟩ := List.nodup_cons.mp hnodup
    have hne : w ≠ .dpid dpid := fun he => hw (by rw [he]; simp)
    rw [hopAfter_cons_of_ne hne]
    exact ih hnodup

theorem hopAfter_of_split {l₁ l₂ : List Node} {dpid : Nat} {v : Node}
    (hnodup : (l₁ ++ .dpid dpid :: v :: l₂).Nodup) : hopAfter (l₁ ++ .dpid dpid :: v :: l₂) dpid = .next v := by
  rw [hopAfter_append hnodup]
  unfold hopAfter
  rw [if_pos rfl]

theorem hopAfter_of_last {l : List Node} {dpid : Nat} (hnodup : (l ++ [Node.dpid dpid]).Nodup) :
    hopAfter (l ++ [.dpid dpid]) dpid = .leave := hopAfter_append hnodup

/-! ## Packets within the domain -/

section
variable {s s' : Layer2Switch env.nx.Graph} {mac : Bytes}

structure Steady (s s' : Layer2Switch env.nx.Graph) : Prop where
  datapaths : s'.datapaths = s.datapaths
  switch_out : s'.switch_out = s.switch_out
  edges : ∀ a b, env.nx.edge s'.net (.dpid a) (.dpid b) = env.nx.edge s.net (.dpid a) (.dpid b)

instance : IsPreorder (Layer2Switch env.nx.Graph) Steady where
  refl _ := ⟨rfl, rfl, fun _ _ => rfl⟩
  trans _ _ _ h h' := ⟨h'.datapaths.trans h.datapaths, h'.switch_out.trans h.switch_out,
    fun a b => (h'.edges a b).trans (h.edges a b)⟩

theorem steady_sent (s : Layer2Switch env.nx.Graph) (xid : Nat) (msg : MsgUp) (_ : True) :
    Steady s { s with sent := s.sent ++ [⟨xid, msg⟩] } := ⟨rfl, rfl, fun _ _ => rfl⟩

theorem steady_learnHost (dpid in_port : Nat) (src : Bytes) : Moves Steady (learnHost env dpid in_port src) := by
  refine moves_learnHost (fun _ _ => ⟨rfl, rfl, fun _ _ => rfl⟩) steady_sent (fun _ _ => ⟨rfl, rfl, fun _ _ => rfl⟩)
    (fun s mac net hnet => ⟨rfl, rfl, fun a b => ?_⟩) (fun _ _ => trivial) (fun s mac => ⟨rfl, rfl, fun a b => ?_⟩)
    (fun s dpid mac f => ⟨rfl, rfl, fun a b => ?_⟩) (fun s dpid mac f => ⟨rfl, rfl, fun a b => ?_⟩)
    (fun _ _ => trivial) dpid in_port src
  · rw [env.nx.edge_remove_node _ _ _ _ _ hnet]
    simp
  · rw [env.nx.edge_add_node]
  · rw [env.nx.edge_add_edge]
    simp
  · rw [env.nx.edge_add_edge]
    simp

theorem steady_countPacket (dpid : Nat) : Moves Steady (countPacket env dpid) :=
  moves_countPacket (fun _ _ _ _ => ⟨rfl, rfl, fun _ _ => rfl⟩) dpid

theorem steady_askCentral (now : Nat) (msg : PacketIn) (eth : Ethernet) : Moves Steady (askCentral env now msg eth) :=
  moves_askCentral (fun _ _ => ⟨rfl, rfl, fun _ _ => rfl⟩) steady_sent (fun _ _ _ _ => ⟨rfl, rfl, fun _ _ => rfl⟩)
    (fun _ _ _ _ _ _ _ => trivial) now msg eth

theorem Steady.keyed (h : Steady s s') (hkeyed : Keyed s) : Keyed s' := by
  unfold Keyed
  rw [h.datapaths]
  exact hkeyed

/-- A rule of a switch that sends along a hop of the path. -/
def RuleOn (net : env.nx.Graph) (path : List Node) (r : Nat × List OFPActionOutput) : Prop :=
  ∃ l₁ v l₂ port, path = l₁ ++ .dpid r.1 :: v :: l₂ ∧ env.nx.edge net (.dpid r.1) v = some (some port) ∧
    r.2 = [{ port }]

theorem rule_eth_dst {pkt : Packet} {eth : Ethernet} (h : pkt.rule eth = .ok [.eth_dst mac]) : eth.dst = mac := by
  unfold Packet.rule at h
  split at h
  rename_i src_ip dst_ip src_port dst_port _
  by_cases hports : src_port ≠ 0 ∧ dst_port ≠ 0
  · rw [if_pos hports] at h
    cases hnw : pkt.nw with
    | none => rw [hnw] at h; cases h
    | some nw => rw [hnw] at h; cases h
  · rw [if_neg hports] at h
    cases h
    rfl

/-- `s'` is `s` with more sent to the switches, and if there are rules for `mac`
among it, the packet is for `mac` and they follow the path. -/
def Routed (mac dst : Bytes) (path : List Node) (s s' : Layer2Switch env.nx.Graph) : Prop :=
  ∃ out, s' = { s with switch_out := s.switch_out ++ out } ∧ ∀ r ∈ rulesFor mac out, dst = mac ∧ RuleOn s.net path r

theorem Routed.refl (mac dst : Bytes) (path : List Node) (s : Layer2Switch env.nx.Graph) : Routed mac dst path s s :=
  ⟨[], by rw [List.append_nil], fun r hr => absurd hr List.not_mem_nil⟩

theorem Routed.cons {path : List Node} {dst : Bytes} {u : Node} (h : Routed mac dst path s s') :
    Routed mac dst (u :: path) s s' := by
  obtain ⟨out, he, hrules⟩ := h
  refine ⟨out, he, fun r hr => ?_⟩
  obtain ⟨hdst, l₁, v, l₂, port, hpath, hedge, hacts⟩ := hrules r hr
  exact ⟨hdst, u :: l₁, v, l₂, port, by rw [hpath]; rfl, hedge, hacts⟩

theorem Routed.after {path : List Node} {dst : Bytes} {out : List (Nat × SwitchMsg)}
    (hout : ∀ r ∈ rulesFor mac out, dst = mac ∧ RuleOn s.net path r)
    (h : Routed mac dst path { s with switch_out := s.switch_out ++ out } s') : Routed mac dst path s s' := by
  obtain ⟨out', rfl, hrules⟩ := h
  refine ⟨out ++ out', by rw [List.append_assoc], fun r hr => ?_⟩
  rw [rulesFor_append] at hr
  rcases List.mem_append.mp hr with hr | hr
  · exact hout r hr
  · exact hrules r hr

theorem wp_forwardPath (msg : PacketIn) (eth : Ethernet) (mac : Bytes) :
    ∀ (path : List Node) (s : Layer2Switch env.nx.Graph), Keyed s →
      wp (forwardPath env msg eth path) s (fun _ => Routed mac eth.dst path s) fun _ => Routed mac eth.dst path s
  | [], s, _ => Routed.refl mac _ [] s
  | [u], s, _ => Routed.refl mac _ [u] s
  | last_hop :: next_hop :: rest, s, hkeyed => by
    have hstay : Routed mac eth.dst (last_hop :: next_hop :: rest) s s := Routed.refl mac _ _ s
    unfold forwardPath edgePort
    simp only [wp_bind, wp_get, wp_key, wp_orRaise]
    refine ⟨fun data hedge => ⟨fun out_port hdata => ⟨fun rule hrule => ?_, fun _ _ => hstay⟩, fun _ => hstay⟩,
      fun _ => hstay⟩
    cases last_hop with
    | mac m => exact hstay
    | dpid dpid =>
      unfold nodeDatapath add_flow packetOut send_switch
      simp only [wp_bind, wp_get, wp_item, wp_ite, wp_modify]
      refine ⟨fun datapath hget => ?_, fun _ => hstay⟩
      have hid : datapath.id = dpid := hkeyed dpid datapath hget
      have hone : ∀ buffer_id, ∀ r ∈ rulesFor mac [(datapath.id, .FlowMod buffer_id 1 rule [{ port := out_port }])],
          eth.dst = mac ∧ RuleOn s.net (.dpid dpid :: next_hop :: rest) r := by
        intro buffer_id r hr
        rw [rulesFor_flowMod] at hr
        split at hr
        · rename_i heth
          have hr := List.mem_singleton.mp hr
          subst hr heth
          rw [hdata] at hedge
          rw [RuleOn, hid]
          exact ⟨rule_eth_dst hrule, [], next_hop, rest, out_port, rfl, hedge, rfl⟩
        · exact absurd hr List.not_mem_nil
      refine ⟨fun _ => ⟨_, rfl, hone _⟩, fun _ => ?_⟩
      have ih := fun out => wp_forwardPath msg eth mac (next_hop :: rest) { s with switch_out := s.switch_out ++ out } hkeyed
      have hall : ∀ out, (∀ r ∈ rulesFor mac out, eth.dst = mac ∧ RuleOn s.net (.dpid dpid :: next_hop :: rest) r) →
          wp (forwardPath env msg eth (next_hop :: rest)) { s with switch_out := s.switch_out ++ out }
            (fun _ => Routed mac eth.dst (.dpid dpid :: next_hop :: rest) s)
            fun _ => Routed mac eth.dst (.dpid dpid :: next_hop :: rest) s := fun out hout =>
        wp_mono (ih out) (fun _ _ h => h.cons.after hout) fun _ _ h => h.cons.after hout
      rw [List.append_assoc]
      apply hall
      intro r hr
      rw [rulesFor_append, rulesFor_packetOut, List.append_nil] at hr
      exact hone _ r hr

/-- The switches and the edges between them are the same, and the rules sent for
`mac` follow a shortest path to it. -/
structure Serves (mac : Bytes) (dpid : Nat) (s s' : Layer2Switch env.nx.Graph) : Prop where
  datapaths : s'.datapaths = s.datapaths
  edges : ∀ a b, env.nx.edge s'.net (.dpid a) (.dpid b) = env.nx.edge s.net (.dpid a) (.dpid b)
  rules : ∃ out, s'.switch_out = s.switch_out ++ out ∧ ∀ r ∈ rulesFor mac out, ∃ path,
    env.nx.shortest_path s'.net (.dpid dpid) (.mac mac) = .ok path ∧ RuleOn s'.net path r

theorem Steady.serves {s'' : Layer2Switch env.nx.Graph} {dpid : Nat} (h : Steady s s') (h' : Serves mac dpid s' s'') :
    Serves mac dpid s s'' := by
  refine ⟨h'.datapaths.trans h.datapaths, fun a b => (h'.edges a b).trans (h.edges a b), ?_⟩
  obtain ⟨out, hout, hrules⟩ := h'.rules
  exact ⟨out, by rw [hout, h.switch_out], hrules⟩

theorem serves_of_net {dpid : Nat} {out : List (Nat × SwitchMsg)} (hdatapaths : s'.datapaths = s.datapaths)
    (hnet : s'.net = s.net) (hout : s'.switch_out = s.switch_out ++ out) (hrules : rulesFor mac out = []) :
    Serves mac dpid s s' := by
  refine ⟨hdatapaths, fun a b => by rw [hnet], out, hout, fun r hr => ?_⟩
  rw [hrules] at hr
  exact absurd hr List.not_mem_nil

theorem serves_refl (mac : Bytes) (dpid : Nat) (s : Layer2Switch env.nx.Graph) : Serves mac dpid s s :=
  serves_of_net rfl rfl (List.append_nil _).symm rfl

theorem Routed.serves {path : List Node} {dpid : Nat} {dst : Bytes} (h : Routed mac dst path s s')
    (hpath : env.nx.shortest_path s.net (.dpid dpid) (.mac dst) = .ok path) : Serves mac dpid s s' := by
  obtain ⟨out, rfl, hrules⟩ := h
  refine ⟨rfl, fun _ _ => rfl, out, rfl, fun r hr => ?_⟩
  obtain ⟨hdst, hon⟩ := hrules r hr
  subst hdst
  exact ⟨path, hpath, hon⟩

theorem serves_forward (hkeyed : Keyed s) (now : Nat) (msg : PacketIn) (eth : Ethernet) (mac : Bytes) :
    wp (forward env now msg eth) s (fun _ => Serves mac msg.datapath.id s) fun _ => Serves mac msg.datapath.id s := by
  unfold forward
  simp only [wp_bind, wp_get, wp_ite, wp_pure]
  refine ⟨fun _ => ?_, fun _ => ⟨fun _ => ?_, fun _ => ⟨fun _ => ?_, fun _ => serves_refl mac _ s⟩⟩⟩
  · cases hpath : env.nx.shortest_path s.net (.dpid msg.datapath.id) (.mac eth.dst) with
    | ok path =>
      exact wp_mono (wp_forwardPath msg eth mac path s hkeyed) (fun _ _ h => h.serves hpath) fun _ _ h => h.serves hpath
    | error e => cases e <;> exact serves_refl mac _ s
  · exact serves_of_net rfl rfl rfl (rulesFor_packetOut _ _ _ _ _ _)
  · exact wp_mono (steady_askCentral now msg eth s) (fun _ s' h => h.serves (serves_refl mac _ s')) fun _ s' h => h.serves (serves_refl mac _ s')

theorem serves_ofp_packet_in_handler (hkeyed : Keyed s) (now : Nat) (msg : PacketIn) (mac : Bytes) :
    wp (ofp_packet_in_handler env now msg) s (fun _ => Serves mac msg.datapath.id s)
      fun _ => Serves mac msg.datapath.id s := by
  unfold ofp_packet_in_handler
  cases msg.pkt.eth with
  | none => exact serves_refl mac _ s
  | some eth =>
    have hsteady : ∀ {x : App env Unit}, Moves Steady x →
        wp x s (fun _ => Serves mac msg.datapath.id s) fun _ => Serves mac msg.datapath.id s := fun hx =>
      wp_mono (hx s) (fun _ s' h => h.serves (serves_refl mac _ s')) fun _ s' h => h.serves (serves_refl mac _ s')
    simp only [wp_ite, wp_bind]
    refine ⟨fun _ => hsteady (moves_markPort (fun _ _ _ _ => ⟨rfl, rfl, fun _ _ => rfl⟩) _ _), fun _ => ?_⟩
    refine wp_mono (steady_countPacket _ s) (fun _ s₁ h₁ => ?_) fun _ s₁ h₁ => h₁.serves (serves_refl mac _ s₁)
    refine wp_mono (steady_learnHost _ _ _ s₁) (fun _ s₂ h₂ => ?_) fun _ s₂ h₂ =>
      (trans_of Steady h₁ h₂).serves (serves_refl mac _ s₂)
    have h₂ := trans_of Steady h₁ h₂
    exact wp_mono (serves_forward (h₂.keyed hkeyed) now msg eth mac) (fun _ _ h => h₂.serves h) fun _ _ h => h₂.serves h

theorem serves_step (hkeyed : Keyed s) (now : Nat) (msg : PacketIn) (mac : Bytes) :
    Serves mac msg.datapath.id s (step env s (.PacketIn now msg)) :=
  step_of_wp (fun _ h => ⟨h.datapaths, h.edges, h.rules⟩) (serves_ofp_packet_in_handler hkeyed now msg mac)

/-! ### Distance -/

def Attached {Γ : Type} (mac : Bytes) (dpid port : Nat) (s : Layer2Switch Γ) : Prop :=
  (s.mac_to_port.get dpid).bind (fun macs => Dict.get macs mac) = some port

instance {Γ : Type} (mac : Bytes) (dpid port : Nat) (s : Layer2Switch Γ) : Decidable (Attached mac dpid port s) :=
  inferInstanceAs (Decidable (_ = _))

/-- The edges between switches and the one to the host. -/
def ToHost (net : env.nx.Graph) (mac : Bytes) (dpid : Nat) : Node → Node → Prop
  | .dpid a, .dpid b => (env.nx.edge net (.dpid a) (.dpid b)).isSome = true
  | .dpid a, .mac m => a = dpid ∧ m = mac
  | .mac _, _ => False

variable {dpid port : Nat}

theorem isSome_of_toHost (h : HostInv s) (hat : Attached mac dpid port s) {u v : Node}
    (huv : ToHost s.net mac dpid u v) : (env.nx.edge s.net u v).isSome = true := by
  obtain ⟨_, f, hosts⟩ := h
  cases u with
  | mac m => exact huv.elim
  | dpid a =>
    cases v with
    | dpid b => exact huv
    | mac m =>
      obtain ⟨rfl, rfl⟩ := huv
      have hf := (hosts.table a m port).mp hat
      rw [(hosts.graph.into (.mac m) (.dpid a) (some port) trivial).mpr (homeOf_mac.mpr ⟨a, port, hf, rfl, rfl⟩)]
      rfl

theorem isShortest_toHost (h : HostInv s) (hat : Attached mac dpid port s) {d : Nat} {path : List Node}
    (hpath : env.nx.shortest_path s.net (.dpid d) (.mac mac) = .ok path) :
    IsShortest (ToHost s.net mac dpid) (.dpid d) (.mac mac) path := by
  have hshort := env.nx.shortest_path_ok _ _ _ _ hpath
  refine hshort.restrict (fun u v => isSome_of_toHost h hat) ?_
  obtain ⟨_, f, hosts⟩ := h
  have hf := (hosts.table dpid mac port).mp hat
  rw [List.isChain_iff_forall_rel_of_append_cons_cons]
  intro u v l₁ l₂ hsplit
  have hstart : ¬ Node.IsMac (.dpid d) := Node.not_isMac_dpid d
  have huv : (env.nx.edge s.net u v).isSome = true :=
    List.isChain_iff_forall_rel_of_append_cons_cons.mp hshort.1.chain hsplit
  have hu := hosts.graph.hub_of_path hshort.1 hshort.nodup hstart hsplit
  cases u with
  | mac m => exact absurd trivial hu
  | dpid a =>
    cases v with
    | dpid b => exact huv
    | mac m =>
      -- a host ends the path, and it ends at `mac`
      have hlast : l₂ = [] := by
        cases l₂ with
        | nil => rfl
        | cons w l₂ =>
          rw [List.append_cons] at hsplit
          exact absurd trivial (hosts.graph.hub_of_path hshort.1 hshort.nodup hstart hsplit)
      have hm := hshort.1.last
      rw [hsplit, hlast, List.getLast?_append_of_ne_nil _ (by simp)] at hm
      cases hm
      obtain ⟨data, hdata⟩ := Option.isSome_iff_exists.mp huv
      obtain ⟨d', p', hf', hd', _⟩ := homeOf_mac.mp ((hosts.graph.into (.mac mac) (.dpid a) data trivial).mp hdata)
      rw [hf] at hf'
      cases hf'
      cases hd'
      exact ⟨rfl, rfl⟩

/-! ### Tables -/

def installed (env : LocalEnv) (mac : Bytes) (s : Layer2Switch env.nx.Graph) :
    LocalEvent → List (Node × Hop Node × List OFPActionOutput)
  | .PacketIn now msg =>
    let s' := step env s (.PacketIn now msg)
    readRules mac ((env.nx.shortest_path s'.net (.dpid msg.datapath.id) (.mac mac)).toOption.getD [])
      (s'.switch_out.drop s.switch_out.length)
  | _ => []

def tableAfter (env : LocalEnv) (mac : Bytes) : Layer2Switch env.nx.Graph → Table Node (List OFPActionOutput) →
    List LocalEvent → Table Node (List OFPActionOutput)
  | _, T, [] => T
  | s, T, e :: es => tableAfter env mac (step env s e) (installAll T (installed env mac s e)) es

def IsPacketIn : LocalEvent → Prop
  | .PacketIn .. => True
  | _ => False

instance : ∀ e, Decidable (IsPacketIn e)
  | .PacketIn .. => isTrue trivial
  | .SwitchFeatures _ | .RoleReply .. | .TopologyChange _ | .SwitchLeave _ | .Connected | .Downlink .. | .LoadRound
  | .GraphInfoRound _ | .TimeoutRound _ => isFalse not_false

/-- A packet-in that leaves the host where it is. -/
def PacketInAt (env : LocalEnv) (mac : Bytes) (dpid port : Nat) (s : Layer2Switch env.nx.Graph) (e : LocalEvent) : Prop :=
  IsPacketIn e ∧ Attached mac dpid port s ∧ Attached mac dpid port (step env s e)

instance (s : Layer2Switch env.nx.Graph) (e : LocalEvent) : Decidable (PacketInAt env mac dpid port s e) :=
  inferInstanceAs (Decidable (_ ∧ _ ∧ _))

/-- A rule of a switch that brings a packet nearer to the host, by the port of the edge. -/
def Nearer (net : env.nx.Graph) (mac : Bytes) (dpid port : Nat) (u : Node) (x : Hop Node × List OFPActionOutput) : Prop :=
  ∃ d v p, u = .dpid d ∧ x = (.next v, [{ port := p }]) ∧ ToHost net mac dpid u v ∧
    dist (ToHost net mac dpid) (.mac mac) v < dist (ToHost net mac dpid) (.mac mac) u ∧
    (v = .mac mac → p = port) ∧ ∀ b, v = .dpid b → env.nx.edge net u v = some (some p)

def SameEdges (net : env.nx.Graph) (s : Layer2Switch env.nx.Graph) : Prop :=
  ∀ a b, env.nx.edge s.net (.dpid a) (.dpid b) = env.nx.edge net (.dpid a) (.dpid b)

theorem toHost_congr {net : env.nx.Graph} (h : SameEdges net s) : ToHost s.net mac dpid = ToHost net mac dpid := by
  funext u v
  cases u with
  | mac m => rfl
  | dpid a =>
    cases v with
    | mac m => rfl
    | dpid b =>
      show ((env.nx.edge s.net (.dpid a) (.dpid b)).isSome = true) = _
      rw [h a b]
      rfl

theorem nearer_of_ruleOn {net : env.nx.Graph} (h : HostInv s) (hat : Attached mac dpid port s) (hnet : SameEdges net s)
    {d : Nat} {path : List Node} (hpath : env.nx.shortest_path s.net (.dpid d) (.mac mac) = .ok path)
    {r : Nat × List OFPActionOutput} (hr : RuleOn s.net path r) :
    Nearer net mac dpid port (.dpid r.1) (hopAfter path r.1, r.2) := by
  obtain ⟨l₁, v, l₂, p, hsplit, hedge, hacts⟩ := hr
  have hshort := isShortest_toHost h hat hpath
  rw [toHost_congr hnet] at hshort
  have hnodup := hshort.nodup
  rw [hsplit] at hnodup
  have hto : ToHost net mac dpid (.dpid r.1) v := List.isChain_iff_forall_rel_of_append_cons_cons.mp hshort.1.chain hsplit
  refine ⟨r.1, v, p, rfl, ?_, hto, hshort.dist_lt hsplit, fun hv => ?_, fun b hb => ?_⟩
  · rw [hsplit, hopAfter_of_split hnodup, hacts]
  · subst hv
    obtain ⟨_, f, hosts⟩ := h
    obtain ⟨hd, _⟩ := hto
    have hf := (hosts.table dpid mac port).mp hat
    have hhome := (hosts.graph.into (.mac mac) (.dpid r.1) (some p) trivial).mp hedge
    rw [homeOf_mac] at hhome
    obtain ⟨d', p', hf', _, hp⟩ := hhome
    rw [hf] at hf'
    cases hf'
    cases hp
    rfl
  · subst hb
    rw [← hnet]
    exact hedge

theorem nearer_installed {net : env.nx.Graph} {e : LocalEvent} (h : HostInv s) (hkeyed : Keyed s) (hnet : SameEdges net s)
    (hok : PacketInAt env mac dpid port s e) :
    SameEdges net (step env s e) ∧ ∀ r ∈ installed env mac s e, Nearer net mac dpid port r.1 r.2 := by
  obtain ⟨hin, _, hat⟩ := hok
  cases e with
  | PacketIn now msg =>
    have hserves := serves_step hkeyed now msg mac
    have hnet' : SameEdges net (step env s (.PacketIn now msg)) := fun a b => (hserves.edges a b).trans (hnet a b)
    refine ⟨hnet', fun r hr => ?_⟩
    obtain ⟨out, hout, hrules⟩ := hserves.rules
    unfold installed readRules at hr
    simp only [hout, List.drop_left] at hr
    obtain ⟨q, hq, rfl⟩ := List.mem_map.mp hr
    obtain ⟨path, hpath, hon⟩ := hrules q hq
    rw [hpath]
    have hlawful : Lawful env s (.PacketIn now msg) := trivial
    exact nearer_of_ruleOn (hostInv_step h hlawful) hat hnet' hpath hon
  | _ => exact hin.elim

theorem nearer_tableAfter {net : env.nx.Graph} : ∀ (es : List LocalEvent) (s : Layer2Switch env.nx.Graph)
    (T : Table Node (List OFPActionOutput)), HostInv s → Keyed s → SameEdges net s →
      Allowed (step env) (PacketInAt env mac dpid port) s es → (∀ u x, T u = some x → Nearer net mac dpid port u x) →
      ∀ u x, tableAfter env mac s T es u = some x → Nearer net mac dpid port u x
  | [], _, _, _, _, _, _, hT => hT
  | e :: es, s, T, h, hkeyed, hnet, hok, hT => by
    obtain ⟨hnet', hrules⟩ := nearer_installed h hkeyed hnet hok.1
    have hlawful : Lawful env s e := by
      have hin := hok.1.1
      cases e with
      | PacketIn => trivial
      | _ => exact hin.elim
    exact nearer_tableAfter es (step env s e) (installAll T (installed env mac s e)) (hostInv_step h hlawful)
      (keyed_step hkeyed e) hnet' hok.2 (installAll_forall hT hrules)

/-- The rules send along the edges of the graph, and whoever follows them meets no
node twice before the host's own port or a switch without a rule. -/
structure LeadToHost (env : LocalEnv) (T : Table Node (List OFPActionOutput)) (net : env.nx.Graph) (mac : Bytes)
    (dpid port : Nat) : Prop where
  rules : ∀ u x, T u = some x → ∃ d v p, u = .dpid d ∧ x = (.next v, [{ port := p }]) ∧
    (v = .mac mac ∧ d = dpid ∧ p = port ∨ (∃ b, v = .dpid b) ∧ env.nx.edge net u v = some (some p))
  ends : ∀ u x, T u = some x → ∃ t, Follows T u t ∧ (t = .mac mac ∨ (∃ d, t = .dpid d) ∧ T t = none)

theorem leadToHost_of_nearer {net : env.nx.Graph} {T : Table Node (List OFPActionOutput)}
    (hT : ∀ u x, T u = some x → Nearer net mac dpid port u x) : LeadToHost env T net mac dpid port := by
  have hleads : ∀ u v, Leads T u v → ToHost net mac dpid u v ∧
      dist (ToHost net mac dpid) (.mac mac) v < dist (ToHost net mac dpid) (.mac mac) u := by
    intro u v huv
    obtain ⟨a, ha⟩ := huv
    obtain ⟨d, w, p, _, hx, hto, hlt, _⟩ := hT u _ ha
    cases hx
    exact ⟨hto, hlt⟩
  refine ⟨fun u x hu => ?_, fun u x hu => ?_⟩
  · obtain ⟨d, v, p, rfl, hx, hto, _, hport, hedge⟩ := hT u x hu
    refine ⟨d, v, p, rfl, hx, ?_⟩
    cases v with
    | dpid b => exact Or.inr ⟨⟨b, rfl⟩, hedge b rfl⟩
    | mac m =>
      obtain ⟨hd, rfl⟩ := hto
      exact Or.inl ⟨rfl, hd, hport rfl⟩
  · obtain ⟨t, p, hp, hnodup, hstop⟩ := follows_of_rank _ (fun u v huv => (hleads u v huv).2) u
    refine ⟨t, ⟨p, hp, hnodup, hstop⟩, ?_⟩
    have hnone : T t = none := by
      cases ht : T t with
      | none => rfl
      | some y =>
        obtain ⟨d, v, q, _, rfl, _⟩ := hT t y ht
        exact absurd ⟨_, ht⟩ (hstop v)
    cases t with
    | dpid d => exact Or.inr ⟨⟨d, rfl⟩, hnone⟩
    | mac m =>
      -- only the last hop goes to a host
      refine Or.inl ?_
      rcases List.eq_nil_or_concat p with rfl | ⟨l, w, rfl⟩
      · cases hp.head
      · rw [List.concat_eq_append] at hp
        have hw := hp.last
        rw [List.getLast?_concat] at hw
        cases hw
        rcases List.eq_nil_or_concat l with rfl | ⟨l, v, rfl⟩
        · cases hp.head
          obtain ⟨d, _, _, hd, _⟩ := hT _ x hu
          cases hd
        · rw [List.concat_eq_append, List.append_assoc] at hp
          obtain ⟨hto, _⟩ := hleads v (.mac m) (List.isChain_iff_forall_rel_of_append_cons_cons.mp hp.chain rfl)
          cases v with
          | dpid d => rw [hto.2]
          | mac m' => exact hto.elim

/-- **Destination rules never loop**, whatever packets to a host that stays
overwrite them. -/
theorem packet_in_rules_never_loop (env : LocalEnv) (xid : Nat) (es ps : List LocalEvent) (mac : Bytes) (dpid port : Nat)
    (h : Allowed (step env) (Lawful env) (init env xid) es)
    (hps : Allowed (step env) (PacketInAt env mac dpid port) (es.foldl (step env) (init env xid)) ps) :
    LeadToHost env (tableAfter env mac (es.foldl (step env) (init env xid)) (fun _ => none) ps)
      (es.foldl (step env) (init env xid)).net mac dpid port := by
  have hinv : HostInv (es.foldl (step env) (init env xid)) :=
    h.invariant HostInv (fun _ _ => hostInv_step) (hostInv_init xid)
  have hempty : ∀ u x, (fun _ => none : Table Node (List OFPActionOutput)) u = some x →
      Nearer (es.foldl (step env) (init env xid)).net mac dpid port u x := by
    intro u x hu
    cases hu
  exact leadToHost_of_nearer (nearer_tableAfter ps _ _ hinv (keyed_run xid es) (fun _ _ => rfl) hps hempty)

/-- Three switches in a triangle, a host at each of the first two, and a third host that shows up later. -/
def triangleRun : List LocalEvent :=
  [.SwitchFeatures ⟨1, "10.0.0.1"⟩, .SwitchFeatures ⟨2, "10.0.0.1"⟩, .SwitchFeatures ⟨3, "10.0.0.1"⟩,
    .TopologyChange ⟨[1, 2, 3], [], [⟨⟨1, 1⟩, ⟨2, 1⟩⟩, ⟨⟨2, 2⟩, ⟨3, 1⟩⟩, ⟨⟨1, 2⟩, ⟨3, 2⟩⟩]⟩,
    samplePacket 1 3 (asciiText "00:00:00:00:00:01") BROADCAST_STR,
    samplePacket 2 3 (asciiText "00:00:00:00:00:02") BROADCAST_STR]

theorem packet_in_rules_never_loop_triangle :
    LeadToHost sampleLocalEnv (tableAfter sampleLocalEnv (asciiText "00:00:00:00:00:01")
        (triangleRun.foldl (step sampleLocalEnv) (init sampleLocalEnv 0)) (fun _ => none)
        [samplePacket 2 3 (asciiText "00:00:00:00:00:02") (asciiText "00:00:00:00:00:01"),
          samplePacket 3 3 (asciiText "00:00:00:00:00:03") (asciiText "00:00:00:00:00:01")])
      (triangleRun.foldl (step sampleLocalEnv) (init sampleLocalEnv 0)).net (asciiText "00:00:00:00:00:01") 1 3 :=
  packet_in_rules_never_loop sampleLocalEnv 0 triangleRun _ _ _ _ (by decide +kernel) (by decide +kernel)

end

/-! ## Flow mods between domains -/

section
variable {s s' : Layer2Switch env.nx.Graph} {mac : Bytes}

/-- The rules of the path's nodes, the last of which sends out of the region. -/
def PathRules (net : env.nx.Graph) (region_out_port : Nat) : List Node → List (Nat × List OFPActionOutput) → Prop
  | [.dpid d], rules => rules = [(d, [{ port := region_out_port }])]
  | .dpid d :: v :: rest, rules => ∃ port rules', rules = (d, [{ port }]) :: rules' ∧
      env.nx.edge net (.dpid d) v = some (some port) ∧ PathRules net region_out_port (v :: rest) rules'
  | _, _ => False

theorem wp_pathRules (region_out_port : Nat) : ∀ (path : List Node) (s : Layer2Switch env.nx.Graph), Keyed s →
    wp (pathRules env mac path) s
      (fun _ s' => ∃ out, s' = { s with switch_out := s.switch_out ++ out } ∧ ∀ d, path.getLast? = some (.dpid d) →
        PathRules s.net region_out_port path (rulesFor mac out ++ [(d, [{ port := region_out_port }])]))
      fun _ _ => True
  | [], s, _ => ⟨[], by rw [List.append_nil], fun d hd => (by cases hd)⟩
  | [u], s, _ => by
    refine ⟨[], by rw [List.append_nil], fun d hd => ?_⟩
    cases hd
    rfl
  | node :: next :: rest, s, hkeyed => by
    unfold pathRules edgePort
    simp only [wp_bind, wp_get, wp_key]
    refine ⟨fun data hedge => ⟨fun out_port hdata => ?_, fun _ => trivial⟩, fun _ => trivial⟩
    cases node with
    | mac m => exact trivial
    | dpid dpid =>
      unfold nodeDatapath add_flow send_switch
      simp only [wp_bind, wp_get, wp_item, wp_modify]
      refine ⟨fun datapath hget => ?_, fun _ => trivial⟩
      have hid : datapath.id = dpid := hkeyed dpid datapath hget
      refine wp_mono (wp_pathRules region_out_port (next :: rest) _ hkeyed) (fun _ s₁ h₁ => ?_) fun _ _ h₁ => h₁
      obtain ⟨out, rfl, hrules⟩ := h₁
      refine ⟨_, by rw [List.append_assoc], fun d hd => ?_⟩
      rw [rulesFor_append, rulesFor_flowMod, if_pos rfl, hid]
      refine ⟨out_port, rulesFor mac out ++ [(d, [{ port := region_out_port }])], rfl, by rw [hedge, hdata], hrules d ?_⟩
      rw [List.getLast?_cons_cons] at hd
      exact hd

structure Idle (s s' : Layer2Switch env.nx.Graph) : Prop where
  datapaths : s'.datapaths = s.datapaths
  net : s'.net = s.net
  switch_out : s'.switch_out = s.switch_out

instance : IsPreorder (Layer2Switch env.nx.Graph) Idle where
  refl _ := ⟨rfl, rfl, rfl⟩
  trans _ _ _ h h' := ⟨h'.datapaths.trans h.datapaths, h'.net.trans h.net, h'.switch_out.trans h.switch_out⟩

/-- The rules for `mac` among what was sent to the switches are none or those of a whole path. -/
def Programmed (mac : Bytes) (in_dpid out_dpid region_out_port : Nat) (s s' : Layer2Switch env.nx.Graph) : Prop :=
  s'.net = s.net ∧ ∃ out, s'.switch_out = s.switch_out ++ out ∧ (rulesFor mac out = [] ∨
    ∃ path, env.nx.shortest_path s.net (.dpid in_dpid) (.dpid out_dpid) = .ok path ∧
      PathRules s.net region_out_port path (rulesFor mac out))

theorem programmed_idle {in_dpid out_dpid region_out_port : Nat} (h : Idle s s') :
    Programmed mac in_dpid out_dpid region_out_port s s' :=
  ⟨h.net, [], by rw [h.switch_out, List.append_nil], Or.inl rfl⟩

section
variable {in_dp : OfDatapath} {in_dpid out_dpid region_out_port : Nat} {path : List Node}

theorem path_to_itself (h : env.nx.shortest_path s.net (.dpid in_dpid) (.dpid in_dpid) = .ok path) :
    path = [.dpid in_dpid] := by
  have hshort := env.nx.shortest_path_ok _ _ _ _ h
  have hle := hshort.2 [.dpid in_dpid] ⟨.singleton _, rfl, rfl⟩
  have hhead := hshort.1.head
  cases path with
  | nil => cases hhead
  | cons u rest =>
    cases hhead
    rw [List.length_cons, List.length_singleton] at hle
    have hrest : rest = [] := List.eq_nil_of_length_eq_zero (by omega)
    rw [hrest]

theorem wp_installUnbuffered (hkeyed : Keyed s) (hin : in_dp.id = in_dpid) (data : Option Bytes)
    (hpath : env.nx.shortest_path s.net (.dpid in_dpid) (.dpid out_dpid) = .ok path) :
    wp (installUnbuffered env in_dp in_dpid out_dpid region_out_port mac data path) s
      (fun _ => Programmed mac in_dpid out_dpid region_out_port s) fun _ _ => True := by
  unfold installUnbuffered
  simp only [wp_ite, wp_bind]
  refine ⟨fun he => ?_, fun _ => ?_⟩
  · refine ⟨rfl, _, rfl, Or.inr ⟨path, hpath, ?_⟩⟩
    subst he
    rw [path_to_itself hpath, rulesFor_flowMod, if_pos rfl, hin]
    rfl
  · refine wp_mono (wp_pathRules region_out_port path s hkeyed) (fun _ s₁ h₁ => ?_) fun _ _ h => h
    obtain ⟨out, rfl, hrules⟩ := h₁
    unfold add_flow exitPacketOut send_switch
    simp only [wp_get, wp_item, wp_modify, wp_ite, wp_throw]
    refine ⟨fun out_dp hget => ⟨fun _ => ?_, fun _ => trivial⟩, fun _ => trivial⟩
    have hid : out_dp.id = out_dpid := hkeyed out_dpid out_dp hget
    refine ⟨rfl, _, by rw [List.append_assoc, List.append_assoc], Or.inr ⟨path, hpath, ?_⟩⟩
    rw [rulesFor_append, rulesFor_append, rulesFor_flowMod, if_pos rfl, hid, rulesFor_packetOut, List.append_nil]
    exact hrules out_dpid (env.nx.shortest_path_ok _ _ _ _ hpath).1.last

theorem wp_installBuffered (hkeyed : Keyed s) (hin : in_dp.id = in_dpid) (buffer_id : Nat)
    (hpath : env.nx.shortest_path s.net (.dpid in_dpid) (.dpid out_dpid) = .ok path) :
    wp (installBuffered env in_dp in_dpid out_dpid region_out_port mac buffer_id path) s
      (fun _ => Programmed mac in_dpid out_dpid region_out_port s) fun _ _ => True := by
  unfold installBuffered
  simp only [wp_ite]
  refine ⟨fun he => ?_, fun _ => ?_⟩
  · refine ⟨rfl, _, rfl, Or.inr ⟨path, hpath, ?_⟩⟩
    subst he
    rw [path_to_itself hpath, rulesFor_flowMod, if_pos rfl, hin]
    rfl
  · have hp := (env.nx.shortest_path_ok _ _ _ _ hpath).1
    obtain ⟨rest, rfl⟩ : ∃ rest, path = .dpid in_dpid :: rest := by
      cases path with
      | nil => cases hp.head
      | cons u rest =>
        cases hp.head
        exact ⟨rest, rfl⟩
    rw [List.idxOf_cons_self, Nat.zero_add, List.getElem?_cons_succ]
    cases rest with
    | nil => exact trivial
    | cons next_hop rest =>
      rw [List.getElem?_cons_zero]
      unfold edgePort add_flow send_switch
      simp only [wp_bind, wp_get, wp_key, wp_modify]
      refine ⟨fun edge hedge => ⟨fun out_port hdata => ?_, fun _ => trivial⟩, fun _ => trivial⟩
      refine wp_mono (wp_pathRules region_out_port (next_hop :: rest) _ hkeyed) (fun _ s₁ h₁ => ?_) fun _ _ h => h
      obtain ⟨out, rfl, hrules⟩ := h₁
      simp only [wp_item]
      refine ⟨fun out_dp hget => ?_, fun _ => trivial⟩
      have hid : out_dp.id = out_dpid := hkeyed out_dpid out_dp hget
      refine ⟨rfl, _, by rw [List.append_assoc, List.append_assoc], Or.inr ⟨_, hpath, ?_⟩⟩
      rw [rulesFor_append, rulesFor_append, rulesFor_flowMod, rulesFor_flowMod, if_pos rfl, if_pos rfl, hid, hin]
      refine ⟨out_port, _, rfl, by rw [hedge, hdata], hrules out_dpid ?_⟩
      have := hp.last
      rw [List.getLast?_cons_cons] at this
      exact this

theorem wp_cc_flow_mod_handler (hkeyed : Keyed s) (xid : Nat) :
    wp (cc_flow_mod_handler env xid in_dpid out_dpid region_out_port mac) s
      (fun _ => Programmed mac in_dpid out_dpid region_out_port s) fun _ _ => True := by
  have hstay : Programmed mac in_dpid out_dpid region_out_port s s := programmed_idle (refl_of Idle s)
  unfold cc_flow_mod_handler
  simp only [wp_bind, wp_get, wp_ite, wp_item, wp_pure]
  refine ⟨fun _ => ⟨fun in_dp hget => ?_, fun _ => trivial⟩, fun _ => hstay⟩
  have hin : in_dp.id = in_dpid := hkeyed in_dpid in_dp hget
  have hpending : Moves Idle (takePending env xid) :=
    moves_takePending (fun _ _ _ => ⟨rfl, rfl, rfl⟩) xid fun _ _ _ => ⟨rfl, rfl, rfl⟩
  refine wp_mono (hpending s) (fun pending s₁ h₁ => ?_) fun _ _ _ => trivial
  have hkeyed₁ : Keyed s₁ := fun dpid datapath hget => hkeyed dpid datapath (by rw [← h₁.datapaths]; exact hget)
  have hlift : ∀ {x : App env Unit}, wp x s₁ (fun _ => Programmed mac in_dpid out_dpid region_out_port s₁)
      (fun _ _ => True) → wp x s₁ (fun _ => Programmed mac in_dpid out_dpid region_out_port s) fun _ _ => True := by
    intro x hx
    refine wp_mono hx (fun _ s₂ h₂ => ?_) fun _ _ h => h
    obtain ⟨hnet, out, hout, hrules⟩ := h₂
    rw [h₁.net] at hnet hrules
    rw [h₁.switch_out] at hout
    exact ⟨hnet, out, hout, hrules⟩
  cases hpath : env.nx.shortest_path s₁.net (.dpid in_dpid) (.dpid out_dpid) with
  | error e => cases e <;> first | exact programmed_idle h₁ | exact trivial
  | ok path =>
    simp only [wp_ite]
    exact ⟨fun _ => hlift (wp_installBuffered hkeyed₁ hin _ hpath), fun _ => hlift (wp_installUnbuffered hkeyed₁ hin _ hpath)⟩

end

/-- What a rule for `mac` says, in the graph it was installed in. -/
def Says (net : env.nx.Graph) (out_dpid region_out_port : Nat) (u : Node) : Hop Node × List OFPActionOutput → Prop
  | (.next v, actions) => ∃ port, env.nx.edge net u v = some (some port) ∧ actions = [{ port }]
  | (.leave, actions) => u = .dpid out_dpid ∧ actions = [{ port := region_out_port }]

theorem read_pathRules {net : env.nx.Graph} {out_dpid region_out_port : Nat} :
    ∀ (path before : List Node) (rules : List (Nat × List OFPActionOutput)), PathRules net region_out_port path rules →
      path.getLast? = some (.dpid out_dpid) → (before ++ path).Nodup →
      rules.map (fun r => (Node.dpid r.1, hopAfter (before ++ path) r.1)) = pathHops path ∧
        ∀ r ∈ rules, Says net out_dpid region_out_port (.dpid r.1) (hopAfter (before ++ path) r.1, r.2)
  | [.dpid d], before, rules, h, hlast, hnodup => by
    subst h
    have hhop := hopAfter_of_last hnodup
    refine ⟨by rw [List.map_singleton, hhop]; rfl, fun r hr => ?_⟩
    have hr := List.mem_singleton.mp hr
    subst hr
    rw [hhop]
    cases hlast
    exact ⟨rfl, rfl⟩
  | .dpid d :: v :: rest, before, rules, h, hlast, hnodup => by
    obtain ⟨port, rules', rfl, hedge, hrules⟩ := h
    have hhop := hopAfter_of_split hnodup
    rw [List.append_cons] at hnodup hhop ⊢
    rw [List.getLast?_cons_cons] at hlast
    obtain ⟨hhops, hsays⟩ := read_pathRules (v :: rest) (before ++ [.dpid d]) rules' hrules hlast hnodup
    refine ⟨by rw [List.map_cons, hhops, hhop]; rfl, fun r hr => ?_⟩
    rcases List.mem_cons.mp hr with rfl | hr
    · rw [hhop]
      exact ⟨port, hedge, rfl⟩
    · exact hsays r hr

end

/-! ### Tables -/

/-- A flow mod for a destination and the state it arrives in. -/
structure FlowModCall (env : LocalEnv) where
  state : Layer2Switch env.nx.Graph
  keyed : Keyed state
  xid : Nat
  in_dpid : Nat
  out_dpid : Nat
  region_out_port : Nat

namespace FlowModCall

variable (c : FlowModCall env) (mac : Bytes)

def handled : EStateM.Result Exn (Layer2Switch env.nx.Graph) Unit :=
  cc_flow_mod_handler env c.xid c.in_dpid c.out_dpid c.region_out_port mac c.state

def sent : List (Nat × SwitchMsg) :=
  match c.handled mac with
  | .ok _ s' | .error _ s' => s'.switch_out.drop c.state.switch_out.length

/-- The rules for `mac`, each with the hop of the path at install time. -/
def installed : List (Node × Hop Node × List OFPActionOutput) :=
  readRules mac ((env.nx.shortest_path c.state.net (.dpid c.in_dpid) (.dpid c.out_dpid)).toOption.getD []) (c.sent mac)

/-- The handler runs to completion or installs nothing. -/
def Completes : Prop :=
  match c.handled mac with
  | .ok _ _ => True
  | .error _ _ => rulesFor mac (c.sent mac) = []

instance : Decidable (c.Completes mac) :=
  match h : c.handled mac with
  | .ok _ _ => isTrue (by unfold Completes; rw [h]; trivial)
  | .error _ _ => decidable_of_iff (rulesFor mac (c.sent mac) = []) (by unfold Completes; rw [h])

end FlowModCall

def flowTable (mac : Bytes) (calls : List (FlowModCall env)) : Table Node (List OFPActionOutput) :=
  calls.foldl (fun T c => installAll T (c.installed mac)) fun _ => none

variable {c : FlowModCall env} {mac : Bytes}

theorem installed_cases (h : c.Completes mac) : c.installed mac = [] ∨
    ∃ path, path ≠ [] ∧ path.Nodup ∧ (c.installed mac).map (fun r => (r.1, r.2.1)) = pathHops path ∧
      ∀ r ∈ c.installed mac, Says c.state.net c.out_dpid c.region_out_port r.1 r.2 := by
  have hwp : wp (cc_flow_mod_handler env c.xid c.in_dpid c.out_dpid c.region_out_port mac) c.state
      (fun _ => Programmed mac c.in_dpid c.out_dpid c.region_out_port c.state) fun _ _ => True :=
    wp_cc_flow_mod_handler c.keyed c.xid
  unfold FlowModCall.Completes FlowModCall.handled at h
  unfold FlowModCall.installed readRules
  unfold wp at hwp
  cases hx : cc_flow_mod_handler env c.xid c.in_dpid c.out_dpid c.region_out_port mac c.state with
  | error e s' =>
    rw [hx] at h
    exact Or.inl (by rw [h]; rfl)
  | ok _ s' =>
    rw [hx] at hwp
    obtain ⟨_, out, hout, hrules⟩ := hwp
    have hsent : c.sent mac = out := by
      unfold FlowModCall.sent FlowModCall.handled
      rw [hx]
      show s'.switch_out.drop _ = out
      rw [hout, List.drop_left]
    rw [hsent]
    rcases hrules with hnone | ⟨path, hpath, hrules⟩
    · exact Or.inl (by rw [hnone]; rfl)
    · have hshort := env.nx.shortest_path_ok _ _ _ _ hpath
      have hne : path ≠ [] := fun he => by
        have := hshort.1.head
        rw [he] at this
        cases this
      obtain ⟨hhops, hsays⟩ := read_pathRules path [] (rulesFor mac out) hrules hshort.1.last hshort.nodup
      rw [hpath]
      refine Or.inr ⟨path, hne, hshort.nodup, by rw [List.map_map]; exact hhops, fun r hr => ?_⟩
      obtain ⟨q, hq, rfl⟩ := List.mem_map.mp hr
      exact hsays q hq

/-- Each rule says what one of the flow mods asked for, and whoever follows the rules
meets no switch twice before one that sends out of the region. -/
structure LeavesRegion (T : Table Node (List OFPActionOutput)) (calls : List (FlowModCall env)) : Prop where
  rules : ∀ u x, T u = some x → ∃ c ∈ calls, Says c.state.net c.out_dpid c.region_out_port u x
  ends : ∀ u x, T u = some x → ∃ t a, Follows T u t ∧ T t = some (.leave, a)

/-- **Rules between domains never loop**, whatever the graph was at each flow mod. -/
theorem flow_mod_rules_never_loop (env : LocalEnv) (mac : Bytes) (calls : List (FlowModCall env))
    (h : ∀ c ∈ calls, c.Completes mac) : LeavesRegion (flowTable mac calls) calls := by
  have hall : ∀ (rest : List (FlowModCall env)) (T : Table Node (List OFPActionOutput)), (∀ c ∈ rest, c ∈ calls) →
      LeavesRegion T calls → LeavesRegion (rest.foldl (fun T c => installAll T (c.installed mac)) T) calls := by
    intro rest
    induction rest with
    | nil => exact fun _ _ hT => hT
    | cons c rest ih =>
      intro T hrest hT
      refine ih (installAll T (c.installed mac)) (fun c' hc' => hrest c' (List.mem_cons_of_mem _ hc')) ?_
      have hc := hrest c List.mem_cons_self
      rcases installed_cases (h c hc) with hnone | ⟨path, hne, hnodup, hhops, hsays⟩
      · rw [hnone]
        exact hT
      · exact ⟨installAll_forall hT.rules fun r hr => ⟨c, hc, hsays r hr⟩, exits_installAll hhops hnodup hne hT.ends⟩
  refine hall calls _ (fun _ hc => hc) ⟨fun u x hu => ?_, exits_empty⟩
  cases hu

def sampleCall (es : List LocalEvent) (in_dpid out_dpid : Nat) : FlowModCall sampleLocalEnv where
  state := es.foldl (step sampleLocalEnv) (init sampleLocalEnv 0)
  keyed := keyed_run 0 es
  xid := 1
  in_dpid := in_dpid
  out_dpid := out_dpid
  region_out_port := 4

theorem flow_mod_rules_never_loop_overlap :
    LeavesRegion (flowTable (asciiText "00:00:00:00:00:09")
        [sampleCall triangleRun 1 2, sampleCall triangleRun 2 3, sampleCall (triangleRun ++ [.SwitchLeave 3]) 2 1])
      [sampleCall triangleRun 1 2, sampleCall triangleRun 2 3, sampleCall (triangleRun ++ [.SwitchLeave 3]) 2 1] :=
  flow_mod_rules_never_loop sampleLocalEnv _ _ (by decide +kernel)

end Layer2Switch

end VnfDockerNet
