import VnfDockerNet.LinkSound
import VnfDockerNet.ReleaseSound

/-!
# The rules of a local packet-in

The loop over the path looks up the port of each hop and the datapath of its
switch. In a reachable state it finds both. A packet that the switch has
buffered ends the loop after its first hop.
-/

namespace VnfDockerNet

open Python Networkx Runs

namespace Layer2Switch

variable {env : LocalEnv} {s s' : Layer2Switch env.nx.Graph}

/-! ## Hops -/

/-- A hop of a path that the loop can program: a connected switch and the port to `v`. -/
def Hop (s : Layer2Switch env.nx.Graph) (u v : Node) : Prop :=
  ∃ d ∈ s.datapaths, u = .dpid d ∧ ∃ port, env.nx.edge s.net u v = some (some port)

theorem Hop.connects {path : List Node} (h : path.IsChain (Hop s)) : Connects s path.dropLast := by
  intro u hu
  induction path with
  | nil => cases hu
  | cons a path ih =>
    cases path with
    | nil => cases hu
    | cons b path =>
      obtain ⟨hab, hrest⟩ := List.isChain_cons_cons.mp h
      rw [List.dropLast_cons_cons, List.mem_cons] at hu
      rcases hu with rfl | hu
      · obtain ⟨d, hd, rfl, _⟩ := hab
        exact ⟨d, hd, rfl⟩
      · exact ih hrest hu

/-- What the loop over a path to `mac` relies on. -/
structure Walkable (s : Layer2Switch env.nx.Graph) (mac : Bytes) (path : List Node) : Prop where
  switches : Connects s path.dropLast
  last : path.getLast? = some (.mac mac)
  hosts : ∀ m, Node.mac m ∈ path → m = mac
  ports : path.IsChain fun u v => ∃ port, env.nx.edge s.net u v = some (some port)

/-! ## The loop -/

section
variable {msg : PacketIn} {eth : Ethernet} {rule : OFPMatch}

def hopMsgs (msg : PacketIn) (d : Nat) (rule : OFPMatch) (port : Nat) : List (Nat × SwitchMsg) :=
  if msg.buffer_id = OFP_NO_BUFFER then hopOut msg d rule port
  else [(d, .FlowMod (if msg.buffer_id = 0 then OFP_NO_BUFFER else msg.buffer_id) 1 rule [{ port }])]

theorem rulesIn_hopMsgs (msg : PacketIn) (d : Nat) (rule : OFPMatch) (port : Nat) :
    rulesIn (hopMsgs msg d rule port) = [(d, rule, [{ port }])] := by
  unfold hopMsgs
  by_cases hwhole : msg.buffer_id = OFP_NO_BUFFER
  · rw [if_pos hwhole]
    rfl
  · rw [if_neg hwhole]
    rfl

theorem wp_forwardPath_hop (hrule : msg.pkt.rule eth = .ok rule) (hkeyed : Keyed s) {u v : Node} {rest : List Node}
    {Q : Unit → Layer2Switch env.nx.Graph → Prop} {E : Exn → Layer2Switch env.nx.Graph → Prop}
    (hhop : ∀ d ∈ s.datapaths, ∀ port, u = .dpid d → env.nx.edge s.net u v = some (some port) →
      wp (if msg.buffer_id = OFP_NO_BUFFER then forwardPath env msg eth (v :: rest) else pure ())
        { s with switch_out := s.switch_out ++ hopMsgs msg d rule port } Q E)
    (hstop : ¬ Hop s u v → ∀ e, E e s) : wp (forwardPath env msg eth (u :: v :: rest)) s Q E := by
  unfold forwardPath edgePort
  simp only [wp_bind, wp_get, wp_key, wp_orRaise_ok hrule]
  refine ⟨fun data hdata => ⟨fun port hport => ?_, fun hnone => hstop (fun hh => ?_) _⟩, fun hnone => hstop (fun hh => ?_) _⟩
  · subst hport
    cases u with
    | mac m =>
      refine hstop (fun hh => ?_) _
      obtain ⟨_, _, hd, _⟩ := hh
      cases hd
    | dpid d =>
      unfold nodeDatapath packetOut
      simp only [wp_bind, wp_get, wp_item]
      refine ⟨fun datapath hget => ?_, fun hget => hstop (fun hh => ?_) _⟩
      · have hid : datapath.id = d := hkeyed d datapath hget
        have hgo := hhop d (Dict.mem_iff_get.mpr ⟨datapath, hget⟩) port rfl hdata
        unfold hopMsgs at hgo
        by_cases hwhole : msg.buffer_id = OFP_NO_BUFFER
        · rw [if_pos hwhole, if_pos hwhole] at hgo
          rw [if_neg (not_not.mpr hwhole)]
          simp only [wp_bind, wp_add_flow, wp_send_switch, hid, List.append_assoc, hwhole]
          exact hgo
        · rw [if_neg hwhole, if_neg hwhole] at hgo
          rw [if_pos hwhole, wp_add_flow, hid]
          exact hgo
      · obtain ⟨d', hmem, hd, _⟩ := hh
        cases hd
        exact Dict.get_eq_none.mp hget hmem
  · obtain ⟨_, _, _, port, hport⟩ := hh
    rw [hdata, hnone] at hport
    cases hport
  · obtain ⟨_, _, _, port, hport⟩ := hh
    rw [hnone] at hport
    cases hport

/-- A rule of `rules` for each hop of the path, and no others. -/
def RulePerHop (s : Layer2Switch env.nx.Graph) (rule : OFPMatch) (path : List Node)
    (rules : List (Nat × OFPMatch × List OFPActionOutput)) : Prop :=
  ∃ hops : List (Nat × List OFPActionOutput), rules = hops.map (fun r => (r.1, rule, r.2)) ∧
    hops.map (fun r => Node.dpid r.1) = path.dropLast ∧ ∀ r ∈ hops, RuleOn s.net path r

theorem rulePerHop_end (s : Layer2Switch env.nx.Graph) (rule : OFPMatch) {path : List Node} (h : path.dropLast = []) :
    RulePerHop s rule path [] := ⟨[], rfl, h.symm, fun _ hr => absurd hr List.not_mem_nil⟩

theorem RulePerHop.cons {d port : Nat} {v : Node} {rest : List Node} {rules : List (Nat × OFPMatch × List OFPActionOutput)}
    (hedge : env.nx.edge s.net (.dpid d) v = some (some port)) (h : RulePerHop s rule (v :: rest) rules) :
    RulePerHop s rule (.dpid d :: v :: rest) ((d, rule, [{ port }]) :: rules) := by
  obtain ⟨hops, rfl, hnodes, hon⟩ := h
  refine ⟨(d, [{ port }]) :: hops, rfl, by rw [List.map_cons, hnodes, List.dropLast_cons_cons], fun r hr => ?_⟩
  rcases List.mem_cons.mp hr with rfl | hr
  · exact ⟨[], v, rest, port, rfl, hedge, rfl⟩
  · obtain ⟨l₁, w, l₂, p, hsplit, hw, hacts⟩ := hon r hr
    exact ⟨.dpid d :: l₁, w, l₂, p, by rw [hsplit]; rfl, hw, hacts⟩

theorem wp_forwardPath_whole (hrule : msg.pkt.rule eth = .ok rule) (hwhole : msg.buffer_id = OFP_NO_BUFFER) :
    ∀ (path : List Node) (s : Layer2Switch env.nx.Graph), Keyed s →
      wp (forwardPath env msg eth path) s
        (fun _ s' => path.IsChain (Hop s) ∧ ∃ out, Sends s s' out ∧ RulePerHop s rule path (rulesIn out))
        fun _ _ => ¬ path.IsChain (Hop s)
  | [], s, _ => ⟨.nil, [], by unfold Sends; rw [List.append_nil], rulePerHop_end s rule rfl⟩
  | [u], s, _ => ⟨.singleton _, [], by unfold Sends; rw [List.append_nil], rulePerHop_end s rule rfl⟩
  | u :: v :: rest, s, hkeyed => by
    rw [List.isChain_cons_cons]
    refine wp_forwardPath_hop hrule hkeyed (fun d hd port hu hedge => ?_) fun hno _ hh => hno hh.1
    subst hu
    rw [if_pos hwhole]
    have hhop : Hop s (.dpid d) v := ⟨d, hd, rfl, port, hedge⟩
    have hsends : Sends s { s with switch_out := s.switch_out ++ hopMsgs msg d rule port } (hopMsgs msg d rule port) := rfl
    refine wp_mono (wp_forwardPath_whole hrule hwhole (v :: rest) _ hkeyed) (fun _ s' hs' => ?_) fun _ _ hno hh => hno hh.2
    obtain ⟨hchain, out, hout, hrules⟩ := hs'
    refine ⟨⟨hhop, hchain⟩, _, hsends.then hout, ?_⟩
    rw [rulesIn_append, rulesIn_hopMsgs]
    exact hrules.cons hedge

theorem wp_forwardPath_first (hrule : msg.pkt.rule eth = .ok rule) (hbuf : msg.buffer_id ≠ OFP_NO_BUFFER) (hkeyed : Keyed s)
    {u v : Node} {rest : List Node} : wp (forwardPath env msg eth (u :: v :: rest)) s
      (fun _ s' => Hop s u v ∧ ∃ out, Sends s s' out ∧ RulePerHop s rule [u, v] (rulesIn out)) fun _ _ => ¬ Hop s u v := by
  refine wp_forwardPath_hop hrule hkeyed (fun d hd port hu hedge => ?_) fun hno _ => hno
  subst hu
  rw [if_neg hbuf]
  refine ⟨⟨d, hd, rfl, port, hedge⟩, hopMsgs msg d rule port, rfl, ?_⟩
  rw [rulesIn_hopMsgs]
  exact (rulePerHop_end s rule rfl).cons hedge

end

/-! ## Paths of reachable states -/

structure Sound (s : Layer2Switch env.nx.Graph) : Prop where
  hosts : HostInv s
  closed : Closed s.net
  ready : Ready s

theorem sound_run (xid : Nat) {es : List LocalEvent} (h : Allowed (step env) (Lawful env) (init env xid) es) :
    Sound (es.foldl (step env) (init env xid)) := by
  refine ⟨h.invariant HostInv (fun _ _ => hostInv_step) (hostInv_init xid), ?_, ready_run xid es⟩
  refine List.foldlRecOn (motive := fun s => Closed s.net) es (step env) (fun u v huv => ?_) fun s hc e _ => closed_step hc e
  unfold init at huv
  rw [env.nx.edge_empty] at huv
  cases huv

theorem Sound.walkable (h : Sound s) {dpid : Nat} {mac : Bytes} {path : List Node}
    (hpath : env.nx.shortest_path s.net (.dpid dpid) (.mac mac) = .ok path) :
    Walkable s mac path ∧ path.IsChain (Hop s) := by
  obtain ⟨⟨hsw, f, hosts⟩, hclosed, hready⟩ := h
  have hshort := env.nx.shortest_path_ok _ _ _ _ hpath
  have hhop : ∀ u v l₁ l₂, path = l₁ ++ u :: v :: l₂ → Hop s u v := by
    intro u v l₁ l₂ hsplit
    have huv : (env.nx.edge s.net u v).isSome = true := List.isChain_iff_forall_rel_of_append_cons_cons.mp hshort.1.chain hsplit
    have hhub := hosts.graph.hub_of_path hshort.1 hshort.nodup (Node.not_isMac_dpid dpid) hsplit
    cases u with
    | mac m => exact absurd (Node.isMac_mac m) hhub
    | dpid d => exact ⟨d, hsw.node d (hclosed _ _ huv).1, rfl, hready.ports.port huv⟩
  have hchain : path.IsChain (Hop s) :=
    List.isChain_iff_forall_rel_of_append_cons_cons.mpr fun {u v l₁ l₂} hsplit => hhop u v l₁ l₂ hsplit
  refine ⟨⟨Hop.connects hchain, hshort.1.last, fun m hm => ?_, hchain.imp fun _ _ hh => ?_⟩, hchain⟩
  · -- a host before the end would leave by a hop
    obtain ⟨l₁, l₂, hsplit⟩ := List.append_of_mem hm
    cases l₂ with
    | nil =>
      have hlast := hshort.1.last
      rw [hsplit, List.getLast?_append_of_ne_nil _ (by simp)] at hlast
      cases hlast
      rfl
    | cons v l₂ =>
      obtain ⟨_, _, hd, _⟩ := hhop _ _ _ _ hsplit
      cases hd
  · obtain ⟨_, _, _, hport⟩ := hh
    exact hport

theorem forwardPath_completes (hkeyed : Keyed s) (msg : PacketIn) (eth : Ethernet) {path : List Node}
    (hchain : path.IsChain (Hop s)) : Completes (forwardPath env msg eth path) s := by
  obtain ⟨rule, hrule⟩ := rule_ok msg.pkt eth
  by_cases hwhole : msg.buffer_id = OFP_NO_BUFFER
  · exact wp_mono (wp_forwardPath_whole hrule hwhole path s hkeyed) (fun _ _ _ => trivial) fun _ _ hno => hno hchain
  · match path with
    | [] | [_] => exact trivial
    | u :: v :: rest =>
      have huv := (List.isChain_cons_cons.mp hchain).1
      exact wp_mono (wp_forwardPath_first hrule hwhole hkeyed) (fun _ _ _ => trivial) fun _ _ hno => hno huv

theorem Sound.wp_learningStep (h : Sound s) (msg : PacketIn) (eth : Ethernet) (hmem : msg.datapath.id ∈ s.datapaths) :
    wp (learningStep env msg eth) s (fun _ s₁ => Sound s₁)
      fun e _ => e = .StructError ∧ 2 ^ 64 ≤ msg.datapath.id := by
  obtain ⟨hsw, f, hosts⟩ := h.hosts
  have hraises := @wp_learningStep_raises env s msg eth ⟨hsw.load, hsw.ports, hsw.macs⟩ f hosts hmem
  have hhosts : Moves (Keeps HostInv) (learningStep env msg eth) :=
    .bind (hostInv_of_quiet (moves_countPacket quiet_load _)) fun _ => keeps_learnHost _ _ _
  have hlinks : Moves KeepsLinks (learningStep env msg eth) :=
    .bind (moves_countPacket (fun _ _ _ _ => .of_net rfl) _) fun _ => keepsLinks_learnHost _ _ _
  have hwin := (keepsW_learningStep s.dpid_to_is_win.keys msg eth).kept h.ready.windowInv
  have hall := wp_and (wp_and (hhosts.kept h.hosts) (hlinks s)) (wp_and (steady_learningStep msg eth s) hwin)
  refine wp_mono (wp_and hall hraises) (fun _ s₁ h₁ => ?_) fun _ _ h₁ => h₁.2
  obtain ⟨⟨⟨hh, hl⟩, hs, hw⟩, _⟩ := h₁
  exact ⟨hh, hl.closed h.closed, hs.keyed h.ready.keyed, hw.stamped, hw.ports⟩

/-- **A path that is found can be programmed**: in every reachable state and
after the host learning, all its nodes but the last are connected switches, the
last is the destination, no other host is on it, and each hop has a port, so that
the loop over the path raises nothing. -/
theorem path_lookups_succeed (env : LocalEnv) (xid : Nat) (es : List LocalEvent)
    (h : Allowed (step env) (Lawful env) (init env xid) es) (now : Nat) (msg : PacketIn) (eth : Ethernet)
    (heth : msg.pkt.eth = some eth) (hlldp : eth.dst ≠ LLDP_MAC_NEAREST_BRIDGE)
    (hnode : env.nx.has_node (es.foldl (step env) (init env xid)).net (.dpid msg.datapath.id) = true) :
    ofp_packet_in_handler env now msg = (do
      learningStep env msg eth
      forward env now msg eth) ∧
    wp (learningStep env msg eth) (es.foldl (step env) (init env xid))
      (fun _ s₁ => env.nx.has_node s₁.net (.mac eth.dst) = true → ∀ path,
        env.nx.shortest_path s₁.net (.dpid msg.datapath.id) (.mac eth.dst) = .ok path →
          Walkable s₁ eth.dst path ∧ Completes (forwardPath env msg eth path) s₁)
      fun e _ => e = .StructError ∧ 2 ^ 64 ≤ msg.datapath.id := by
  have hsound := sound_run xid h
  refine ⟨packet_in_learns env now heth hlldp, ?_⟩
  refine wp_mono (hsound.wp_learningStep msg eth (hsound.hosts.1.node _ hnode)) (fun _ s₁ h₁ => ?_) fun _ _ he => he
  intro _ path hpath
  obtain ⟨hwalk, hchain⟩ := h₁.walkable hpath
  exact ⟨hwalk, forwardPath_completes h₁.ready.keyed msg eth hchain⟩

/-- A host at the second switch answers one at the first. -/
def answerPacket : PacketIn :=
  ⟨⟨2, "10.0.0.1"⟩, 2, OFP_NO_BUFFER, [7], { eth := some ⟨asciiText "00:00:00:00:00:02", asciiText "00:00:00:00:00:01", 0x0806⟩ }⟩

theorem path_lookups_succeed_answer : ∃ s₁ : Layer2Switch sampleLocalEnv.nx.Graph,
    learningStep sampleLocalEnv answerPacket ⟨asciiText "00:00:00:00:00:02", asciiText "00:00:00:00:00:01", 0x0806⟩
      ((learningRun.take 4).foldl (step sampleLocalEnv) (init sampleLocalEnv 0)) = .ok () s₁ ∧
    Walkable s₁ (asciiText "00:00:00:00:00:01") [.dpid 2, .dpid 1, .mac (asciiText "00:00:00:00:00:01")] := by
  have hall := (path_lookups_succeed sampleLocalEnv 0 (learningRun.take 4) (by decide +kernel) 0 answerPacket
    ⟨asciiText "00:00:00:00:00:02", asciiText "00:00:00:00:00:01", 0x0806⟩ rfl (by decide) (by decide +kernel)).2
  have hfound : wp (learningStep sampleLocalEnv answerPacket
        ⟨asciiText "00:00:00:00:00:02", asciiText "00:00:00:00:00:01", 0x0806⟩)
      ((learningRun.take 4).foldl (step sampleLocalEnv) (init sampleLocalEnv 0))
      (fun _ s₁ => sampleLocalEnv.nx.has_node s₁.net (.mac (asciiText "00:00:00:00:00:01")) = true ∧
        sampleLocalEnv.nx.shortest_path s₁.net (.dpid 2) (.mac (asciiText "00:00:00:00:00:01")) =
          .ok [.dpid 2, .dpid 1, .mac (asciiText "00:00:00:00:00:01")]) (fun _ _ => False) := by decide +kernel
  obtain ⟨_, s₁, hlearn, hnode, hpath⟩ := ok_of_wp hfound
  exact ⟨s₁, hlearn, (post_of_ok hall hlearn hnode _ hpath).1⟩

/-! ## With and without a buffer -/

theorem RulePerHop.length {rule : OFPMatch} {path : List Node} {rules : List (Nat × OFPMatch × List OFPActionOutput)}
    (h : RulePerHop s rule path rules) : rules.length = path.length - 1 := by
  obtain ⟨hops, rfl, hnodes, _⟩ := h
  rw [List.length_map, ← List.length_dropLast, ← hnodes, List.length_map]

/-- The handler raises nothing and has sent one rule for each switch of the path. -/
def InstallsPath (env : LocalEnv) (now : Nat) (s s₁ : Layer2Switch env.nx.Graph) (msg : PacketIn) (rule : OFPMatch)
    (path : List Node) : Prop :=
  wp (ofp_packet_in_handler env now msg) s (fun _ s' => RulePerHop s₁ rule path (rulesIn (sentOut s s'))) fun _ _ => False

section
variable {s₁ : Layer2Switch env.nx.Graph} {msg : PacketIn} {eth : Ethernet} {rule : OFPMatch} {path : List Node}

theorem wp_packet_in_installs (now : Nat) (heth : msg.pkt.eth = some eth) (hlldp : eth.dst ≠ LLDP_MAC_NEAREST_BRIDGE)
    (hlearn : learningStep env msg eth s = .ok () s₁) (hnode : env.nx.has_node s₁.net (.mac eth.dst) = true)
    (hpath : env.nx.shortest_path s₁.net (.dpid msg.datapath.id) (.mac eth.dst) = .ok path)
    {P : List (Nat × SwitchMsg) → Prop} {E : Prop}
    (h : wp (forwardPath env msg eth path) s₁ (fun _ s' => ∃ out, Sends s₁ s' out ∧ P out) fun _ _ => E) :
    wp (ofp_packet_in_handler env now msg) s (fun _ s' => P (sentOut s s')) fun _ _ => E := by
  have hs₁ := (steady_learningStep msg eth).of_ok hlearn
  refine wp_packet_in_path now heth hlldp hlearn hnode hpath (wp_mono h (fun _ s' hs' => ?_) fun _ _ he => he)
  obtain ⟨out, hout, hP⟩ := hs'
  have hsent : s'.switch_out = s.switch_out ++ out := by rw [hout.out_eq, hs₁.switch_out]
  rwa [sentOut_append hsent]

theorem wp_packet_in_whole (hkeyed : Keyed s₁) (now : Nat) (heth : msg.pkt.eth = some eth)
    (hlldp : eth.dst ≠ LLDP_MAC_NEAREST_BRIDGE) (hlearn : learningStep env msg eth s = .ok () s₁)
    (hnode : env.nx.has_node s₁.net (.mac eth.dst) = true)
    (hpath : env.nx.shortest_path s₁.net (.dpid msg.datapath.id) (.mac eth.dst) = .ok path)
    (hrule : msg.pkt.rule eth = .ok rule) (hwhole : msg.buffer_id = OFP_NO_BUFFER) :
    wp (ofp_packet_in_handler env now msg) s
      (fun _ s' => path.IsChain (Hop s₁) ∧ RulePerHop s₁ rule path (rulesIn (sentOut s s')))
      fun _ _ => ¬ path.IsChain (Hop s₁) := by
  refine wp_packet_in_installs (P := fun out => path.IsChain (Hop s₁) ∧ RulePerHop s₁ rule path (rulesIn out))
    now heth hlldp hlearn hnode hpath ?_
  refine wp_mono (wp_forwardPath_whole hrule hwhole path s₁ hkeyed) (fun _ _ h => ?_) fun _ _ h => h
  obtain ⟨hchain, out, hout, hrules⟩ := h
  exact ⟨out, hout, hchain, hrules⟩

theorem wp_packet_in_first (hkeyed : Keyed s₁) (now : Nat) (heth : msg.pkt.eth = some eth)
    (hlldp : eth.dst ≠ LLDP_MAC_NEAREST_BRIDGE) (hlearn : learningStep env msg eth s = .ok () s₁)
    (hnode : env.nx.has_node s₁.net (.mac eth.dst) = true) {u v : Node} {rest : List Node}
    (hpath : env.nx.shortest_path s₁.net (.dpid msg.datapath.id) (.mac eth.dst) = .ok (u :: v :: rest))
    (hrule : msg.pkt.rule eth = .ok rule) (hbuf : msg.buffer_id ≠ OFP_NO_BUFFER) :
    wp (ofp_packet_in_handler env now msg) s
      (fun _ s' => Hop s₁ u v ∧ RulePerHop s₁ rule [u, v] (rulesIn (sentOut s s'))) fun _ _ => ¬ Hop s₁ u v := by
  refine wp_packet_in_installs (P := fun out => Hop s₁ u v ∧ RulePerHop s₁ rule [u, v] (rulesIn out))
    now heth hlldp hlearn hnode hpath ?_
  refine wp_mono (wp_forwardPath_first hrule hbuf hkeyed) (fun _ _ h => ?_) fun _ _ h => h
  obtain ⟨hhop, out, hout, hrules⟩ := h
  exact ⟨out, hout, hhop, hrules⟩

end

/-- **The rules of a packet-in are those of its path, with a buffer and without,
exactly when** the path has one switch, which can be programmed. -/
theorem buffered_rules_same_iff (env : LocalEnv) (s s₁ : Layer2Switch env.nx.Graph) (hkeyed : Keyed s) (now : Nat)
    (msg : PacketIn) (eth : Ethernet) (heth : msg.pkt.eth = some eth) (hlldp : eth.dst ≠ LLDP_MAC_NEAREST_BRIDGE)
    (hlearn : learningStep env msg eth s = .ok () s₁) (hnode : env.nx.has_node s₁.net (.mac eth.dst) = true)
    (path : List Node) (hpath : env.nx.shortest_path s₁.net (.dpid msg.datapath.id) (.mac eth.dst) = .ok path) :
    ∃ rule, msg.pkt.rule eth = .ok rule ∧
      ((∀ buffer_id, InstallsPath env now s s₁ { msg with buffer_id } rule path) ↔
        path = [.dpid msg.datapath.id, .mac eth.dst] ∧ Hop s₁ (.dpid msg.datapath.id) (.mac eth.dst)) := by
  obtain ⟨rule, hrule⟩ := rule_ok msg.pkt eth
  refine ⟨rule, hrule, ?_⟩
  have hp := (env.nx.shortest_path_ok _ _ _ _ hpath).1
  have hkeyed₁ : Keyed s₁ := ((steady_learningStep msg eth).of_ok hlearn).keyed hkeyed
  obtain ⟨v, rest, rfl⟩ := hp.first_hop (by simp)
  have hwhole := fun buffer_id => @wp_packet_in_whole env s s₁ { msg with buffer_id } eth rule _ hkeyed₁ now heth hlldp
    hlearn hnode hpath hrule
  have hfirst := fun buffer_id => @wp_packet_in_first env s s₁ { msg with buffer_id } eth rule hkeyed₁ now heth hlldp
    hlearn hnode _ _ _ hpath hrule
  constructor
  · intro h
    have hbuf : 0 ≠ OFP_NO_BUFFER := by decide
    -- a packet in a buffer got one rule, and that is all the path has
    obtain ⟨_, s', _, ⟨hhop, hone⟩, hall⟩ := ok_of_wp (wp_mono (wp_and (hfirst 0 hbuf) (h 0)) (fun _ _ h => h) fun _ _ h => h.2)
    have hlen := hone.length.symm.trans hall.length
    have hnil : rest = [] := List.length_eq_zero_iff.mp (by simpa using hlen.symm)
    have hlast := hp.last
    rw [hnil] at hlast
    cases hlast
    exact ⟨by rw [hnil], hhop⟩
  · intro h buffer_id
    obtain ⟨hone, hhop⟩ := h
    obtain ⟨rfl, rfl⟩ : v = .mac eth.dst ∧ rest = [] := by simpa using hone
    have hchain : [Node.dpid msg.datapath.id, .mac eth.dst].IsChain (Hop s₁) :=
      List.isChain_cons_cons.mpr ⟨hhop, .singleton _⟩
    by_cases hno : buffer_id = OFP_NO_BUFFER
    · exact wp_mono (hwhole buffer_id hno) (fun _ _ hr => hr.2) fun _ _ hr => hr hchain
    · exact wp_mono (hfirst buffer_id hno) (fun _ _ hr => hr.2) fun _ _ hr => hr hhop

def hostEth : Ethernet := ⟨asciiText "00:00:00:00:00:02", asciiText "00:00:00:00:00:01", 0x0806⟩

theorem buffered_rules_same_iff_edge : ∃ s₁ : Layer2Switch sampleLocalEnv.nx.Graph, ∃ rule, ∀ buffer_id,
    InstallsPath sampleLocalEnv 0 (edgeRun.foldl (step sampleLocalEnv) (init sampleLocalEnv 0)) s₁ (hostPacket buffer_id) rule
      [.dpid 1, .mac (asciiText "00:00:00:00:00:01")] := by
  have hfound : wp (learningStep sampleLocalEnv (hostPacket 0) hostEth)
      (edgeRun.foldl (step sampleLocalEnv) (init sampleLocalEnv 0))
      (fun _ s₁ => sampleLocalEnv.nx.has_node s₁.net (.mac (asciiText "00:00:00:00:00:01")) = true ∧
        sampleLocalEnv.nx.shortest_path s₁.net (.dpid 1) (.mac (asciiText "00:00:00:00:00:01")) =
          .ok [.dpid 1, .mac (asciiText "00:00:00:00:00:01")] ∧ (1 ∈ s₁.datapaths ∧
        sampleLocalEnv.nx.edge s₁.net (.dpid 1) (.mac (asciiText "00:00:00:00:00:01")) = some (some 2)))
      (fun _ _ => False) := by decide +kernel
  obtain ⟨_, s₁, hlearn, hnode, hpath, hmem, hedge⟩ := ok_of_wp hfound
  obtain ⟨rule, _, hsame⟩ := buffered_rules_same_iff sampleLocalEnv _ s₁ (keyed_run 0 edgeRun) 0 (hostPacket 0) hostEth rfl
    (by decide) hlearn hnode _ hpath
  exact ⟨s₁, rule, hsame.mpr ⟨rfl, 1, hmem, rfl, 2, hedge⟩⟩

/-- With the host one switch further on, a packet in buffer 5 gets one rule and the same packet without a buffer two. -/
theorem buffered_rules_differ : ∃ s₁ : Layer2Switch sampleLocalEnv.nx.Graph,
    learningStep sampleLocalEnv (hostPacket 5) hostEth farState = .ok () s₁ ∧
    sampleLocalEnv.nx.shortest_path s₁.net (.dpid 1) (.mac (asciiText "00:00:00:00:00:01")) =
      .ok [.dpid 1, .dpid 2, .mac (asciiText "00:00:00:00:00:01")] ∧
    wp (ofp_packet_in_handler sampleLocalEnv 0 (hostPacket OFP_NO_BUFFER)) farState
      (fun _ s' => (rulesIn (sentOut farState s')).length = 2) (fun _ _ => False) ∧
    ∀ rule, ¬ InstallsPath sampleLocalEnv 0 farState s₁ (hostPacket 5) rule
      [.dpid 1, .dpid 2, .mac (asciiText "00:00:00:00:00:01")] := by
  have hfound : wp (learningStep sampleLocalEnv (hostPacket 5) hostEth) farState
      (fun _ s₁ => sampleLocalEnv.nx.shortest_path s₁.net (.dpid 1) (.mac (asciiText "00:00:00:00:00:01")) =
        .ok [.dpid 1, .dpid 2, .mac (asciiText "00:00:00:00:00:01")]) (fun _ _ => False) := by decide +kernel
  have hone : wp (ofp_packet_in_handler sampleLocalEnv 0 (hostPacket 5)) farState
      (fun _ s' => (rulesIn (sentOut farState s')).length = 1) (fun _ _ => False) := by decide +kernel
  obtain ⟨_, s₁, hlearn, hpath⟩ := ok_of_wp hfound
  refine ⟨s₁, hlearn, hpath, by decide +kernel, fun rule h => ?_⟩
  obtain ⟨_, s', _, hlen, hrules⟩ := ok_of_wp (wp_mono (wp_and hone h) (fun _ _ h => h) fun _ _ h => h.2)
  rw [hrules.length] at hlen
  cases hlen

end Layer2Switch

end VnfDockerNet
