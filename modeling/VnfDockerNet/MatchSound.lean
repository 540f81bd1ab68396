import VnfDockerNet.InstallSound

/-!
# The match of an installed rule

The ports of a TCP or a UDP header are held in the same two variables, and one
form of match is made of them. Its fields are for TCP over IPv4. A later fragment
has no such header, but ports are decoded of its payload.
-/

namespace VnfDockerNet

open Python Networkx

def ETH_TYPE_IP : Nat := 0x0800
def ETH_TYPE_IPV6 : Nat := 0x86dd
def IPPROTO_TCP : Nat := 6

/-! ## What a match asks of a packet -/

def Packet.IsLaterFragment (pkt : Packet) : Prop := ∃ nw ∈ pkt.nw, nw.offset ≠ 0

instance (pkt : Packet) : Decidable pkt.IsLaterFragment := Option.decidableExistsMem _

/-- The field is in the packet, with the value of the match. The transport header
of a packet is in its first fragment. -/
def Packet.Has (pkt : Packet) : MatchField → Prop
  | .eth_dst mac => ∃ eth ∈ pkt.eth, eth.dst = mac
  | .eth_type ethertype => ∃ eth ∈ pkt.eth, eth.ethertype = ethertype
  | .ipv4_src ip => ∃ nw ∈ pkt.nw, nw.src = ip
  | .ipv4_dst ip => ∃ nw ∈ pkt.nw, nw.dst = ip
  | .ip_proto proto => ∃ nw ∈ pkt.nw, nw.proto = proto
  | .tcp_src port => ¬ pkt.IsLaterFragment ∧ ∃ tp ∈ pkt.tp, tp.src_port = port
  | .tcp_dst port => ¬ pkt.IsLaterFragment ∧ ∃ tp ∈ pkt.tp, tp.dst_port = port

instance (pkt : Packet) : ∀ f, Decidable (pkt.Has f)
  | .eth_dst _ | .eth_type _ | .ipv4_src _ | .ipv4_dst _ | .ip_proto _ => Option.decidableExistsMem _
  | .tcp_src port =>
    haveI : Decidable (∃ tp ∈ pkt.tp, tp.src_port = port) := Option.decidableExistsMem _
    inferInstanceAs (Decidable (_ ∧ _))
  | .tcp_dst port =>
    haveI : Decidable (∃ tp ∈ pkt.tp, tp.dst_port = port) := Option.decidableExistsMem _
    inferInstanceAs (Decidable (_ ∧ _))

/-- What OpenFlow 1.3 asks of the rest of a match that has the field. -/
def Prerequisite (rule : OFPMatch) : MatchField → Prop
  | .eth_dst _ | .eth_type _ => True
  | .ipv4_src _ | .ipv4_dst _ => .eth_type ETH_TYPE_IP ∈ rule
  | .ip_proto _ => .eth_type ETH_TYPE_IP ∈ rule ∨ .eth_type ETH_TYPE_IPV6 ∈ rule
  | .tcp_src _ | .tcp_dst _ => .ip_proto IPPROTO_TCP ∈ rule

/-- A packet with these headers hits the rule, and the rule can be installed. -/
def Packet.Suits (pkt : Packet) (rule : OFPMatch) : Prop := ∀ f ∈ rule, pkt.Has f ∧ Prerequisite rule f

instance (rule : OFPMatch) : ∀ f, Decidable (Prerequisite rule f)
  | .eth_dst _ | .eth_type _ => inferInstanceAs (Decidable True)
  | .ipv4_src _ | .ipv4_dst _ | .tcp_src _ | .tcp_dst _ => inferInstanceAs (Decidable (_ ∈ rule))
  | .ip_proto _ => inferInstanceAs (Decidable (_ ∨ _))

instance (pkt : Packet) (rule : OFPMatch) : Decidable (pkt.Suits rule) :=
  inferInstanceAs (Decidable (∀ f ∈ rule, _))

namespace Packet

variable {pkt : Packet} {eth : Ethernet}

/-- The transport header below IPv4 whose ports are read: that of UDP, if there is one. -/
def transport (pkt : Packet) : Option Transport := pkt.nw.bind fun _ => pkt.up <|> pkt.tp

/-- A transport header is read and neither of its ports is 0. -/
def HasPorts (pkt : Packet) : Prop := ∃ t ∈ pkt.transport, t.src_port ≠ 0 ∧ t.dst_port ≠ 0

/-- TCP in IPv4 without tags, no later fragment, and no UDP header with other ports. -/
def IsTcp (pkt : Packet) (eth : Ethernet) : Prop :=
  eth.ethertype = ETH_TYPE_IP ∧ (∃ nw ∈ pkt.nw, nw.proto = IPPROTO_TCP) ∧ ¬ pkt.IsLaterFragment ∧
    (pkt.up = none ∨ pkt.up = pkt.tp)

instance (pkt : Packet) : Decidable pkt.HasPorts := Option.decidableExistsMem _

instance (pkt : Packet) (eth : Ethernet) : Decidable (pkt.IsTcp eth) :=
  haveI : Decidable (∃ nw ∈ pkt.nw, nw.proto = IPPROTO_TCP) := Option.decidableExistsMem _
  inferInstanceAs (Decidable (_ ∧ _ ∧ _ ∧ _))

theorem rule_cases (pkt : Packet) (eth : Ethernet) :
    (¬ pkt.HasPorts ∧ pkt.rule eth = .ok [.eth_dst eth.dst]) ∨
    (∃ nw t, pkt.nw = some nw ∧ pkt.transport = some t ∧ pkt.HasPorts ∧ pkt.rule eth = .ok [.ipv4_src nw.src, .ipv4_dst nw.dst,
      .ip_proto nw.proto, .eth_type eth.ethertype, .tcp_src t.src_port, .tcp_dst t.dst_port]) := by
  unfold HasPorts transport rule headers
  cases hnw : pkt.nw with
  | none => exact .inl ⟨by simp, rfl⟩
  | some nw =>
    cases hup : pkt.up with
    | some up =>
      by_cases hports : up.src_port ≠ 0 ∧ up.dst_port ≠ 0
      · exact .inr ⟨nw, up, rfl, rfl, ⟨up, rfl, hports⟩, if_pos hports⟩
      · exact .inl ⟨by simpa using hports, if_neg hports⟩
    | none =>
      cases htp : pkt.tp with
      | none => exact .inl ⟨by simp, rfl⟩
      | some tp =>
        by_cases hports : tp.src_port ≠ 0 ∧ tp.dst_port ≠ 0
        · exact .inr ⟨nw, tp, rfl, rfl, ⟨tp, rfl, hports⟩, if_pos hports⟩
        · exact .inl ⟨by simpa using hports, if_neg hports⟩

theorem tcp_ports_iff {t : Transport} (ht : pkt.transport = some t) :
    (∃ tp ∈ pkt.tp, tp.src_port = t.src_port) ∧ (∃ tp ∈ pkt.tp, tp.dst_port = t.dst_port) ↔
      pkt.up = none ∨ pkt.up = pkt.tp := by
  unfold transport at ht
  obtain ⟨nw, _, ht⟩ := Option.bind_eq_some_iff.mp ht
  cases hup : pkt.up with
  | none =>
    rw [hup] at ht
    have htp : pkt.tp = some t := ht
    simp [htp]
  | some u =>
    rw [hup] at ht
    obtain rfl : u = t := Option.some.inj ht
    constructor
    · intro h
      obtain ⟨⟨p, hp, hsrc⟩, p', hp', hdst⟩ := h
      rw [Option.mem_def] at hp hp'
      rw [hp] at hp'
      cases hp'
      have hpu : p = u := by
        cases p
        cases u
        cases hsrc
        cases hdst
        rfl
      exact .inr (hpu ▸ hp.symm)
    · intro h
      have htp : pkt.tp = some u := (h.resolve_left (by simp)).symm
      simp [htp]

theorem suits_eth_dst (heth : pkt.eth = some eth) : pkt.Suits [.eth_dst eth.dst] := by
  intro f hf
  cases List.mem_singleton.mp hf
  exact ⟨⟨eth, heth, rfl⟩, trivial⟩

theorem suits_ports_iff {nw : Ipv4} {t : Transport} (heth : pkt.eth = some eth) (hnw : pkt.nw = some nw)
    (ht : pkt.transport = some t) :
    pkt.Suits [.ipv4_src nw.src, .ipv4_dst nw.dst, .ip_proto nw.proto, .eth_type eth.ethertype, .tcp_src t.src_port,
      .tcp_dst t.dst_port] ↔ pkt.IsTcp eth := by
  have hproto : (∃ nw ∈ pkt.nw, nw.proto = IPPROTO_TCP) ↔ nw.proto = IPPROTO_TCP := by simp [hnw]
  unfold IsTcp
  rw [hproto, ← tcp_ports_iff ht]
  have hip : Prerequisite [.ipv4_src nw.src, .ipv4_dst nw.dst, .ip_proto nw.proto, .eth_type eth.ethertype,
      .tcp_src t.src_port, .tcp_dst t.dst_port] (.ipv4_src nw.src) ↔ eth.ethertype = ETH_TYPE_IP := by
    simp [Prerequisite, eq_comm]
  have htcp : Prerequisite [.ipv4_src nw.src, .ipv4_dst nw.dst, .ip_proto nw.proto, .eth_type eth.ethertype,
      .tcp_src t.src_port, .tcp_dst t.dst_port] (.tcp_src t.src_port) ↔ nw.proto = IPPROTO_TCP := by
    simp [Prerequisite, eq_comm]
  constructor
  · intro h
    obtain ⟨⟨hfirst, hsrc⟩, hproto⟩ := h (.tcp_src t.src_port) (by simp)
    obtain ⟨⟨-, hdst⟩, -⟩ := h (.tcp_dst t.dst_port) (by simp)
    exact ⟨hip.mp (h _ (by simp)).2, htcp.mp hproto, hfirst, hsrc, hdst⟩
  · intro h f hf
    obtain ⟨htype, hproto, hfirst, hsrc, hdst⟩ := h
    simp only [List.mem_cons, List.not_mem_nil, or_false] at hf
    rcases hf with rfl | rfl | rfl | rfl | rfl | rfl
    · exact ⟨⟨nw, hnw, rfl⟩, hip.mpr htype⟩
    · exact ⟨⟨nw, hnw, rfl⟩, hip.mpr htype⟩
    · exact ⟨⟨nw, hnw, rfl⟩, .inl (hip.mpr htype)⟩
    · exact ⟨⟨eth, heth, rfl⟩, trivial⟩
    · exact ⟨⟨hfirst, hsrc⟩, htcp.mpr hproto⟩
    · exact ⟨⟨hfirst, hdst⟩, htcp.mpr hproto⟩

/-- The match that is built suits the packet exactly if its ports are not read, or are those of TCP. -/
theorem rule_suits_iff (heth : pkt.eth = some eth) {rule : OFPMatch} (hrule : pkt.rule eth = .ok rule) :
    pkt.Suits rule ↔ (pkt.HasPorts → pkt.IsTcp eth) := by
  rcases pkt.rule_cases eth with ⟨hno, he⟩ | ⟨nw, t, hnw, ht, hports, he⟩
  · rw [hrule] at he
    cases he
    exact iff_of_true (suits_eth_dst heth) fun h => absurd h hno
  · rw [hrule] at he
    cases he
    rw [suits_ports_iff heth hnw ht]
    exact ⟨fun h _ => h, fun h => h hports⟩

end Packet

/-! ## The rules of the handler -/

namespace Layer2Switch

variable {env : LocalEnv}

/-- More was sent to the switches, and the rules among it have this match. -/
def InstallsOnly (rule : OFPMatch) (s s' : Layer2Switch env.nx.Graph) : Prop :=
  ∃ out, s'.switch_out = s.switch_out ++ out ∧ ∀ r ∈ rulesIn out, r.2.1 = rule

section
variable {rule : OFPMatch} {s s' : Layer2Switch env.nx.Graph}

theorem installsOnly_of_same (h : s'.switch_out = s.switch_out) : InstallsOnly rule s s' :=
  ⟨[], by rw [h, List.append_nil], fun _ hr => absurd hr List.not_mem_nil⟩

instance (rule : OFPMatch) : IsPreorder (Layer2Switch env.nx.Graph) (InstallsOnly rule) where
  refl _ := installsOnly_of_same rfl
  trans _ _ _ h h' := by
    obtain ⟨out, hout, hrules⟩ := h
    obtain ⟨out', hout', hrules'⟩ := h'
    refine ⟨out ++ out', by rw [hout', hout, List.append_assoc], fun r hr => ?_⟩
    rw [rulesIn_append] at hr
    exact (List.mem_append.mp hr).elim (hrules r) (hrules' r)

theorem InstallsOnly.sentOut (h : InstallsOnly rule s s') : ∀ r ∈ rulesIn (sentOut s s'), r.2.1 = rule := by
  obtain ⟨out, hout, hrules⟩ := h
  rw [sentOut_append hout]
  exact hrules

theorem Steady.installsOnly (h : Steady s s') : InstallsOnly rule s s' := installsOnly_of_same h.switch_out

theorem installsOnly_flowMod (d buffer_id priority : Nat) (actions : List OFPActionOutput) :
    InstallsOnly rule s { s with switch_out := s.switch_out ++ [(d, .FlowMod buffer_id priority rule actions)] } :=
  ⟨_, rfl, fun _ hr => by cases List.mem_singleton.mp hr; rfl⟩

theorem installsOnly_packetOut (msg : PacketIn) (datapath : OfDatapath) (actions : List OFPActionOutput) :
    Moves (InstallsOnly rule) (packetOut env msg datapath actions) :=
  .modify fun _ => ⟨_, rfl, fun _ hr => absurd hr List.not_mem_nil⟩

theorem installsOnly_forwardPath {msg : PacketIn} {eth : Ethernet} (hrule : msg.pkt.rule eth = .ok rule) :
    ∀ path, Moves (InstallsOnly rule) (forwardPath env msg eth path)
  | [] => .pure _
  | [_] => .pure _
  | last_hop :: next_hop :: rest => by
    unfold forwardPath
    have hpure : (orRaise (.ok rule) : App env OFPMatch) = pure rule := rfl
    simp only [hrule, hpure, pure_bind]
    have hflow : ∀ (datapath : OfDatapath) actions buffer_id,
        Moves (InstallsOnly rule) (add_flow env datapath 1 rule actions buffer_id) := fun _ _ _ =>
      .modify fun _ => installsOnly_flowMod _ _ _ _
    refine .bind (moves_edgePort _ _) fun out_port => .bind (moves_nodeDatapath _) fun datapath => .ite (hflow _ _ _) ?_
    refine .bind (hflow _ _ _) fun _ => .bind (installsOnly_packetOut _ _ _) fun _ => ?_
    exact installsOnly_forwardPath hrule (next_hop :: rest)

theorem installsOnly_packet_in (now : Nat) {msg : PacketIn} {eth : Ethernet} (heth : msg.pkt.eth = some eth)
    (hrule : msg.pkt.rule eth = .ok rule) : Moves (InstallsOnly rule) (ofp_packet_in_handler env now msg) := by
  have hforward : Moves (InstallsOnly rule) (forward env now msg eth) := by
    have hask : Moves (InstallsOnly rule) (askCentral env now msg eth) :=
      (steady_askCentral now msg eth).mono fun _ _ h => h.installsOnly
    unfold forward
    refine .bind .get fun s => .ite ?_ (.ite (installsOnly_packetOut _ _ _) (.ite hask (.pure _)))
    cases env.nx.shortest_path s.net (.dpid msg.datapath.id) (.mac eth.dst) with
    | ok path => exact installsOnly_forwardPath hrule path
    | error e => cases e <;> first | exact .pure _ | exact .throw _
  unfold ofp_packet_in_handler
  rw [heth]
  refine .ite (moves_markPort (fun _ _ _ _ => installsOnly_of_same rfl) _ _) ?_
  refine .bind (moves_countPacket (fun _ _ _ _ => installsOnly_of_same rfl) _) fun _ => .bind ?_ fun _ => hforward
  exact (steady_learnHost _ _ _).mono fun _ _ h => h.installsOnly

end

/-- **The rules of a packet-in match its packet exactly when** no ports are read,
or they are those of TCP over IPv4, and not of a later fragment. -/
theorem rule_matches_packet_iff (env : LocalEnv) (s : Layer2Switch env.nx.Graph) (now : Nat) (msg : PacketIn) (eth : Ethernet)
    (heth : msg.pkt.eth = some eth) : ∃ rule, msg.pkt.rule eth = .ok rule ∧
      wp (ofp_packet_in_handler env now msg) s (fun _ s' => ∀ r ∈ rulesIn (sentOut s s'), r.2.1 = rule)
        (fun _ s' => ∀ r ∈ rulesIn (sentOut s s'), r.2.1 = rule) ∧
      (msg.pkt.Suits rule ↔ (msg.pkt.HasPorts → msg.pkt.IsTcp eth)) := by
  obtain ⟨rule, hrule⟩ := rule_ok msg.pkt eth
  refine ⟨rule, hrule, ?_, Packet.rule_suits_iff heth hrule⟩
  exact wp_mono (installsOnly_packet_in now heth hrule s) (fun _ _ h => h.sentOut) fun _ _ h => h.sentOut

/-- A packet of the second host to the first, over IPv4 with the protocol `proto` and these headers. -/
def ipPacket (proto : Nat) (tp up : Option Transport) : PacketIn :=
  ⟨⟨1, "10.0.0.1"⟩, 3, OFP_NO_BUFFER, [7], {
    eth := some ⟨asciiText "00:00:00:00:00:02", asciiText "00:00:00:00:00:01", ETH_TYPE_IP⟩
    nw := some ⟨[10, 0, 0, 2], [10, 0, 0, 1], proto, 0⟩
    tp, up }⟩

theorem rule_matches_packet_iff_tcp : ∃ rule,
    (ipPacket 6 (some ⟨5000, 80⟩) none).pkt.rule ⟨asciiText "00:00:00:00:00:02", asciiText "00:00:00:00:00:01", ETH_TYPE_IP⟩ =
      .ok rule ∧ (ipPacket 6 (some ⟨5000, 80⟩) none).pkt.Suits rule := by
  obtain ⟨rule, hrule, _, hiff⟩ := rule_matches_packet_iff sampleLocalEnv (init sampleLocalEnv 0) 0
    (ipPacket 6 (some ⟨5000, 80⟩) none) ⟨asciiText "00:00:00:00:00:02", asciiText "00:00:00:00:00:01", ETH_TYPE_IP⟩ rfl
  exact ⟨rule, hrule, hiff.mpr (by decide +kernel)⟩

/-- The first packet of a UDP flow between two known hosts installs a rule for TCP ports. -/
theorem udp_rule_misses : wp (ofp_packet_in_handler sampleLocalEnv 0 (ipPacket 17 none (some ⟨5000, 53⟩)))
    (edgeRun.foldl (step sampleLocalEnv) (init sampleLocalEnv 0))
    (fun _ s' => ∃ r ∈ rulesIn (sentOut (edgeRun.foldl (step sampleLocalEnv) (init sampleLocalEnv 0)) s'),
      ¬ (ipPacket 17 none (some ⟨5000, 53⟩)).pkt.Suits r.2.1) fun _ _ => False := by
  decide +kernel

end Layer2Switch

end VnfDockerNet
