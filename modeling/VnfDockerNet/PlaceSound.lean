import VnfDockerNet.ReplaySound

/-!
# Where a host is after its packet

In every run, whatever ryu names, the tables have the same switches as keys, and
the hosts are where one partial bijection says. A packet from the edge moves its
source to the port it came in on, unless the source is known at another one:
the branch that forgets the old place is only reached for unknown hosts.
-/

namespace VnfDockerNet

open Python Networkx Runs

namespace Layer2Switch

variable {env : LocalEnv}

structure Tables (s : Layer2Switch env.nx.Graph) : Prop where
  load : ∀ d, d ∈ s.dpid_to_load ↔ d ∈ s.datapaths
  ports : ∀ d, d ∈ s.dpid_to_inter_connection_port ↔ d ∈ s.datapaths
  macs : ∀ d, d ∈ s.mac_to_port ↔ d ∈ s.datapaths

/-- `Switches` says more: that the graph has no other switches. -/
def TableInv (s : Layer2Switch env.nx.Graph) : Prop := Tables s ∧ ∃ f, Hosts env f s.mac_to_port s.net

section
variable {s s' : Layer2Switch env.nx.Graph} {f : Bytes ≃. (Nat × Nat)} {dpid : Nat} {msgs : List MsgUp}

theorem Quiet.tableInv (h : Quiet s s') (hinv : TableInv s) : TableInv s' := by
  obtain ⟨ht, f, hosts⟩ := hinv
  refine ⟨⟨fun d => ?_, fun d => ?_, fun d => ?_⟩, f, ?_⟩
  · rw [h.load, h.datapaths]
    exact ht.load d
  · rw [h.ports, h.datapaths]
    exact ht.ports d
  · rw [h.mac_to_port, h.datapaths]
    exact ht.macs d
  · rw [h.mac_to_port, h.net]
    exact hosts

theorem tableInv_of_quiet {α : Type} {x : App env α} (h : Moves Quiet x) : Moves (Keeps TableInv) x :=
  h.mono fun _ _ => Quiet.tableInv

theorem Moved.tableInv (h : Moved s s' f msgs) (ht : Tables s) : TableInv s' := by
  obtain ⟨_, _, _, _, rfl, _, hosts, hkeys, _⟩ := h
  exact ⟨⟨ht.load, ht.ports, fun d => (hkeys d).trans (ht.macs d)⟩, f, hosts⟩

/-! ## The handlers that move hosts -/

theorem tableInv_learnHost (dpid in_port : Nat) (src : Bytes) :
    Moves (Keeps TableInv) (learnHost env dpid in_port src) := by
  apply Moves.keeps
  intro s hinv
  obtain ⟨ht, f, hosts⟩ := hinv
  refine wp_mono (wp_learnHost hosts) ?_ ?_
  · intro _ s' hpost
    rcases hpost with ⟨rfl, _⟩ | ⟨_, _, hmoved⟩
    · exact ⟨ht, f, hosts⟩
    · exact hmoved.tableInv ht
  · intro e s' hpost
    rcases hpost with ⟨_, rfl, _⟩ | ⟨_, _, f', msgs, hmoved⟩
    · exact ⟨ht, f, hosts⟩
    · exact hmoved.tableInv ht

theorem tableInv_ofp_packet_in_handler (now : Nat) (msg : PacketIn) :
    Moves (Keeps TableInv) (ofp_packet_in_handler env now msg) := by
  unfold ofp_packet_in_handler
  cases msg.pkt.eth with
  | none => exact .throw _
  | some eth =>
    refine .ite (tableInv_of_quiet (moves_markPort ?_ _ _)) ?_
    · intro s dpid ports h
      exact ⟨rfl, rfl, rfl, fun _ => .rfl, Dict.mem_insert_of_mem h ports⟩
    · exact .bind (tableInv_of_quiet (moves_countPacket quiet_load _)) fun _ => .bind (tableInv_learnHost _ _ _) fun _ =>
        tableInv_of_quiet (moves_forward quiet_xid quiet_sent quiet_out quiet_pending (fun _ _ _ _ _ _ _ => trivial)
          now msg eth)

theorem mem_setdefault {ν : Type} (d : Dict Nat ν) (k₀ : Nat) (v : ν) (k : Nat) :
    k ∈ d.setdefault k₀ v ↔ k = k₀ ∨ k ∈ d := by
  rw [Dict.mem_iff_get, Dict.get_setdefault, Dict.mem_iff_get]
  by_cases hk : k = k₀
  · simp [hk]
  · simp [hk]

theorem tableInv_ofp_switch_features_handler (datapath : OfDatapath) :
    Moves (Keeps TableInv) (ofp_switch_features_handler env datapath) := by
  unfold ofp_switch_features_handler
  refine .bind (.modify ?_) fun _ => .bind .get fun _ =>
    .bind (tableInv_of_quiet (moves_send_msg quiet_xid quiet_sent _ trivial)) fun _ =>
      tableInv_of_quiet (moves_add_flow quiet_out _ _ _ _ _)
  intro s hinv
  obtain ⟨ht, f, hosts⟩ := hinv
  refine ⟨⟨fun d => ?_, fun d => ?_, fun d => ?_⟩, f, hosts.setdefault datapath.id⟩
  · rw [AList.mem_insert, AList.mem_insert, ht.load]
  · rw [mem_setdefault, AList.mem_insert, ht.ports]
  · rw [mem_setdefault, AList.mem_insert, ht.macs]

/-! ### Leaving -/

theorem Hosts.leave_unlisted {net : env.nx.Graph} (h : Hosts env f s.mac_to_port s.net) (hmacs : dpid ∉ s.mac_to_port)
    (hg : env.nx.remove_node s.net (.dpid dpid) = .ok net) : Hosts env f s.mac_to_port net := by
  have hclear : f.clear (fun x => x.1 = dpid) = f := by
    refine PEquiv.ext fun m => Option.ext fun x => ?_
    obtain ⟨d, p⟩ := x
    rw [PEquiv.clear_eq_some]
    refine and_iff_left_of_imp fun hat hd => hmacs ?_
    obtain ⟨macs, hget, _⟩ := Option.bind_eq_some_iff.mp ((h.table d m p).mpr hat)
    have hd : d = dpid := hd
    exact hd ▸ Dict.mem_iff_get.mpr ⟨macs, hget⟩
  have hleaves := h.graph.remove_hub (Node.not_isMac_dpid dpid) hg
  rw [← homeOf_clear, hclear] at hleaves
  exact ⟨h.table, hleaves⟩

theorem tableInv_switch_leave_handler (dpid : Nat) : Moves (Keeps TableInv) (switch_leave_handler env dpid) := by
  apply Moves.keeps
  intro s hinv
  obtain ⟨ht, f, hosts⟩ := hinv
  unfold switch_leave_handler removeNode
  simp only [wp_bind, wp_get, wp_orRaise, wp_modify]
  refine ⟨fun g hg => ?_, fun _ _ => ⟨ht, f, hosts⟩⟩
  by_cases hdp : dpid ∈ s.datapaths
  · obtain ⟨datapath, hdatapath⟩ := Dict.mem_iff_get.mp hdp
    obtain ⟨load, hload⟩ := Dict.mem_iff_get.mp ((ht.load dpid).mpr hdp)
    obtain ⟨ports, hports⟩ := Dict.mem_iff_get.mp ((ht.ports dpid).mpr hdp)
    obtain ⟨macs, hmacs⟩ := Dict.mem_iff_get.mp ((ht.macs dpid).mpr hdp)
    simp only [wp_item_some hdatapath, wp_item_some hload, wp_item_some hports, wp_item_some hmacs]
    refine wp_mono (hosts.wp_removeMacs_leaving hmacs hg) ?_ fun _ _ h => h.elim
    intro _ _ hpost
    obtain ⟨net, rfl, hosts', _⟩ := hpost
    have hinv : ∀ x sent window_info_hash, TableInv { s with
        net, datapaths := s.datapaths.erase dpid, dpid_to_load := s.dpid_to_load.erase dpid,
        dpid_to_inter_connection_port := s.dpid_to_inter_connection_port.erase dpid,
        mac_to_port := s.mac_to_port.erase dpid, xid := x, sent, window_info_hash } := by
      intro x sent hash
      refine ⟨⟨fun d => ?_, fun d => ?_, fun d => ?_⟩, _, hosts'⟩
      · rw [AList.mem_erase, AList.mem_erase, ht.load]
      · rw [AList.mem_erase, AList.mem_erase, ht.ports]
      · rw [AList.mem_erase, AList.mem_erase, ht.macs]
    apply wp_send_msg
    · intro x y
      exact hinv _ _ _
    · intro x y _ _
      exact hinv _ _ _
  · have hnone : s.datapaths.get dpid = none := Dict.get_eq_none.mpr hdp
    have hout : dpid ∉ s.mac_to_port := fun h => hdp ((ht.macs dpid).mp h)
    rw [wp_item]
    refine ⟨fun _ hsome => ?_, fun _ => ⟨⟨ht.load, ht.ports, ht.macs⟩, f, hosts.leave_unlisted hout hg⟩⟩
    have hsome : s.datapaths.get dpid = some _ := hsome
    rw [hnone] at hsome
    cases hsome

theorem tableInv_get_topology_data (api : Topology) : Moves (Keeps TableInv) (get_topology_data env api) := by
  unfold get_topology_data
  have hhosts : ∀ (upd : env.nx.Graph → env.nx.Graph),
      (∀ (macs : Dict Nat (Dict Bytes Nat)) net f, Hosts env f macs net → Hosts env f macs (upd net)) →
      Moves (Keeps TableInv) (modify (fun s => { s with net := upd s.net }) : App env PUnit) := by
    intro upd hupd
    refine .modify fun s hinv => ?_
    obtain ⟨ht, f, hosts⟩ := hinv
    exact ⟨⟨ht.load, ht.ports, ht.macs⟩, f, hupd _ _ _ hosts⟩
  refine .bind (tableInv_of_quiet (.modify fun s => quiet_windows s _ _)) fun _ => .bind (.orRaise _) fun _ =>
    .bind (tableInv_of_quiet (moves_recordWindows quiet_windows _)) fun _ =>
    .bind (hhosts _ fun _ _ _ h => (h.add_switches api.switch_list).1) fun _ =>
    .bind (hhosts _ fun _ _ _ h => (h.add_links Link.src Link.dst api.links_list).1) fun _ =>
    .bind (hhosts _ fun _ _ _ h => (h.add_links Link.dst Link.src api.links_list).1) fun _ =>
    .bind (tableInv_of_quiet (moves_send_msg quiet_xid quiet_sent _ trivial)) fun _ => tableInv_of_quiet (.modify ?_)
  exact fun s => ⟨rfl, rfl, rfl, fun _ => .rfl, fun _ => .rfl⟩

theorem tableInv_handle {s : Layer2Switch env.nx.Graph} (h : TableInv s) (e : LocalEvent) :
    wp (handle env e) s (fun _ => TableInv) fun _ => TableInv := by
  cases e with
  | SwitchFeatures datapath => exact (tableInv_ofp_switch_features_handler datapath).kept h
  | PacketIn now msg => exact (tableInv_ofp_packet_in_handler now msg).kept h
  | TopologyChange api => exact (tableInv_get_topology_data api).kept h
  | SwitchLeave dpid => exact (tableInv_switch_leave_handler dpid).kept h
  | _ =>
    refine wp_mono (quiet_handle (fun d hd => (h.1.load d).mpr hd) id) (fun _ _ hq => ?_) fun _ _ hq => ?_
    · exact hq.tableInv h
    · exact hq.tableInv h

/-- In every run the tables agree, and the connected switches have 64-bit numbers. -/
theorem tableInv_run (xid : Nat) {es : List LocalEvent} (hsized : ∀ e ∈ es, Sized e) :
    TableInv (es.foldl (step env) (init env xid)) ∧
      ∀ d ∈ (es.foldl (step env) (init env xid)).datapaths, d < 2 ^ 64 := by
  refine List.foldlRecOn (motive := fun s => TableInv s ∧ ∀ d ∈ s.datapaths, d < 2 ^ 64) es (step env) ⟨?_, ?_⟩
    fun s h e he => ⟨?_, sized_step h.2 (hsized e he)⟩
  · obtain ⟨hsw, hhosts⟩ : HostInv (init env xid) := hostInv_init xid
    exact ⟨⟨hsw.load, hsw.ports, hsw.macs⟩, hhosts⟩
  · exact fun d hd => (AList.notMem_empty d hd).elim
  · refine step_of_wp (fun s hs => ?_) (tableInv_handle h.1 e)
    have hq : Quiet s { s with is_live := false } := ⟨rfl, rfl, rfl, fun _ => .rfl, fun _ => .rfl⟩
    exact hq.tableInv hs

end

/-! ## The learning step -/

/-- `ofp_packet_in_handler` up to the end of the host learning. -/
def learningStep (env : LocalEnv) (msg : PacketIn) (eth : Ethernet) : App env Unit := do
  countPacket env msg.datapath.id
  learnHost env msg.datapath.id msg.in_port eth.src

theorem packet_in_learns (env : LocalEnv) (now : Nat) {msg : PacketIn} {eth : Ethernet} (heth : msg.pkt.eth = some eth)
    (hlldp : eth.dst ≠ LLDP_MAC_NEAREST_BRIDGE) : ofp_packet_in_handler env now msg = (do
      learningStep env msg eth
      forward env now msg eth) := by
  unfold ofp_packet_in_handler learningStep
  simp only [heth, if_neg hlldp, bind_assoc]

/-- `src` is at port `p` of switch `d` and nowhere else, in the tables and in the
graph; if it was known elsewhere in `s`, its leaving and its coming were reported. -/
structure Located (s s' : Layer2Switch env.nx.Graph) (d p : Nat) (src : Bytes) : Prop where
  here : ∃ macs, s'.mac_to_port.get d = some macs ∧ macs.get src = some p
  only : ∀ d' macs, s'.mac_to_port.get d' = some macs → src ∈ macs → d' = d
  into : ∀ n a, env.nx.edge s'.net n (.mac src) = some a ↔ n = .dpid d ∧ a = some p
  back : ∀ n, (env.nx.edge s'.net (.mac src) n).isSome = true ↔ n = .dpid d
  moved : ∀ d₀ p₀ macs, s.mac_to_port.get d₀ = some macs → macs.get src = some p₀ → (d₀, p₀) ≠ (d, p) →
    ∃ msgs₁ msgs₂ msgs₃, s'.sent.map SentUp.msg =
      s.sent.map SentUp.msg ++ msgs₁ ++ .HostLeave d₀ src :: msgs₂ ++ .HostConnected d src :: msgs₃

/-- `src` is listed at port `p` of switch `d` or not at all. -/
def AtMostAt {Γ : Type} (s : Layer2Switch Γ) (d p : Nat) (src : Bytes) : Prop :=
  ∀ d₀ p₀ macs, s.mac_to_port.get d₀ = some macs → macs.get src = some p₀ → d₀ = d ∧ p₀ = p

section
variable {s s' : Layer2Switch env.nx.Graph} {f : Bytes ≃. (Nat × Nat)} {d p : Nat} {src : Bytes}

theorem Hosts.atMostAt_iff (h : Hosts env f s.mac_to_port s.net) :
    AtMostAt s d p src ↔ ∀ x, f src = some x → x = (d, p) := by
  constructor
  · intro hat x hx
    obtain ⟨d₀, p₀⟩ := x
    obtain ⟨macs, hmacs, hport⟩ := Option.bind_eq_some_iff.mp ((h.table d₀ src p₀).mpr hx)
    obtain ⟨rfl, rfl⟩ := hat d₀ p₀ macs hmacs hport
    rfl
  · intro hat d₀ p₀ macs hmacs hport
    cases hat (d₀, p₀) ((h.get hmacs).mp hport)
    exact ⟨rfl, rfl⟩

theorem Hosts.located (h : Hosts env f s'.mac_to_port s'.net) (hat : f src = some (d, p)) (hold : AtMostAt s d p src) :
    Located s s' d p src := by
  have hhome : ∀ n a, homeOf f (.mac src) = some (n, a) ↔ n = .dpid d ∧ a = some p := by
    intro n a
    rw [homeOf_mac]
    constructor
    · intro hex
      obtain ⟨d', p', hf, hn, ha⟩ := hex
      rw [hat] at hf
      cases hf
      exact ⟨hn, ha⟩
    · exact fun hna => ⟨d, p, hat, hna.1, hna.2⟩
  refine ⟨?_, fun d' macs hmacs hmem => ?_, fun n a => ?_, fun n => ?_, fun d₀ p₀ macs hmacs hport hne => ?_⟩
  · exact Option.bind_eq_some_iff.mp ((h.table d src p).mpr hat)
  · obtain ⟨p', hport⟩ := Dict.mem_iff_get.mp hmem
    have hat' := (h.get hmacs).mp hport
    rw [hat] at hat'
    cases hat'
    rfl
  · rw [h.graph.into _ n a (Node.isMac_mac src), hhome]
  · rw [h.graph.back (.mac src) n (Node.isMac_mac src)]
    simp only [hhome, exists_and_left, exists_eq, and_true]
  · obtain ⟨rfl, rfl⟩ := hold d₀ p₀ macs hmacs hport
    exact absurd rfl hne

/-- The learning step completes, and moves the host only when it was unknown. -/
theorem wp_learningStep {msg : PacketIn} {eth : Ethernet} (ht : Tables s) (hsize : ∀ d ∈ s.datapaths, d < 2 ^ 64)
    (hosts : Hosts env f s.mac_to_port s.net) {ports : List Nat}
    (hports : s.dpid_to_inter_connection_port.get msg.datapath.id = some ports) (hedge : msg.in_port ∉ ports) :
    wp (learningStep env msg eth) s (fun _ s' => (f eth.src ≠ none ∧ Hosts env f s'.mac_to_port s'.net) ∨
      (f eth.src = none ∧ ∃ f', Hosts env f' s'.mac_to_port s'.net ∧ f' eth.src = some (msg.datapath.id, msg.in_port)))
      fun _ _ => False := by
  have hmem : msg.datapath.id ∈ s.datapaths := (ht.ports _).mp (Dict.mem_iff_get.mpr ⟨ports, hports⟩)
  obtain ⟨load, hload⟩ := Dict.mem_iff_get.mp ((ht.load _).mpr hmem)
  unfold learningStep countPacket
  simp only [wp_bind, wp_get, wp_item_some hload, wp_modify]
  refine wp_mono (wp_learnHost hosts) (fun _ s' hpost => ?_) fun _ s' hpost => ?_
  · rcases hpost with ⟨rfl, hknown | ⟨ports', hports', hmarked⟩⟩ | ⟨hnew, _, hmoved⟩
    · obtain ⟨dpid, port, hat⟩ := hosts.mem_net.mp hknown
      exact Or.inl ⟨by rw [hat]; simp, hosts⟩
    · have hports' : s.dpid_to_inter_connection_port.get msg.datapath.id = some ports' := hports'
      rw [hports] at hports'
      cases hports'
      exact absurd hmarked hedge
    · exact Or.inr ⟨hnew, _, hmoved.hosts, PEquiv.put_eq_some.mpr (Or.inl ⟨rfl, rfl⟩)⟩
  · rcases hpost with ⟨_, _, hout | hout⟩ | ⟨_, hwide, _⟩
    · exact hout ((ht.ports _).mpr hmem)
    · exact hout ((ht.macs _).mpr hmem)
    · exact absurd (hsize _ hmem) (by omega)

end

/-- **A host is located by its packet exactly when it was not listed at another
port**, in every reachable state, for packets that are not LLDP, from ports not
known to lead to a switch. -/
theorem host_follows_packet_iff (env : LocalEnv) (xid : Nat) (es : List LocalEvent) (hsized : ∀ e ∈ es, Sized e)
    (now : Nat) (msg : PacketIn) (eth : Ethernet) (heth : msg.pkt.eth = some eth)
    (hlldp : eth.dst ≠ LLDP_MAC_NEAREST_BRIDGE) (ports : List Nat)
    (hports : (es.foldl (step env) (init env xid)).dpid_to_inter_connection_port.get msg.datapath.id = some ports)
    (hedge : msg.in_port ∉ ports) :
    (ofp_packet_in_handler env now msg = do
      learningStep env msg eth
      forward env now msg eth) ∧
    (wp (learningStep env msg eth) (es.foldl (step env) (init env xid))
      (fun _ s' => Located (es.foldl (step env) (init env xid)) s' msg.datapath.id msg.in_port eth.src) (fun _ _ => False) ↔
        AtMostAt (es.foldl (step env) (init env xid)) msg.datapath.id msg.in_port eth.src) := by
  refine ⟨packet_in_learns env now heth hlldp, ?_⟩
  obtain ⟨⟨ht, f, hosts⟩, hsize⟩ := @tableInv_run env xid es hsized
  have hlearn := @wp_learningStep env _ f msg eth ht hsize hosts ports hports hedge
  constructor
  · intro h
    obtain ⟨_, s', _, hl, hpost⟩ := ok_of_wp (wp_mono (wp_and h hlearn) (fun _ _ h => h) fun _ _ h => h.1)
    rw [hosts.atMostAt_iff]
    intro x hx
    rcases hpost with ⟨_, hosts'⟩ | ⟨hnew, _⟩
    · -- nothing was done, so the host is where it was
      obtain ⟨macs, hmacs, hport⟩ := hl.here
      have hat := (hosts'.get hmacs).mp hport
      rw [hx] at hat
      exact Option.some.inj hat
    · rw [hnew] at hx
      cases hx
  · intro hat
    refine wp_mono hlearn (fun _ s' hpost => ?_) fun _ _ h => h
    rcases hpost with ⟨hknown, hosts'⟩ | ⟨_, f', hosts', hat'⟩
    · obtain ⟨x, hx⟩ := Option.ne_none_iff_exists'.mp hknown
      have hplace := hosts.atMostAt_iff.mp hat x hx
      exact hosts'.located (hplace ▸ hx) hat
    · exact hosts'.located hat' hat

def edgeRun : List LocalEvent :=
  [.SwitchFeatures ⟨1, "10.0.0.1"⟩, samplePacket 1 2 (asciiText "00:00:00:00:00:01") BROADCAST_STR]

def edgePacket (in_port : Nat) (mac : Bytes) : PacketIn :=
  ⟨⟨1, "10.0.0.1"⟩, in_port, OFP_NO_BUFFER, [], { eth := some ⟨mac, BROADCAST_STR, 0x0806⟩ }⟩

theorem host_follows_packet_iff_second :
    (ofp_packet_in_handler sampleLocalEnv 0 (edgePacket 3 (asciiText "00:00:00:00:00:02")) = do
      learningStep sampleLocalEnv (edgePacket 3 (asciiText "00:00:00:00:00:02"))
        ⟨asciiText "00:00:00:00:00:02", BROADCAST_STR, 0x0806⟩
      forward sampleLocalEnv 0 (edgePacket 3 (asciiText "00:00:00:00:00:02"))
        ⟨asciiText "00:00:00:00:00:02", BROADCAST_STR, 0x0806⟩) ∧
    (wp (learningStep sampleLocalEnv (edgePacket 3 (asciiText "00:00:00:00:00:02"))
        ⟨asciiText "00:00:00:00:00:02", BROADCAST_STR, 0x0806⟩) (edgeRun.foldl (step sampleLocalEnv) (init sampleLocalEnv 0))
      (fun _ s' => Located (edgeRun.foldl (step sampleLocalEnv) (init sampleLocalEnv 0)) s' 1 3
        (asciiText "00:00:00:00:00:02")) (fun _ _ => False) ↔
      AtMostAt (edgeRun.foldl (step sampleLocalEnv) (init sampleLocalEnv 0)) 1 3 (asciiText "00:00:00:00:00:02")) :=
  host_follows_packet_iff sampleLocalEnv 0 edgeRun (by decide) 0 (edgePacket 3 (asciiText "00:00:00:00:00:02"))
    ⟨asciiText "00:00:00:00:00:02", BROADCAST_STR, 0x0806⟩ rfl (by decide) [] rfl (by decide)

/-- The host moves from port 2 to port 3, and the tables keep it on port 2. -/
theorem host_stays_behind :
    ¬ wp (learningStep sampleLocalEnv (edgePacket 3 (asciiText "00:00:00:00:00:01"))
        ⟨asciiText "00:00:00:00:00:01", BROADCAST_STR, 0x0806⟩) (edgeRun.foldl (step sampleLocalEnv) (init sampleLocalEnv 0))
      (fun _ s' => Located (edgeRun.foldl (step sampleLocalEnv) (init sampleLocalEnv 0)) s' 1 3
        (asciiText "00:00:00:00:00:01")) (fun _ _ => False) := by
  intro h
  have hport : wp (learningStep sampleLocalEnv (edgePacket 3 (asciiText "00:00:00:00:00:01"))
      ⟨asciiText "00:00:00:00:00:01", BROADCAST_STR, 0x0806⟩) (edgeRun.foldl (step sampleLocalEnv) (init sampleLocalEnv 0))
      (fun _ s' => (s'.mac_to_port.get 1).bind (fun macs => Dict.get macs (asciiText "00:00:00:00:00:01")) = some 3)
      (fun _ _ => False) := by
    refine wp_mono h (fun _ s' hl => ?_) fun _ _ hf => hf
    obtain ⟨macs, hmacs, hport⟩ := hl.here
    rw [hmacs]
    exact hport
  exact absurd hport (by decide +kernel)

end Layer2Switch

end VnfDockerNet
