import VnfDockerNet.Layer2Spec

/-!
# The local host table and the graph

In every run in which ryu names connected switches only, `mac_to_port` and the
graph agree on the hosts: both represent one partial bijection between the
hosts and the ports they are on.
-/

namespace VnfDockerNet

open Python Networkx Runs

namespace Layer2Switch

variable {env : LocalEnv}

/-! ## The invariant -/

/-- The tables have the connected switches as keys, and the graph has no others. -/
structure Switches (s : Layer2Switch env.nx.Graph) : Prop where
  node : ∀ d, env.nx.has_node s.net (.dpid d) = true → d ∈ s.datapaths
  load : ∀ d, d ∈ s.dpid_to_load ↔ d ∈ s.datapaths
  ports : ∀ d, d ∈ s.dpid_to_inter_connection_port ↔ d ∈ s.datapaths
  macs : ∀ d, d ∈ s.mac_to_port ↔ d ∈ s.datapaths

def HostInv (s : Layer2Switch env.nx.Graph) : Prop := Switches s ∧ ∃ f, Hosts env f s.mac_to_port s.net

theorem hostInv_init (xid : Nat) : HostInv (init env xid) := by
  refine ⟨⟨fun d hd => ?_, fun d => ?_, fun d => ?_, fun d => ?_⟩, ⊥, fun d m p => ?_, ?_⟩
  · unfold init at hd
    rw [env.nx.has_node_empty] at hd
    cases hd
  · simp [init]
  · simp [init]
  · simp [init]
  · simp [init]
  · have h : env.nx.Leaves Node.IsMac (fun _ => False) (fun _ => none) env.nx.empty := DiGraph.leaves_empty
    have hhome : homeOf ⊥ = fun _ => none := by
      funext n
      cases n <;> rfl
    rw [hhome]
    refine ⟨h.hub, fun n hn => (h.node n hn).trans ?_, h.into, h.back⟩
    simp

/-! ## Quiet handlers -/

structure Quiet (s s' : Layer2Switch env.nx.Graph) : Prop where
  net : s'.net = s.net
  mac_to_port : s'.mac_to_port = s.mac_to_port
  datapaths : s'.datapaths = s.datapaths
  load : ∀ d, d ∈ s'.dpid_to_load ↔ d ∈ s.dpid_to_load
  ports : ∀ d, d ∈ s'.dpid_to_inter_connection_port ↔ d ∈ s.dpid_to_inter_connection_port

instance : IsPreorder (Layer2Switch env.nx.Graph) Quiet where
  refl _ := ⟨rfl, rfl, rfl, fun _ => .rfl, fun _ => .rfl⟩
  trans _ _ _ h h' := ⟨h'.net.trans h.net, h'.mac_to_port.trans h.mac_to_port, h'.datapaths.trans h.datapaths,
    fun d => (h'.load d).trans (h.load d), fun d => (h'.ports d).trans (h.ports d)⟩

section
variable {s s' : Layer2Switch env.nx.Graph} {f : Bytes ≃. (Nat × Nat)} {dpid : Nat}

theorem Quiet.hostInv (h : Quiet s s') (hinv : HostInv s) : HostInv s' := by
  obtain ⟨hsw, f, hosts⟩ := hinv
  refine ⟨⟨fun d hd => ?_, fun d => ?_, fun d => ?_, fun d => ?_⟩, f, ?_⟩
  · rw [h.net] at hd
    rw [h.datapaths]
    exact hsw.node d hd
  · rw [h.load, h.datapaths]
    exact hsw.load d
  · rw [h.ports, h.datapaths]
    exact hsw.ports d
  · rw [h.mac_to_port, h.datapaths]
    exact hsw.macs d
  · rw [h.mac_to_port, h.net]
    exact hosts

theorem hostInv_of_quiet {α : Type} {x : App env α} (h : Moves Quiet x) : Moves (Keeps HostInv) x :=
  h.mono fun _ _ => Quiet.hostInv

theorem quiet_xid (s : Layer2Switch env.nx.Graph) (xid : Nat) : Quiet s { s with xid } :=
  ⟨rfl, rfl, rfl, fun _ => .rfl, fun _ => .rfl⟩

theorem quiet_sent (s : Layer2Switch env.nx.Graph) (xid : Nat) (msg : MsgUp) (_ : True) :
    Quiet s { s with sent := s.sent ++ [⟨xid, msg⟩] } :=
  ⟨rfl, rfl, rfl, fun _ => .rfl, fun _ => .rfl⟩

theorem quiet_out (s : Layer2Switch env.nx.Graph) (x : Nat × SwitchMsg) :
    Quiet s { s with switch_out := s.switch_out ++ [x] } :=
  ⟨rfl, rfl, rfl, fun _ => .rfl, fun _ => .rfl⟩

theorem quiet_pending (s : Layer2Switch env.nx.Graph) (xid_to_packet : Dict Nat (Option Bytes))
    (xid_to_packet_timestamp xid_to_buffer_id : Dict Nat Nat) :
    Quiet s { s with xid_to_packet, xid_to_packet_timestamp, xid_to_buffer_id } :=
  ⟨rfl, rfl, rfl, fun _ => .rfl, fun _ => .rfl⟩

theorem quiet_windows (s : Layer2Switch env.nx.Graph) (dpid_to_is_win : Dict Nat Bool) (dpid_to_out_port : Dict Nat Nat) :
    Quiet s { s with dpid_to_is_win, dpid_to_out_port } :=
  ⟨rfl, rfl, rfl, fun _ => .rfl, fun _ => .rfl⟩

theorem quiet_load (s : Layer2Switch env.nx.Graph) (dpid load : Nat) (h : dpid ∈ s.dpid_to_load) :
    Quiet s { s with dpid_to_load := s.dpid_to_load.insert dpid load } :=
  ⟨rfl, rfl, rfl, Dict.mem_insert_of_mem h load, fun _ => .rfl⟩

theorem quiet_reportLoads : ∀ (l : List Nat) (s : Layer2Switch env.nx.Graph), (∀ d ∈ l, d ∈ s.dpid_to_load) →
    wp (reportLoads env l) s (fun _ => Quiet s) fun _ => Quiet s
  | [], s, _ => refl_of Quiet s
  | dpid :: l, s, hl => by
    unfold reportLoads
    simp only [wp_bind, wp_get, wp_modify]
    have hq := quiet_load s dpid 0 (hl dpid List.mem_cons_self)
    refine wp_mono (moves_send_msg quiet_xid quiet_sent none trivial _) (fun _ s' h => ?_) fun _ s' h => trans_of Quiet hq h
    have hq' := trans_of Quiet hq h
    have hl' : ∀ d ∈ l, d ∈ s'.dpid_to_load := fun d hd => (hq'.load d).mpr (hl d (List.mem_cons_of_mem _ hd))
    exact wp_mono (quiet_reportLoads l s' hl') (fun _ _ h => trans_of Quiet hq' h) fun _ _ h => trans_of Quiet hq' h

/-! ## The handlers that move hosts -/

theorem Moved.hostInv {f : Bytes ≃. (Nat × Nat)} {msgs : List MsgUp} (h : Moved s s' f msgs) (hsw : Switches s) :
    HostInv s' := by
  obtain ⟨_, _, _, _, rfl, _, hosts, hkeys, hnode⟩ := h
  refine ⟨⟨fun d hd => ?_, hsw.load, hsw.ports, fun d => (hkeys d).trans (hsw.macs d)⟩, f, hosts⟩
  rcases hnode d hd with h | h
  · exact hsw.node d h
  · exact (hsw.macs d).mp h

theorem keeps_learnHost (dpid in_port : Nat) (src : Bytes) : Moves (Keeps HostInv) (learnHost env dpid in_port src) := by
  apply Moves.keeps
  intro s hinv
  obtain ⟨hsw, f, hosts⟩ := hinv
  refine wp_mono (wp_learnHost hosts) ?_ ?_
  · intro _ s' hpost
    rcases hpost with ⟨rfl, _⟩ | ⟨_, _, hmoved⟩
    · exact ⟨hsw, f, hosts⟩
    · exact hmoved.hostInv hsw
  · intro e s' hpost
    rcases hpost with ⟨_, rfl, _⟩ | ⟨_, _, f', msgs, hmoved⟩
    · exact ⟨hsw, f, hosts⟩
    · exact hmoved.hostInv hsw

theorem keeps_ofp_packet_in_handler (now : Nat) (msg : PacketIn) :
    Moves (Keeps HostInv) (ofp_packet_in_handler env now msg) := by
  unfold ofp_packet_in_handler
  cases msg.pkt.eth with
  | none => exact .throw _
  | some eth =>
    refine .ite (hostInv_of_quiet (moves_markPort ?_ _ _)) ?_
    · intro s dpid ports h
      exact ⟨rfl, rfl, rfl, fun _ => .rfl, Dict.mem_insert_of_mem h ports⟩
    · exact .bind (hostInv_of_quiet (moves_countPacket quiet_load _)) fun _ => .bind (keeps_learnHost _ _ _) fun _ =>
        hostInv_of_quiet (moves_forward quiet_xid quiet_sent quiet_out quiet_pending (fun _ _ _ _ _ _ _ => trivial)
          now msg eth)

theorem keeps_ofp_switch_features_handler (datapath : OfDatapath) :
    Moves (Keeps HostInv) (ofp_switch_features_handler env datapath) := by
  unfold ofp_switch_features_handler
  refine .bind (.modify ?_) fun _ => .bind .get fun _ =>
    .bind (hostInv_of_quiet (moves_send_msg quiet_xid quiet_sent _ trivial)) fun _ =>
      hostInv_of_quiet (moves_add_flow quiet_out _ _ _ _ _)
  intro s hinv
  obtain ⟨hsw, f, hosts⟩ := hinv
  have hset : ∀ {ν : Type} (d : Dict Nat ν) (v : ν) k, k ∈ d.setdefault datapath.id v ↔ k = datapath.id ∨ k ∈ d := by
    intro ν d v k
    rw [Dict.mem_iff_get, Dict.get_setdefault, Dict.mem_iff_get]
    by_cases hk : k = datapath.id
    · simp [hk]
    · simp [hk]
  refine ⟨⟨fun d hd => ?_, fun d => ?_, fun d => ?_, fun d => ?_⟩, f, hosts.setdefault datapath.id⟩
  · exact (AList.mem_insert _).mpr (Or.inr (hsw.node d hd))
  · rw [AList.mem_insert, AList.mem_insert, hsw.load]
  · rw [hset, AList.mem_insert, hsw.ports]
  · rw [hset, AList.mem_insert, hsw.macs]

/-! ### Leaving -/

theorem wp_removeMacs {present : Node → Prop} {home : Node → Option (Node × Option Nat)} :
    ∀ (l : List Bytes) (s : Layer2Switch env.nx.Graph), (∀ m ∈ l, home (.mac m) = none) →
      env.nx.Leaves Node.IsMac present home s.net →
      wp (removeMacs env l) s (fun _ s' => ∃ net, s' = { s with net } ∧
        env.nx.Leaves Node.IsMac (fun n => (∀ m ∈ l, n ≠ .mac m) ∧ present n) home net ∧
        ∀ d, env.nx.has_node net (.dpid d) = env.nx.has_node s.net (.dpid d)) fun _ _ => False
  | [], s, _, h => by
    refine ⟨s.net, rfl, ⟨h.hub, fun n hn => (h.node n hn).trans ?_, h.into, h.back⟩, fun _ => rfl⟩
    simp
  | mac :: l, s, hl, h => by
    have hnone := hl mac List.mem_cons_self
    have hrest : ∀ m ∈ l, home (.mac m) = none := fun m hm => hl m (List.mem_cons_of_mem _ hm)
    -- an exception means that the host is not there
    have hone : ∃ g, (env.nx.remove_node s.net (.mac mac)).toOption.getD s.net = g ∧
        env.nx.Leaves Node.IsMac (fun n => n ≠ .mac mac ∧ present n) home g ∧
        ∀ d, env.nx.has_node g (.dpid d) = env.nx.has_node s.net (.dpid d) := by
      cases hg : env.nx.remove_node s.net (.mac mac) with
      | ok g =>
        refine ⟨g, rfl, ?_, fun d => ?_⟩
        · have hd := h.detach (Node.isMac_mac mac) hg
          rw [← hnone, Function.update_eq_self] at hd
          exact hd
        · rw [env.nx.has_node_remove_node _ _ _ _ hg]
          simp
      | error e =>
        have habsent : ¬ present (.mac mac) := fun hp => by
          obtain ⟨g, hok⟩ := env.nx.remove_node_ok s.net (.mac mac) ((h.node _ (Node.isMac_mac mac)).mpr hp)
          rw [hg] at hok
          cases hok
        refine ⟨s.net, rfl, ⟨h.hub, fun n hn => (h.node n hn).trans ?_, h.into, h.back⟩, fun _ => rfl⟩
        exact ⟨fun hp => ⟨fun he => habsent (he ▸ hp), hp⟩, And.right⟩
    obtain ⟨g, hg, hleaves, hnode⟩ := hone
    unfold removeMacs
    simp only [wp_bind, wp_modify, hg]
    refine wp_mono (wp_removeMacs l _ hrest hleaves) ?_ fun _ _ h => h
    intro _ _ hpost
    obtain ⟨net, rfl, hleaves', hnode'⟩ := hpost
    refine ⟨net, rfl, ⟨hleaves'.hub, fun n hn => (hleaves'.node n hn).trans ?_, hleaves'.into, hleaves'.back⟩,
      fun d => (hnode' d).trans (hnode d)⟩
    simp [and_assoc, and_left_comm]

theorem Hosts.leave {s : Layer2Switch env.nx.Graph} {net : env.nx.Graph} {macs : Dict Bytes Nat}
    (h : Hosts env f s.mac_to_port s.net) (hmacs : s.mac_to_port.get dpid = some macs)
    (hnet : env.nx.Leaves Node.IsMac (fun n => (∀ m ∈ env.order macs, n ≠ .mac m) ∧ (homeOf f n).isSome = true)
      (homeOf (f.clear fun x => x.1 = dpid)) net) :
    Hosts env (f.clear fun x => x.1 = dpid) (s.mac_to_port.erase dpid) net where
  table d m p := by
    rw [Dict.get_erase, PEquiv.clear_eq_some, ← h.table]
    by_cases hd : d = dpid
    · simp [hd]
    · simp [hd]
  graph := by
    refine ⟨hnet.hub, fun n hn => (hnet.node n hn).trans ?_, hnet.into, hnet.back⟩
    cases n with
    | dpid d => exact absurd hn (Node.not_isMac_dpid d)
    | mac m =>
      rw [Option.isSome_iff_exists, Option.isSome_iff_exists]
      constructor
      · intro hex
        obtain ⟨hl, ⟨u, a⟩, hx⟩ := hex
        obtain ⟨d, p, hf, hu, ha⟩ := homeOf_mac.mp hx
        refine ⟨(u, a), homeOf_mac.mpr ⟨d, p, PEquiv.clear_eq_some.mpr ⟨hf, fun hd => ?_⟩, hu, ha⟩⟩
        have hd : d = dpid := hd
        exact hl m (mem_order.mpr (Dict.mem_iff_get.mpr ⟨p, (h.get hmacs).mpr (hd ▸ hf)⟩)) rfl
      · intro hex
        obtain ⟨⟨u, a⟩, hx⟩ := hex
        obtain ⟨d, p, hc, hu, ha⟩ := homeOf_mac.mp hx
        obtain ⟨hf, hd⟩ := PEquiv.clear_eq_some.mp hc
        refine ⟨fun m' hm' he => ?_, (u, a), homeOf_mac.mpr ⟨d, p, hf, hu, ha⟩⟩
        cases he
        obtain ⟨port, hport⟩ := Dict.mem_iff_get.mp (mem_order.mp hm')
        have := (h.get hmacs).mp hport
        rw [hf] at this
        cases this
        exact hd rfl

theorem Hosts.wp_removeMacs_leaving {s : Layer2Switch env.nx.Graph} {g : env.nx.Graph} {macs : Dict Bytes Nat}
    (hosts : Hosts env f s.mac_to_port s.net) (hmacs : s.mac_to_port.get dpid = some macs)
    (hg : env.nx.remove_node s.net (.dpid dpid) = .ok g) {datapaths : Dict Nat OfDatapath} {dpid_to_load : Dict Nat Nat}
    {dpid_to_inter_connection_port : Dict Nat (List Nat)} :
    wp (removeMacs env (env.order macs)) { s with net := g, datapaths, dpid_to_load, dpid_to_inter_connection_port }
      (fun _ s' => ∃ net, s' = { s with net, datapaths, dpid_to_load, dpid_to_inter_connection_port } ∧
        Hosts env (f.clear fun x => x.1 = dpid) (s.mac_to_port.erase dpid) net ∧
        ∀ d, env.nx.has_node net (.dpid d) = (decide (d ≠ dpid) && env.nx.has_node s.net (.dpid d))) fun _ _ => False := by
  have hleaves := hosts.graph.remove_hub (Node.not_isMac_dpid dpid) hg
  rw [← homeOf_clear] at hleaves
  have hhome : ∀ m ∈ env.order macs, homeOf (f.clear fun x => x.1 = dpid) (.mac m) = none := by
    intro m hm
    obtain ⟨port, hport⟩ := Dict.mem_iff_get.mp (mem_order.mp hm)
    have hat := (hosts.get hmacs).mp hport
    cases hc : homeOf (f.clear fun x => x.1 = dpid) (.mac m) with
    | none => rfl
    | some x =>
      obtain ⟨d, p, hclear, _⟩ := homeOf_mac.mp hc
      obtain ⟨hf, hd⟩ := PEquiv.clear_eq_some.mp hclear
      rw [hat] at hf
      cases hf
      exact absurd rfl hd
  refine wp_mono (wp_removeMacs _ _ hhome hleaves) ?_ fun _ _ h => h
  intro _ _ hpost
  obtain ⟨net, rfl, hnet, hnode⟩ := hpost
  refine ⟨net, rfl, hosts.leave hmacs hnet, fun d => ?_⟩
  rw [hnode, env.nx.has_node_remove_node _ _ _ _ hg]
  simp

theorem wp_switch_leave_handler {s : Layer2Switch env.nx.Graph} (hinv : HostInv s)
    (hmem : env.nx.has_node s.net (.dpid dpid) = true) :
    wp (switch_leave_handler env dpid) s (fun _ => HostInv) fun _ => HostInv := by
  obtain ⟨hsw, f, hosts⟩ := hinv
  have hdp := hsw.node dpid hmem
  obtain ⟨g, hg⟩ := env.nx.remove_node_ok s.net (.dpid dpid) hmem
  obtain ⟨datapath, hdatapath⟩ := Dict.mem_iff_get.mp hdp
  obtain ⟨load, hload⟩ := Dict.mem_iff_get.mp ((hsw.load dpid).mpr hdp)
  obtain ⟨ports, hports⟩ := Dict.mem_iff_get.mp ((hsw.ports dpid).mpr hdp)
  obtain ⟨macs, hmacs⟩ := Dict.mem_iff_get.mp ((hsw.macs dpid).mpr hdp)
  unfold switch_leave_handler removeNode
  simp only [wp_bind, wp_get, wp_modify, wp_orRaise_ok hg, wp_item_some hdatapath, wp_item_some hload,
    wp_item_some hports, wp_item_some hmacs]
  refine wp_mono (hosts.wp_removeMacs_leaving hmacs hg) ?_ fun _ _ h => h.elim
  intro _ _ hpost
  obtain ⟨net, rfl, hosts', hnode⟩ := hpost
  have hinv : ∀ x sent window_info_hash, HostInv { s with
      net, datapaths := s.datapaths.erase dpid, dpid_to_load := s.dpid_to_load.erase dpid,
      dpid_to_inter_connection_port := s.dpid_to_inter_connection_port.erase dpid,
      mac_to_port := s.mac_to_port.erase dpid, xid := x, sent, window_info_hash } := by
    intro x sent hash
    refine ⟨⟨fun d hd => ?_, fun d => ?_, fun d => ?_, fun d => ?_⟩, _, hosts'⟩
    · rw [hnode] at hd
      have hne : d ≠ dpid ∧ env.nx.has_node s.net (.dpid d) = true := by simpa using hd
      exact AList.mem_erase.mpr ⟨hne.1, hsw.node d hne.2⟩
    · rw [AList.mem_erase, AList.mem_erase, hsw.load]
    · rw [AList.mem_erase, AList.mem_erase, hsw.ports]
    · rw [AList.mem_erase, AList.mem_erase, hsw.macs]
  apply wp_send_msg
  · intro x y
    exact hinv _ _ _
  · intro x y _ _
    exact hinv _ _ _

/-! ### Topology -/

theorem Hosts.add_switches {mac_to_port : Dict Nat (Dict Bytes Nat)} : ∀ (l : List Nat) {net : env.nx.Graph},
    Hosts env f mac_to_port net → Hosts env f mac_to_port (addSwitches env net l) ∧
      ∀ d, env.nx.has_node (addSwitches env net l) (.dpid d) = true → env.nx.has_node net (.dpid d) = true ∨ d ∈ l
  | [], _, h => ⟨h, fun _ => Or.inl⟩
  | dpid :: l, net, h => by
    have hone : Hosts env f mac_to_port (env.nx.add_node net (.dpid dpid)) :=
      ⟨h.table, h.graph.add_hub (Node.not_isMac_dpid dpid)⟩
    obtain ⟨hosts, hnode⟩ := Hosts.add_switches l hone
    refine ⟨hosts, fun d hd => ?_⟩
    rcases hnode d hd with hd | hd
    · rw [env.nx.has_node_add_node] at hd
      have : d = dpid ∨ env.nx.has_node net (.dpid d) = true := by simpa using hd
      rcases this with rfl | hd
      · exact Or.inr List.mem_cons_self
      · exact Or.inl hd
    · exact Or.inr (List.mem_cons_of_mem _ hd)

theorem Hosts.add_links {mac_to_port : Dict Nat (Dict Bytes Nat)} (src dst : Link → LinkEnd) :
    ∀ (l : List Link) {net : env.nx.Graph}, Hosts env f mac_to_port net →
      Hosts env f mac_to_port (addLinks env net src dst l) ∧
      ∀ d, env.nx.has_node (addLinks env net src dst l) (.dpid d) = true →
        env.nx.has_node net (.dpid d) = true ∨ ∃ link ∈ l, d = (src link).dpid ∨ d = (dst link).dpid
  | [], _, h => ⟨h, fun _ => Or.inl⟩
  | link :: l, net, h => by
    have hone : Hosts env f mac_to_port (env.nx.add_edge net (.dpid (src link).dpid) (.dpid (dst link).dpid)
        fun _ => some (src link).port_no) :=
      ⟨h.table, h.graph.join_hubs (Node.not_isMac_dpid _) (Node.not_isMac_dpid _) _⟩
    obtain ⟨hosts, hnode⟩ := Hosts.add_links src dst l hone
    refine ⟨hosts, fun d hd => ?_⟩
    rcases hnode d hd with hd | ⟨link', hmem, hd⟩
    · rw [env.nx.has_node_add_edge] at hd
      have : (d = (src link).dpid ∨ d = (dst link).dpid) ∨ env.nx.has_node net (.dpid d) = true := by simpa using hd
      rcases this with hd | hd
      · exact Or.inr ⟨link, List.mem_cons_self, hd⟩
      · exact Or.inl hd
    · exact Or.inr ⟨link', List.mem_cons_of_mem _ hmem, hd⟩

theorem wp_get_topology_data {s : Layer2Switch env.nx.Graph} (hinv : HostInv s) {api : Topology}
    (hswitch : ∀ d ∈ api.switch_list, d ∈ s.datapaths)
    (hlink : ∀ link ∈ api.links_list, link.src.dpid ∈ s.datapaths ∧ link.dst.dpid ∈ s.datapaths) :
    wp (get_topology_data env api) s (fun _ => HostInv) fun _ => HostInv := by
  unfold get_topology_data
  simp only [wp_bind, wp_modify, wp_orRaise]
  have hq := quiet_windows s (api.switch_list.foldl (fun d dpid => d.insert dpid false) s.dpid_to_is_win) s.dpid_to_out_port
  refine ⟨fun _ _ => ?_, fun _ _ => hq.hostInv hinv⟩
  refine wp_mono (moves_recordWindows quiet_windows api.window_switches _) (fun _ s₁ h => ?_) fun _ _ h =>
    (trans_of Quiet hq h).hostInv hinv
  have hq₁ := trans_of Quiet hq h
  obtain ⟨hsw, f, hosts⟩ := hq₁.hostInv hinv
  obtain ⟨hosts, hnode⟩ := hosts.add_switches api.switch_list
  obtain ⟨hosts, hnode'⟩ := hosts.add_links Link.src Link.dst api.links_list
  obtain ⟨hosts, hnode''⟩ := hosts.add_links Link.dst Link.src api.links_list
  have hknown : ∀ d, d ∈ s.datapaths → d ∈ s₁.datapaths := fun d hd => by rw [hq₁.datapaths]; exact hd
  have hlinked : ∀ d, ∀ link ∈ api.links_list, d = link.src.dpid ∨ d = link.dst.dpid → d ∈ s₁.datapaths := by
    intro d link hmem hd
    rcases hd with rfl | rfl
    · exact hknown _ (hlink link hmem).1
    · exact hknown _ (hlink link hmem).2
  have hinv : ∀ x sent hash, HostInv { s₁ with
      net := addLinks env (addLinks env (addSwitches env s₁.net api.switch_list) Link.src Link.dst api.links_list)
        Link.dst Link.src api.links_list,
      xid := x, sent, window_switches_hash := hash } := by
    intro x sent hash
    refine ⟨⟨fun d hd => ?_, hsw.load, hsw.ports, hsw.macs⟩, f, hosts⟩
    rcases hnode'' d hd with hd | ⟨link, hmem, hd⟩
    · rcases hnode' d hd with hd | ⟨link, hmem, hd⟩
      · rcases hnode d hd with hd | hd
        · exact hsw.node d hd
        · exact hknown d (hswitch d hd)
      · exact hlinked d link hmem hd
    · exact hlinked d link hmem hd.symm
  apply wp_send_msg
  · intro x y
    exact hinv _ _ _
  · intro x y _ _
    exact hinv _ _ _

end

/-! ## Runs -/

/-- ryu names connected switches only, and a leaving switch is in the graph. -/
def Lawful (env : LocalEnv) (s : Layer2Switch env.nx.Graph) : LocalEvent → Prop
  | .TopologyChange api => (∀ d ∈ api.switch_list, d ∈ s.datapaths) ∧
      ∀ link ∈ api.links_list, link.src.dpid ∈ s.datapaths ∧ link.dst.dpid ∈ s.datapaths
  | .SwitchLeave dpid => env.nx.has_node s.net (.dpid dpid) = true
  | _ => True

instance (s : Layer2Switch env.nx.Graph) : ∀ e, Decidable (Lawful env s e)
  | .TopologyChange _ => inferInstanceAs (Decidable (_ ∧ _))
  | .SwitchLeave dpid => inferInstanceAs (Decidable (env.nx.has_node s.net (.dpid dpid) = true))
  | .SwitchFeatures _ | .RoleReply .. | .PacketIn .. | .Connected | .Downlink .. | .LoadRound | .GraphInfoRound _
  | .TimeoutRound _ => isTrue trivial

def Stirs : LocalEvent → Prop
  | .SwitchFeatures _ | .PacketIn .. | .TopologyChange _ | .SwitchLeave _ => True
  | _ => False

theorem quiet_handle {s : Layer2Switch env.nx.Graph} (hload : ∀ d ∈ s.datapaths, d ∈ s.dpid_to_load) {e : LocalEvent}
    (he : ¬ Stirs e) : wp (handle env e) s (fun _ => Quiet s) fun _ => Quiet s := by
  unfold handle
  cases e with
  | RoleReply dpid role => exact moves_ofp_role_reply_handler quiet_xid quiet_sent (fun _ _ _ => trivial) dpid role s
  | Connected => exact ⟨rfl, rfl, rfl, fun _ => .rfl, fun _ => .rfl⟩
  | Downlink now ev =>
    exact moves_dispatch_event quiet_xid quiet_sent quiet_out (fun s _ _ => quiet_pending s _ _ _)
      (fun _ => trivial) (fun _ _ => ⟨rfl, rfl, rfl, fun _ => .rfl, fun _ => .rfl⟩) now ev
      (fun s _ _ => quiet_pending s _ _ _) s
  | LoadRound =>
    unfold _load_report
    simp only [wp_bind, wp_get, wp_ite, wp_pure]
    exact ⟨fun _ => quiet_reportLoads _ s fun d hd => hload d (mem_order.mp hd), fun _ => refl_of Quiet s⟩
  | GraphInfoRound window_switches =>
    exact moves_graph_info_thread quiet_xid quiet_sent (fun _ => trivial) quiet_windows
      (fun _ _ => ⟨rfl, rfl, rfl, fun _ => .rfl, fun _ => .rfl⟩) window_switches s
  | TimeoutRound now =>
    have hexpire : Moves Quiet (_packet_timeout_handler env now) :=
      .bind .get fun _ => moves_expirePackets (fun s _ _ => quiet_pending s _ _ _)
        (fun s _ _ _ => quiet_pending s _ _ _) now _
    exact hexpire s
  | _ => exact absurd trivial he

theorem keeps_handle {s : Layer2Switch env.nx.Graph} {e : LocalEvent} (h : HostInv s) (hok : Lawful env s e) :
    wp (handle env e) s (fun _ => HostInv) fun _ => HostInv := by
  cases e with
  | SwitchFeatures datapath => exact (keeps_ofp_switch_features_handler datapath).kept h
  | PacketIn now msg => exact (keeps_ofp_packet_in_handler now msg).kept h
  | TopologyChange api => exact wp_get_topology_data h hok.1 hok.2
  | SwitchLeave dpid => exact wp_switch_leave_handler h hok
  | _ =>
    refine wp_mono (quiet_handle (fun d hd => (h.1.load d).mpr hd) id) (fun _ _ hq => ?_) fun _ _ hq => ?_
    · exact hq.hostInv h
    · exact hq.hostInv h

theorem hostInv_step {s : Layer2Switch env.nx.Graph} {e : LocalEvent} (h : HostInv s) (hok : Lawful env s e) :
    HostInv (step env s e) := by
  refine step_of_wp (fun s hs => ?_) (keeps_handle h hok)
  have hq : Quiet s { s with is_live := false } := ⟨rfl, rfl, rfl, fun _ => .rfl, fun _ => .rfl⟩
  exact hq.hostInv hs

/-- `mac_to_port` and the graph agree on the hosts. -/
structure HostsAgree (s : Layer2Switch env.nx.Graph) : Prop where
  edges : ∀ dpid macs mac port, s.mac_to_port.get dpid = some macs → macs.get mac = some port →
    env.nx.has_node s.net (.mac mac) = true ∧ env.nx.edge s.net (.dpid dpid) (.mac mac) = some (some port) ∧
    (env.nx.edge s.net (.mac mac) (.dpid dpid)).isSome = true
  owner : ∀ mac, env.nx.has_node s.net (.mac mac) = true →
    ∃ dpid, (∃ macs, s.mac_to_port.get dpid = some macs ∧ mac ∈ macs) ∧
      (∀ dpid' macs, s.mac_to_port.get dpid' = some macs → mac ∈ macs → dpid' = dpid) ∧
      ∀ n, (env.nx.edge s.net n (.mac mac)).isSome = true ∨ (env.nx.edge s.net (.mac mac) n).isSome = true →
        n = .dpid dpid
  ports : ∀ dpid macs mac mac' port, s.mac_to_port.get dpid = some macs → macs.get mac = some port →
    macs.get mac' = some port → mac = mac'

/-- **The local host table and the graph agree** in every reachable state. -/
theorem local_hosts_agree (env : LocalEnv) (xid : Nat) (es : List LocalEvent)
    (h : Allowed (step env) (Lawful env) (init env xid) es) : HostsAgree (es.foldl (step env) (init env xid)) := by
  have hinv : HostInv (es.foldl (step env) (init env xid)) :=
    h.invariant HostInv (fun _ _ => hostInv_step) (hostInv_init xid)
  obtain ⟨_, f, hosts⟩ := hinv
  refine ⟨fun dpid macs mac port hmacs hport => ?_, fun mac hmac => ?_, fun dpid macs mac mac' port hmacs hm hm' => ?_⟩
  · have hat := (hosts.get hmacs).mp hport
    have hhome : homeOf f (.mac mac) = some (.dpid dpid, some port) := homeOf_mac.mpr ⟨dpid, port, hat, rfl, rfl⟩
    exact ⟨hosts.mem_net.mpr ⟨dpid, port, hat⟩, (hosts.graph.into _ _ _ (Node.isMac_mac mac)).mpr hhome,
      (hosts.graph.back _ _ (Node.isMac_mac mac)).mpr ⟨_, hhome⟩⟩
  · obtain ⟨dpid, port, hat⟩ := hosts.mem_net.mp hmac
    have hall : ∀ u a, homeOf f (.mac mac) = some (u, a) → u = .dpid dpid := by
      intro u a hu
      obtain ⟨d, p, hf, hud, _⟩ := homeOf_mac.mp hu
      rw [hat] at hf
      cases hf
      exact hud
    refine ⟨dpid, ?_, fun dpid' macs hmacs hmem => ?_, fun n hn => ?_⟩
    · obtain ⟨macs, hmacs, hport⟩ := Option.bind_eq_some_iff.mp ((hosts.table dpid mac port).mpr hat)
      exact ⟨macs, hmacs, Dict.mem_iff_get.mpr ⟨port, hport⟩⟩
    · obtain ⟨port', hport'⟩ := Dict.mem_iff_get.mp hmem
      have hat' := (hosts.get hmacs).mp hport'
      rw [hat] at hat'
      cases hat'
      rfl
    · rcases hn with hn | hn
      · obtain ⟨a, ha⟩ := Option.isSome_iff_exists.mp hn
        exact hall n a ((hosts.graph.into _ _ _ (Node.isMac_mac mac)).mp ha)
      · obtain ⟨a, ha⟩ := (hosts.graph.back _ _ (Node.isMac_mac mac)).mp hn
        exact hall n a ha
  · exact f.inj ((hosts.get hmacs).mp hm) ((hosts.get hmacs).mp hm')

/-! ## An environment to compute with -/

def sampleLocalEnv : LocalEnv where
  host := .little
  nx := fnDiGraph Node (Option Nat)
  order d := d.keys
  order_perm _ := .refl _
  json_dumps _ := asciiText "[]"
  windows_digest _ := [0xd4, 0x1d, 0x8c, 0xd9, 0x8f, 0x00, 0xb2, 0x04, 0xe9, 0x80, 0x09, 0x98, 0xec, 0xf8, 0x42, 0x7e]
  empty_hexdigest := asciiText "99914b932bd37a50b983c5e7c90ae93b"

def samplePacket (dpid in_port : Nat) (src dst : Bytes) : LocalEvent :=
  .PacketIn 0 ⟨⟨dpid, "10.0.0.1"⟩, in_port, OFP_NO_BUFFER, [], { eth := some ⟨src, dst, 0x0806⟩ }⟩

/-- Two linked switches learn a host each, another host takes the place of the
first, and the second switch leaves. -/
def learningRun : List LocalEvent :=
  [.SwitchFeatures ⟨1, "10.0.0.1"⟩, .SwitchFeatures ⟨2, "10.0.0.1"⟩,
    .TopologyChange ⟨[1, 2], [], [⟨⟨1, 1⟩, ⟨2, 1⟩⟩]⟩,
    samplePacket 1 2 (asciiText "00:00:00:00:00:01") BROADCAST_STR,
    samplePacket 2 2 (asciiText "00:00:00:00:00:02") (asciiText "00:00:00:00:00:01"),
    samplePacket 1 2 (asciiText "00:00:00:00:00:03") BROADCAST_STR, .SwitchLeave 2]

theorem local_hosts_agree_learning : HostsAgree (learningRun.foldl (step sampleLocalEnv) (init sampleLocalEnv 0)) :=
  local_hosts_agree sampleLocalEnv 0 learningRun (by decide +kernel)

end Layer2Switch

end VnfDockerNet
