import VnfDockerNet.ReplaySound

/-!
# What a local controller reports about itself

The inventory of a controller is its switches and the hosts at them. The
messages that a handler sends, replayed on the inventory before it, give the
inventory after it, and each of them fits the inventory it meets: a switch
connects without hosts, a host connects to a switch of the inventory and is at
no switch, and only what is there leaves.
-/

namespace VnfDockerNet

open Python Networkx Runs

/-! ## Inventories -/

/-- The controllers that the switches and the hosts belong to. -/
structure Domains where
  home : Nat → Nat
  owner : Bytes → Nat

@[ext] structure Inventory where
  switches : Set Nat
  hosts : HostRel

namespace Inventory

def empty : Inventory := ⟨∅, ∅⟩

def after (i : Inventory) (msg : MsgUp) : Inventory where
  switches := match msg with
    | .DPConnected dpid _ => insert dpid i.switches
    | .DatapathLeave dpid => i.switches \ {dpid}
    | _ => i.switches
  hosts := replayMsg i.hosts msg

/-- Controller `lc` can send the message with this inventory. -/
def Fits (D : Domains) (lc : Nat) (i : Inventory) : MsgUp → Prop
  | .DPConnected dpid _ => D.home dpid = lc ∧ ∀ mac, (mac, dpid) ∉ i.hosts
  | .DatapathLeave dpid => dpid ∈ i.switches
  | .HostConnected dpid mac => D.owner mac = lc ∧ dpid ∈ i.switches ∧ ∀ dpid', (mac, dpid') ∉ i.hosts
  | .HostLeave dpid mac => (mac, dpid) ∈ i.hosts
  | _ => True

end Inventory

/-- The message says nothing about switches and hosts. -/
def Mute (msg : MsgUp) : Prop := ∀ D lc i, Inventory.after i msg = i ∧ Inventory.Fits D lc i msg

namespace Layer2Switch

variable {env : LocalEnv} {D : Domains} {lc : Nat}

def inventoryOf {Γ : Type} (s : Layer2Switch Γ) : Inventory := ⟨{d | d ∈ s.mac_to_port}, hostsOf s⟩

/-- The messages sent on the way fit, and say what happened to the inventory. -/
def Told (D : Domains) (lc : Nat) {Γ : Type} (s s' : Layer2Switch Γ) : Prop :=
  ∃ sent, s'.sent = s.sent ++ sent ∧ Allowed Inventory.after (Inventory.Fits D lc) (inventoryOf s) (sent.map SentUp.msg) ∧
    (sent.map SentUp.msg).foldl Inventory.after (inventoryOf s) = inventoryOf s'

instance {Γ : Type} : IsPreorder (Layer2Switch Γ) (Told D lc) where
  refl s := ⟨[], (List.append_nil _).symm, trivial, rfl⟩
  trans s s' s'' h h' := by
    obtain ⟨sent, hsent, hfits, hafter⟩ := h
    obtain ⟨sent', hsent', hfits', hafter'⟩ := h'
    rw [← hafter] at hfits' hafter'
    refine ⟨sent ++ sent', by rw [hsent', hsent, List.append_assoc], ?_, ?_⟩
    · rw [List.map_append]
      exact allowed_append.mpr ⟨hfits, hfits'⟩
    · rw [List.map_append, List.foldl_append]
      exact hafter'

section
variable {s s' : Layer2Switch env.nx.Graph}

theorem told_of_same (hmacs : s'.mac_to_port = s.mac_to_port) (hsent : s'.sent = s.sent) : Told D lc s s' := by
  refine ⟨[], by rw [hsent, List.append_nil], trivial, ?_⟩
  show inventoryOf s = inventoryOf s'
  unfold inventoryOf hostsOf
  rw [hmacs]

theorem told_sent (s : Layer2Switch env.nx.Graph) (xid : Nat) (msg : MsgUp) (h : Mute msg) :
    Told D lc s { s with sent := s.sent ++ [⟨xid, msg⟩] } :=
  ⟨[⟨xid, msg⟩], rfl, ⟨(h D lc _).2, trivial⟩, (h D lc _).1⟩

theorem told_xid (s : Layer2Switch env.nx.Graph) (xid : Nat) : Told D lc s { s with xid } := told_of_same rfl rfl

theorem told_out (s : Layer2Switch env.nx.Graph) (x : Nat × SwitchMsg) :
    Told D lc s { s with switch_out := s.switch_out ++ [x] } :=
  told_of_same rfl rfl

theorem told_pending (s : Layer2Switch env.nx.Graph) (xid_to_packet : Dict Nat (Option Bytes))
    (xid_to_packet_timestamp xid_to_buffer_id : Dict Nat Nat) :
    Told D lc s { s with xid_to_packet, xid_to_packet_timestamp, xid_to_buffer_id } :=
  told_of_same rfl rfl

theorem told_windows (s : Layer2Switch env.nx.Graph) (dpid_to_is_win : Dict Nat Bool)
    (dpid_to_out_port : Dict Nat Nat) : Told D lc s { s with dpid_to_is_win, dpid_to_out_port } :=
  told_of_same rfl rfl

/-! ## Handlers that report -/

def Marked {Γ : Type} (s : Layer2Switch Γ) (dpid in_port : Nat) : Prop :=
  in_port ∈ (s.dpid_to_inter_connection_port.get dpid).getD []

variable {f : Bytes ≃. (Nat × Nat)} {dpid in_port : Nat} {src : Bytes}

theorem Moved.told (h : Hosts env f s.mac_to_port s.net) (hnew : f src = none) (howner : D.owner src = lc)
    (hmoved : Moved s s' (f.put src (dpid, in_port))
      ((f.symm (dpid, in_port)).toList.map (.HostLeave dpid) ++ [.HostConnected dpid src])) : Told D lc s s' := by
  obtain ⟨sent', hsent', -, hrel⟩ := hmoved.reported h hnew
  have hkeys := hmoved.keys
  have hdpid : dpid ∈ s.mac_to_port := by
    -- the host is listed at `dpid` afterwards
    have hat := (hmoved.hosts.table dpid src in_port).mpr (by simp [PEquiv.put_eq_some])
    obtain ⟨macs, hmacs, -⟩ := Option.bind_eq_some_iff.mp hat
    exact (hkeys dpid).mp (Dict.mem_iff_get.mpr ⟨macs, hmacs⟩)
  have hnowhere : ∀ d, (src, d) ∉ hostsOf s := by
    intro d hmem
    rw [Hosts.hostsOf h] at hmem
    obtain ⟨port, hport⟩ := hmem
    have hport : f src = some (d, port) := hport
    rw [hnew] at hport
    cases hport
  obtain ⟨mac_to_port, net, xid, sent, rfl, hmsgs, -⟩ := hmoved
  have hsame : sent = sent' := List.append_cancel_left hsent'
  rw [← hsame] at hrel
  refine ⟨sent, rfl, ?_, ?_⟩
  · rw [hmsgs]
    cases hold : f.symm (dpid, in_port) with
    | none => exact ⟨⟨howner, hdpid, hnowhere⟩, trivial⟩
    | some old_mac =>
      have hat : (old_mac, dpid) ∈ hostsOf s := by
        rw [Hosts.hostsOf h]
        exact ⟨in_port, f.eq_some_iff.mp hold⟩
      exact ⟨hat, ⟨howner, hdpid, fun d hmem => hnowhere d hmem.1⟩, trivial⟩
  · have hswitches : ∀ (msgs : List MsgUp) (i : Inventory), (∀ msg ∈ msgs, ∃ d m, msg = .HostLeave d m ∨ msg = .HostConnected d m) →
        msgs.foldl Inventory.after i = ⟨i.switches, msgs.foldl replayMsg i.hosts⟩ := by
      intro msgs
      induction msgs with
      | nil => exact fun i _ => rfl
      | cons msg msgs ih =>
        intro i hall
        have hmsg : Inventory.after i msg = ⟨i.switches, replayMsg i.hosts msg⟩ := by
          obtain ⟨d, m, rfl | rfl⟩ := hall msg (List.mem_cons_self ..) <;> rfl
        rw [List.foldl_cons, List.foldl_cons, hmsg, ih _ fun m hm => hall m (List.mem_cons_of_mem _ hm)]
    rw [hswitches]
    · refine Inventory.ext ?_ hrel
      exact Set.ext fun d => (hkeys d).symm
    · rw [hmsgs]
      intro msg hmem
      rcases List.mem_append.mp hmem with hmem | hmem
      · obtain ⟨m, -, rfl⟩ := List.mem_map.mp hmem
        exact ⟨dpid, m, .inl rfl⟩
      · exact ⟨dpid, src, .inr (List.mem_singleton.mp hmem)⟩

theorem told_learnHost (h : Hosts env f s.mac_to_port s.net) (hsize : dpid < 2 ^ 64)
    (howner : D.owner src = lc ∨ Marked s dpid in_port) :
    wp (learnHost env dpid in_port src) s (fun _ => Told D lc s) fun _ => Told D lc s := by
  refine wp_mono (wp_learnHost h) ?_ ?_
  · intro _ s' hpost
    rcases hpost with ⟨rfl, -⟩ | ⟨hnew, hunmarked, hmoved⟩
    · exact refl_of (Told D lc) s'
    · refine hmoved.told h hnew (howner.resolve_right fun hmarked => ?_)
      unfold Marked at hmarked
      cases hports : s.dpid_to_inter_connection_port.get dpid with
      | none =>
        rw [hports] at hmarked
        cases hmarked
      | some ports =>
        rw [hports] at hmarked
        exact hunmarked ports hports hmarked
  · intro e s' hpost
    rcases hpost with ⟨-, rfl, -⟩ | ⟨-, hwide, -⟩
    · exact refl_of (Told D lc) s'
    · omega

theorem mute_packetIn (in_dpid : Nat) (src_mac dst_mac : Bytes) (src_ip dst_ip tp_src tp_dst : Nat) :
    Mute (.PacketIn in_dpid src_mac dst_mac src_ip dst_ip tp_src tp_dst) := fun _ _ _ => ⟨rfl, trivial⟩

theorem told_ofp_packet_in_handler (h : Hosts env f s.mac_to_port s.net) (now : Nat) (msg : PacketIn)
    (hsize : msg.datapath.id ∈ s.dpid_to_load → msg.datapath.id < 2 ^ 64)
    (howner : ∀ eth ∈ msg.pkt.eth, D.owner eth.src = lc ∨ Marked s msg.datapath.id msg.in_port) :
    wp (ofp_packet_in_handler env now msg) s (fun _ => Told D lc s) fun _ => Told D lc s := by
  unfold ofp_packet_in_handler
  cases heth : msg.pkt.eth with
  | none => exact refl_of (Told D lc) s
  | some eth =>
    simp only [wp_ite]
    refine ⟨fun _ => moves_markPort (fun _ _ _ _ => told_of_same rfl rfl) _ _ s, fun _ => ?_⟩
    unfold countPacket
    simp only [wp_bind, wp_get, wp_item, wp_modify]
    refine ⟨fun load hload => ?_, fun _ => refl_of (Told D lc) s⟩
    let s₁ := { s with dpid_to_load := s.dpid_to_load.insert msg.datapath.id (load + 1) }
    have h₁ : Hosts env f s₁.mac_to_port s₁.net := h
    have hcount : Told D lc s s₁ := told_of_same rfl rfl
    refine wp_mono (told_learnHost h₁ (hsize (Dict.mem_iff_get.mpr ⟨load, hload⟩)) (howner eth heth)) (fun _ s₂ hs₂ => ?_)
      fun _ _ hs₂ => trans_of (Told D lc) hcount hs₂
    have hs₂ := trans_of (Told D lc) hcount hs₂
    have hforward : Moves (Told D lc) (forward env now msg eth) :=
      moves_forward told_xid told_sent told_out told_pending mute_packetIn now msg eth
    exact wp_mono (hforward s₂) (fun _ _ h => trans_of (Told D lc) hs₂ h) fun _ _ h => trans_of (Told D lc) hs₂ h

/-! ### Switches -/

def Vacant {Γ : Type} (s : Layer2Switch Γ) (dpid : Nat) : Prop := ∀ macs ∈ s.mac_to_port.get dpid, macs.keys = []

theorem Vacant.notMem {Γ : Type} {s : Layer2Switch Γ} (h : Vacant s dpid) (mac : Bytes) : (mac, dpid) ∉ hostsOf s := by
  rintro ⟨macs, hmacs, hmem⟩
  have hmem : mac ∈ macs.keys := AList.mem_keys.mp hmem
  rw [h macs hmacs] at hmem
  cases hmem

theorem told_ofp_switch_features_handler {datapath : OfDatapath} (hsize : datapath.id < 2 ^ 64)
    (hhome : D.home datapath.id = lc) (hvacant : Vacant s datapath.id) :
    wp (ofp_switch_features_handler env datapath) s (fun _ => Told D lc s) fun _ => Told D lc s := by
  refine wp_ofp_switch_features_handler hsize fun x y is_window out => ?_
  refine ⟨[⟨y, .DPConnected datapath.id is_window⟩], rfl, ⟨⟨hhome, hvacant.notMem⟩, trivial⟩, ?_⟩
  refine Inventory.ext (Set.ext fun d => ?_) (Set.ext fun z => ?_)
  · show d ∈ insert datapath.id {d | d ∈ s.mac_to_port} ↔ d ∈ s.mac_to_port.setdefault datapath.id ∅
    rw [Set.mem_insert_iff, Dict.mem_iff_get, Dict.get_setdefault]
    by_cases hd : d = datapath.id
    · simp [hd]
    · rw [if_neg hd, ← Dict.mem_iff_get]
      exact or_iff_right hd
  · show (∃ macs, s.mac_to_port.get z.2 = some macs ∧ z.1 ∈ macs) ↔
      ∃ macs, (s.mac_to_port.setdefault datapath.id ∅).get z.2 = some macs ∧ z.1 ∈ macs
    rw [Dict.get_setdefault]
    by_cases hz : z.2 = datapath.id
    · rw [if_pos hz, hz]
      cases s.mac_to_port.get datapath.id with
      | none => simp
      | some macs => simp
    · rw [if_neg hz]

theorem wp_removeMacs_net {Q : Unit → Layer2Switch env.nx.Graph → Prop} {E : Exn → Layer2Switch env.nx.Graph → Prop} :
    ∀ (l : List Bytes) (s : Layer2Switch env.nx.Graph), (∀ net, Q () { s with net }) → wp (removeMacs env l) s Q E
  | [], s, h => h s.net
  | _ :: l, s, h => by
    unfold removeMacs
    simp only [wp_bind, wp_modify]
    exact wp_removeMacs_net l _ h

theorem told_switch_leave_handler (hsize : dpid ∈ s.mac_to_port → dpid < 2 ^ 64) :
    wp (switch_leave_handler env dpid) s (fun _ => Told D lc s) fun _ => Told D lc s := by
  unfold switch_leave_handler removeNode
  simp only [wp_bind, wp_get, wp_orRaise, wp_modify, wp_item]
  have hsame : ∀ net datapaths dpid_to_load dpid_to_inter_connection_port, Told D lc s
      { s with net, datapaths, dpid_to_load, dpid_to_inter_connection_port } := fun _ _ _ _ => told_of_same rfl rfl
  refine ⟨fun g _ => ⟨fun _ _ => ⟨fun _ _ => ⟨fun _ _ => ⟨fun macs hmacs => ?_, fun _ => hsame _ _ _ _⟩,
    fun _ => hsame _ _ _ s.dpid_to_inter_connection_port⟩,
    fun _ => hsame _ _ s.dpid_to_load s.dpid_to_inter_connection_port⟩,
    fun _ => hsame _ s.datapaths s.dpid_to_load s.dpid_to_inter_connection_port⟩, fun _ _ => refl_of (Told D lc) s⟩
  have hmem : dpid ∈ s.mac_to_port := Dict.mem_iff_get.mpr ⟨macs, hmacs⟩
  refine wp_removeMacs_net _ _ fun net => ?_
  apply wp_send_msg
  · intro x y
    refine ⟨[⟨y, .DatapathLeave dpid⟩], rfl, ⟨hmem, trivial⟩, Inventory.ext (Set.ext fun d => ?_) (Set.ext fun z => ?_)⟩
    · show d ∈ s.mac_to_port ∧ d ≠ dpid ↔ d ∈ s.mac_to_port.erase dpid
      rw [AList.mem_erase]
      exact and_comm
    · show ((∃ macs, s.mac_to_port.get z.2 = some macs ∧ z.1 ∈ macs) ∧ z.2 ≠ dpid) ↔
        ∃ macs, Dict.get (s.mac_to_port.erase dpid) z.2 = some macs ∧ z.1 ∈ macs
      rw [Dict.get_erase]
      by_cases hz : z.2 = dpid
      · simp [hz]
      · simp [hz]
  · intro x y hy hser
    have := wide_of_unsent .datapathLeave (hy rfl) hser
    have := hsize hmem
    omega

theorem told_get_topology_data (api : Topology) : Moves (Told D lc) (get_topology_data env api) := by
  unfold get_topology_data
  refine .bind (.modify fun s => told_windows s _ s.dpid_to_out_port) fun _ => .bind (.orRaise _) fun _ =>
    .bind (moves_recordWindows told_windows _) fun _ => .bind (.modify fun _ => told_of_same rfl rfl) fun _ =>
      .bind (.modify fun _ => told_of_same rfl rfl) fun _ => .bind (.modify fun _ => told_of_same rfl rfl) fun _ => ?_
  exact .bind (moves_send_msg told_xid told_sent _ fun _ _ _ => ⟨rfl, trivial⟩) fun _ =>
    .modify fun _ => told_of_same rfl rfl

theorem told_reportLoads : ∀ l, Moves (Told D lc) (reportLoads env l)
  | [] => .pure _
  | _ :: l => .bind .get fun _ => .bind (.modify fun _ => told_of_same rfl rfl) fun _ =>
      .bind (moves_send_msg told_xid told_sent _ fun _ _ _ => ⟨rfl, trivial⟩) fun _ => told_reportLoads l

end

/-! ## Steps -/

/-- The event is about switches and hosts of controller `lc`; packets of other
hosts come in on marked ports. A switch connects without hosts. -/
def Belongs (D : Domains) (lc : Nat) {Γ : Type} (s : Layer2Switch Γ) : LocalEvent → Prop
  | .SwitchFeatures datapath => D.home datapath.id = lc ∧ Vacant s datapath.id
  | .PacketIn _ msg => ∀ eth ∈ msg.pkt.eth, D.owner eth.src = lc ∨ Marked s msg.datapath.id msg.in_port
  | _ => True

instance {Γ : Type} (s : Layer2Switch Γ) : ∀ e, Decidable (Belongs D lc s e)
  | .SwitchFeatures _ => inferInstanceAs (Decidable (_ ∧ ∀ _ ∈ Dict.get _ _, _))
  | .PacketIn _ _ => inferInstanceAs (Decidable (∀ _ ∈ _, _ ∨ _ ∈ _))
  | .RoleReply .. | .TopologyChange _ | .SwitchLeave _ | .Connected | .Downlink .. | .LoadRound | .GraphInfoRound _
  | .TimeoutRound _ => isTrue trivial

section
variable {s : Layer2Switch env.nx.Graph} {e : LocalEvent}

theorem told_step (h : HostInv s) (hsize : ∀ d ∈ s.datapaths, d < 2 ^ 64) (hok : Sized e) (hbelongs : Belongs D lc s e) :
    Told D lc s (step env s e) := by
  obtain ⟨hsw, f, hosts⟩ := h
  refine step_of_wp (fun s' hs' => trans_of (Told D lc) hs' (told_of_same rfl rfl)) ?_
  unfold handle
  cases e with
  | SwitchFeatures datapath => exact told_ofp_switch_features_handler hok hbelongs.1 hbelongs.2
  | RoleReply dpid role =>
    exact moves_ofp_role_reply_handler told_xid told_sent (fun _ _ _ _ _ _ => ⟨rfl, trivial⟩) dpid role s
  | PacketIn now msg =>
    exact told_ofp_packet_in_handler hosts now msg (fun hmem => hsize _ ((hsw.load _).mp hmem)) hbelongs
  | TopologyChange api => exact told_get_topology_data api s
  | SwitchLeave dpid => exact told_switch_leave_handler fun hmem => hsize _ ((hsw.macs _).mp hmem)
  | Connected => exact told_of_same rfl rfl
  | Downlink now ev =>
    exact moves_dispatch_event told_xid told_sent told_out (fun s _ _ => told_pending s _ _ _)
      (fun _ _ _ _ => ⟨rfl, trivial⟩) (fun _ _ => told_of_same rfl rfl) now ev (fun s _ _ => told_pending s _ _ _) s
  | LoadRound =>
    have hround : Moves (Told D lc) (_load_report env) :=
      .bind .get fun _ => .ite (.bind .get fun _ => told_reportLoads _) (.pure _)
    exact hround s
  | GraphInfoRound window_switches =>
    exact moves_graph_info_thread told_xid told_sent (fun _ _ _ _ => ⟨rfl, trivial⟩) told_windows
      (fun _ _ => told_of_same rfl rfl) window_switches s
  | TimeoutRound now =>
    have hround : Moves (Told D lc) (_packet_timeout_handler env now) :=
      .bind .get fun _ => moves_expirePackets (fun s _ _ => told_pending s _ _ _) (fun s _ _ _ => told_pending s _ _ _) now _
    exact hround s

end

end Layer2Switch

end VnfDockerNet
