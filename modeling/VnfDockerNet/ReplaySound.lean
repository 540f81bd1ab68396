import Mathlib.Data.Set.Insert
import VnfDockerNet.LocalHostSound

/-!
# The reports about hosts replay to the local table

The messages that a handler sends, replayed on the hosts listed before it, give
the hosts listed after it. Only learning a host and losing a switch report
anything; every other handler is silent and leaves the table alone.
-/

namespace VnfDockerNet

open Python Networkx Runs

/-! ## Replaying -/

/-- Hosts with the switches they are at. -/
abbrev HostRel := Set (Bytes × Nat)

def replayMsg (rel : HostRel) : MsgUp → HostRel
  | .HostConnected dpid mac => insert (mac, dpid) rel
  | .HostLeave dpid mac => rel \ {(mac, dpid)}
  | .DatapathLeave dpid => {x ∈ rel | x.2 ≠ dpid}
  | _ => rel

/-- A host is only reported as connected while it is at no switch. -/
def New (rel : HostRel) (msg : MsgUp) : Prop :=
  ∀ dpid mac, msg = .HostConnected dpid mac → ∀ dpid', (mac, dpid') ∉ rel

theorem replayMsg_silent {msg : MsgUp} (h : ∀ dpid, ¬ ReportsAt dpid msg) (rel : HostRel) : replayMsg rel msg = rel := by
  cases msg with
  | HostConnected dpid mac => exact absurd (.hostConnected mac) (h dpid)
  | HostLeave dpid mac => exact absurd (.hostLeave mac) (h dpid)
  | DatapathLeave dpid => exact absurd .datapathLeave (h dpid)
  | _ => rfl

theorem new_silent {msg : MsgUp} (h : ∀ dpid, ¬ ReportsAt dpid msg) (rel : HostRel) : New rel msg := by
  intro dpid mac he
  subst he
  exact absurd (.hostConnected mac) (h dpid)

namespace Layer2Switch

variable {env : LocalEnv}

/-! ## Handlers that report -/

def hostsOf {Γ : Type} (s : Layer2Switch Γ) : HostRel := {x | ∃ macs, s.mac_to_port.get x.2 = some macs ∧ x.1 ∈ macs}

def Reported {Γ : Type} (s s' : Layer2Switch Γ) : Prop :=
  ∃ sent, s'.sent = s.sent ++ sent ∧ Allowed replayMsg New (hostsOf s) (sent.map SentUp.msg) ∧
    (sent.map SentUp.msg).foldl replayMsg (hostsOf s) = hostsOf s'

instance {Γ : Type} : IsPreorder (Layer2Switch Γ) Reported where
  refl s := ⟨[], (List.append_nil _).symm, trivial, rfl⟩
  trans s s' s'' h h' := by
    obtain ⟨sent, hsent, hnew, hrel⟩ := h
    obtain ⟨sent', hsent', hnew', hrel'⟩ := h'
    rw [← hrel] at hnew' hrel'
    refine ⟨sent ++ sent', by rw [hsent', hsent, List.append_assoc], ?_, ?_⟩
    · rw [List.map_append]
      exact allowed_append.mpr ⟨hnew, hnew'⟩
    · rw [List.map_append, List.foldl_append]
      exact hrel'

section
variable {s s' : Layer2Switch env.nx.Graph}

theorem reported_of_same (hmacs : s'.mac_to_port = s.mac_to_port) (hsent : s'.sent = s.sent) : Reported s s' := by
  refine ⟨[], by rw [hsent, List.append_nil], trivial, ?_⟩
  show hostsOf s = hostsOf s'
  unfold hostsOf
  rw [hmacs]

theorem reported_sent (s : Layer2Switch env.nx.Graph) (xid : Nat) (msg : MsgUp) (h : ∀ dpid, ¬ ReportsAt dpid msg) :
    Reported s { s with sent := s.sent ++ [⟨xid, msg⟩] } :=
  ⟨[⟨xid, msg⟩], rfl, ⟨new_silent h _, trivial⟩, replayMsg_silent h _⟩

theorem reported_xid (s : Layer2Switch env.nx.Graph) (xid : Nat) : Reported s { s with xid } :=
  reported_of_same rfl rfl

theorem reported_out (s : Layer2Switch env.nx.Graph) (x : Nat × SwitchMsg) :
    Reported s { s with switch_out := s.switch_out ++ [x] } :=
  reported_of_same rfl rfl

theorem reported_pending (s : Layer2Switch env.nx.Graph) (xid_to_packet : Dict Nat (Option Bytes))
    (xid_to_packet_timestamp xid_to_buffer_id : Dict Nat Nat) :
    Reported s { s with xid_to_packet, xid_to_packet_timestamp, xid_to_buffer_id } :=
  reported_of_same rfl rfl

theorem reported_windows (s : Layer2Switch env.nx.Graph) (dpid_to_is_win : Dict Nat Bool)
    (dpid_to_out_port : Dict Nat Nat) : Reported s { s with dpid_to_is_win, dpid_to_out_port } :=
  reported_of_same rfl rfl

theorem silent_packetIn (in_dpid : Nat) (src_mac dst_mac : Bytes) (src_ip dst_ip tp_src tp_dst : Nat) :
    ∀ dpid, ¬ ReportsAt dpid (.PacketIn in_dpid src_mac dst_mac src_ip dst_ip tp_src tp_dst) := by
  intro dpid h
  cases h

/-! ### Learning a host -/

def placed (f : Bytes ≃. (Nat × Nat)) : HostRel := {x | ∃ port, f x.1 = some (x.2, port)}

variable {f : Bytes ≃. (Nat × Nat)} {dpid in_port : Nat} {src : Bytes}

theorem Hosts.hostsOf (h : Hosts env f s.mac_to_port s.net) : hostsOf s = placed f := by
  ext x
  obtain ⟨mac, dpid⟩ := x
  show (∃ macs, s.mac_to_port.get dpid = some macs ∧ mac ∈ macs) ↔ ∃ port, f mac = some (dpid, port)
  constructor
  · intro hex
    obtain ⟨macs, hmacs, hmem⟩ := hex
    obtain ⟨port, hport⟩ := Dict.mem_iff_get.mp hmem
    exact ⟨port, (h.get hmacs).mp hport⟩
  · intro hex
    obtain ⟨port, hat⟩ := hex
    obtain ⟨macs, hmacs, hport⟩ := Option.bind_eq_some_iff.mp ((h.table dpid mac port).mpr hat)
    exact ⟨macs, hmacs, Dict.mem_iff_get.mpr ⟨port, hport⟩⟩

theorem placed_put (hnew : f src = none) : placed (f.put src (dpid, in_port)) =
    insert (src, dpid) (placed f \ {x | f x.1 = some (dpid, in_port)}) := by
  ext x
  obtain ⟨mac, d⟩ := x
  simp only [Set.mem_insert_iff, Set.mem_sdiff, Set.mem_ofPred_eq, placed, Prod.mk.injEq, PEquiv.put_eq_some]
  constructor
  · intro hex
    obtain ⟨port, ⟨hm, hd, _⟩ | ⟨_, hne, hat⟩⟩ := hex
    · exact Or.inl ⟨hm, hd⟩
    · refine Or.inr ⟨⟨port, hat⟩, fun hat' => hne ?_⟩
      rw [hat] at hat'
      cases hat'
      rfl
  · intro hmem
    rcases hmem with ⟨hm, hd⟩ | ⟨⟨port, hat⟩, hne⟩
    · exact ⟨in_port, Or.inl ⟨hm, hd, rfl⟩⟩
    · refine ⟨port, Or.inr ⟨fun hm => ?_, fun he => hne ?_, hat⟩⟩
      · rw [hm, hnew] at hat
        cases hat
      · rw [hat, he]

theorem Moved.reported (h : Hosts env f s.mac_to_port s.net) (hnew : f src = none)
    (hmoved : Moved s s' (f.put src (dpid, in_port))
      ((f.symm (dpid, in_port)).toList.map (.HostLeave dpid) ++ [.HostConnected dpid src])) : Reported s s' := by
  have hhosts' : hostsOf s' = placed (f.put src (dpid, in_port)) := Hosts.hostsOf hmoved.hosts
  rw [placed_put hnew] at hhosts'
  have hat : ∀ d, (src, d) ∉ placed f := by
    intro d hex
    obtain ⟨port, hport⟩ := hex
    have hport : f src = some (d, port) := hport
    rw [hnew] at hport
    cases hport
  obtain ⟨mac_to_port, net, xid, sent, rfl, hmsgs, _⟩ := hmoved
  refine ⟨sent, rfl, ?_, ?_⟩
  · rw [hmsgs, h.hostsOf]
    cases hold : f.symm (dpid, in_port) with
    | none =>
      refine ⟨fun d m he d' => ?_, trivial⟩
      cases he
      exact hat d'
    | some old_mac =>
      refine ⟨fun d m he => (by cases he), fun d m he d' hmem => ?_, trivial⟩
      cases he
      exact hat d' hmem.1
  · rw [hmsgs, h.hostsOf, hhosts']
    cases hold : f.symm (dpid, in_port) with
    | none =>
      have hfree : placed f \ {x | f x.1 = some (dpid, in_port)} = placed f := by
        ext x
        refine ⟨And.left, fun hx => ⟨hx, fun hx' => ?_⟩⟩
        have := f.eq_some_iff.mpr hx'
        rw [hold] at this
        cases this
      rw [hfree]
      rfl
    | some old_mac =>
      have hold' : f old_mac = some (dpid, in_port) := f.eq_some_iff.mp hold
      have hdrop : placed f \ {x | f x.1 = some (dpid, in_port)} = placed f \ {(old_mac, dpid)} := by
        ext x
        obtain ⟨mac, d⟩ := x
        refine and_congr_right fun hx => not_congr ⟨fun hx' => ?_, fun hx' => ?_⟩
        · have hx' : f mac = some (dpid, in_port) := hx'
          obtain ⟨port, hport⟩ := hx
          have hport : f mac = some (d, port) := hport
          rw [hx'] at hport
          cases hport
          cases f.inj hx' hold'
          rfl
        · cases hx'
          exact hold'
      rw [hdrop]
      rfl

theorem reported_learnHost (h : Hosts env f s.mac_to_port s.net) (hsize : dpid < 2 ^ 64) :
    wp (learnHost env dpid in_port src) s (fun _ => Reported s) fun _ => Reported s := by
  refine wp_mono (wp_learnHost h) ?_ ?_
  · intro _ s' hpost
    rcases hpost with ⟨rfl, _⟩ | ⟨hnew, _, hmoved⟩
    · exact refl_of Reported s'
    · exact hmoved.reported h hnew
  · intro e s' hpost
    rcases hpost with ⟨_, rfl, _⟩ | ⟨_, hwide, _⟩
    · exact refl_of Reported s'
    · omega

theorem reported_ofp_packet_in_handler (h : Hosts env f s.mac_to_port s.net) (now : Nat) (msg : PacketIn)
    (hsize : msg.datapath.id ∈ s.dpid_to_load → msg.datapath.id < 2 ^ 64) :
    wp (ofp_packet_in_handler env now msg) s (fun _ => Reported s) fun _ => Reported s := by
  unfold ofp_packet_in_handler
  cases msg.pkt.eth with
  | none => exact refl_of Reported s
  | some eth =>
    simp only [wp_ite]
    refine ⟨fun _ => moves_markPort (fun _ _ _ _ => reported_of_same rfl rfl) _ _ s, fun _ => ?_⟩
    unfold countPacket
    simp only [wp_bind, wp_get, wp_item, wp_modify]
    refine ⟨fun load hload => ?_, fun _ => refl_of Reported s⟩
    let s₁ := { s with dpid_to_load := s.dpid_to_load.insert msg.datapath.id (load + 1) }
    have h₁ : Hosts env f s₁.mac_to_port s₁.net := h
    have hcount : Reported s s₁ := reported_of_same rfl rfl
    refine wp_mono (reported_learnHost h₁ (hsize (Dict.mem_iff_get.mpr ⟨load, hload⟩))) (fun _ s₂ hs₂ => ?_)
      fun _ _ hs₂ => trans_of Reported hcount hs₂
    have hs₂ := trans_of Reported hcount hs₂
    have hforward : Moves Reported (forward env now msg eth) :=
      moves_forward reported_xid reported_sent reported_out reported_pending silent_packetIn now msg eth
    exact wp_mono (hforward s₂) (fun _ _ h => trans_of Reported hs₂ h) fun _ _ h => trans_of Reported hs₂ h

/-! ### Switches -/

theorem reported_ofp_switch_features_handler (datapath : OfDatapath) :
    Moves Reported (ofp_switch_features_handler env datapath) := by
  unfold ofp_switch_features_handler
  refine .bind (.modify fun s => ?_) fun _ => .bind .get fun _ =>
    .bind (moves_send_msg reported_xid reported_sent _ fun d h => by cases h) fun _ => moves_add_flow reported_out _ _ _ _ _
  -- a switch new to the table has no hosts
  refine ⟨[], (List.append_nil _).symm, trivial, ?_⟩
  ext x
  show (∃ macs, s.mac_to_port.get x.2 = some macs ∧ x.1 ∈ macs) ↔
    ∃ macs, (s.mac_to_port.setdefault datapath.id ∅).get x.2 = some macs ∧ x.1 ∈ macs
  rw [Dict.get_setdefault]
  by_cases hx : x.2 = datapath.id
  · rw [if_pos hx, hx]
    cases s.mac_to_port.get datapath.id with
    | none => simp
    | some macs => simp
  · rw [if_neg hx]

theorem reported_removeMacs : ∀ l, Moves Reported (removeMacs env l)
  | [] => .pure _
  | _ :: l => .bind (.modify fun _ => reported_of_same rfl rfl) fun _ => reported_removeMacs l

theorem reported_switch_leave_handler (hsize : dpid ∈ s.mac_to_port → dpid < 2 ^ 64) :
    wp (switch_leave_handler env dpid) s (fun _ => Reported s) fun _ => Reported s := by
  unfold switch_leave_handler removeNode
  simp only [wp_bind, wp_get, wp_orRaise, wp_modify, wp_item]
  have hsame : ∀ net datapaths dpid_to_load dpid_to_inter_connection_port, Reported s
      { s with net, datapaths, dpid_to_load, dpid_to_inter_connection_port } := fun _ _ _ _ => reported_of_same rfl rfl
  refine ⟨fun g _ => ⟨fun _ _ => ⟨fun _ _ => ⟨fun _ _ => ⟨fun macs hmacs => ?_, fun _ => hsame _ _ _ _⟩,
    fun _ => hsame _ _ _ s.dpid_to_inter_connection_port⟩,
    fun _ => hsame _ _ s.dpid_to_load s.dpid_to_inter_connection_port⟩,
    fun _ => hsame _ s.datapaths s.dpid_to_load s.dpid_to_inter_connection_port⟩, fun _ _ => refl_of Reported s⟩
  refine wp_mono (reported_removeMacs _ _) (fun _ s₁ hs₁ => ?_) fun _ _ hs₁ => trans_of Reported (hsame _ _ _ _) hs₁
  have hs₁ := trans_of Reported (hsame _ _ _ _) hs₁
  have hleave : ∀ x y hash, Reported s₁ { s₁ with
      mac_to_port := s₁.mac_to_port.erase dpid, xid := x, sent := s₁.sent ++ [⟨y, .DatapathLeave dpid⟩],
      window_info_hash := hash } := by
    intro x y hash
    refine ⟨[⟨y, .DatapathLeave dpid⟩], rfl, ⟨fun d m he => (by cases he), trivial⟩, ?_⟩
    ext z
    show ((∃ macs, s₁.mac_to_port.get z.2 = some macs ∧ z.1 ∈ macs) ∧ z.2 ≠ dpid) ↔
      ∃ macs, Dict.get (s₁.mac_to_port.erase dpid) z.2 = some macs ∧ z.1 ∈ macs
    rw [Dict.get_erase]
    by_cases hz : z.2 = dpid
    · simp [hz]
    · simp [hz]
  apply wp_send_msg
  · intro x y
    exact trans_of Reported hs₁ (hleave x y _)
  · intro x y hy hser
    have := wide_of_unsent .datapathLeave (hy rfl) hser
    have := hsize (Dict.mem_iff_get.mpr ⟨macs, hmacs⟩)
    omega

theorem reported_get_topology_data (api : Topology) : Moves Reported (get_topology_data env api) := by
  unfold get_topology_data
  refine .bind (.modify fun s => reported_windows s _ s.dpid_to_out_port) fun _ => .bind (.orRaise _) fun _ =>
    .bind (moves_recordWindows reported_windows _) fun _ => .bind (.modify fun _ => reported_of_same rfl rfl) fun _ =>
      .bind (.modify fun _ => reported_of_same rfl rfl) fun _ => .bind (.modify fun _ => reported_of_same rfl rfl) fun _ => ?_
  exact .bind (moves_send_msg reported_xid reported_sent _ fun d h => by cases h) fun _ =>
    .modify fun _ => reported_of_same rfl rfl

theorem reported_reportLoads : ∀ l, Moves Reported (reportLoads env l)
  | [] => .pure _
  | _ :: l => .bind .get fun _ => .bind (.modify fun _ => reported_of_same rfl rfl) fun _ =>
      .bind (moves_send_msg reported_xid reported_sent _ fun d h => by cases h) fun _ => reported_reportLoads l

end

/-! ## Runs -/

/-- Datapath ids are 64-bit numbers. -/
def Sized : LocalEvent → Prop
  | .SwitchFeatures datapath => datapath.id < 2 ^ 64
  | _ => True

instance : ∀ e, Decidable (Sized e)
  | .SwitchFeatures datapath => inferInstanceAs (Decidable (datapath.id < 2 ^ 64))
  | .RoleReply .. | .PacketIn .. | .TopologyChange _ | .SwitchLeave _ | .Connected | .Downlink .. | .LoadRound
  | .GraphInfoRound _ | .TimeoutRound _ => isTrue trivial

section
variable {s : Layer2Switch env.nx.Graph} {e : LocalEvent}

theorem reported_step (h : HostInv s) (hsize : ∀ d ∈ s.datapaths, d < 2 ^ 64) (e : LocalEvent) :
    Reported s (step env s e) := by
  obtain ⟨hsw, f, hosts⟩ := h
  refine step_of_wp (fun s' hs' => trans_of Reported hs' (reported_of_same rfl rfl)) ?_
  unfold handle
  cases e with
  | SwitchFeatures datapath => exact reported_ofp_switch_features_handler datapath s
  | RoleReply dpid role =>
    exact moves_ofp_role_reply_handler reported_xid reported_sent (fun _ _ _ _ h => by cases h) dpid role s
  | PacketIn now msg =>
    exact reported_ofp_packet_in_handler hosts now msg fun hmem => hsize _ ((hsw.load _).mp hmem)
  | TopologyChange api => exact reported_get_topology_data api s
  | SwitchLeave dpid => exact reported_switch_leave_handler fun hmem => hsize _ ((hsw.macs _).mp hmem)
  | Connected => exact reported_of_same rfl rfl
  | Downlink now ev =>
    exact moves_dispatch_event reported_xid reported_sent reported_out (fun s _ _ => reported_pending s _ _ _)
      (fun _ _ h => by cases h) (fun _ _ => reported_of_same rfl rfl) now ev (fun s _ _ => reported_pending s _ _ _) s
  | LoadRound => exact (Moves.bind .get fun _ => .ite (.bind .get fun _ => reported_reportLoads _) (.pure _)) s
  | GraphInfoRound window_switches =>
    exact moves_graph_info_thread reported_xid reported_sent (fun _ _ h => by cases h) reported_windows
      (fun _ _ => reported_of_same rfl rfl) window_switches s
  | TimeoutRound now =>
    exact (Moves.bind .get fun _ => moves_expirePackets (fun s _ _ => reported_pending s _ _ _)
      (fun s _ _ _ => reported_pending s _ _ _) now _) s

theorem sized_step (h : ∀ d ∈ s.datapaths, d < 2 ^ 64) (hok : Sized e) : ∀ d ∈ (step env s e).datapaths, d < 2 ^ 64 := by
  let Narrow : Layer2Switch env.nx.Graph → Prop := fun s => ∀ d ∈ s.datapaths, d < 2 ^ 64
  refine step_of_wp (I := Narrow) (fun _ h => h) ?_
  have hmoves : Moves (Keeps Narrow) (handle env e) := by
    refine moves_handle_datapaths (fun s s' he h => ?_) e (fun s datapath he h => ?_) fun s d h => ?_
    · intro d hd
      rw [he] at hd
      exact h d hd
    · subst he
      intro d hd
      rcases (AList.mem_insert _).mp hd with rfl | hd
      · exact hok
      · exact h d hd
    · intro d' hd'
      exact h d' (AList.mem_erase.mp hd').2
  exact hmoves.kept h

end

/-- The messages sent replay to the hosts listed, and no listed host is
reported as connected again. -/
structure HostsReported (s : Layer2Switch env.nx.Graph) : Prop where
  replay : ∀ mac dpid, (mac, dpid) ∈ (s.sent.map SentUp.msg).foldl replayMsg ∅ ↔
    ∃ macs, s.mac_to_port.get dpid = some macs ∧ mac ∈ macs
  once : ∀ before dpid mac rest, s.sent.map SentUp.msg = before ++ .HostConnected dpid mac :: rest →
    ∀ dpid', (mac, dpid') ∉ before.foldl replayMsg ∅

/-- **The reports about hosts replay to the local table** after every run. -/
theorem host_events_replay (env : LocalEnv) (xid : Nat) (es : List LocalEvent)
    (h : Allowed (step env) (fun s e => Lawful env s e ∧ Sized e) (init env xid) es) :
    HostsReported (es.foldl (step env) (init env xid)) := by
  have hinv := h.invariant (fun s => (HostInv s ∧ ∀ d ∈ s.datapaths, d < 2 ^ 64) ∧ Reported (init env xid) s)
    (fun s e hs hok => ⟨⟨hostInv_step hs.1.1 hok.1, sized_step hs.1.2 hok.2⟩,
      trans_of Reported hs.2 (reported_step hs.1.1 hs.1.2 e)⟩)
    ⟨⟨hostInv_init xid, fun d hd => (AList.notMem_empty d hd).elim⟩, refl_of Reported _⟩
  obtain ⟨sent, hsent, hnew, hrel⟩ := hinv.2
  have hsent : (es.foldl (step env) (init env xid)).sent = sent := hsent
  have hempty : hostsOf (init env xid) = ∅ := by
    ext x
    simp [hostsOf, init]
  rw [hempty] at hnew hrel
  refine ⟨fun mac dpid => ?_, fun before dpid mac rest hsplit => ?_⟩
  · rw [hsent, hrel]
    exact Iff.rfl
  · rw [hsent] at hsplit
    rw [hsplit] at hnew
    exact (allowed_append.mp hnew).2.1 dpid mac rfl

theorem host_events_replay_learning :
    HostsReported (learningRun.foldl (step sampleLocalEnv) (init sampleLocalEnv 0)) :=
  host_events_replay sampleLocalEnv 0 learningRun (by decide +kernel)

end Layer2Switch

end VnfDockerNet
