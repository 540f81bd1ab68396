import VnfDockerNet.LocalHostSound

/-!
# Hosts and ports between switches

A host is learned on a port only if no LLDP packet has marked it. The mark does
not take hosts off the port that were learned before, so the two tables stay
apart exactly as long as no port is marked that a host is on.
-/

namespace VnfDockerNet

open Python Networkx Runs

namespace Layer2Switch

variable {env : LocalEnv}

def NoHostOnLink {Γ : Type} (s : Layer2Switch Γ) : Prop :=
  ∀ dpid macs ports mac port, s.mac_to_port.get dpid = some macs → s.dpid_to_inter_connection_port.get dpid = some ports →
    macs.get mac = some port → port ∉ ports

/-- No LLDP packet marks a port with a host on it. -/
def MarksFree {Γ : Type} (s : Layer2Switch Γ) : LocalEvent → Prop
  | .PacketIn _ msg => ∀ eth macs mac, msg.pkt.eth = some eth → eth.dst = LLDP_MAC_NEAREST_BRIDGE →
      msg.datapath.id ∈ s.dpid_to_inter_connection_port → s.mac_to_port.get msg.datapath.id = some macs →
      macs.get mac ≠ some msg.in_port
  | _ => True

/-! ## Handlers that learn nothing -/

section
variable {s s' : Layer2Switch env.nx.Graph} {dpid in_port : Nat}

theorem keeps_removeMacs : ∀ l, Moves (Keeps NoHostOnLink) (removeMacs env l)
  | [] => .pure _
  | _ :: l => .bind (.modify fun _ h => h) fun _ => keeps_removeMacs l

theorem keeps_send_msg (own_xid : Option Nat) (msg : MsgUp) : Moves (Keeps NoHostOnLink) (send_msg env own_xid msg) :=
  moves_send_msg (P := fun _ => True) (fun _ _ h => h) (fun _ _ _ _ h => h) own_xid trivial

theorem keeps_switch_leave_handler (dpid : Nat) : Moves (Keeps NoHostOnLink) (switch_leave_handler env dpid) := by
  unfold switch_leave_handler removeNode
  refine .bind (.bind .get fun _ => .bind (.orRaise _) fun _ => .modify fun _ h => h) fun _ =>
    .bind .get fun _ => .bind (.item _ _) fun _ => .bind (.modify fun _ h => h) fun _ =>
      .bind .get fun _ => .bind (.item _ _) fun _ => .bind (.modify fun _ h => h) fun _ =>
        .bind .get fun _ => .bind (.item _ _) fun _ => .bind (.modify ?_) fun _ =>
          .bind .get fun _ => .bind (.item _ _) fun _ => .bind (keeps_removeMacs _) fun _ =>
            .bind (.modify ?_) fun _ => .bind (keeps_send_msg _ _) fun _ => .modify fun _ h => h
  · intro s h d macs ports mac port hmacs hports
    exact h d macs ports mac port hmacs (Dict.get_erase_some.mp hports).2
  · intro s h d macs ports mac port hmacs
    exact h d macs ports mac port (Dict.get_erase_some.mp hmacs).2

theorem keeps_ofp_switch_features (datapath : OfDatapath) :
    Moves (Keeps NoHostOnLink) (ofp_switch_features_handler env datapath) := by
  unfold ofp_switch_features_handler
  refine .bind (.modify ?_) fun _ => .bind .get fun _ => .bind (keeps_send_msg _ _) fun _ =>
    moves_add_flow (fun _ _ h => h) _ _ _ _ _
  intro s h d macs ports mac port hmacs hports hport
  simp only [Dict.get_setdefault] at hmacs hports
  by_cases hd : d = datapath.id
  · subst hd
    rw [if_pos rfl] at hmacs hports
    cases hmacs
    cases hports
    -- a table that was not there has no host, and no port
    cases hget : s.mac_to_port.get datapath.id with
    | none =>
      rw [hget, Option.getD_none, Dict.get_empty] at hport
      cases hport
    | some macs =>
      rw [hget, Option.getD_some] at hport
      cases hget' : s.dpid_to_inter_connection_port.get datapath.id with
      | none => simp
      | some ports => exact h datapath.id macs ports mac port hget hget' hport
  · rw [if_neg hd] at hmacs hports
    exact h d macs ports mac port hmacs hports hport

theorem keeps_get_topology_data (api : Topology) : Moves (Keeps NoHostOnLink) (get_topology_data env api) :=
  .bind (.modify fun _ h => h) fun _ => .bind (.orRaise _) fun _ =>
    .bind (moves_recordWindows (fun _ _ _ h => h) _) fun _ => .bind (.modify fun _ h => h) fun _ =>
      .bind (.modify fun _ h => h) fun _ => .bind (.modify fun _ h => h) fun _ =>
        .bind (keeps_send_msg _ _) fun _ => .modify fun _ h => h

theorem keeps_reportLoads : ∀ l, Moves (Keeps NoHostOnLink) (reportLoads env l)
  | [] => .pure _
  | _ :: l => .bind .get fun _ => .bind (.modify fun _ h => h) fun _ => .bind (keeps_send_msg _ _) fun _ => keeps_reportLoads l

/-! ## Learning -/

structure Shed (s s' : Layer2Switch env.nx.Graph) : Prop where
  ports : s'.dpid_to_inter_connection_port = s.dpid_to_inter_connection_port
  macs : ∀ d macs', s'.mac_to_port.get d = some macs' → ∃ macs, s.mac_to_port.get d = some macs ∧
    ∀ mac port, macs'.get mac = some port → macs.get mac = some port

instance : IsPreorder (Layer2Switch env.nx.Graph) Shed where
  refl _ := ⟨rfl, fun _ macs h => ⟨macs, h, fun _ _ hm => hm⟩⟩
  trans _ _ _ h h' := ⟨h'.ports.trans h.ports, fun d macs'' hget => by
    obtain ⟨macs', hget', hsub'⟩ := h'.macs d macs'' hget
    obtain ⟨macs, hget'', hsub⟩ := h.macs d macs' hget'
    exact ⟨macs, hget'', fun mac port hm => hsub mac port (hsub' mac port hm)⟩⟩

theorem Shed.of_same (hmacs : s'.mac_to_port = s.mac_to_port)
    (hports : s'.dpid_to_inter_connection_port = s.dpid_to_inter_connection_port) : Shed s s' :=
  ⟨hports, fun _ macs h => ⟨macs, hmacs ▸ h, fun _ _ hm => hm⟩⟩

theorem Shed.noHostOnLink (h : Shed s s') (hs : NoHostOnLink s) : NoHostOnLink s' := by
  intro d macs' ports mac port hmacs hports hport
  obtain ⟨macs, hget, hsub⟩ := h.macs d macs' hmacs
  rw [h.ports] at hports
  exact hs d macs ports mac port hget hports (hsub mac port hport)

theorem shed_dropHost {macs : Dict Bytes Nat} (hmacs : s.mac_to_port.get dpid = some macs) (mac : Bytes) :
    wp (dropHost env dpid macs mac) s (fun _ => Shed s) fun _ => Shed s := by
  have hforget : Shed s { s with mac_to_port := s.mac_to_port.insert dpid (macs.erase mac) } := by
    refine ⟨rfl, fun d macs' hget => ?_⟩
    rcases Dict.get_insert_some.mp hget with ⟨rfl, rfl⟩ | ⟨_, hget⟩
    · exact ⟨macs, hmacs, fun m port hm => (Dict.get_erase_some.mp hm).2⟩
    · exact ⟨macs', hget, fun _ _ hm => hm⟩
  have hrest : Moves Shed (do
      removeNode env (.mac mac)
      send_msg env none (.HostLeave dpid mac)) :=
    .bind (.bind .get fun _ => .bind (.orRaise _) fun _ => .modify fun _ => .of_same rfl rfl) fun _ =>
      moves_send_msg (P := fun _ => True) (fun _ _ => .of_same rfl rfl) (fun _ _ _ _ => .of_same rfl rfl) _ trivial
  unfold dropHost
  rw [wp_bind, wp_modify]
  exact wp_mono (hrest _) (fun _ _ h => trans_of Shed hforget h) fun _ _ h => trans_of Shed hforget h

theorem shed_dropOnPort (dpid in_port : Nat) : ∀ l, Moves Shed (dropOnPort env dpid in_port l)
  | [] => .pure _
  | _ :: l => by
    intro s
    unfold dropOnPort
    simp only [wp_bind, wp_get, wp_item, wp_ite]
    exact ⟨fun macs hmacs => ⟨fun _ => shed_dropHost hmacs _, fun _ => shed_dropOnPort dpid in_port l s⟩,
      fun _ => refl_of Shed s⟩

theorem shed_dropElsewhere (src : Bytes) : ∀ l, Moves Shed (dropElsewhere env src l)
  | [] => .pure _
  | _ :: l => by
    intro s
    unfold dropElsewhere
    simp only [wp_bind, wp_get, wp_item, wp_ite]
    exact ⟨fun macs hmacs => ⟨fun _ => shed_dropHost hmacs _, fun _ => shed_dropElsewhere src l s⟩,
      fun _ => refl_of Shed s⟩

theorem addHost_noHostOnLink (h : NoHostOnLink s)
    (hfree : ∀ ports, s.dpid_to_inter_connection_port.get dpid = some ports → in_port ∉ ports) (src : Bytes) :
    wp (addHost env dpid in_port src) s (fun _ => NoHostOnLink) fun _ => NoHostOnLink := by
  unfold addHost
  simp only [wp_bind, wp_get, wp_item, wp_modify]
  refine ⟨fun macs hmacs => ?_, fun _ => h⟩
  have hadd : NoHostOnLink { s with mac_to_port := s.mac_to_port.insert dpid (macs.insert src in_port) } := by
    intro d macs' ports mac port hget hports hport
    rcases Dict.get_insert_some.mp hget with ⟨rfl, rfl⟩ | ⟨_, hget⟩
    · rcases Dict.get_insert_some.mp hport with ⟨rfl, rfl⟩ | ⟨_, hport⟩
      · exact hfree ports hports
      · exact h d macs ports mac port hmacs hports hport
    · exact h d macs' ports mac port hget hports hport
  exact (keeps_send_msg none (.HostConnected dpid src)).kept hadd

theorem keeps_learnHost_ports (dpid in_port : Nat) (src : Bytes) :
    Moves (Keeps NoHostOnLink) (learnHost env dpid in_port src) := by
  apply Moves.keeps
  intro s h
  unfold learnHost
  simp only [wp_bind, wp_get, wp_item, wp_ite, wp_pure]
  refine ⟨fun _ => ⟨fun ports hports => ⟨fun hfree => ?_, fun _ => h⟩, fun _ => h⟩, fun _ => h⟩
  refine ⟨fun macs _ => ?_, fun _ => h⟩
  refine wp_mono (shed_dropOnPort dpid in_port _ s) (fun _ s₁ h₁ => ?_) fun _ _ h₁ => h₁.noHostOnLink h
  refine wp_mono (shed_dropElsewhere src _ s₁) (fun _ s₂ h₂ => ?_) fun _ _ h₂ => h₂.noHostOnLink (h₁.noHostOnLink h)
  have hshed := trans_of Shed h₁ h₂
  refine addHost_noHostOnLink (hshed.noHostOnLink h) (fun ports' hports' => ?_) src
  rw [hshed.ports, hports] at hports'
  cases hports'
  exact hfree

theorem markPort_noHostOnLink_iff (h : NoHostOnLink s) :
    wp (markPort env dpid in_port) s (fun _ => NoHostOnLink) (fun _ => NoHostOnLink) ↔
      (dpid ∈ s.dpid_to_inter_connection_port → ∀ macs mac, s.mac_to_port.get dpid = some macs →
        macs.get mac ≠ some in_port) := by
  unfold markPort
  simp only [wp_bind, wp_get, wp_item, wp_ite, wp_modify, wp_pure]
  constructor
  · intro hmark hin macs mac hmacs hport
    obtain ⟨ports, hports⟩ := Dict.mem_iff_get.mp hin
    have hout : in_port ∉ ports := h dpid macs ports mac in_port hmacs hports hport
    have hnew : Dict.get (s.dpid_to_inter_connection_port.insert dpid (ports ++ [in_port])) dpid = some (ports ++ [in_port]) := by
      rw [Dict.get_insert, if_pos rfl]
    exact (hmark.1 ports hports).1 hout dpid macs _ mac in_port hmacs hnew hport (by simp)
  · intro hfree
    refine ⟨fun ports hports => ⟨fun _ => ?_, fun _ => h⟩, fun _ => h⟩
    intro d macs ports' mac port hmacs hports' hport
    rcases Dict.get_insert_some.mp hports' with ⟨rfl, rfl⟩ | ⟨_, hports'⟩
    · have hold := h d macs ports mac port hmacs hports hport
      have hne : port ≠ in_port := by
        rintro rfl
        exact hfree (Dict.mem_iff_get.mpr ⟨ports, hports⟩) macs mac hmacs hport
      simp [hold, hne]
    · exact h d macs ports' mac port hmacs hports' hport

end

/-! ## Runs -/

theorem noHostOnLink_handle_iff {s : Layer2Switch env.nx.Graph} (h : NoHostOnLink s) (e : LocalEvent) :
    wp (handle env e) s (fun _ => NoHostOnLink) (fun _ => NoHostOnLink) ↔ MarksFree s e := by
  have hkeeps : ∀ {x : App env Unit} {p : Prop}, Moves (Keeps NoHostOnLink) x → p →
      (wp x s (fun _ => NoHostOnLink) (fun _ => NoHostOnLink) ↔ p) := by
    intro x p hx hp
    exact iff_of_true (hx.kept h) hp
  unfold handle
  cases e with
  | SwitchFeatures datapath => exact hkeeps (keeps_ofp_switch_features datapath) trivial
  | RoleReply dpid role => exact hkeeps (.bind .get fun _ => keeps_send_msg _ _) trivial
  | PacketIn now msg =>
    simp only
    unfold ofp_packet_in_handler MarksFree
    cases heth : msg.pkt.eth with
    | none =>
      refine hkeeps (.throw _) fun eth _ _ hno => ?_
      rw [show msg.pkt.eth = none from heth] at hno
      cases hno
    | some eth =>
      by_cases hlldp : eth.dst = LLDP_MAC_NEAREST_BRIDGE
      · simp only [hlldp, if_true, markPort_noHostOnLink_iff h]
        constructor
        · intro hfree eth' macs mac _ _ hin
          exact hfree hin macs mac
        · intro hfree hin macs mac
          exact hfree eth macs mac heth hlldp hin
      · simp only [hlldp, if_false]
        refine hkeeps ?_ fun eth' _ _ heq hdst => ?_
        · exact .bind (moves_countPacket (fun _ _ _ _ h => h) _) fun _ => .bind (keeps_learnHost_ports _ _ _) fun _ =>
            moves_forward (P := fun _ => True) (fun _ _ h => h) (fun _ _ _ _ h => h) (fun _ _ h => h) (fun _ _ _ _ h => h)
              (fun _ _ _ _ _ _ _ => trivial) now msg eth
        · rw [show msg.pkt.eth = some eth from heth] at heq
          rw [← Option.some.inj heq] at hdst
          exact absurd hdst hlldp
  | TopologyChange api => exact hkeeps (keeps_get_topology_data api) trivial
  | SwitchLeave dpid => exact hkeeps (keeps_switch_leave_handler dpid) trivial
  | Connected => exact hkeeps (.modify fun _ h => h) trivial
  | Downlink now ev =>
    exact hkeeps (moves_dispatch_event (P := fun _ => True) (fun _ _ h => h) (fun _ _ _ _ h => h) (fun _ _ h => h)
      (fun _ _ _ h => h) (fun _ => trivial) (fun _ _ h => h) now ev fun _ _ _ h => h) trivial
  | LoadRound => exact hkeeps (.bind .get fun _ => .ite (.bind .get fun _ => keeps_reportLoads _) (.pure _)) trivial
  | GraphInfoRound window_switches =>
    exact hkeeps (moves_graph_info_thread (P := fun _ => True) (fun _ _ h => h) (fun _ _ _ _ h => h) (fun _ => trivial)
      (fun _ _ _ h => h) (fun _ _ h => h) window_switches) trivial
  | TimeoutRound now =>
    exact hkeeps (.bind .get fun _ => moves_expirePackets (fun _ _ _ h => h) (fun _ _ _ _ h => h) now _) trivial

theorem noHostOnLink_step_iff {s : Layer2Switch env.nx.Graph} (h : NoHostOnLink s) (e : LocalEvent) :
    NoHostOnLink (step env s e) ↔ MarksFree s e := by
  rw [← noHostOnLink_handle_iff h e]
  unfold step wp
  cases handle env e s with
  | ok _ s' => exact Iff.rfl
  | error err s' => cases e <;> exact Iff.rfl

/-- **No host is on a port between switches**, in every state of a run, exactly
if the run marks no port that a host is on. -/
theorem no_host_on_link_iff (env : LocalEnv) (xid : Nat) (es : List LocalEvent) :
    (∀ es', es' <+: es → NoHostOnLink (es'.foldl (step env) (init env xid))) ↔
      Allowed (step env) MarksFree (init env xid) es := by
  refine (allowed_iff_invariant NoHostOnLink (fun _ e h => noHostOnLink_step_iff h e) ?_).symm
  intro d macs ports mac port hmacs
  rw [show (init env xid).mac_to_port = ∅ from rfl, Dict.get_empty] at hmacs
  cases hmacs

/-- Transit traffic before the first LLDP packet. -/
theorem host_learned_on_link :
    ¬ NoHostOnLink ([.SwitchFeatures ⟨1, "10.0.0.1"⟩,
      samplePacket 1 2 (asciiText "00:00:00:00:00:01") BROADCAST_STR,
      samplePacket 1 2 (asciiText "00:00:00:00:00:02") LLDP_MAC_NEAREST_BRIDGE].foldl (step sampleLocalEnv)
        (init sampleLocalEnv 0)) := by
  intro h
  obtain ⟨macs, hmacs, hport⟩ := Option.bind_eq_some_iff.mp (show ((List.foldl (step sampleLocalEnv) (init sampleLocalEnv 0)
      [.SwitchFeatures ⟨1, "10.0.0.1"⟩, samplePacket 1 2 (asciiText "00:00:00:00:00:01") BROADCAST_STR,
        samplePacket 1 2 (asciiText "00:00:00:00:00:02") LLDP_MAC_NEAREST_BRIDGE]).mac_to_port.get 1).bind
          (fun macs => macs.get (asciiText "00:00:00:00:00:01")) = some 2 by decide +kernel)
  exact h 1 macs [2] (asciiText "00:00:00:00:00:01") 2 hmacs (by decide +kernel) hport (by decide)

end Layer2Switch

end VnfDockerNet
