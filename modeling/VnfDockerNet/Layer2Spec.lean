import VnfDockerNet.Layer2
import VnfDockerNet.MsgSound
import VnfDockerNet.Lib.FnGraph
import VnfDockerNet.Lib.Placement
import VnfDockerNet.Lib.Runs

/-!
# What the handlers of the local controller can do

A handler's footprint is stated for any preorder on states that the basic
updates follow. The handlers that move hosts are described by the partial
bijection between the known hosts and the switch ports they are on.
-/

namespace VnfDockerNet

open Python Networkx

namespace Layer2Switch

variable {env : LocalEnv}

theorem mem_order {κ ν : Type} [DecidableEq κ] {d : Dict κ ν} {k : κ} : k ∈ env.order d ↔ k ∈ d :=
  (env.order_perm d).mem_iff.trans AList.mem_keys.symm

/-! ## Footprints -/

section
variable {R : Layer2Switch env.nx.Graph → Layer2Switch env.nx.Graph → Prop} {P : MsgUp → Prop}

section
variable (hxid : ∀ (s : Layer2Switch env.nx.Graph) xid, R s { s with xid })
variable (hsent : ∀ (s : Layer2Switch env.nx.Graph) xid msg, P msg → R s { s with sent := s.sent ++ [⟨xid, msg⟩] })
variable (hout : ∀ (s : Layer2Switch env.nx.Graph) x, R s { s with switch_out := s.switch_out ++ [x] })
variable (hpending : ∀ (s : Layer2Switch env.nx.Graph) xid_to_packet xid_to_packet_timestamp xid_to_buffer_id,
  R s { s with xid_to_packet, xid_to_packet_timestamp, xid_to_buffer_id })
variable (hkeep : ∀ (s : Layer2Switch env.nx.Graph) xid_to_packet_timestamp xid_to_buffer_id,
  R s { s with xid_to_packet_timestamp, xid_to_buffer_id })

include hout in
theorem moves_send_switch (datapath : OfDatapath) (msg : SwitchMsg) : Moves R (send_switch env datapath msg) :=
  .modify fun s => hout s _

include hout in
theorem moves_add_flow (datapath : OfDatapath) (priority : Nat) (rule : OFPMatch) (actions : List OFPActionOutput)
    (buffer_id : Option Nat) : Moves R (add_flow env datapath priority rule actions buffer_id) :=
  moves_send_switch hout _ _

variable [IsPreorder _ R]

include hxid in
theorem moves_set_xid : Moves R (set_xid env) :=
  .bind (.modify fun s => hxid s _) fun _ => .bind .get fun _ => .pure _

include hxid hsent in
theorem moves_send_msg (own_xid : Option Nat) {msg : MsgUp} (hmsg : P msg) : Moves R (send_msg env own_xid msg) := by
  have hown : Moves R (messageXid env own_xid) := by
    cases own_xid with
    | some xid => exact .pure xid
    | none => exact moves_set_xid hxid
  unfold send_msg transmit
  refine .bind hown fun xid => ?_
  cases msg.serialize env.host (some xid) with
  | some _ => exact .modify fun s => hsent s xid msg hmsg
  | none => exact .throw _

theorem moves_edgePort (u v : Node) : Moves R (edgePort env u v) :=
  .bind .get fun _ => .bind (.key _) fun _ => .key _

theorem moves_nodeDatapath (n : Node) : Moves R (nodeDatapath env n) := by
  cases n with
  | dpid dpid => exact .bind .get fun _ => .item _ _
  | mac mac => exact .throw _

include hout in
theorem moves_forwardPath (msg : PacketIn) (eth : Ethernet) : ∀ path, Moves R (forwardPath env msg eth path)
  | [] => .pure _
  | [_] => .pure _
  | last_hop :: next_hop :: rest => by
    unfold forwardPath
    refine .bind (moves_edgePort _ _) fun out_port => .bind (.orRaise _) fun rule =>
      .bind (moves_nodeDatapath _) fun datapath => .ite (moves_add_flow hout _ _ _ _ _) ?_
    refine .bind (moves_add_flow hout _ _ _ _ _) fun _ => .bind (moves_send_switch hout _ _) fun _ => ?_
    exact moves_forwardPath msg eth (next_hop :: rest)

include hout in
theorem moves_forward_of {now : Nat} {msg : PacketIn} {eth : Ethernet} (hask : Moves R (askCentral env now msg eth)) :
    Moves R (forward env now msg eth) := by
  unfold forward
  refine .bind .get fun s => .ite ?_ (.ite (moves_send_switch hout _ _) (.ite hask (.pure _)))
  cases env.nx.shortest_path s.net (.dpid msg.datapath.id) (.mac eth.dst) with
  | ok path => exact moves_forwardPath hout msg eth path
  | error e => cases e <;> first | exact .pure _ | exact .throw _

section
variable (hpacket : ∀ in_dpid src_mac dst_mac src_ip dst_ip tp_src tp_dst,
  P (.PacketIn in_dpid src_mac dst_mac src_ip dst_ip tp_src tp_dst))

include hxid hsent hpending hpacket in
theorem moves_askCentral (now : Nat) (msg : PacketIn) (eth : Ethernet) : Moves R (askCentral env now msg eth) :=
  .bind (moves_set_xid hxid) fun _ => .bind (.modify fun s => hpending s _ _ _) fun _ =>
    moves_send_msg hxid hsent _ (hpacket _ _ _ _ _ _ _)

include hxid hsent hout hpending hpacket in
theorem moves_forward (now : Nat) (msg : PacketIn) (eth : Ethernet) : Moves R (forward env now msg eth) :=
  moves_forward_of hout (moves_askCentral hxid hsent hpending hpacket now msg eth)

end

include hkeep in
theorem moves_takePending (xid : Nat) (hdrop : ∀ (s : Layer2Switch env.nx.Graph) xid_to_packet_timestamp xid_to_buffer_id,
      R s { s with xid_to_packet := s.xid_to_packet.erase xid, xid_to_packet_timestamp, xid_to_buffer_id }) :
    Moves R (takePending env xid) := by
  unfold takePending
  refine .bind .get fun s => ?_
  cases s.xid_to_packet.get xid with
  | none => exact .pure _
  | some data =>
    refine .bind .get fun _ => .bind (.item _ _) fun _ => .bind (.modify fun s => ?_) fun _ => .bind .get fun _ =>
      .bind (.item _ _) fun _ => .bind (.modify fun s => hkeep s _ _) fun _ => .pure _
    exact hdrop s s.xid_to_packet_timestamp s.xid_to_buffer_id

include hout in
theorem moves_pathRules (dst_mac : Bytes) : ∀ path, Moves R (pathRules env dst_mac path)
  | [] => .pure _
  | [_] => .pure _
  | node :: next :: rest => by
    unfold pathRules
    exact .bind (moves_edgePort _ _) fun _ => .bind (moves_nodeDatapath _) fun _ =>
      .bind (moves_add_flow hout _ _ _ _ _) fun _ => moves_pathRules dst_mac (next :: rest)

section
variable {in_dp : OfDatapath} (in_dpid out_dpid region_out_port : Nat) (dst_mac : Bytes)

include hout in
theorem moves_installBuffered (buffer_id : Nat) (path : List Node) :
    Moves R (installBuffered env in_dp in_dpid out_dpid region_out_port dst_mac buffer_id path) := by
  unfold installBuffered
  refine .ite (moves_add_flow hout _ _ _ _ _) ?_
  cases path[path.idxOf (.dpid in_dpid) + 1]? with
  | none => exact .throw _
  | some next_hop =>
    exact .bind (moves_edgePort _ _) fun _ => .bind (moves_add_flow hout _ _ _ _ _) fun _ =>
      .bind (moves_pathRules hout _ _) fun _ => .bind .get fun _ =>
        .bind (.item _ _) fun _ => moves_add_flow hout _ _ _ _ _

include hout in
theorem moves_exitPacketOut (out_dp : OfDatapath) (actions : List OFPActionOutput) (data : Option Bytes) :
    Moves R (exitPacketOut env out_dp in_dpid actions data) :=
  .ite (moves_send_switch hout _ _) (.throw _)

include hout in
theorem moves_installUnbuffered (data : Option Bytes) (path : List Node) :
    Moves R (installUnbuffered env in_dp in_dpid out_dpid region_out_port dst_mac data path) := by
  unfold installUnbuffered
  refine .ite (moves_add_flow hout _ _ _ _ _) ?_
  exact .bind (moves_pathRules hout _ _) fun _ => .bind .get fun _ => .bind (.item _ _) fun _ =>
    .bind (moves_add_flow hout _ _ _ _ _) fun _ => moves_exitPacketOut hout _ _ _ _

include hout in
theorem moves_flow_mod_of {xid : Nat} (htake : Moves R (takePending env xid)) :
    Moves R (cc_flow_mod_handler env xid in_dpid out_dpid region_out_port dst_mac) := by
  unfold cc_flow_mod_handler
  refine .bind .get fun _ => .ite ?_ (.pure _)
  refine .bind .get fun _ => .bind (.item _ _) fun in_dp => .bind htake fun p =>
    .bind .get fun s => ?_
  cases env.nx.shortest_path s.net (.dpid in_dpid) (.dpid out_dpid) with
  | error e => cases e <;> first | exact .pure _ | exact .throw _
  | ok path => exact .ite (moves_installBuffered hout _ _ _ _ _ _) (moves_installUnbuffered hout _ _ _ _ _ _)

end

include hxid hsent in
theorem moves_ofp_role_reply_handler (hrole : ∀ dpid lcid role, P (.RoleNotify dpid lcid role)) (dpid role : Nat) :
    Moves R (ofp_role_reply_handler env dpid role) :=
  .bind .get fun _ => moves_send_msg hxid hsent _ (hrole _ _ _)

theorem moves_markPort (hports : ∀ (s : Layer2Switch env.nx.Graph) dpid ports,
      dpid ∈ s.dpid_to_inter_connection_port → R s { s with
        dpid_to_inter_connection_port := s.dpid_to_inter_connection_port.insert dpid ports })
    (dpid in_port : Nat) : Moves R (markPort env dpid in_port) := by
  intro s
  unfold markPort
  simp only [wp_bind, wp_get, wp_item, wp_ite, wp_modify, wp_pure]
  refine ⟨fun ports hget => ⟨fun _ => ?_, fun _ => refl_of R s⟩, fun _ => refl_of R s⟩
  exact hports s dpid _ (Dict.mem_iff_get.mpr ⟨ports, hget⟩)

theorem moves_countPacket (hload : ∀ (s : Layer2Switch env.nx.Graph) dpid load, dpid ∈ s.dpid_to_load →
      R s { s with dpid_to_load := s.dpid_to_load.insert dpid load })
    (dpid : Nat) : Moves R (countPacket env dpid) := by
  intro s
  unfold countPacket
  simp only [wp_bind, wp_get, wp_item, wp_modify]
  refine ⟨fun load hget => ?_, fun _ => refl_of R s⟩
  exact hload s dpid _ (Dict.mem_iff_get.mpr ⟨load, hget⟩)

section
variable (hdrop : ∀ (s : Layer2Switch env.nx.Graph) xid xid_to_packet_timestamp xid_to_buffer_id,
  R s { s with xid_to_packet := s.xid_to_packet.erase xid, xid_to_packet_timestamp, xid_to_buffer_id })

include hkeep hdrop in
theorem moves_expirePacket (now xid : Nat) : Moves R (expirePacket env now xid) := by
  unfold expirePacket
  refine .bind .get fun _ => .bind (.item _ _) fun _ => .ite ?_ (.pure _)
  refine .bind .get fun _ => .bind (.item _ _) fun _ => .bind (.modify fun s => ?_) fun _ => .bind .get fun _ =>
    .bind (.item _ _) fun _ => .modify fun s => hkeep s s.xid_to_packet_timestamp _
  exact hdrop s xid _ s.xid_to_buffer_id

include hkeep hdrop in
theorem moves_expirePackets (now : Nat) : ∀ xids, Moves R (expirePackets env now xids)
  | [] => .pure _
  | xid :: xids => .bind (moves_expirePacket hkeep hdrop now xid) fun _ => moves_expirePackets now xids

end

theorem moves_recordWindows
    (hwin : ∀ (s : Layer2Switch env.nx.Graph) dpid_to_is_win dpid_to_out_port,
      R s { s with dpid_to_is_win, dpid_to_out_port }) :
    ∀ window_switches, Moves R (recordWindows env window_switches)
  | [] => .pure _
  | t :: window_switches => by
    unfold recordWindows
    refine .bind (.key _) fun _ => .bind (.modify fun s => hwin s _ s.dpid_to_out_port) fun _ => .bind (.key _) fun _ =>
      .bind (.modify fun s => hwin s s.dpid_to_is_win _) fun _ => ?_
    exact moves_recordWindows hwin window_switches

include hxid hsent in
theorem moves_graph_info_thread (hgraph : ∀ text, P (.GraphInfo text))
    (hwin : ∀ (s : Layer2Switch env.nx.Graph) dpid_to_is_win dpid_to_out_port,
      R s { s with dpid_to_is_win, dpid_to_out_port })
    (hhash : ∀ (s : Layer2Switch env.nx.Graph) window_info_hash, R s { s with window_info_hash })
    (window_switches : List Window) : Moves R (_graph_info_thread env window_switches) := by
  unfold _graph_info_thread
  refine .bind .get fun _ => .ite ?_ (.pure _)
  refine .bind (moves_recordWindows hwin _) fun _ => .bind .get fun _ => .ite ?_ (.pure _)
  exact .bind (moves_send_msg hxid hsent _ (hgraph _)) fun _ => .modify fun s => hhash s _

include hxid hsent hout in
theorem moves_dispatch_event_of (hecho : ∀ timestamp, P (.EchoReply timestamp))
    (hlcid : ∀ (s : Layer2Switch env.nx.Graph) lcid, R s { s with lcid }) (now : Nat) {ev : Event MsgDown}
    (htake : Moves R (takePending env ev.header.xid)) : Moves R (dispatch_event env now ev) := by
  unfold dispatch_event
  cases ev.msg with
  | HelloDown lcid => exact .modify fun s => hlcid s _
  | RoleAssign dpid _ role gid => exact .bind .get fun _ => .bind (.item _ _) fun _ => moves_send_switch hout _ _
  | FlowMod in_dpid out_dpid out_port dst_mac _ => exact moves_flow_mod_of hout _ _ _ _ htake
  | CtrlPoolChange dpid _ lc_list =>
    exact .bind (.orRaise _) fun _ => .bind .get fun _ => .bind (.item _ _) fun _ => moves_send_switch hout _ _
  | EchoRequest _ => exact moves_send_msg hxid hsent _ (hecho _)
  | GidReply | DpMigration | BarrierRequest | SwitchControllerMapUpdate => exact .pure _

include hxid hsent hout hkeep in
theorem moves_dispatch_event (hecho : ∀ timestamp, P (.EchoReply timestamp))
    (hlcid : ∀ (s : Layer2Switch env.nx.Graph) lcid, R s { s with lcid }) (now : Nat) (ev : Event MsgDown)
    (hdrop : ∀ (s : Layer2Switch env.nx.Graph) xid_to_packet_timestamp xid_to_buffer_id,
      R s { s with xid_to_packet := s.xid_to_packet.erase ev.header.xid, xid_to_packet_timestamp, xid_to_buffer_id }) :
    Moves R (dispatch_event env now ev) :=
  moves_dispatch_event_of hxid hsent hout hecho hlcid now (moves_takePending hkeep _ hdrop)

end

end

/-! ### Learning hosts -/

section
variable {R : Layer2Switch env.nx.Graph → Layer2Switch env.nx.Graph → Prop} {P : MsgUp → Prop} [IsPreorder _ R]
variable (hxid : ∀ (s : Layer2Switch env.nx.Graph) xid, R s { s with xid })
variable (hsent : ∀ (s : Layer2Switch env.nx.Graph) xid msg, P msg → R s { s with sent := s.sent ++ [⟨xid, msg⟩] })
variable (hmacs : ∀ (s : Layer2Switch env.nx.Graph) mac_to_port, R s { s with mac_to_port })
variable (hforget : ∀ (s : Layer2Switch env.nx.Graph) mac net, env.nx.remove_node s.net (.mac mac) = .ok net →
  R s { s with net })
variable (hleft : ∀ dpid mac, P (.HostLeave dpid mac))

include hxid hsent hmacs hforget hleft in
theorem moves_dropHost (dpid : Nat) (macs : Dict Bytes Nat) (mac : Bytes) : Moves R (dropHost env dpid macs mac) := by
  unfold dropHost removeNode
  refine .bind (.modify fun s => hmacs s _) fun _ => .bind ?_ fun _ => moves_send_msg hxid hsent _ (hleft _ _)
  intro s
  simp only [wp_bind, wp_get, wp_orRaise, wp_modify]
  exact ⟨fun net hnet => hforget s mac net hnet, fun _ _ => refl_of R s⟩

include hxid hsent hmacs hforget hleft in
theorem moves_dropOnPort (dpid in_port : Nat) : ∀ l, Moves R (dropOnPort env dpid in_port l)
  | [] => .pure _
  | _ :: l => .bind .get fun _ => .bind (.item _ _) fun _ =>
      .ite (moves_dropHost hxid hsent hmacs hforget hleft _ _ _) (moves_dropOnPort dpid in_port l)

include hxid hsent hmacs hforget hleft in
theorem moves_dropElsewhere (src : Bytes) : ∀ l, Moves R (dropElsewhere env src l)
  | [] => .pure _
  | _ :: l => .bind .get fun _ => .bind (.item _ _) fun _ =>
      .ite (moves_dropHost hxid hsent hmacs hforget hleft _ _ _) (moves_dropElsewhere src l)

variable (hnode : ∀ (s : Layer2Switch env.nx.Graph) mac, R s { s with net := env.nx.add_node s.net (.mac mac) })
variable (hto : ∀ (s : Layer2Switch env.nx.Graph) dpid mac port,
  R s { s with net := env.nx.add_edge s.net (.dpid dpid) (.mac mac) fun _ => some port })
variable (hback : ∀ (s : Layer2Switch env.nx.Graph) dpid mac f,
  R s { s with net := env.nx.add_edge s.net (.mac mac) (.dpid dpid) f })
variable (hconnected : ∀ dpid mac, P (.HostConnected dpid mac))

include hxid hsent hmacs hforget hleft hnode hto hback hconnected in
theorem moves_learnHost (dpid in_port : Nat) (src : Bytes) : Moves R (learnHost env dpid in_port src) := by
  have hadd : Moves R (addHost env dpid in_port src) :=
    .bind .get fun _ => .bind (.item _ _) fun _ => .bind (.modify fun s => hmacs s _) fun _ =>
      .bind (.modify fun s => hnode s _) fun _ => .bind (.modify fun s => hto s _ _ _) fun _ =>
        .bind (.modify fun s => hback s _ _ _) fun _ => moves_send_msg hxid hsent _ (hconnected _ _)
  unfold learnHost
  refine .bind .get fun _ => .ite ?_ (.pure _)
  refine .bind .get fun _ => .bind (.item _ _) fun _ => .ite ?_ (.pure _)
  exact .bind .get fun _ => .bind (.item _ _) fun _ =>
    .bind (moves_dropOnPort hxid hsent hmacs hforget hleft _ _ _) fun _ => .bind .get fun _ =>
      .bind (moves_dropElsewhere hxid hsent hmacs hforget hleft _ _) fun _ => hadd

end

/-! ### Every handler -/

/-- The messages that a handler can hand to the agent. -/
def Emits : LocalEvent → MsgUp → Prop
  | .SwitchFeatures datapath, .DPConnected dpid _ => dpid = datapath.id
  | .RoleReply .., .RoleNotify .. => True
  | .PacketIn .., .HostLeave .. => True
  | .PacketIn .., .HostConnected .. => True
  | .PacketIn .., .PacketIn .. => True
  | .TopologyChange _, .GraphInfo _ => True
  | .SwitchLeave dpid, .DatapathLeave dpid' => dpid' = dpid
  | .Downlink .., .EchoReply _ => True
  | .LoadRound, .LoadReport .. => True
  | .GraphInfoRound _, .GraphInfo _ => True
  | _, _ => False

section
variable {R : Layer2Switch env.nx.Graph → Layer2Switch env.nx.Graph → Prop} [IsPreorder _ R]

/-- A relation that does not look at most of the state follows a handler, if it
follows what that handler can do to the rest. -/
theorem moves_handle_loads (e : LocalEvent)
    (hsame : ∀ s s' : Layer2Switch env.nx.Graph, s'.datapaths = s.datapaths → s'.dpid_to_load = s.dpid_to_load →
      s'.sent = s.sent → s'.xid_to_packet = s.xid_to_packet → R s s')
    (hcount : ∀ (s : Layer2Switch env.nx.Graph) dpid load now msg, e = .PacketIn now msg → dpid ∈ s.dpid_to_load →
      R s { s with dpid_to_load := s.dpid_to_load.insert dpid load })
    (hsent : ∀ (s : Layer2Switch env.nx.Graph) xid msg, Emits e msg → R s { s with sent := s.sent ++ [⟨xid, msg⟩] })
    (hdrop : ∀ (s : Layer2Switch env.nx.Graph) xid, R s { s with xid_to_packet := s.xid_to_packet.erase xid })
    (hstore : ∀ (s : Layer2Switch env.nx.Graph) xid_to_packet now msg, e = .PacketIn now msg →
      R s { s with xid_to_packet })
    (hjoin : ∀ (s : Layer2Switch env.nx.Graph) datapath, e = .SwitchFeatures datapath → R s { s with
      datapaths := s.datapaths.insert datapath.id datapath
      dpid_to_load := s.dpid_to_load.insert datapath.id 0 })
    (hleave : ∀ (s : Layer2Switch env.nx.Graph) dpid, e = .SwitchLeave dpid →
      R s { s with datapaths := s.datapaths.erase dpid })
    (hunload : ∀ (s : Layer2Switch env.nx.Graph) dpid, e = .SwitchLeave dpid →
      R s { s with dpid_to_load := s.dpid_to_load.erase dpid })
    (hload : ∀ (s : Layer2Switch env.nx.Graph) dpid load, e = .LoadRound →
      R s { s with dpid_to_load := s.dpid_to_load.insert dpid load }) :
    Moves R (handle env e) := by
  have hxid : ∀ (s : Layer2Switch env.nx.Graph) xid, R s { s with xid } := fun s _ => hsame s _ rfl rfl rfl rfl
  have hout : ∀ (s : Layer2Switch env.nx.Graph) x, R s { s with switch_out := s.switch_out ++ [x] } :=
    fun s _ => hsame s _ rfl rfl rfl rfl
  have hdrop' : ∀ (s : Layer2Switch env.nx.Graph) xid xid_to_packet_timestamp xid_to_buffer_id,
      R s { s with xid_to_packet := s.xid_to_packet.erase xid, xid_to_packet_timestamp, xid_to_buffer_id } := by
    intro s xid ts buf
    refine trans_of R (hdrop s xid) ?_
    exact hsame _ _ rfl rfl rfl rfl
  have hkeep : ∀ (s : Layer2Switch env.nx.Graph) xid_to_packet_timestamp xid_to_buffer_id,
      R s { s with xid_to_packet_timestamp, xid_to_buffer_id } := fun s _ _ => hsame s _ rfl rfl rfl rfl
  have hsend : ∀ own_xid {msg : MsgUp}, Emits e msg → Moves R (send_msg env own_xid msg) := fun own_xid _ hmsg =>
    moves_send_msg hxid hsent own_xid hmsg
  have hnet : ∀ n, Moves R (removeNode env n) := fun n =>
    .bind .get fun _ => .bind (.orRaise _) fun _ => .modify fun s => hsame s _ rfl rfl rfl rfl
  have hmacs : ∀ l, Moves R (removeMacs env l) := by
    intro l
    induction l with
    | nil => exact .pure _
    | cons mac l ih => exact .bind (.modify fun s => hsame s _ rfl rfl rfl rfl) fun _ => ih
  unfold handle
  cases e with
  | SwitchFeatures datapath =>
    refine .bind (.modify fun s => ?_) fun _ => .bind .get fun _ => .bind (hsend _ rfl) fun _ =>
      moves_add_flow hout _ _ _ _ _
    refine trans_of R (hjoin s datapath rfl) ?_
    exact hsame _ _ rfl rfl rfl rfl
  | RoleReply dpid role => exact .bind .get fun _ => hsend _ trivial
  | PacketIn now msg =>
    show Moves R (ofp_packet_in_handler env now msg)
    unfold ofp_packet_in_handler
    cases msg.pkt.eth with
    | none => exact .throw _
    | some eth =>
      refine .ite (moves_markPort (fun s _ _ _ => hsame s _ rfl rfl rfl rfl) _ _) ?_
      refine .bind (moves_countPacket (fun s d n => hcount s d n now msg rfl) _) fun _ => .bind ?_ fun _ => ?_
      · exact moves_learnHost hxid hsent (fun s _ => hsame s _ rfl rfl rfl rfl)
          (fun s _ _ _ => hsame s _ rfl rfl rfl rfl) (fun _ _ => trivial) (fun s _ => hsame s _ rfl rfl rfl rfl)
          (fun s _ _ _ => hsame s _ rfl rfl rfl rfl) (fun s _ _ _ => hsame s _ rfl rfl rfl rfl)
          (fun _ _ => trivial) _ _ _
      · refine moves_forward hxid hsent hout (fun s pending ts buf => ?_) (fun _ _ _ _ _ _ _ => trivial) now msg eth
        refine trans_of R (hstore s pending now msg rfl) ?_
        exact hsame _ _ rfl rfl rfl rfl
  | TopologyChange api =>
    refine .bind (.modify fun s => hsame s _ rfl rfl rfl rfl) fun _ => .bind (.orRaise _) fun _ =>
      .bind (moves_recordWindows (fun s _ _ => hsame s _ rfl rfl rfl rfl) _) fun _ =>
        .bind (.modify fun s => hsame s _ rfl rfl rfl rfl) fun _ =>
          .bind (.modify fun s => hsame s _ rfl rfl rfl rfl) fun _ =>
            .bind (.modify fun s => hsame s _ rfl rfl rfl rfl) fun _ => ?_
    exact .bind (hsend _ trivial) fun _ => .modify fun s => hsame s _ rfl rfl rfl rfl
  | SwitchLeave dpid =>
    refine .bind (hnet _) fun _ => .bind .get fun _ => .bind (.item _ _) fun _ =>
      .bind (.modify fun s => hleave s _ rfl) fun _ => .bind .get fun _ => .bind (.item _ _) fun _ =>
        .bind (.modify fun s => hunload s _ rfl) fun _ => .bind .get fun _ => .bind (.item _ _) fun _ =>
          .bind (.modify fun s => hsame s _ rfl rfl rfl rfl) fun _ => ?_
    exact .bind .get fun _ => .bind (.item _ _) fun _ => .bind (hmacs _) fun _ =>
      .bind (.modify fun s => hsame s _ rfl rfl rfl rfl) fun _ => .bind (hsend _ rfl) fun _ =>
        .modify fun s => hsame s _ rfl rfl rfl rfl
  | Connected => exact .modify fun s => hsame s _ rfl rfl rfl rfl
  | Downlink now ev =>
    exact moves_dispatch_event hxid hsent hout hkeep (fun _ => trivial) (fun s _ => hsame s _ rfl rfl rfl rfl) now ev
      fun s _ _ => hdrop' s _ _ _
  | LoadRound =>
    have hloads : ∀ l, Moves R (reportLoads env l) := by
      intro l
      induction l with
      | nil => exact .pure _
      | cons d l ih =>
        exact .bind .get fun _ => .bind (.modify fun s => hload s _ _ rfl) fun _ => .bind (hsend _ trivial) fun _ => ih
    exact .bind .get fun _ => .ite (.bind .get fun _ => hloads _) (.pure _)
  | GraphInfoRound window_switches =>
    exact moves_graph_info_thread hxid hsent (fun _ => trivial) (fun s _ _ => hsame s _ rfl rfl rfl rfl)
      (fun s _ => hsame s _ rfl rfl rfl rfl) window_switches
  | TimeoutRound now => exact .bind .get fun _ => moves_expirePackets hkeep hdrop' now _

theorem moves_handle (e : LocalEvent)
    (hsame : ∀ s s' : Layer2Switch env.nx.Graph, s'.datapaths = s.datapaths →
      (∀ d, d ∈ s'.dpid_to_load ↔ d ∈ s.dpid_to_load) → s'.sent = s.sent → s'.xid_to_packet = s.xid_to_packet → R s s')
    (hsent : ∀ (s : Layer2Switch env.nx.Graph) xid msg, Emits e msg → R s { s with sent := s.sent ++ [⟨xid, msg⟩] })
    (hdrop : ∀ (s : Layer2Switch env.nx.Graph) xid, R s { s with xid_to_packet := s.xid_to_packet.erase xid })
    (hstore : ∀ (s : Layer2Switch env.nx.Graph) xid_to_packet now msg, e = .PacketIn now msg →
      R s { s with xid_to_packet })
    (hjoin : ∀ (s : Layer2Switch env.nx.Graph) datapath, e = .SwitchFeatures datapath → R s { s with
      datapaths := s.datapaths.insert datapath.id datapath
      dpid_to_load := s.dpid_to_load.insert datapath.id 0 })
    (hleave : ∀ (s : Layer2Switch env.nx.Graph) dpid, e = .SwitchLeave dpid →
      R s { s with datapaths := s.datapaths.erase dpid })
    (hunload : ∀ (s : Layer2Switch env.nx.Graph) dpid, e = .SwitchLeave dpid →
      R s { s with dpid_to_load := s.dpid_to_load.erase dpid })
    (hload : ∀ (s : Layer2Switch env.nx.Graph) dpid load, e = .LoadRound →
      R s { s with dpid_to_load := s.dpid_to_load.insert dpid load }) :
    Moves R (handle env e) := by
  refine moves_handle_loads e (fun s s' hd hl => hsame s s' hd fun d => by rw [hl]) (fun s d n _ _ _ hd => ?_)
    hsent hdrop hstore hjoin hleave hunload hload
  exact hsame s _ rfl (Dict.mem_insert_of_mem hd n) rfl rfl

theorem moves_handle_datapaths (hsame : ∀ s s' : Layer2Switch env.nx.Graph, s'.datapaths = s.datapaths → R s s')
    (e : LocalEvent)
    (hjoin : ∀ (s : Layer2Switch env.nx.Graph) datapath, e = .SwitchFeatures datapath →
      R s { s with datapaths := s.datapaths.insert datapath.id datapath })
    (hleave : ∀ (s : Layer2Switch env.nx.Graph) dpid, R s { s with datapaths := s.datapaths.erase dpid }) :
    Moves R (handle env e) := by
  apply moves_handle e
  · exact fun s s' h _ _ _ => hsame s s' h
  · exact fun s _ _ _ => hsame s _ rfl
  · exact fun s _ => hsame s _ rfl
  · exact fun s _ _ _ _ => hsame s _ rfl
  · intro s datapath he
    refine trans_of R (hjoin s datapath he) ?_
    exact hsame _ _ rfl
  · exact fun s dpid _ => hleave s dpid
  · exact fun s _ _ => hsame s _ rfl
  · exact fun s _ _ _ => hsame s _ rfl

end

theorem step_of_wp {s : Layer2Switch env.nx.Graph} {e : LocalEvent} {I : Layer2Switch env.nx.Graph → Prop}
    (hlive : ∀ s, I s → I { s with is_live := false }) (h : wp (handle env e) s (fun _ => I) fun _ => I) :
    I (step env s e) := by
  unfold wp at h
  unfold step
  cases hx : handle env e s with
  | ok _ s' => rw [hx] at h; exact h
  | error err s' =>
    rw [hx] at h
    cases e with
    | Downlink now ev => exact hlive s' h
    | _ => exact h

def Extends {Γ : Type} (s s' : Layer2Switch Γ) : Prop := s.sent <+: s'.sent

instance {Γ : Type} : IsPreorder (Layer2Switch Γ) Extends where
  refl _ := List.prefix_refl _
  trans _ _ _ h h' := h.trans h'

theorem extends_of_same {s s' : Layer2Switch env.nx.Graph} (h : s'.sent = s.sent) : Extends s s' := by
  unfold Extends
  rw [h]

theorem extends_step (s : Layer2Switch env.nx.Graph) (e : LocalEvent) : Extends s (step env s e) := by
  refine step_of_wp (fun s' h => h) ?_
  have hmoves : Moves Extends (handle env e) := by
    apply moves_handle e
    · exact fun s s' _ _ h _ => extends_of_same h
    · exact fun s xid msg _ => List.prefix_append _ _
    · exact fun s _ => extends_of_same rfl
    · exact fun s _ _ _ _ => extends_of_same rfl
    · exact fun s _ _ => extends_of_same rfl
    · exact fun s _ _ => extends_of_same rfl
    · exact fun s _ _ => extends_of_same rfl
    · exact fun s _ _ _ => extends_of_same rfl
  exact hmoves s

def Keyed (s : Layer2Switch env.nx.Graph) : Prop :=
  ∀ dpid datapath, s.datapaths.get dpid = some datapath → datapath.id = dpid

theorem keyed_step {s : Layer2Switch env.nx.Graph} (h : Keyed s) (e : LocalEvent) : Keyed (step env s e) := by
  refine step_of_wp (fun _ h => h) ?_
  have hmoves : Moves (Keeps Keyed) (handle env e) := by
    refine moves_handle_datapaths (fun s s' he h => ?_) e (fun s datapath _ h => ?_) fun s d h => ?_
    · intro dpid datapath hget
      rw [he] at hget
      exact h dpid datapath hget
    · intro dpid datapath' hget
      rcases Dict.get_insert_some.mp hget with ⟨hd, rfl⟩ | ⟨_, hget⟩
      · exact hd.symm
      · exact h dpid datapath' hget
    · intro dpid datapath hget
      exact h dpid datapath (Dict.get_erase_some.mp hget).2
  exact hmoves.kept h

theorem keyed_run (xid : Nat) (es : List LocalEvent) : Keyed (es.foldl (step env) (init env xid)) := by
  refine List.foldlRecOn (motive := Keyed) es (step env) (fun dpid datapath hget => ?_) fun s h e _ => keyed_step h e
  have hget : (∅ : Dict Nat OfDatapath).get dpid = some datapath := hget
  rw [Dict.get_empty] at hget
  cases hget

/-! ## Where the hosts are -/

def homeOf (f : Bytes ≃. (Nat × Nat)) : Node → Option (Node × Option Nat)
  | .mac mac => (f mac).map fun x => (.dpid x.1, some x.2)
  | .dpid _ => none

def Node.IsMac : Node → Prop
  | .mac _ => True
  | .dpid _ => False

theorem Node.isMac_mac (mac : Bytes) : Node.IsMac (.mac mac) := trivial

theorem Node.not_isMac_dpid (dpid : Nat) : ¬ Node.IsMac (.dpid dpid) := not_false

section
variable {f : Bytes ≃. (Nat × Nat)} {mac mac' : Bytes} {dpid port : Nat}

theorem homeOf_mac {u : Node} {a : Option Nat} :
    homeOf f (.mac mac) = some (u, a) ↔ ∃ dpid port, f mac = some (dpid, port) ∧ u = .dpid dpid ∧ a = some port := by
  unfold homeOf
  rw [Option.map_eq_some_iff]
  constructor
  · intro h
    obtain ⟨⟨dpid, port⟩, hf, he⟩ := h
    cases he
    exact ⟨dpid, port, hf, rfl, rfl⟩
  · intro h
    obtain ⟨dpid, port, hf, rfl, rfl⟩ := h
    exact ⟨(dpid, port), hf, rfl⟩

theorem homeOf_erase : homeOf (f.erase mac) = Function.update (homeOf f) (.mac mac) none := by
  funext n
  cases n with
  | dpid dpid => rw [Function.update_of_ne (by simp)]; rfl
  | mac m =>
    apply Option.ext
    intro h
    obtain ⟨u, a⟩ := h
    by_cases hm : m = mac
    · subst hm
      simp [homeOf_mac, PEquiv.erase_eq_some]
    · rw [Function.update_of_ne (by simpa using hm)]
      simp [homeOf_mac, PEquiv.erase_eq_some, hm]

theorem homeOf_put (hfree : ∀ m, f m ≠ some (dpid, port)) :
    homeOf (f.put mac (dpid, port)) = Function.update (homeOf f) (.mac mac) (some (.dpid dpid, some port)) := by
  funext n
  cases n with
  | dpid dpid => rw [Function.update_of_ne (by simp)]; rfl
  | mac m =>
    apply Option.ext
    intro hx
    obtain ⟨u, a⟩ := hx
    by_cases hm : m = mac
    · subst hm
      rw [homeOf_mac, Function.update_self]
      constructor
      · intro hx
        obtain ⟨d, p, hput, rfl, rfl⟩ := hx
        rcases PEquiv.put_eq_some.mp hput with h | h
        · cases h.2; rfl
        · exact absurd rfl h.1
      · intro h
        cases h
        exact ⟨dpid, port, PEquiv.put_eq_some.mpr (Or.inl ⟨rfl, rfl⟩), rfl, rfl⟩
    · rw [Function.update_of_ne (by simpa using hm), homeOf_mac, homeOf_mac]
      constructor
      · intro hx
        obtain ⟨d, p, hput, hu, ha⟩ := hx
        rcases PEquiv.put_eq_some.mp hput with h | h
        · exact absurd h.1 hm
        · exact ⟨d, p, h.2.2, hu, ha⟩
      · intro hx
        obtain ⟨d, p, hf, hu, ha⟩ := hx
        refine ⟨d, p, PEquiv.put_eq_some.mpr (Or.inr ⟨hm, fun he => hfree m (he ▸ hf), hf⟩), hu, ha⟩

theorem homeOf_clear : homeOf (f.clear fun x => x.1 = dpid) =
    fun n => (homeOf f n).filter fun x => x.1 ≠ .dpid dpid := by
  funext n
  cases n with
  | dpid _ => rfl
  | mac m =>
    apply Option.ext
    intro h
    obtain ⟨u, a⟩ := h
    rw [Option.filter_eq_some_iff, homeOf_mac, homeOf_mac]
    constructor
    · intro h
      obtain ⟨d, p, hf, rfl, rfl⟩ := h
      obtain ⟨hf, hd⟩ := PEquiv.clear_eq_some.mp hf
      exact ⟨⟨d, p, hf, rfl, rfl⟩, by simpa using hd⟩
    · intro h
      obtain ⟨⟨d, p, hf, rfl, rfl⟩, hd⟩ := h
      exact ⟨d, p, PEquiv.clear_eq_some.mpr ⟨hf, by simpa using hd⟩, rfl, rfl⟩

end

/-- The table and the graph both have the hosts where `f` says. -/
structure Hosts (env : LocalEnv) (f : Bytes ≃. (Nat × Nat)) (mac_to_port : Dict Nat (Dict Bytes Nat))
    (net : env.nx.Graph) : Prop where
  table : ∀ dpid mac port, (mac_to_port.get dpid).bind (fun macs => Dict.get macs mac) = some port ↔
    f mac = some (dpid, port)
  graph : env.nx.Leaves Node.IsMac (fun n => (homeOf f n).isSome = true) (homeOf f) net

section
variable {f : Bytes ≃. (Nat × Nat)} {mac_to_port : Dict Nat (Dict Bytes Nat)} {net g : env.nx.Graph}
  {dpid port : Nat} {mac : Bytes} {macs : Dict Bytes Nat}

theorem Hosts.get (h : Hosts env f mac_to_port net) (hmacs : mac_to_port.get dpid = some macs) :
    macs.get mac = some port ↔ f mac = some (dpid, port) := by
  rw [← h.table, hmacs, Option.bind_some]

theorem Hosts.mem_net (h : Hosts env f mac_to_port net) :
    env.nx.has_node net (.mac mac) = true ↔ ∃ dpid port, f mac = some (dpid, port) := by
  rw [h.graph.node (.mac mac) trivial, Option.isSome_iff_exists]
  constructor
  · intro hex
    obtain ⟨⟨u, a⟩, hx⟩ := hex
    obtain ⟨dpid, port, hf, _⟩ := homeOf_mac.mp hx
    exact ⟨dpid, port, hf⟩
  · intro hex
    obtain ⟨dpid, port, hf⟩ := hex
    exact ⟨(.dpid dpid, some port), homeOf_mac.mpr ⟨dpid, port, hf, rfl, rfl⟩⟩

theorem bind_get_insert (d d' : Nat) (m : Bytes) :
    (Dict.get (mac_to_port.insert d macs) d').bind (fun l => Dict.get l m) =
    if d' = d then macs.get m else (mac_to_port.get d').bind (fun l => Dict.get l m) := by
  rw [Dict.get_insert]
  split
  · rw [Option.bind_some]
  · rfl

theorem Hosts.erase (h : Hosts env f mac_to_port net) (hmacs : mac_to_port.get dpid = some macs)
    (hat : f mac = some (dpid, port)) (hg : env.nx.remove_node net (.mac mac) = .ok g) :
    Hosts env (f.erase mac) (mac_to_port.insert dpid (macs.erase mac)) g where
  table d m p := by
    rw [bind_get_insert, PEquiv.erase_eq_some, Dict.get_erase]
    by_cases hd : d = dpid
    · subst hd
      by_cases hm : m = mac
      · simp [hm]
      · simp [hm, h.get hmacs]
    · rw [if_neg hd, h.table]
      refine ⟨fun hf => ⟨fun hm => ?_, hf⟩, And.right⟩
      rw [hm, hat] at hf
      cases hf
      exact hd rfl
  graph := by
    rw [homeOf_erase]
    have hd := h.graph.detach (Node.isMac_mac mac) hg
    refine ⟨hd.hub, fun n hn => (hd.node n hn).trans ?_, hd.into, hd.back⟩
    by_cases hm : n = .mac mac
    · simp [hm]
    · simp [hm]

theorem Hosts.put (h : Hosts env f mac_to_port net) (hmacs : mac_to_port.get dpid = some macs) (hnew : f mac = none)
    (hfree : ∀ m, f m ≠ some (dpid, port)) :
    Hosts env (f.put mac (dpid, port)) (mac_to_port.insert dpid (macs.insert mac port))
      (env.nx.add_edge (env.nx.add_edge (env.nx.add_node net (.mac mac)) (.dpid dpid) (.mac mac) fun _ => some port)
        (.mac mac) (.dpid dpid) id) where
  table d m p := by
    rw [bind_get_insert, PEquiv.put_eq_some, Dict.get_insert]
    by_cases hm : m = mac
    · subst hm
      by_cases hd : d = dpid
      · simp [hd, eq_comm]
      · rw [if_neg hd, h.table, hnew]
        simp [hd]
    · have hother : f m = some (d, p) → (d, p) ≠ (dpid, port) := fun hf he => hfree m (he ▸ hf)
      by_cases hd : d = dpid
      · subst hd
        rw [if_pos rfl, if_neg hm, h.get hmacs]
        exact ⟨fun hf => Or.inr ⟨hm, hother hf, hf⟩, fun hf => (hf.resolve_left fun he => hm he.1).2.2⟩
      · rw [if_neg hd, h.table]
        exact ⟨fun hf => Or.inr ⟨hm, hother hf, hf⟩, fun hf => (hf.resolve_left fun he => hm he.1).2.2⟩
  graph := by
    rw [homeOf_put hfree]
    have hhome : homeOf f (.mac mac) = none := by simp [homeOf, hnew]
    have ha := h.graph.attach (Node.isMac_mac mac) (Node.not_isMac_dpid dpid) hhome (some port) id
    refine ⟨ha.hub, fun n hn => (ha.node n hn).trans ?_, ha.into, ha.back⟩
    by_cases hm : n = .mac mac
    · simp [hm]
    · simp [hm]

theorem Hosts.setdefault (h : Hosts env f mac_to_port net) (dpid : Nat) :
    Hosts env f (mac_to_port.setdefault dpid ∅) net where
  table d m p := by
    rw [Dict.get_setdefault, ← h.table]
    by_cases hd : d = dpid
    · subst hd
      rw [if_pos rfl, Option.bind_some]
      cases mac_to_port.get d with
      | none => simp
      | some macs => rfl
    · rw [if_neg hd]
  graph := h.graph

end

/-! ## Moving hosts -/

section
variable {s s' s'' : Layer2Switch env.nx.Graph} {f f' : Bytes ≃. (Nat × Nat)} {msgs msgs' : List MsgUp}
  {dpid port in_port : Nat} {mac src : Bytes} {macs : Dict Bytes Nat}

theorem wp_send_msg (own_xid : Option Nat) (msg : MsgUp) {Q : Unit → Layer2Switch env.nx.Graph → Prop}
    {E : Exn → Layer2Switch env.nx.Graph → Prop}
    (hQ : ∀ x y, Q () { s with xid := x, sent := s.sent ++ [⟨y, msg⟩] })
    (hE : ∀ x y, (own_xid = none → y ≤ MAX_XID) → msg.serialize env.host (some y) = none →
      E .StructError { s with xid := x }) : wp (send_msg env own_xid msg) s Q E := by
  have hsend : ∀ x y, (own_xid = none → y ≤ MAX_XID) → wp (transmit env y msg) { s with xid := x } Q E := by
    intro x y hy
    unfold transmit
    cases hser : msg.serialize env.host (some y) with
    | some _ => exact hQ x y
    | none => exact hE x y hy hser
  unfold send_msg
  rw [wp_bind]
  cases own_xid with
  | some y => exact hsend s.xid y fun h => by cases h
  | none => exact hsend ((s.xid + 1) &&& MAX_XID) ((s.xid + 1) &&& MAX_XID) fun _ => Nat.and_le_right

theorem wp_send_msg_fits {msg : MsgUp} (hu : msg.inUse = true) (hf : msg.fits = true)
    {Q : Unit → Layer2Switch env.nx.Graph → Prop} {E : Exn → Layer2Switch env.nx.Graph → Prop}
    (hQ : ∀ x y, Q () { s with xid := x, sent := s.sent ++ [⟨y, msg⟩] }) : wp (send_msg env none msg) s Q E := by
  apply wp_send_msg none msg hQ
  intro x y hy hser
  have hy' : y < 2 ^ 32 := Nat.lt_succ_of_le (hy rfl)
  obtain ⟨frame, hframe, _⟩ := uplink_delivers env.host hy' msg hu hf
  rw [hser] at hframe
  cases hframe

theorem wp_ofp_switch_features_handler {datapath : OfDatapath} (hsize : datapath.id < 2 ^ 64)
    {Q : Unit → Layer2Switch env.nx.Graph → Prop} {E : Exn → Layer2Switch env.nx.Graph → Prop}
    (hQ : ∀ x y is_window out, Q () { s with
      datapaths := s.datapaths.insert datapath.id datapath
      dpid_to_load := s.dpid_to_load.insert datapath.id 0
      mac_to_port := s.mac_to_port.setdefault datapath.id ∅
      dpid_to_inter_connection_port := s.dpid_to_inter_connection_port.setdefault datapath.id []
      xid := x
      sent := s.sent ++ [⟨y, .DPConnected datapath.id is_window⟩]
      switch_out := out }) :
    wp (ofp_switch_features_handler env datapath) s Q E := by
  unfold ofp_switch_features_handler add_flow send_switch
  simp only [wp_bind, wp_modify, wp_get]
  apply wp_send_msg_fits rfl
  · simpa [MsgUp.fits] using hsize
  · intro x y
    exact hQ x y _ _

def Moved (s s' : Layer2Switch env.nx.Graph) (f : Bytes ≃. (Nat × Nat)) (msgs : List MsgUp) : Prop :=
  ∃ mac_to_port net xid sent, s' = { s with mac_to_port, net, xid, sent := s.sent ++ sent } ∧
    sent.map SentUp.msg = msgs ∧ Hosts env f mac_to_port net ∧ (∀ d, d ∈ mac_to_port ↔ d ∈ s.mac_to_port) ∧
    ∀ d, env.nx.has_node net (.dpid d) = true → env.nx.has_node s.net (.dpid d) = true ∨ d ∈ s.mac_to_port

theorem Moved.hosts (h : Moved s s' f msgs) : Hosts env f s'.mac_to_port s'.net := by
  obtain ⟨_, _, _, _, rfl, _, hosts, _⟩ := h
  exact hosts

theorem Moved.keys (h : Moved s s' f msgs) (d : Nat) : d ∈ s'.mac_to_port ↔ d ∈ s.mac_to_port := by
  obtain ⟨_, _, _, _, rfl, _, _, hmacs, _⟩ := h
  exact hmacs d

theorem Moved.trans (h : Moved s s' f msgs) (h' : Moved s' s'' f' msgs') : Moved s s'' f' (msgs ++ msgs') := by
  obtain ⟨_, net, _, sent, rfl, rfl, _, hmacs, hnode⟩ := h
  obtain ⟨mac_to_port', net', xid', sent', rfl, rfl, hosts', hmacs', hnode'⟩ := h'
  refine ⟨mac_to_port', net', xid', sent ++ sent', by rw [List.append_assoc], List.map_append, hosts',
    fun d => (hmacs' d).trans (hmacs d), fun d hd => ?_⟩
  rcases hnode' d hd with h | h
  · exact hnode d h
  · exact Or.inr ((hmacs d).mp h)

theorem wp_dropHost (h : Hosts env f s.mac_to_port s.net) (hmacs : s.mac_to_port.get dpid = some macs)
    (hat : f mac = some (dpid, port)) :
    wp (dropHost env dpid macs mac) s (fun _ s' => Moved s s' (f.erase mac) [.HostLeave dpid mac])
      (fun e s' => e = .StructError ∧ 2 ^ 64 ≤ dpid ∧ Moved s s' (f.erase mac) []) := by
  obtain ⟨g, hg⟩ := env.nx.remove_node_ok s.net (.mac mac) (h.mem_net.mpr ⟨dpid, port, hat⟩)
  have hosts := h.erase hmacs hat hg
  have hkeys := fun k => Dict.mem_insert_of_mem (Dict.mem_iff_get.mpr ⟨macs, hmacs⟩) (macs.erase mac) k
  have hnode : ∀ d, env.nx.has_node g (.dpid d) = true → env.nx.has_node s.net (.dpid d) = true ∨ d ∈ s.mac_to_port := by
    intro d hd
    rw [env.nx.has_node_remove_node s.net (.mac mac) g (.dpid d) hg] at hd
    exact Or.inl (by simpa using hd)
  unfold dropHost removeNode
  simp only [wp_bind, wp_modify, wp_get, wp_orRaise_ok hg]
  apply wp_send_msg
  · intro x y
    exact ⟨_, g, x, [⟨y, _⟩], rfl, rfl, hosts, hkeys, hnode⟩
  · intro x y hy hser
    exact ⟨rfl, wide_of_unsent (.hostLeave mac) (hy rfl) hser, _, g, x, [], by rw [List.append_nil], rfl,
      hosts, hkeys, hnode⟩

theorem wp_dropOnPort (h : Hosts env f s.mac_to_port s.net) (hmacs : s.mac_to_port.get dpid = some macs) :
    ∀ l, wp (dropOnPort env dpid in_port l) s
      (fun _ s' => (s' = s ∧ ∀ m ∈ l, f m ≠ some (dpid, in_port)) ∨
        ∃ m, f m = some (dpid, in_port) ∧ Moved s s' (f.erase m) [.HostLeave dpid m])
      (fun e s' => e = .StructError ∧ 2 ^ 64 ≤ dpid ∧ ∃ f', Moved s s' f' [])
  | [] => Or.inl ⟨rfl, fun _ hm => absurd hm List.not_mem_nil⟩
  | old_mac :: l => by
    unfold dropOnPort
    simp only [wp_bind, wp_get, wp_item_some hmacs, wp_ite]
    constructor
    · intro hport
      have hat := (h.get hmacs).mp hport
      exact wp_mono (wp_dropHost h hmacs hat) (fun _ _ hd => Or.inr ⟨old_mac, hat, hd⟩) fun _ _ hd =>
        ⟨hd.1, hd.2.1, _, hd.2.2⟩
    · intro hport
      refine wp_mono (wp_dropOnPort h hmacs l) ?_ fun _ _ hd => hd
      intro _ s' hpost
      rcases hpost with ⟨rfl, hl⟩ | hd
      · refine Or.inl ⟨rfl, fun m hm => ?_⟩
        rcases List.mem_cons.mp hm with rfl | hm
        · exact fun hat => hport ((h.get hmacs).mpr hat)
        · exact hl m hm
      · exact Or.inr hd

theorem wp_dropElsewhere (h : Hosts env f s.mac_to_port s.net) (hnew : f src = none) :
    ∀ l, (∀ d ∈ l, d ∈ s.mac_to_port) → wp (dropElsewhere env src l) s (fun _ s' => s' = s) fun _ _ => False
  | [], _ => rfl
  | old_dpid :: l, hl => by
    obtain ⟨macs, hmacs⟩ := Dict.mem_iff_get.mp (hl old_dpid List.mem_cons_self)
    have hnot : src ∉ macs := fun hmem => by
      obtain ⟨port, hport⟩ := Dict.mem_iff_get.mp hmem
      have := (h.get hmacs).mp hport
      rw [hnew] at this
      cases this
    unfold dropElsewhere
    simp only [wp_bind, wp_get, wp_item_some hmacs, if_neg hnot]
    exact wp_dropElsewhere h hnew l fun d hd => hl d (List.mem_cons_of_mem _ hd)

theorem wp_addHost (h : Hosts env f s.mac_to_port s.net) (hmem : dpid ∈ s.mac_to_port) (hnew : f src = none)
    (hfree : ∀ m, f m ≠ some (dpid, in_port)) :
    wp (addHost env dpid in_port src) s
      (fun _ s' => Moved s s' (f.put src (dpid, in_port)) [.HostConnected dpid src])
      (fun e s' => e = .StructError ∧ 2 ^ 64 ≤ dpid ∧ Moved s s' (f.put src (dpid, in_port)) []) := by
  obtain ⟨macs, hmacs⟩ := Dict.mem_iff_get.mp hmem
  have hosts := h.put hmacs hnew hfree
  have hkeys := fun k => Dict.mem_insert_of_mem hmem (macs.insert src in_port) k
  have hnode : ∀ d, env.nx.has_node (env.nx.add_edge (env.nx.add_edge (env.nx.add_node s.net (.mac src)) (.dpid dpid)
      (.mac src) fun _ => some in_port) (.mac src) (.dpid dpid) id) (.dpid d) = true →
      env.nx.has_node s.net (.dpid d) = true ∨ d ∈ s.mac_to_port := by
    intro d hd
    by_cases he : d = dpid
    · exact Or.inr (he ▸ hmem)
    · refine Or.inl ?_
      simpa [env.nx.has_node_add_edge, env.nx.has_node_add_node, he] using hd
  unfold addHost
  simp only [wp_bind, wp_get, wp_item_some hmacs, wp_modify]
  apply wp_send_msg
  · intro x y
    exact ⟨_, _, x, [⟨y, _⟩], rfl, rfl, hosts, hkeys, hnode⟩
  · intro x y hy hser
    exact ⟨rfl, wide_of_unsent (.hostConnected src) (hy rfl) hser, _, _, x, [], by rw [List.append_nil], rfl, hosts,
      hkeys, hnode⟩

theorem wp_learnHost (h : Hosts env f s.mac_to_port s.net) :
    wp (learnHost env dpid in_port src) s
      (fun _ s' => (s' = s ∧ (env.nx.has_node s.net (.mac src) = true ∨
          ∃ ports, s.dpid_to_inter_connection_port.get dpid = some ports ∧ in_port ∈ ports)) ∨
        (f src = none ∧ (∀ ports, s.dpid_to_inter_connection_port.get dpid = some ports → in_port ∉ ports) ∧
          Moved s s' (f.put src (dpid, in_port))
            ((f.symm (dpid, in_port)).toList.map (.HostLeave dpid) ++ [.HostConnected dpid src])))
      (fun e s' => (e = .KeyError ∧ s' = s ∧ (dpid ∉ s.dpid_to_inter_connection_port ∨ dpid ∉ s.mac_to_port)) ∨
        (e = .StructError ∧ 2 ^ 64 ≤ dpid ∧ ∃ f' msgs, Moved s s' f' msgs)) := by
  unfold learnHost
  simp only [wp_bind, wp_get, wp_ite, wp_item, wp_pure]
  refine ⟨fun hnet => ⟨fun ports hports => ⟨fun hport => ⟨fun macs hmacs => ?_, fun hnone => ?_⟩, fun hport => ?_⟩,
    fun hnone => ?_⟩, fun hnet => Or.inl ⟨trivial, Or.inl (by simpa using hnet)⟩⟩
  rotate_left
  · exact Or.inl ⟨trivial, trivial, Or.inr (Dict.get_eq_none.mp hnone)⟩
  · exact Or.inl ⟨trivial, Or.inr ⟨ports, hports, by simpa using hport⟩⟩
  · exact Or.inl ⟨trivial, trivial, Or.inl (Dict.get_eq_none.mp hnone)⟩
  have hnew : f src = none := by
    cases hf : f src with
    | none => rfl
    | some x =>
      have := h.mem_net.mpr ⟨x.1, x.2, hf⟩
      rw [this] at hnet
      cases hnet
  have hmem : dpid ∈ s.mac_to_port := Dict.mem_iff_get.mpr ⟨macs, hmacs⟩
  have hunmarked : ∀ ports, s.dpid_to_inter_connection_port.get dpid = some ports → in_port ∉ ports := by
    intro ports' h'
    rw [hports] at h'
    cases h'
    exact hport
  have hall : ∀ (s' : Layer2Switch env.nx.Graph), ∀ d ∈ env.order s'.mac_to_port, d ∈ s'.mac_to_port :=
    fun _ _ hd => mem_order.mp hd
  refine wp_mono (wp_dropOnPort h hmacs (env.order macs)) ?_ ?_
  · intro _ s₁ hpost
    rcases hpost with ⟨rfl, hfree⟩ | ⟨old_mac, hat, hmoved⟩
    · -- nobody is on the port
      have hfree : ∀ m, f m ≠ some (dpid, in_port) := fun m hm => by
        exact hfree m (mem_order.mpr (Dict.mem_iff_get.mpr ⟨in_port, (h.get hmacs).mpr hm⟩)) hm
      have hnone : f.symm (dpid, in_port) = none := by
        cases hs : f.symm (dpid, in_port) with
        | none => rfl
        | some m => exact absurd (f.eq_some_iff.mp hs) (hfree m)
      refine wp_mono (wp_dropElsewhere h hnew _ (hall _)) ?_ fun _ _ hd => hd.elim
      rintro _ _ rfl
      refine wp_mono (wp_addHost h hmem hnew hfree) (fun _ s' hd => ?_) fun _ _ hd =>
        Or.inr ⟨hd.1, hd.2.1, _, _, hd.2.2⟩
      rw [hnone]
      exact Or.inr ⟨hnew, hunmarked, hd⟩
    · have hnew' : f.erase old_mac src = none := by
        cases hf : f.erase old_mac src with
        | none => rfl
        | some x =>
          have := (PEquiv.erase_eq_some.mp hf).2
          rw [hnew] at this
          cases this
      have hfree : ∀ m, f.erase old_mac m ≠ some (dpid, in_port) := fun m hm => by
        obtain ⟨hne, hm⟩ := PEquiv.erase_eq_some.mp hm
        exact hne (f.inj hm hat)
      refine wp_mono (wp_dropElsewhere hmoved.hosts hnew' _ (hall _)) ?_ fun _ _ hd => hd.elim
      rintro _ _ rfl
      refine wp_mono (wp_addHost hmoved.hosts ((hmoved.keys dpid).mpr hmem) hnew' hfree) (fun _ s' hd => ?_) fun _ _ hd =>
        Or.inr ⟨hd.1, hd.2.1, _, _, hmoved.trans hd.2.2⟩
      rw [PEquiv.put_erase hat] at hd
      rw [f.eq_some_iff.mpr hat]
      exact Or.inr ⟨hnew, hunmarked, hmoved.trans hd⟩
  · intro e s' hpost
    obtain ⟨he, hwide, f', hmoved⟩ := hpost
    exact Or.inr ⟨he, hwide, f', _, hmoved⟩

end

end Layer2Switch

end VnfDockerNet
