import VnfDockerNet.RuleSound

/-!
# The ways out of a domain

`dpid_to_is_win` gets a key for every switch that a topology event or a window
list names, and loses none. `cc_flow_mod_handler` asks for the key only, so it
also takes switches that are no window, or no window any more, or gone.
-/

namespace VnfDockerNet

open Python Networkx Runs

namespace Layer2Switch

/-! ## What a run has listed -/

/-- The app, the switches that were listed so far, and those the most recent window list names. -/
structure Watched (Γ : Type) where
  app : Layer2Switch Γ
  known : List Nat := []
  latest : List Nat := []

def dstDpids (window_switches : List Window) : List Nat := window_switches.filterMap Window.dst_dpid

def Recordable (window_switches : List Window) : Prop := ∀ t ∈ window_switches, t.dst_dpid.isSome ∧ t.dst_port_no.isSome

instance (window_switches : List Window) : Decidable (Recordable window_switches) := List.decidableBAll _ _

/-- The window lists of an event are those of ryu's topology API. -/
def FromRyu : LocalEvent → Prop
  | .TopologyChange api => Recordable api.window_switches
  | .GraphInfoRound window_switches => Recordable window_switches
  | _ => True

instance : ∀ e, Decidable (FromRyu e)
  | .TopologyChange _ | .GraphInfoRound _ => inferInstanceAs (Decidable (Recordable _))
  | .SwitchFeatures _ | .RoleReply .. | .PacketIn .. | .SwitchLeave _ | .Connected | .Downlink .. | .LoadRound
  | .TimeoutRound _ => isTrue trivial

def SwitchMsg.isFlowMod : SwitchMsg → Bool
  | .FlowMod .. => true
  | _ => false

def Installs {Γ : Type} (s s' : Layer2Switch Γ) : Prop :=
  ∃ x ∈ s'.switch_out.drop s.switch_out.length, SwitchMsg.isFlowMod x.2 = true

instance {Γ : Type} (s s' : Layer2Switch Γ) : Decidable (Installs s s') := List.decidableBEx _ _

section
variable (env : LocalEnv)

def watch (w : Watched env.nx.Graph) (e : LocalEvent) : Watched env.nx.Graph :=
  let app := step env w.app e
  match e with
  -- a window list that is not empty ends `get_topology_data` before its loop
  | .TopologyChange api => ⟨app, w.known ++ api.switch_list, dstDpids api.window_switches⟩
  | .GraphInfoRound window_switches =>
    if w.app.is_live then ⟨app, w.known ++ dstDpids window_switches, dstDpids window_switches⟩ else { w with app }
  | _ => { w with app }

def watchInit (xid : Nat) : Watched env.nx.Graph := { app := init env xid }

/-- A connected switch that the most recent window list names. -/
def Current {Γ : Type} (w : Watched Γ) (dpid : Nat) : Prop := dpid ∈ w.app.datapaths ∧ dpid ∈ w.latest

instance {Γ : Type} (w : Watched Γ) (dpid : Nat) : Decidable (Current w dpid) := inferInstanceAs (Decidable (_ ∧ _))

/-- A FLOW_MOD installs rules only if the way out is a current window. -/
def InstallsCurrent (w : Watched env.nx.Graph) : LocalEvent → Prop
  | .Downlink now ⟨header, .FlowMod in_dpid out_dpid out_port dst_mac wildcards⟩ =>
    Installs w.app (step env w.app (.Downlink now ⟨header, .FlowMod in_dpid out_dpid out_port dst_mac wildcards⟩)) →
      Current w out_dpid
  | _ => True

/-- A FLOW_MOD with a path from a connected switch to one that was ever listed leads to a current window. -/
def LeadsToCurrent (w : Watched env.nx.Graph) : LocalEvent → Prop
  | .Downlink _ ⟨_, .FlowMod in_dpid out_dpid _ _ _⟩ =>
    out_dpid ∈ w.known → in_dpid ∈ w.app.datapaths →
      (env.nx.shortest_path w.app.net (.dpid in_dpid) (.dpid out_dpid)).isOk = true → Current w out_dpid
  | _ => True

instance (w : Watched env.nx.Graph) : ∀ e, Decidable (LeadsToCurrent env w e)
  | .Downlink _ ⟨_, .FlowMod ..⟩ => inferInstanceAs (Decidable (_ → _ → _ → _))
  | .Downlink _ ⟨_, .HelloDown _⟩ | .Downlink _ ⟨_, .RoleAssign ..⟩ | .Downlink _ ⟨_, .CtrlPoolChange ..⟩
  | .Downlink _ ⟨_, .EchoRequest _⟩ | .Downlink _ ⟨_, .GidReply ..⟩ | .Downlink _ ⟨_, .DpMigration ..⟩
  | .Downlink _ ⟨_, .BarrierRequest⟩ | .Downlink _ ⟨_, .SwitchControllerMapUpdate⟩
  | .SwitchFeatures _ | .RoleReply .. | .PacketIn .. | .TopologyChange _ | .SwitchLeave _ | .Connected | .LoadRound
  | .GraphInfoRound _ | .TimeoutRound _ => isTrue trivial

end

variable {env : LocalEnv} {s s' : Layer2Switch env.nx.Graph} {known : List Nat}

/-! ## The invariant -/

/-- A hop that leaves a switch has a port. -/
def PortsKnown (net : env.nx.Graph) : Prop := ∀ d v a, env.nx.edge net (.dpid d) v = some a → a.isSome

/-- The keys of `dpid_to_is_win` are the switches listed, and nothing a FLOW_MOD looks up is missing. -/
structure WindowInv (known : List Nat) (s : Layer2Switch env.nx.Graph) : Prop where
  keys : ∀ d, d ∈ s.dpid_to_is_win ↔ d ∈ known
  stamped : ∀ x, x ∈ s.xid_to_packet → x ∈ s.xid_to_packet_timestamp ∧ x ∈ s.xid_to_buffer_id
  ports : PortsKnown s.net

theorem WindowInv.same (h : WindowInv known s) (hwin : s'.dpid_to_is_win = s.dpid_to_is_win)
    (hpacket : s'.xid_to_packet = s.xid_to_packet) (hstamp : s'.xid_to_packet_timestamp = s.xid_to_packet_timestamp)
    (hbuffer : s'.xid_to_buffer_id = s.xid_to_buffer_id) (hnet : s'.net = s.net) : WindowInv known s' := by
  constructor
  · rw [hwin]
    exact h.keys
  · rw [hpacket, hstamp, hbuffer]
    exact h.stamped
  · rw [hnet]
    exact h.ports

theorem WindowInv.renet (h : WindowInv known s) {net : env.nx.Graph} (hnet : PortsKnown net) :
    WindowInv known { s with net } := ⟨h.keys, h.stamped, hnet⟩

theorem windowInv_init (xid : Nat) : WindowInv [] (init env xid) where
  keys d := by simp [init]
  stamped x hx := absurd hx (AList.notMem_empty x)
  ports d v a h := by
    rw [show (init env xid).net = env.nx.empty from rfl, env.nx.edge_empty] at h
    cases h

section
variable {net net' : env.nx.Graph}

theorem portsKnown_remove_node {n : Node} (h : PortsKnown net) (hnet : env.nx.remove_node net n = .ok net') :
    PortsKnown net' := by
  intro d v a ha
  rw [env.nx.edge_remove_node _ _ _ _ _ hnet] at ha
  split at ha
  · cases ha
  · exact h d v a ha

theorem portsKnown_add_node (h : PortsKnown net) (n : Node) : PortsKnown (env.nx.add_node net n) := by
  intro d v a ha
  rw [env.nx.edge_add_node] at ha
  exact h d v a ha

theorem portsKnown_add_link (h : PortsKnown net) (u v : Node) (port : Nat) :
    PortsKnown (env.nx.add_edge net u v fun _ => some port) := by
  intro d w a ha
  rw [env.nx.edge_add_edge] at ha
  split at ha
  · cases ha
    rfl
  · exact h d w a ha

theorem portsKnown_add_back (h : PortsKnown net) (mac : Bytes) (v : Node) (f : Option Nat → Option Nat) :
    PortsKnown (env.nx.add_edge net (.mac mac) v f) := by
  intro d w a ha
  rw [env.nx.edge_add_edge, if_neg fun he => by cases he.1] at ha
  exact h d w a ha

theorem portsKnown_addSwitches : ∀ (l : List Nat) {net : env.nx.Graph}, PortsKnown net → PortsKnown (addSwitches env net l)
  | [], _, h => h
  | d :: l, _, h => portsKnown_addSwitches l (portsKnown_add_node h (.dpid d))

theorem portsKnown_addLinks (src dst : Link → LinkEnd) :
    ∀ (l : List Link) {net : env.nx.Graph}, PortsKnown net → PortsKnown (addLinks env net src dst l)
  | [], _, h => h
  | link :: l, _, h => portsKnown_addLinks src dst l (portsKnown_add_link h (.dpid (src link).dpid) (.dpid (dst link).dpid) _)

end

/-! ## Handlers that list nothing -/

theorem keepsW_send_msg (own_xid : Option Nat) (msg : MsgUp) : Moves (Keeps (WindowInv known)) (send_msg env own_xid msg) :=
  moves_send_msg (P := fun _ => True) (fun _ _ h => h.same rfl rfl rfl rfl rfl)
    (fun _ _ _ _ h => h.same rfl rfl rfl rfl rfl) own_xid trivial

theorem keepsW_removeNode (n : Node) : Moves (Keeps (WindowInv known)) (removeNode env n) := by
  apply Moves.keeps
  intro s h
  unfold removeNode
  simp only [wp_bind, wp_get, wp_orRaise, wp_modify]
  exact ⟨fun net hnet => h.renet (portsKnown_remove_node h.ports hnet), fun _ _ => h⟩

theorem keepsW_removeMacs : ∀ l, Moves (Keeps (WindowInv known)) (removeMacs env l)
  | [] => .pure _
  | mac :: l => by
    refine .bind (.modify fun s h => h.renet ?_) fun _ => keepsW_removeMacs l
    cases hnet : env.nx.remove_node s.net (.mac mac) with
    | ok net => exact portsKnown_remove_node h.ports hnet
    | error e => exact h.ports

theorem keepsW_switch_leave_handler (dpid : Nat) : Moves (Keeps (WindowInv known)) (switch_leave_handler env dpid) := by
  unfold switch_leave_handler
  exact .bind (keepsW_removeNode _) fun _ => .bind .get fun _ => .bind (.item _ _) fun _ =>
    .bind (.modify fun _ h => h.same rfl rfl rfl rfl rfl) fun _ => .bind .get fun _ => .bind (.item _ _) fun _ =>
      .bind (.modify fun _ h => h.same rfl rfl rfl rfl rfl) fun _ => .bind .get fun _ => .bind (.item _ _) fun _ =>
        .bind (.modify fun _ h => h.same rfl rfl rfl rfl rfl) fun _ => .bind .get fun _ => .bind (.item _ _) fun _ =>
          .bind (keepsW_removeMacs _) fun _ => .bind (.modify fun _ h => h.same rfl rfl rfl rfl rfl) fun _ =>
            .bind (keepsW_send_msg _ _) fun _ => .modify fun _ h => h.same rfl rfl rfl rfl rfl

theorem keepsW_learnHost (dpid in_port : Nat) (src : Bytes) :
    Moves (Keeps (WindowInv known)) (learnHost env dpid in_port src) := by
  apply moves_learnHost (P := fun _ => True) (fun _ _ h => h.same rfl rfl rfl rfl rfl)
    (fun _ _ _ _ h => h.same rfl rfl rfl rfl rfl)
  · exact fun _ _ h => h.same rfl rfl rfl rfl rfl
  · exact fun _ _ _ hnet h => h.renet (portsKnown_remove_node h.ports hnet)
  · exact fun _ _ => trivial
  · exact fun _ _ h => h.renet (portsKnown_add_node h.ports _)
  · exact fun _ _ _ _ h => h.renet (portsKnown_add_link h.ports _ _ _)
  · exact fun _ _ _ _ h => h.renet (portsKnown_add_back h.ports _ _ _)
  · exact fun _ _ => trivial

theorem keepsW_askCentral (now : Nat) (msg : PacketIn) (eth : Ethernet) :
    Moves (Keeps (WindowInv known)) (askCentral env now msg eth) := by
  unfold askCentral
  refine .bind (moves_set_xid fun _ _ h => h.same rfl rfl rfl rfl rfl) fun xid =>
    .bind (.modify fun s h => ⟨h.keys, fun x hx => ?_, h.ports⟩) fun _ => keepsW_send_msg _ _
  rcases (AList.mem_insert _).mp hx with rfl | hx
  · exact ⟨(AList.mem_insert _).mpr (Or.inl rfl), (AList.mem_insert _).mpr (Or.inl rfl)⟩
  · obtain ⟨hts, hbuf⟩ := h.stamped x hx
    exact ⟨(AList.mem_insert _).mpr (Or.inr hts), (AList.mem_insert _).mpr (Or.inr hbuf)⟩

theorem WindowInv.drop (h : WindowInv known s) (xid : Nat) {xid_to_packet_timestamp xid_to_buffer_id : Dict Nat Nat}
    (hstamp : ∀ x, x ≠ xid → x ∈ s.xid_to_packet_timestamp → x ∈ xid_to_packet_timestamp)
    (hbuffer : ∀ x, x ≠ xid → x ∈ s.xid_to_buffer_id → x ∈ xid_to_buffer_id) :
    WindowInv known { s with
      xid_to_packet := s.xid_to_packet.erase xid, xid_to_packet_timestamp, xid_to_buffer_id } := by
  refine ⟨h.keys, fun x hx => ?_, h.ports⟩
  obtain ⟨hne, hx⟩ := AList.mem_erase.mp hx
  obtain ⟨hts, hbuf⟩ := h.stamped x hx
  exact ⟨hstamp x hne hts, hbuffer x hne hbuf⟩

theorem wp_takePending (h : WindowInv known s) (xid : Nat) :
    wp (takePending env xid) s (fun _ s' => WindowInv known s' ∧ Idle s s') fun _ _ => False := by
  have herase : ∀ {ν : Type} (d : Dict Nat ν) x, x ≠ xid → x ∈ d → x ∈ d.erase xid := fun d x hne hx =>
    AList.mem_erase.mpr ⟨hne, hx⟩
  unfold takePending
  simp only [wp_bind, wp_get]
  cases hget : s.xid_to_packet.get xid with
  | none => exact ⟨h, refl_of Idle s⟩
  | some data =>
    obtain ⟨hts, hbuf⟩ := h.stamped xid (Dict.mem_iff_get.mpr ⟨data, hget⟩)
    obtain ⟨timestamp, hts⟩ := Dict.mem_iff_get.mp hts
    obtain ⟨buffer_id, hbuf⟩ := Dict.mem_iff_get.mp hbuf
    simp only [wp_bind, wp_get, wp_item_some hbuf, wp_modify, wp_item_some hts, wp_pure]
    exact ⟨h.drop xid (herase _) (herase _), rfl, rfl, rfl⟩

theorem keepsW_takePending (xid : Nat) : Moves (Keeps (WindowInv known)) (takePending env xid) :=
  Moves.keeps fun _ h => wp_mono (wp_takePending h xid) (fun _ _ h => h.1) fun _ _ h => h.elim

theorem keepsW_expirePacket (now xid : Nat) : Moves (Keeps (WindowInv known)) (expirePacket env now xid) := by
  have herase : ∀ {ν : Type} (d : Dict Nat ν) x, x ≠ xid → x ∈ d → x ∈ d.erase xid := fun d x hne hx =>
    AList.mem_erase.mpr ⟨hne, hx⟩
  apply Moves.keeps
  intro s h
  unfold expirePacket
  simp only [wp_bind, wp_get, wp_item, wp_ite, wp_modify, wp_pure]
  refine ⟨fun timestamp _ => ⟨fun _ => ⟨fun data _ => ⟨fun buffer_id _ => ?_, fun _ => ?_⟩, fun _ => h⟩, fun _ => h⟩,
    fun _ => h⟩
  · exact h.drop xid (herase _) (herase _)
  · exact h.drop xid (herase _) fun _ _ hx => hx

theorem keepsW_expirePackets (now : Nat) : ∀ l, Moves (Keeps (WindowInv known)) (expirePackets env now l)
  | [] => .pure _
  | xid :: l => .bind (keepsW_expirePacket now xid) fun _ => keepsW_expirePackets now l

theorem keepsW_reportLoads : ∀ l, Moves (Keeps (WindowInv known)) (reportLoads env l)
  | [] => .pure _
  | _ :: l => .bind .get fun _ => .bind (.modify fun _ h => h.same rfl rfl rfl rfl rfl) fun _ =>
      .bind (keepsW_send_msg _ _) fun _ => keepsW_reportLoads l

theorem keepsW_packet_in_handler (now : Nat) (msg : PacketIn) :
    Moves (Keeps (WindowInv known)) (ofp_packet_in_handler env now msg) := by
  unfold ofp_packet_in_handler
  cases msg.pkt.eth with
  | none => exact .throw _
  | some eth =>
    refine .ite (moves_markPort (fun _ _ _ _ h => h.same rfl rfl rfl rfl rfl) _ _) ?_
    refine .bind (moves_countPacket (fun _ _ _ _ h => h.same rfl rfl rfl rfl rfl) _) fun _ =>
      .bind (keepsW_learnHost _ _ _) fun _ => ?_
    exact moves_forward_of (fun _ _ h => h.same rfl rfl rfl rfl rfl) (keepsW_askCentral now msg eth)

/-! ## Handlers that list switches -/

theorem mem_insert_false {d : Nat} : ∀ {l : List Nat} {wins : Dict Nat Bool},
    d ∈ l.foldl (fun wins dpid => wins.insert dpid false) wins ↔ d ∈ wins ∨ d ∈ l
  | [], _ => by simp
  | x :: l, wins => by
    rw [List.foldl_cons, mem_insert_false, AList.mem_insert, List.mem_cons]
    tauto

theorem wp_windows_listed : ∀ {window_switches : List Window} {known : List Nat} {s : Layer2Switch env.nx.Graph},
    Recordable window_switches → WindowInv known s →
      wp (recordWindows env window_switches) s (fun _ => WindowInv (known ++ dstDpids window_switches)) fun _ _ => False
  | [], known, s, _, h => by
    show WindowInv (known ++ []) s
    rw [List.append_nil]
    exact h
  | t :: window_switches, known, s, hrec, h => by
    obtain ⟨hdst, hport⟩ := hrec t List.mem_cons_self
    obtain ⟨dst_dpid, hdst⟩ := Option.isSome_iff_exists.mp hdst
    obtain ⟨dst_port_no, hport⟩ := Option.isSome_iff_exists.mp hport
    have hnext : WindowInv (known ++ [dst_dpid]) { s with
        dpid_to_is_win := s.dpid_to_is_win.insert dst_dpid true
        dpid_to_out_port := s.dpid_to_out_port.insert dst_dpid dst_port_no } := by
      refine ⟨fun d => ?_, h.stamped, h.ports⟩
      show d ∈ AList.insert dst_dpid true s.dpid_to_is_win ↔ _
      rw [AList.mem_insert, h.keys, List.mem_append, List.mem_singleton, or_comm]
    have hdpids : dstDpids (t :: window_switches) = dst_dpid :: dstDpids window_switches := List.filterMap_cons_some hdst
    have ih := wp_windows_listed (fun t' ht' => hrec t' (List.mem_cons_of_mem _ ht')) hnext
    unfold recordWindows
    rw [hdst, hport, hdpids, List.append_cons]
    exact ih

theorem wp_topology_lists (h : WindowInv known s) (api : Topology) :
    wp (get_topology_data env api) s (fun _ => WindowInv (known ++ api.switch_list))
      fun _ => WindowInv (known ++ api.switch_list) := by
  have hlisted : WindowInv (known ++ api.switch_list) { s with
      dpid_to_is_win := api.switch_list.foldl (fun d dpid => d.insert dpid false) s.dpid_to_is_win } := by
    refine ⟨fun d => ?_, h.stamped, h.ports⟩
    rw [mem_insert_false, h.keys, List.mem_append]
  unfold get_topology_data
  rw [wp_bind, wp_modify]
  cases api.window_switches with
  | cons t window_switches => exact hlisted
  | nil =>
    refine Moves.kept (.bind (.orRaise _) fun _ => .bind (.pure _) fun _ =>
      .bind (.modify fun s h => h.renet (portsKnown_addSwitches _ h.ports)) fun _ =>
        .bind (.modify fun s h => h.renet (portsKnown_addLinks _ _ _ h.ports)) fun _ =>
          .bind (.modify fun s h => h.renet (portsKnown_addLinks _ _ _ h.ports)) fun _ => ?_) hlisted
    exact .bind (keepsW_send_msg _ _) fun _ => .modify fun _ h => h.same rfl rfl rfl rfl rfl

theorem wp_graph_info_lists {window_switches : List Window} (hrec : Recordable window_switches) (h : WindowInv known s) :
    wp (_graph_info_thread env window_switches) s
      (fun _ => WindowInv (if s.is_live then known ++ dstDpids window_switches else known))
      fun _ => WindowInv (if s.is_live then known ++ dstDpids window_switches else known) := by
  unfold _graph_info_thread
  simp only [wp_bind, wp_get, wp_ite]
  refine ⟨fun hlive => ?_, fun hlive => ?_⟩
  · rw [if_pos hlive]
    refine wp_mono (wp_windows_listed hrec h) (fun _ s₁ h₁ => ?_) fun _ _ h => h.elim
    refine ⟨fun _ => ?_, fun _ => h₁⟩
    have hsend := (keepsW_send_msg none (.GraphInfo (env.json_dumps window_switches))).kept h₁
    exact wp_mono hsend (fun _ _ h => h.same rfl rfl rfl rfl rfl) fun _ _ h => h
  · rw [if_neg hlive]
    exact h

theorem windowInv_step {w : Watched env.nx.Graph} {e : LocalEvent} (he : FromRyu e) (h : WindowInv w.known w.app) :
    WindowInv (watch env w e).known (watch env w e).app := by
  have hlive : ∀ {known} (s : Layer2Switch env.nx.Graph), WindowInv known s → WindowInv known { s with is_live := false } :=
    fun _ h => h.same rfl rfl rfl rfl rfl
  have hkeeps : Moves (Keeps (WindowInv w.known)) (handle env e) → WindowInv w.known (step env w.app e) := fun hx =>
    step_of_wp hlive (hx.kept h)
  cases e with
  | SwitchFeatures datapath =>
    refine hkeeps (.bind (.modify fun _ h => h.same rfl rfl rfl rfl rfl) fun _ => .bind .get fun _ =>
      .bind (keepsW_send_msg _ _) fun _ => ?_)
    exact moves_add_flow (fun _ _ h => h.same rfl rfl rfl rfl rfl) _ _ _ _ _
  | RoleReply dpid role => exact hkeeps (.bind .get fun _ => keepsW_send_msg _ _)
  | PacketIn now msg => exact hkeeps (keepsW_packet_in_handler now msg)
  | TopologyChange api => exact step_of_wp hlive (wp_topology_lists h api)
  | SwitchLeave dpid => exact hkeeps (keepsW_switch_leave_handler dpid)
  | Connected => exact hkeeps (.modify fun _ h => h.same rfl rfl rfl rfl rfl)
  | Downlink now ev =>
    exact hkeeps (moves_dispatch_event_of (P := fun _ => True) (fun _ _ h => h.same rfl rfl rfl rfl rfl)
      (fun _ _ _ _ h => h.same rfl rfl rfl rfl rfl) (fun _ _ h => h.same rfl rfl rfl rfl rfl) (fun _ => trivial)
      (fun _ _ h => h.same rfl rfl rfl rfl rfl) now (keepsW_takePending _))
  | LoadRound => exact hkeeps (.bind .get fun _ => .ite (.bind .get fun _ => keepsW_reportLoads _) (.pure _))
  | GraphInfoRound window_switches =>
    have hstep : WindowInv _ (step env w.app (.GraphInfoRound window_switches)) :=
      step_of_wp hlive (wp_graph_info_lists he h)
    unfold watch
    by_cases hl : w.app.is_live = true
    · rw [if_pos hl] at hstep
      simp only [if_pos hl]
      exact hstep
    · rw [if_neg hl] at hstep
      simp only [if_neg hl]
      exact hstep
  | TimeoutRound now => exact hkeeps (.bind .get fun _ => keepsW_expirePackets now _)

theorem windowInv_run (xid : Nat) {es : List LocalEvent} (hes : ∀ e ∈ es, FromRyu e) :
    WindowInv (es.foldl (watch env) (watchInit env xid)).known (es.foldl (watch env) (watchInit env xid)).app := by
  apply List.foldlRecOn (motive := fun w => WindowInv w.known w.app) es (watch env) (windowInv_init xid)
  exact fun w h e he => windowInv_step (hes e he) h

/-! ## When rules are installed -/

def Grown {Γ : Type} (s s' : Layer2Switch Γ) : Prop := s.switch_out <+: s'.switch_out

instance {Γ : Type} : IsPreorder (Layer2Switch Γ) Grown where
  refl _ := List.prefix_refl _
  trans _ _ _ h h' := h.trans h'

def Grew {Γ : Type} (s s' : Layer2Switch Γ) : Prop :=
  ∃ x rest, s'.switch_out = s.switch_out ++ x :: rest ∧ SwitchMsg.isFlowMod x.2 = true

theorem Grew.grown {s'' : Layer2Switch env.nx.Graph} (h : Grew s s') (h' : Grown s' s'') : Grew s s'' := by
  obtain ⟨x, rest, hout, hx⟩ := h
  obtain ⟨more, hmore⟩ := h'
  refine ⟨x, rest ++ more, ?_, hx⟩
  rw [← hmore, hout, List.append_assoc, List.cons_append]

theorem Grew.installs (h : Grew s s') : Installs s s' := by
  obtain ⟨x, rest, hout, hx⟩ := h
  refine ⟨x, ?_, hx⟩
  rw [hout, List.drop_left]
  exact List.mem_cons_self

theorem not_installs (h : s'.switch_out = s.switch_out) : ¬ Installs s s' := by
  intro hinst
  obtain ⟨x, hx, _⟩ := hinst
  rw [h, List.drop_length] at hx
  exact absurd hx List.not_mem_nil

theorem Grew.andThen {k : App env Unit} (h : Grew s s') (hk : Moves Grown k) :
    wp k s' (fun _ => Grew s) fun _ => Grew s := wp_mono (hk s') (fun _ _ => h.grown) fun _ _ => h.grown

theorem grew_add_flow (datapath : OfDatapath) (priority : Nat) (rule : OFPMatch) (actions : List OFPActionOutput)
    (buffer_id : Option Nat) :
    wp (add_flow env datapath priority rule actions buffer_id) s (fun _ => Grew s) fun _ => Grew s :=
  ⟨_, [], rfl, rfl⟩

theorem grown_send (s : Layer2Switch env.nx.Graph) (x : Nat × SwitchMsg) :
    Grown s { s with switch_out := s.switch_out ++ [x] } := List.prefix_append _ _

theorem wp_edgePort_some {u v : Node} {port : Nat} (h : env.nx.edge s.net u v = some (some port))
    {Q : Nat → Layer2Switch env.nx.Graph → Prop} {E : Exn → Layer2Switch env.nx.Graph → Prop} :
    wp (edgePort env u v) s Q E ↔ Q port s := by
  unfold edgePort
  rw [wp_bind, wp_get, h]
  rfl

section
variable {in_dp : OfDatapath} {in_dpid out_dpid region_out_port : Nat} {dst_mac : Bytes} {path : List Node}

theorem exists_first_hop (hports : PortsKnown s.net) (hne : in_dpid ≠ out_dpid)
    (hpath : IsPath (fun u v => (env.nx.edge s.net u v).isSome) (.dpid in_dpid) (.dpid out_dpid) path) :
    ∃ next_hop rest port, path = .dpid in_dpid :: next_hop :: rest ∧
      env.nx.edge s.net (.dpid in_dpid) next_hop = some (some port) := by
  obtain ⟨hchain, hhead, hlast⟩ := hpath
  match path with
  | [] => cases hhead
  | [u] =>
    cases hhead
    cases hlast
    exact absurd rfl hne
  | u :: v :: rest =>
    cases hhead
    obtain ⟨a, ha⟩ := Option.isSome_iff_exists.mp (List.isChain_cons_cons.mp hchain).1
    obtain ⟨port, rfl⟩ := Option.isSome_iff_exists.mp (hports _ _ _ ha)
    exact ⟨v, rest, port, rfl, ha⟩

theorem grew_pathRules (hports : PortsKnown s.net) (hne : in_dpid ≠ out_dpid) (hin : s.datapaths.get in_dpid = some in_dp)
    (hpath : IsPath (fun u v => (env.nx.edge s.net u v).isSome) (.dpid in_dpid) (.dpid out_dpid) path) :
    wp (pathRules env dst_mac path) s (fun _ => Grew s) fun _ => Grew s := by
  obtain ⟨next_hop, rest, port, rfl, hedge⟩ := exists_first_hop hports hne hpath
  unfold pathRules nodeDatapath
  simp only [wp_bind, wp_edgePort_some hedge, wp_get, wp_item_some hin]
  refine wp_mono (grew_add_flow in_dp 1 _ _ none) (fun _ s₁ h₁ => ?_) fun _ _ h => h
  exact h₁.andThen (moves_pathRules grown_send _ _)

theorem grew_installUnbuffered (hports : PortsKnown s.net) (hin : s.datapaths.get in_dpid = some in_dp)
    (data : Option Bytes)
    (hpath : IsPath (fun u v => (env.nx.edge s.net u v).isSome) (.dpid in_dpid) (.dpid out_dpid) path) :
    wp (installUnbuffered env in_dp in_dpid out_dpid region_out_port dst_mac data path) s (fun _ => Grew s)
      fun _ => Grew s := by
  unfold installUnbuffered
  rw [wp_ite]
  refine ⟨fun _ => grew_add_flow in_dp 1 _ _ none, fun hne => ?_⟩
  rw [wp_bind]
  refine wp_mono (grew_pathRules hports hne hin hpath) (fun _ s₁ h₁ => ?_) fun _ _ h => h
  refine h₁.andThen ?_
  exact .bind .get fun _ => .bind (.item _ _) fun _ => .bind (moves_add_flow grown_send _ _ _ _ _) fun _ =>
    moves_exitPacketOut grown_send _ _ _ _

theorem grew_installBuffered (hports : PortsKnown s.net) (buffer_id : Nat)
    (hpath : IsPath (fun u v => (env.nx.edge s.net u v).isSome) (.dpid in_dpid) (.dpid out_dpid) path) :
    wp (installBuffered env in_dp in_dpid out_dpid region_out_port dst_mac buffer_id path) s (fun _ => Grew s)
      fun _ => Grew s := by
  unfold installBuffered
  rw [wp_ite]
  refine ⟨fun _ => grew_add_flow in_dp 1 _ _ (some buffer_id), fun hne => ?_⟩
  obtain ⟨next_hop, rest, port, rfl, hedge⟩ := exists_first_hop hports hne hpath
  rw [List.idxOf_cons_self, Nat.zero_add, List.getElem?_cons_succ, List.getElem?_cons_zero]
  show wp (edgePort env (.dpid in_dpid) next_hop >>= _) s _ _
  rw [wp_bind, wp_edgePort_some hedge, wp_bind]
  refine wp_mono (grew_add_flow in_dp 1 _ _ (some buffer_id)) (fun _ s₁ h₁ => ?_) fun _ _ h => h
  refine h₁.andThen (.bind (moves_pathRules grown_send dst_mac (next_hop :: rest)) fun _ => ?_)
  exact .bind .get fun _ => .bind (.item _ _) fun _ => moves_add_flow grown_send _ _ _ _ _

/-- The way out was ever listed and there is a path to it from a connected switch. -/
def Routable (known : List Nat) (s : Layer2Switch env.nx.Graph) (in_dpid out_dpid : Nat) : Prop :=
  out_dpid ∈ known ∧ in_dpid ∈ s.datapaths ∧ (env.nx.shortest_path s.net (.dpid in_dpid) (.dpid out_dpid)).isOk = true

theorem wp_flow_mod_installs (h : WindowInv known s) (xid : Nat) :
    wp (cc_flow_mod_handler env xid in_dpid out_dpid region_out_port dst_mac) s
      (fun _ s' => Installs s s' ↔ Routable known s in_dpid out_dpid)
      fun _ s' => Installs s s' ↔ Routable known s in_dpid out_dpid := by
  unfold cc_flow_mod_handler
  simp only [wp_bind, wp_get, wp_ite, wp_item, wp_pure]
  refine ⟨fun hkey => ⟨fun in_dp hin => ?_, fun hnone => ?_⟩, fun hkey => ?_⟩
  · refine wp_mono (wp_takePending h xid) (fun pending s₁ h₁ => ?_) fun _ _ h => h.elim
    obtain ⟨h₁, hidle⟩ := h₁
    have hin₁ : s₁.datapaths.get in_dpid = some in_dp := by rw [hidle.datapaths]; exact hin
    cases hpath : env.nx.shortest_path s₁.net (.dpid in_dpid) (.dpid out_dpid) with
    | error e =>
      have hno : Installs s s₁ ↔ Routable known s in_dpid out_dpid := by
        refine iff_of_false (not_installs hidle.switch_out) fun hc => ?_
        have hok := hc.2.2
        rw [← hidle.net, hpath] at hok
        cases hok
      cases e <;> exact hno
    | ok path =>
      have hshort := (env.nx.shortest_path_ok _ _ _ _ hpath).1
      have hroute : Routable known s in_dpid out_dpid := by
        refine ⟨(h.keys _).mp hkey, Dict.mem_iff_get.mpr ⟨in_dp, hin⟩, ?_⟩
        rw [← hidle.net, hpath]
        rfl
      have hall : ∀ s', Grew s₁ s' → (Installs s s' ↔ Routable known s in_dpid out_dpid) := fun s' hg => by
        refine iff_of_true ?_ hroute
        unfold Installs
        rw [← hidle.switch_out]
        exact hg.installs
      simp only [wp_ite]
      constructor
      · exact fun _ => wp_mono (grew_installBuffered h₁.ports _ hshort) (fun _ => hall) fun _ => hall
      · exact fun _ => wp_mono (grew_installUnbuffered h₁.ports hin₁ _ hshort) (fun _ => hall) fun _ => hall
  · refine iff_of_false (not_installs rfl) fun hc => ?_
    obtain ⟨in_dp, hin⟩ := Dict.mem_iff_get.mp hc.2.1
    rw [hnone] at hin
    cases hin
  · exact iff_of_false (not_installs rfl) fun hc => hkey ((h.keys _).mpr hc.1)

end

theorem installsCurrent_iff {w : Watched env.nx.Graph} (h : WindowInv w.known w.app) (e : LocalEvent) :
    InstallsCurrent env w e ↔ LeadsToCurrent env w e := by
  cases e with
  | Downlink now ev =>
    obtain ⟨header, msg⟩ := ev
    cases msg with
    | FlowMod in_dpid out_dpid out_port dst_mac wildcards =>
      have hinst : Installs w.app (step env w.app
          (.Downlink now ⟨header, .FlowMod in_dpid out_dpid out_port dst_mac wildcards⟩)) ↔
          Routable w.known w.app in_dpid out_dpid :=
        step_of_wp (I := fun s' => Installs w.app s' ↔ _) (fun _ h => h) (wp_flow_mod_installs h header.xid)
      show (Installs _ _ → _) ↔ (_ → _ → _ → _)
      rw [hinst, Routable, and_imp, and_imp]
    | _ => exact Iff.rfl
  | _ => exact Iff.rfl

/-- **FLOW_MODs install rules through current windows only** in exactly the runs
where none leads to a switch that was listed once but is no current window. -/
theorem flow_mods_through_windows (env : LocalEnv) (xid : Nat) (es : List LocalEvent) (hes : ∀ e ∈ es, FromRyu e) :
    (∀ before e, before ++ [e] <+: es → InstallsCurrent env (before.foldl (watch env) (watchInit env xid)) e) ↔
      Allowed (watch env) (LeadsToCurrent env) (watchInit env xid) es := by
  rw [allowed_iff_before]
  refine forall₂_congr fun before e => imp_congr_right fun hpre => ?_
  refine installsCurrent_iff (windowInv_run xid fun e' he' => hes e' ?_) e
  exact hpre.subset (List.mem_append_left _ he')

/-- A switch of another domain is linked to switch 2. -/
def exitWindows : List Window := [⟨some 5, some 1, some 2, some 2⟩]

def exitEnv : LocalEnv :=
  { sampleLocalEnv with
    json_dumps := fun windows =>
      if windows = exitWindows then
        asciiText "[\x7b\"src_port_no\": 1, \"dst_port_no\": 2, \"src_dpid\": 5, \"dst_dpid\": 2\x7d]"
      else asciiText "[]"
    windows_digest := fun windows =>
      if windows = exitWindows then
        [0xfe, 0x64, 0xb7, 0xcd, 0xd8, 0x2b, 0x39, 0x82, 0x9d, 0xa5, 0xae, 0x21, 0x25, 0x6a, 0xbd, 0x09]
      else sampleLocalEnv.windows_digest windows }

def pairRun : List LocalEvent :=
  [.Connected, .SwitchFeatures ⟨1, "10.0.0.1"⟩, .SwitchFeatures ⟨2, "10.0.0.1"⟩,
    .TopologyChange ⟨[1, 2], [], [⟨⟨1, 1⟩, ⟨2, 1⟩⟩]⟩]

def exitFlowMod : LocalEvent := .Downlink 0 ⟨⟨TFLC_VERSION_1, 7, 56, 7⟩, .FlowMod 1 2 2 (asciiText "00:00:00:00:00:09") 0⟩

def exitRun : List LocalEvent := pairRun ++ [.GraphInfoRound exitWindows]

def exitWatched : Watched exitEnv.nx.Graph := exitRun.foldl (watch exitEnv) (watchInit exitEnv 0)

theorem flow_mods_through_windows_exit :
    Installs exitWatched.app (step exitEnv exitWatched.app exitFlowMod) ∧ Current exitWatched 2 := by
  have hinstalls : Installs exitWatched.app (step exitEnv exitWatched.app exitFlowMod) := by decide +kernel
  have hall := (flow_mods_through_windows exitEnv 0 (exitRun ++ [exitFlowMod]) (by decide)).mpr (by decide +kernel)
  exact ⟨hinstalls, hall exitRun exitFlowMod (List.prefix_refl _) hinstalls⟩

/-- A switch that only a topology event has listed is no window. -/
theorem flow_mod_without_window :
    ¬ ∀ (env : LocalEnv) (xid : Nat) (es : List LocalEvent), (∀ e ∈ es, FromRyu e) → ∀ before e, before ++ [e] <+: es →
      InstallsCurrent env (before.foldl (watch env) (watchInit env xid)) e := by
  intro h
  have hcurrent := h exitEnv 0 (pairRun ++ [exitFlowMod]) (by decide) pairRun exitFlowMod (List.prefix_refl _)
  have hinstalls : Installs (pairRun.foldl (watch exitEnv) (watchInit exitEnv 0)).app
      (step exitEnv (pairRun.foldl (watch exitEnv) (watchInit exitEnv 0)).app exitFlowMod) := by decide +kernel
  exact absurd (hcurrent hinstalls) (by decide +kernel)

end Layer2Switch

end VnfDockerNet
