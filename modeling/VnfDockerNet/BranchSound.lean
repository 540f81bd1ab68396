import VnfDockerNet.WindowRuleSound

/-!
# The two branches of a flow mod

With a buffered packet the first hop of the path, the middle and the way out are
programmed one by one, without one the path in one loop and the way out after
it. Both send the same rules. What a handler sends is described together: its
rules, and the messages among them that let a waiting packet go.
-/

namespace VnfDockerNet

open Python Networkx Runs

namespace Layer2Switch

variable {env : LocalEnv} {s s' : Layer2Switch env.nx.Graph} {mac : Bytes}

/-! ## What a flow mod looks up -/

/-- Switches are listed under their numbers, a pending packet has a stamp and a
buffer, and a hop that leaves a switch has a port. -/
structure Ready (s : Layer2Switch env.nx.Graph) : Prop where
  keyed : Keyed s
  stamped : ∀ x, x ∈ s.xid_to_packet → x ∈ s.xid_to_packet_timestamp ∧ x ∈ s.xid_to_buffer_id
  ports : PortsKnown s.net

theorem Ready.windowInv (h : Ready s) : WindowInv s.dpid_to_is_win.keys s := ⟨fun _ => AList.mem_keys, h.stamped, h.ports⟩

def Stamped (s : Layer2Switch env.nx.Graph) : Prop := ∃ known, WindowInv known s

theorem stamped_of_keeps {α : Type} {x : App env α} (h : ∀ known, Moves (Keeps (WindowInv known)) x) :
    Moves (Keeps Stamped) x :=
  Moves.keeps fun _ hs =>
    have ⟨known, hs⟩ := hs
    wp_mono ((h known).kept hs) (fun _ _ h => ⟨known, h⟩) fun _ _ h => ⟨known, h⟩

theorem Stamped.windows (h : Stamped s) (dpid_to_is_win : Dict Nat Bool) (dpid_to_out_port : Dict Nat Nat) :
    Stamped { s with dpid_to_is_win, dpid_to_out_port } := by
  obtain ⟨_, h⟩ := h
  exact ⟨dpid_to_is_win.keys, fun _ => AList.mem_keys, h.stamped, h.ports⟩

theorem stamped_recordWindows (window_switches : List Window) : Moves (Keeps Stamped) (recordWindows env window_switches) :=
  moves_recordWindows (fun _ _ _ h => h.windows _ _) window_switches

theorem stamped_get_topology_data (api : Topology) : Moves (Keeps Stamped) (get_topology_data env api) := by
  have hnet : ∀ (upd : env.nx.Graph → env.nx.Graph), (∀ net, PortsKnown net → PortsKnown (upd net)) →
      Moves (Keeps Stamped) (modify (fun s => { s with net := upd s.net }) : App env PUnit) := fun upd hupd =>
    stamped_of_keeps fun _ => .modify fun _ h => h.renet (hupd _ h.ports)
  unfold get_topology_data
  refine .bind (.modify fun _ h => h.windows _ _) fun _ => .bind (.orRaise _) fun _ =>
    .bind (stamped_recordWindows _) fun _ => .bind (hnet _ fun _ h => portsKnown_addSwitches _ h) fun _ =>
      .bind (hnet _ fun _ h => portsKnown_addLinks _ _ _ h) fun _ =>
        .bind (hnet _ fun _ h => portsKnown_addLinks _ _ _ h) fun _ => stamped_of_keeps fun _ => ?_
  exact .bind (keepsW_send_msg _ _) fun _ => .modify fun _ h => h.same rfl rfl rfl rfl rfl

theorem stamped_handle (e : LocalEvent) : Moves (Keeps Stamped) (handle env e) := by
  unfold handle
  cases e with
  | SwitchFeatures datapath =>
    refine stamped_of_keeps fun _ => .bind (.modify fun _ h => h.same rfl rfl rfl rfl rfl) fun _ => .bind .get fun _ =>
      .bind (keepsW_send_msg _ _) fun _ => ?_
    exact moves_add_flow (fun _ _ h => h.same rfl rfl rfl rfl rfl) _ _ _ _ _
  | RoleReply dpid role => exact stamped_of_keeps fun _ => .bind .get fun _ => keepsW_send_msg _ _
  | PacketIn now msg => exact stamped_of_keeps fun _ => keepsW_packet_in_handler now msg
  | TopologyChange api => exact stamped_get_topology_data api
  | SwitchLeave dpid => exact stamped_of_keeps fun _ => keepsW_switch_leave_handler dpid
  | Connected => exact stamped_of_keeps fun _ => .modify fun _ h => h.same rfl rfl rfl rfl rfl
  | Downlink now ev =>
    exact stamped_of_keeps fun _ => moves_dispatch_event_of (P := fun _ => True) (fun _ _ h => h.same rfl rfl rfl rfl rfl)
      (fun _ _ _ _ h => h.same rfl rfl rfl rfl rfl) (fun _ _ h => h.same rfl rfl rfl rfl rfl) (fun _ => trivial)
      (fun _ _ h => h.same rfl rfl rfl rfl rfl) now (keepsW_takePending _)
  | LoadRound =>
    exact stamped_of_keeps fun _ => .bind .get fun _ => .ite (.bind .get fun _ => keepsW_reportLoads _) (.pure _)
  | GraphInfoRound window_switches =>
    refine .bind .get fun _ => .ite (.bind (stamped_recordWindows _) fun _ => .bind .get fun _ => .ite ?_ (.pure _)) (.pure _)
    exact stamped_of_keeps fun _ => .bind (keepsW_send_msg _ _) fun _ => .modify fun _ h => h.same rfl rfl rfl rfl rfl
  | TimeoutRound now => exact stamped_of_keeps fun _ => .bind .get fun _ => keepsW_expirePackets now _

theorem ready_run (xid : Nat) (es : List LocalEvent) : Ready (es.foldl (step env) (init env xid)) := by
  have hstamped : Stamped (es.foldl (step env) (init env xid)) := by
    refine List.foldlRecOn (motive := Stamped) es (step env) ⟨[], windowInv_init xid⟩ fun s h e _ => ?_
    refine step_of_wp (fun _ h => ?_) ((stamped_handle e).kept h)
    obtain ⟨known, h⟩ := h
    exact ⟨known, h.same rfl rfl rfl rfl rfl⟩
  obtain ⟨_, h⟩ := hstamped
  exact ⟨keyed_run xid es, h.stamped, h.ports⟩

/-! ## What is sent -/

def SwitchMsg.isPacketOut : SwitchMsg → Bool
  | .PacketOut .. => true
  | _ => false

/-- A rule that is also applied to a packet the switch has buffered. -/
def SwitchMsg.carriesBuffer : SwitchMsg → Bool
  | .FlowMod buffer_id .. => buffer_id ≠ OFP_NO_BUFFER
  | _ => false

def releasesIn (out : List (Nat × SwitchMsg)) : List (Nat × SwitchMsg) :=
  out.filter fun x => SwitchMsg.isPacketOut x.2 || SwitchMsg.carriesBuffer x.2

def SwitchMsg.rule? : SwitchMsg → Option (OFPMatch × List OFPActionOutput)
  | .FlowMod _ _ rule actions => some (rule, actions)
  | _ => none

def rulesIn (out : List (Nat × SwitchMsg)) : List (Nat × OFPMatch × List OFPActionOutput) :=
  out.filterMap fun x => (SwitchMsg.rule? x.2).map fun r => (x.1, r)

def sentOut {Γ : Type} (s s' : Layer2Switch Γ) : List (Nat × SwitchMsg) := s'.switch_out.drop s.switch_out.length

theorem sentOut_append {Γ : Type} {s s' : Layer2Switch Γ} {out : List (Nat × SwitchMsg)}
    (h : s'.switch_out = s.switch_out ++ out) : sentOut s s' = out := by
  unfold sentOut
  rw [h, List.drop_left]

theorem releasesIn_append (out out' : List (Nat × SwitchMsg)) :
    releasesIn (out ++ out') = releasesIn out ++ releasesIn out' := List.filter_append _ _

theorem rulesIn_append (out out' : List (Nat × SwitchMsg)) : rulesIn (out ++ out') = rulesIn out ++ rulesIn out' :=
  List.filterMap_append

def ruleMsg (mac : Bytes) (dpid buffer_id port : Nat) : Nat × SwitchMsg :=
  (dpid, .FlowMod buffer_id 1 [.eth_dst mac] [{ port }])

theorem releasesIn_unbuffered (mac : Bytes) (dpid port : Nat) : releasesIn [ruleMsg mac dpid OFP_NO_BUFFER port] = [] :=
  rfl

theorem releasesIn_buffered (mac : Bytes) (dpid port : Nat) {buffer_id : Nat} (h : buffer_id ≠ OFP_NO_BUFFER) :
    releasesIn [ruleMsg mac dpid buffer_id port] = [ruleMsg mac dpid buffer_id port] := by
  simp [releasesIn, ruleMsg, SwitchMsg.carriesBuffer, h]

theorem rulesIn_ruleMsg (mac : Bytes) (dpid buffer_id port : Nat) :
    rulesIn [ruleMsg mac dpid buffer_id port] = [(dpid, [.eth_dst mac], [{ port }])] := rfl

def Sends (s s' : Layer2Switch env.nx.Graph) (out : List (Nat × SwitchMsg)) : Prop :=
  s' = { s with switch_out := s.switch_out ++ out }

theorem Sends.then {s'' : Layer2Switch env.nx.Graph} {out out' : List (Nat × SwitchMsg)} (h : Sends s s' out)
    (h' : Sends s' s'' out') : Sends s s'' (out ++ out') := by
  unfold Sends at h h' ⊢
  rw [h', h, List.append_assoc]

theorem Sends.out_eq {out : List (Nat × SwitchMsg)} (h : Sends s s' out) : s'.switch_out = s.switch_out ++ out := by
  rw [h]

theorem wp_add_flow (datapath : OfDatapath) (priority : Nat) (rule : OFPMatch) (actions : List OFPActionOutput)
    (buffer_id : Option Nat) {Q : Unit → Layer2Switch env.nx.Graph → Prop} {E : Exn → Layer2Switch env.nx.Graph → Prop} :
    wp (add_flow env datapath priority rule actions buffer_id) s Q E ↔ Q () { s with
      switch_out := s.switch_out ++ [(datapath.id, .FlowMod
        (if buffer_id.getD 0 = 0 then OFP_NO_BUFFER else buffer_id.getD 0) priority rule actions)] } := Iff.rfl

theorem wp_send_switch (datapath : OfDatapath) (msg : SwitchMsg) {Q : Unit → Layer2Switch env.nx.Graph → Prop}
    {E : Exn → Layer2Switch env.nx.Graph → Prop} : wp (send_switch env datapath msg) s Q E ↔
      Q () { s with switch_out := s.switch_out ++ [(datapath.id, msg)] } := Iff.rfl

/-! ## The rules of a path -/

def Connects (s : Layer2Switch env.nx.Graph) (path : List Node) : Prop := ∀ u ∈ path, ∃ d ∈ s.datapaths, u = .dpid d

instance (s : Layer2Switch env.nx.Graph) (path : List Node) : Decidable (Connects s path) :=
  inferInstanceAs (Decidable (∀ u ∈ path, ∃ d ∈ s.datapaths.keys, u = .dpid d))

theorem Connects.cons_iff {u : Node} {path : List Node} :
    Connects s (u :: path) ↔ (∃ d ∈ s.datapaths, u = .dpid d) ∧ Connects s path := List.forall_mem_cons

/-- Rules for `mac` without buffers, that with one more for the way out are those of the path. -/
def RulesOf (net : env.nx.Graph) (mac : Bytes) (path : List Node) (out : List (Nat × SwitchMsg)) : Prop :=
  ∃ rules : List (Nat × List OFPActionOutput), rulesIn out = rules.map (fun r => (r.1, [.eth_dst mac], r.2)) ∧
    ∀ d port, path.getLast? = some (.dpid d) → PathRules net port path (rules ++ [(d, [{ port := port }])])

theorem RulesOf.cons {net : env.nx.Graph} {d port buffer_id : Nat} {v : Node} {rest : List Node}
    {out : List (Nat × SwitchMsg)} (hedge : env.nx.edge net (.dpid d) v = some (some port))
    (h : RulesOf net mac (v :: rest) out) :
    RulesOf net mac (.dpid d :: v :: rest) ([ruleMsg mac d buffer_id port] ++ out) := by
  obtain ⟨rules, hrules, hpath⟩ := h
  refine ⟨(d, [{ port }]) :: rules, ?_, fun d' port' hlast => ?_⟩
  · rw [rulesIn_append, rulesIn_ruleMsg, hrules, List.map_cons]
    rfl
  · rw [List.getLast?_cons_cons] at hlast
    exact ⟨port, _, rfl, hedge, hpath d' port' hlast⟩

theorem PortsKnown.port {net : env.nx.Graph} (h : PortsKnown net) {d : Nat} {v : Node}
    (hedge : (env.nx.edge net (.dpid d) v).isSome = true) : ∃ port, env.nx.edge net (.dpid d) v = some (some port) := by
  obtain ⟨a, ha⟩ := Option.isSome_iff_exists.mp hedge
  obtain ⟨port, rfl⟩ := Option.isSome_iff_exists.mp (h d v a ha)
  exact ⟨port, ha⟩

/-- The loop over a path completes exactly when all its nodes but the last are
connected switches, and lets no packet go in any case. -/
theorem wp_pathRules_sends : ∀ (path : List Node) (s : Layer2Switch env.nx.Graph), Keyed s → PortsKnown s.net →
    path.IsChain (fun u v => (env.nx.edge s.net u v).isSome = true) →
    wp (pathRules env mac path) s
      (fun _ s' => Connects s path.dropLast ∧ ∃ out, Sends s s' out ∧ releasesIn out = [] ∧ RulesOf s.net mac path out)
      fun _ s' => ¬ Connects s path.dropLast ∧ ∃ out, Sends s s' out ∧ releasesIn out = []
  | [], s, _, _, _ => by
    refine ⟨fun u hu => absurd hu List.not_mem_nil, [], by unfold Sends; rw [List.append_nil], rfl, [], rfl, ?_⟩
    exact fun d port hlast => by cases hlast
  | [u], s, _, _, _ => by
    refine ⟨fun u hu => absurd hu List.not_mem_nil, [], by unfold Sends; rw [List.append_nil], rfl, [], rfl, ?_⟩
    intro d port hlast
    cases hlast
    rfl
  | node :: next :: rest, s, hkeyed, hports, hchain => by
    obtain ⟨hedge, hrest⟩ := List.isChain_cons_cons.mp hchain
    have hnone : Sends s s [] := by unfold Sends; rw [List.append_nil]
    rw [List.dropLast_cons_cons, Connects.cons_iff]
    unfold pathRules
    cases node with
    | mac m =>
      -- a host has no datapath, whether its edge has a port or not
      have hno : ¬ ((∃ d ∈ s.datapaths, Node.mac m = .dpid d) ∧ Connects s (next :: rest).dropLast) := by
        rintro ⟨⟨_, _, hd⟩, _⟩
        cases hd
      unfold edgePort nodeDatapath
      simp only [wp_bind, wp_get, wp_key, wp_throw]
      exact ⟨fun _ _ => ⟨fun _ _ => ⟨hno, [], hnone, rfl⟩, fun _ => ⟨hno, [], hnone, rfl⟩⟩,
        fun _ => ⟨hno, [], hnone, rfl⟩⟩
    | dpid d =>
      obtain ⟨port, hport⟩ := hports.port hedge
      unfold nodeDatapath
      simp only [wp_bind, wp_edgePort_some hport, wp_get, wp_item, wp_add_flow]
      refine ⟨fun datapath hget => ?_, fun hget => ⟨fun h => ?_, [], hnone, rfl⟩⟩
      · have hid : datapath.id = d := hkeyed d datapath hget
        have hhere : ∃ d' ∈ s.datapaths, Node.dpid d = .dpid d' := ⟨d, Dict.mem_iff_get.mpr ⟨datapath, hget⟩, rfl⟩
        rw [hid]
        have hsend : Sends s { s with switch_out := s.switch_out ++ [ruleMsg mac d OFP_NO_BUFFER port] }
            [ruleMsg mac d OFP_NO_BUFFER port] := rfl
        refine wp_mono (wp_pathRules_sends (next :: rest) _ hkeyed hports hrest) (fun _ s₁ h₁ => ?_) fun _ s₁ h₁ => ?_
        · obtain ⟨hconn, out, hsends, hrel, hrules⟩ := h₁
          refine ⟨⟨hhere, hconn⟩, _, hsend.then hsends, ?_, hrules.cons hport⟩
          rw [releasesIn_append, hrel, releasesIn_unbuffered, List.append_nil]
        · obtain ⟨hconn, out, hsends, hrel⟩ := h₁
          refine ⟨fun h => hconn h.2, _, hsend.then hsends, ?_⟩
          rw [releasesIn_append, hrel, releasesIn_unbuffered, List.append_nil]
      · obtain ⟨⟨d', hmem, hd⟩, _⟩ := h
        cases hd
        exact Dict.get_eq_none.mp hget hmem

theorem connects_iff_last {path : List Node} {d : Nat} (hlast : path.getLast? = some (.dpid d)) :
    Connects s path ↔ Connects s path.dropLast ∧ d ∈ s.datapaths := by
  obtain ⟨init, rfl⟩ := List.getLast?_eq_some_iff.mp hlast
  unfold Connects
  rw [List.dropLast_concat, List.forall_mem_append, List.forall_mem_singleton]
  refine and_congr_right fun _ => ⟨fun h => ?_, fun h => ⟨d, h, rfl⟩⟩
  obtain ⟨d', hmem, hd⟩ := h
  cases hd
  exact hmem

def Walked (s s' : Layer2Switch env.nx.Graph) (mac : Bytes) (region_out_port : Nat) (path : List Node) : Prop :=
  ∃ out rules, Sends s s' out ∧ releasesIn out = [] ∧
    rulesIn out = rules.map (fun r => (r.1, [.eth_dst mac], r.2)) ∧ PathRules s.net region_out_port path rules

theorem wp_pathRules_exit {path : List Node} {out_dpid : Nat} (region_out_port : Nat) (hkeyed : Keyed s)
    (hports : PortsKnown s.net) (hchain : path.IsChain (fun u v => (env.nx.edge s.net u v).isSome = true))
    (hlast : path.getLast? = some (.dpid out_dpid)) :
    wp (pathRules env mac path) s
      (fun _ s₁ => (∀ out_dp, s₁.datapaths.get out_dpid = some out_dp → out_dp.id = out_dpid ∧ Connects s path ∧
          Walked s { s₁ with switch_out := s₁.switch_out ++ [ruleMsg mac out_dpid OFP_NO_BUFFER region_out_port] }
            mac region_out_port path) ∧
        (s₁.datapaths.get out_dpid = none → ¬ Connects s path ∧ ∃ out, Sends s s₁ out ∧ releasesIn out = []))
      fun _ s₁ => ¬ Connects s path ∧ ∃ out, Sends s s₁ out ∧ releasesIn out = [] := by
  have hiff := connects_iff_last (s := s) hlast
  refine wp_mono (wp_pathRules_sends path s hkeyed hports hchain) (fun _ s₁ h₁ => ?_) fun _ s₁ h₁ => ?_
  · obtain ⟨hconn, out, hsends, hrel, rules, hrules, hpr⟩ := h₁
    have hdps : s₁.datapaths = s.datapaths := by rw [hsends]
    refine ⟨fun out_dp hget => ?_, fun hget => ?_⟩
    · rw [hdps] at hget
      have hexit : Sends s₁ { s₁ with switch_out := s₁.switch_out ++ [ruleMsg mac out_dpid OFP_NO_BUFFER region_out_port] }
          [ruleMsg mac out_dpid OFP_NO_BUFFER region_out_port] := rfl
      refine ⟨hkeyed out_dpid out_dp hget, hiff.mpr ⟨hconn, Dict.mem_iff_get.mpr ⟨out_dp, hget⟩⟩, _,
        rules ++ [(out_dpid, [{ port := region_out_port }])], hsends.then hexit, ?_, ?_, hpr out_dpid region_out_port hlast⟩
      · rw [releasesIn_append, hrel, releasesIn_unbuffered, List.append_nil]
      · rw [rulesIn_append, hrules, rulesIn_ruleMsg, List.map_append]
        rfl
    · rw [hdps] at hget
      exact ⟨fun hc => Dict.get_eq_none.mp hget (hiff.mp hc).2, out, hsends, hrel⟩
  · obtain ⟨hconn, hstop⟩ := h₁
    exact ⟨fun hc => hconn (hiff.mp hc).1, hstop⟩

/-! ## The branches -/

/-- The rules of the whole path were sent, and `released` to let packets go. -/
def Programs (s s' : Layer2Switch env.nx.Graph) (mac : Bytes) (region_out_port : Nat) (path : List Node)
    (released : List (Nat × SwitchMsg)) : Prop :=
  ∃ out rules, s'.switch_out = s.switch_out ++ out ∧ releasesIn out = released ∧
    rulesIn out = rules.map (fun r => (r.1, [.eth_dst mac], r.2)) ∧ PathRules s.net region_out_port path rules

/-- The branch broke off, after it had sent `released` to let packets go. -/
def BreaksOff (s s' : Layer2Switch env.nx.Graph) (released : List (Nat × SwitchMsg)) : Prop :=
  ∃ out, s'.switch_out = s.switch_out ++ out ∧ releasesIn out = released

/-- What the rule with the buffer id of a packet lets go; `add_flow` takes 0 for no buffer. -/
def bufferRelease (mac : Bytes) (in_dpid buffer_id port : Nat) : List (Nat × SwitchMsg) :=
  if buffer_id = 0 then [] else [ruleMsg mac in_dpid buffer_id port]

theorem releasesIn_given (mac : Bytes) (dpid port : Nat) {buffer_id : Nat} (h : buffer_id ≠ OFP_NO_BUFFER) :
    releasesIn [ruleMsg mac dpid (if buffer_id = 0 then OFP_NO_BUFFER else buffer_id) port] =
      bufferRelease mac dpid buffer_id port := by
  unfold bufferRelease
  by_cases hzero : buffer_id = 0
  · rw [if_pos hzero, if_pos hzero, releasesIn_unbuffered]
  · rw [if_neg hzero, if_neg hzero, releasesIn_buffered mac dpid port h]

section
variable {in_dp : OfDatapath} {in_dpid out_dpid region_out_port : Nat} {path : List Node}

theorem programs_single {buffer_id : Nat} {released : List (Nat × SwitchMsg)}
    (hrel : releasesIn [ruleMsg mac in_dpid buffer_id region_out_port] = released) :
    Programs s { s with switch_out := s.switch_out ++ [ruleMsg mac in_dpid buffer_id region_out_port] } mac region_out_port
      [.dpid in_dpid] released :=
  ⟨_, [(in_dpid, [{ port := region_out_port }])], rfl, hrel, rfl, rfl⟩

/-- What the way out is sent for a packet that is in no buffer. -/
def exitRelease (in_dpid out_dpid region_out_port : Nat) (data : Option Bytes) : List (Nat × SwitchMsg) :=
  if in_dpid = out_dpid ∨ 2 ^ 32 ≤ in_dpid then []
  else [(out_dpid, .PacketOut OFP_NO_BUFFER in_dpid [{ port := region_out_port }] data)]

theorem wp_installUnbuffered_sends (h : Ready s) (hin : s.datapaths.get in_dpid = some in_dp) (data : Option Bytes)
    (hpath : env.nx.shortest_path s.net (.dpid in_dpid) (.dpid out_dpid) = .ok path) :
    wp (installUnbuffered env in_dp in_dpid out_dpid region_out_port mac data path) s
      (fun _ s' => Connects s path ∧ Programs s s' mac region_out_port path (exitRelease in_dpid out_dpid region_out_port data))
      fun _ s' => (¬ Connects s path ∧ BreaksOff s s' []) ∨ (Connects s path ∧ 2 ^ 32 ≤ in_dpid ∧
        Programs s s' mac region_out_port path (exitRelease in_dpid out_dpid region_out_port data)) := by
  have hid : in_dp.id = in_dpid := h.keyed in_dpid in_dp hin
  have hp := (env.nx.shortest_path_ok _ _ _ _ hpath).1
  unfold installUnbuffered
  rw [wp_ite]
  refine ⟨fun he => ?_, fun hne => ?_⟩
  · subst he
    have hnone : exitRelease in_dpid in_dpid region_out_port data = [] := if_pos (Or.inl rfl)
    rw [path_to_itself hpath, wp_add_flow, hid, hnone]
    refine ⟨fun u hu => ?_, programs_single (releasesIn_unbuffered mac in_dpid region_out_port)⟩
    exact ⟨in_dpid, Dict.mem_iff_get.mpr ⟨in_dp, hin⟩, List.mem_singleton.mp hu⟩
  · simp only [wp_bind]
    refine wp_mono (wp_pathRules_exit region_out_port h.keyed h.ports hp.chain hp.last)
      (fun _ s₁ h₁ => ?_) fun _ s₁ h₁ => ?_
    · unfold exitPacketOut
      simp only [wp_get, wp_item, wp_add_flow, wp_ite, wp_send_switch, wp_throw]
      refine ⟨fun out_dp hget => ?_, fun hget => ?_⟩
      · obtain ⟨hout, hconn, out, rules, hsends, hrel, hrules, hpr⟩ := h₁.1 out_dp hget
        rw [hout]
        unfold exitRelease
        refine ⟨fun hsmall => ?_, fun hlarge => ?_⟩
        · have hpacket : Sends { s₁ with switch_out := s₁.switch_out ++ [ruleMsg mac out_dpid OFP_NO_BUFFER region_out_port] } _
              [(out_dpid, .PacketOut OFP_NO_BUFFER in_dpid [{ port := region_out_port }] data)] := rfl
          rw [if_neg (not_or.mpr ⟨hne, Nat.not_le.mpr hsmall⟩)]
          refine ⟨hconn, _, rules, (hsends.then hpacket).out_eq, ?_, ?_, hpr⟩
          · rw [releasesIn_append, hrel]
            rfl
          · rw [rulesIn_append, hrules]
            exact List.append_nil _
        · -- the rules are out when the packet-out cannot be packed
          have hlarge : 2 ^ 32 ≤ in_dpid := Nat.not_lt.mp hlarge
          rw [if_pos (Or.inr hlarge)]
          exact Or.inr ⟨hconn, hlarge, out, rules, hsends.out_eq, hrel, hrules, hpr⟩
      · obtain ⟨hconn, out, hsends, hrel⟩ := h₁.2 hget
        exact Or.inl ⟨hconn, out, hsends.out_eq, hrel⟩
    · obtain ⟨hconn, out, hsends, hrel⟩ := h₁
      exact Or.inl ⟨hconn, out, hsends.out_eq, hrel⟩

theorem wp_installBuffered_sends (h : Ready s) (hin : s.datapaths.get in_dpid = some in_dp) {buffer_id : Nat}
    (hbuf : buffer_id ≠ OFP_NO_BUFFER) (hpath : env.nx.shortest_path s.net (.dpid in_dpid) (.dpid out_dpid) = .ok path) :
    wp (installBuffered env in_dp in_dpid out_dpid region_out_port mac buffer_id path) s
      (fun _ s' => Connects s path ∧
        ∃ port, Programs s s' mac region_out_port path (bufferRelease mac in_dpid buffer_id port))
      fun _ s' => ¬ Connects s path ∧ ∃ port, BreaksOff s s' (bufferRelease mac in_dpid buffer_id port) := by
  have hid : in_dp.id = in_dpid := h.keyed in_dpid in_dp hin
  have hp := (env.nx.shortest_path_ok _ _ _ _ hpath).1
  have hmem : in_dpid ∈ s.datapaths := Dict.mem_iff_get.mpr ⟨in_dp, hin⟩
  unfold installBuffered
  rw [wp_ite]
  refine ⟨fun he => ?_, fun hne => ?_⟩
  · subst he
    rw [path_to_itself hpath, wp_add_flow, hid]
    refine ⟨fun u hu => ?_, region_out_port, programs_single (releasesIn_given mac in_dpid region_out_port hbuf)⟩
    exact ⟨in_dpid, hmem, List.mem_singleton.mp hu⟩
  · obtain ⟨next_hop, rest, port, rfl, hedge⟩ := exists_first_hop h.ports hne hp
    have hrest := (List.isChain_cons_cons.mp hp.chain).2
    have hlast' : (next_hop :: rest).getLast? = some (.dpid out_dpid) := by rw [← hp.last, List.getLast?_cons_cons]
    have hconn_iff : Connects s (.dpid in_dpid :: next_hop :: rest) ↔ Connects s (next_hop :: rest) :=
      Connects.cons_iff.trans (and_iff_right ⟨in_dpid, hmem, rfl⟩)
    have hfirst : Sends s { s with switch_out := s.switch_out ++
        [ruleMsg mac in_dpid (if buffer_id = 0 then OFP_NO_BUFFER else buffer_id) port] } _ := rfl
    rw [hconn_iff, List.idxOf_cons_self, Nat.zero_add, List.getElem?_cons_succ, List.getElem?_cons_zero]
    simp only [wp_bind, wp_edgePort_some hedge, wp_add_flow, hid, Option.getD_some]
    refine wp_mono (wp_pathRules_exit region_out_port h.keyed h.ports hrest hlast')
      (fun _ s₁ h₁ => ?_) fun _ s₁ h₁ => ?_
    · simp only [wp_get, wp_item]
      refine ⟨fun out_dp hget => ?_, fun hget => ?_⟩
      · obtain ⟨hout, hconn, out, rules, hsends, hrel, hrules, hpr⟩ := h₁.1 out_dp hget
        rw [hout]
        refine ⟨hconn, port, _, (in_dpid, [{ port := port }]) :: rules, (hfirst.then hsends).out_eq, ?_, ?_,
          port, _, rfl, hedge, hpr⟩
        · rw [releasesIn_append, hrel, releasesIn_given mac in_dpid port hbuf, List.append_nil]
        · rw [rulesIn_append, hrules, rulesIn_ruleMsg, List.map_cons]
          rfl
      · obtain ⟨hconn, out, hsends, hrel⟩ := h₁.2 hget
        refine ⟨hconn, port, _, (hfirst.then hsends).out_eq, ?_⟩
        rw [releasesIn_append, hrel, releasesIn_given mac in_dpid port hbuf, List.append_nil]
    · obtain ⟨hconn, out, hsends, hrel⟩ := h₁
      refine ⟨hconn, port, _, (hfirst.then hsends).out_eq, ?_⟩
      rw [releasesIn_append, hrel, releasesIn_given mac in_dpid port hbuf, List.append_nil]

/-! ## The handler -/

def pendingOf {Γ : Type} (s : Layer2Switch Γ) (xid : Nat) : Option Bytes × Nat :=
  match s.xid_to_packet.get xid with
  | none => (none, OFP_NO_BUFFER)
  | some data => (data, (s.xid_to_buffer_id.get xid).getD OFP_NO_BUFFER)

theorem wp_takePending_ready (h : Ready s) (xid : Nat) :
    wp (takePending env xid) s (fun pending s' => pending = pendingOf s xid ∧ Ready s' ∧ Idle s s' ∧ xid ∉ s'.xid_to_packet)
      fun _ _ => False := by
  have hinv : ∀ {s' : Layer2Switch env.nx.Graph}, WindowInv s.dpid_to_is_win.keys s' → Idle s s' → Ready s' := by
    intro s' hw hidle
    refine ⟨fun d datapath hget => h.keyed d datapath ?_, hw.stamped, hw.ports⟩
    rw [← hidle.datapaths]
    exact hget
  have hpending : wp (takePending env xid) s (fun pending s' => pending = pendingOf s xid ∧ xid ∉ s'.xid_to_packet)
      fun _ _ => True := by
    unfold takePending pendingOf
    simp only [wp_bind, wp_get]
    cases hget : s.xid_to_packet.get xid with
    | none => exact ⟨rfl, Dict.get_eq_none.mp hget⟩
    | some data =>
      simp only [wp_bind, wp_get, wp_item, wp_modify, wp_pure]
      refine ⟨fun buffer_id hbuf => ⟨fun _ _ => ⟨by rw [hbuf]; rfl, fun hin => ?_⟩, fun _ => trivial⟩, fun _ => trivial⟩
      exact (AList.mem_erase.mp hin).1 rfl
  refine wp_mono (wp_and (wp_takePending h.windowInv xid) hpending) (fun pending s' hboth => ?_) fun _ _ h => h.1
  obtain ⟨⟨hw, hidle⟩, hpend, hgone⟩ := hboth
  exact ⟨hpend, hinv hw hidle, hidle, hgone⟩

/-- What the handler lets go on a path that is walked to its end. -/
def releaseOf (mac : Bytes) (in_dpid out_dpid region_out_port port : Nat) (pending : Option Bytes × Nat) :
    List (Nat × SwitchMsg) :=
  if pending.2 ≠ OFP_NO_BUFFER then bufferRelease mac in_dpid pending.2 port
  else exitRelease in_dpid out_dpid region_out_port pending.1

/-- What it lets go on a path with a node that is no connected switch. -/
def brokenRelease (mac : Bytes) (in_dpid port : Nat) (pending : Option Bytes × Nat) : List (Nat × SwitchMsg) :=
  if pending.2 ≠ OFP_NO_BUFFER then bufferRelease mac in_dpid pending.2 port else []

theorem wp_flow_mod_taken (h : Ready s) (xid : Nat) (hwin : out_dpid ∈ s.dpid_to_is_win) {in_dp : OfDatapath}
    (hget : s.datapaths.get in_dpid = some in_dp) {Q : Unit → Layer2Switch env.nx.Graph → Prop} {E : Exn → Layer2Switch env.nx.Graph → Prop}
    (hfound : ∀ s₁ path, Ready s₁ → Idle s s₁ → xid ∉ s₁.xid_to_packet →
      env.nx.shortest_path s.net (.dpid in_dpid) (.dpid out_dpid) = .ok path →
      wp (if (pendingOf s xid).2 ≠ OFP_NO_BUFFER then
          installBuffered env in_dp in_dpid out_dpid region_out_port mac (pendingOf s xid).2 path
        else installUnbuffered env in_dp in_dpid out_dpid region_out_port mac (pendingOf s xid).1 path) s₁ Q E)
    (hnone : ∀ s₁ e, Idle s s₁ → xid ∉ s₁.xid_to_packet →
      env.nx.shortest_path s.net (.dpid in_dpid) (.dpid out_dpid) = .error e → Q () s₁ ∧ E e s₁) :
    wp (cc_flow_mod_handler env xid in_dpid out_dpid region_out_port mac) s Q E := by
  unfold cc_flow_mod_handler
  simp only [wp_bind, wp_get, if_pos hwin, wp_item_some hget]
  refine wp_mono (wp_takePending_ready h xid) (fun pending s₁ h₁ => ?_) fun _ _ h => h.elim
  obtain ⟨rfl, hready, hidle, hgone⟩ := h₁
  rw [hidle.net]
  cases hpath : env.nx.shortest_path s.net (.dpid in_dpid) (.dpid out_dpid) with
  | ok path => exact hfound s₁ path hready hidle hgone hpath
  | error e =>
    obtain ⟨hq, he⟩ := hnone s₁ e hidle hgone hpath
    cases e <;> first | exact hq | exact he

theorem wp_flow_mod_sends (h : Ready s) (xid : Nat) (hwin : out_dpid ∈ s.dpid_to_is_win) (hin : in_dpid ∈ s.datapaths)
    (hpath : env.nx.shortest_path s.net (.dpid in_dpid) (.dpid out_dpid) = .ok path) :
    wp (cc_flow_mod_handler env xid in_dpid out_dpid region_out_port mac) s
      (fun _ s' => Connects s path ∧ ∃ port,
        Programs s s' mac region_out_port path (releaseOf mac in_dpid out_dpid region_out_port port (pendingOf s xid)))
      fun _ s' => (¬ Connects s path ∧ ∃ port, BreaksOff s s' (brokenRelease mac in_dpid port (pendingOf s xid))) ∨
        (Connects s path ∧ 2 ^ 32 ≤ in_dpid ∧ ∃ port,
          Programs s s' mac region_out_port path (releaseOf mac in_dpid out_dpid region_out_port port (pendingOf s xid))) := by
  obtain ⟨in_dp, hget⟩ := Dict.mem_iff_get.mp hin
  refine wp_flow_mod_taken h xid hwin hget (fun s₁ path₁ hready hidle _ hsame => ?_)
    fun _ _ _ _ hnone => nomatch hpath.symm.trans hnone
  obtain rfl : path = path₁ := Except.ok.inj (hpath.symm.trans hsame)
  have hget₁ : s₁.datapaths.get in_dpid = some in_dp := by rw [hidle.datapaths]; exact hget
  have hpath₁ : env.nx.shortest_path s₁.net (.dpid in_dpid) (.dpid out_dpid) = .ok path := by rw [hidle.net]; exact hpath
  have hconn : Connects s₁ path ↔ Connects s path := by unfold Connects; rw [hidle.datapaths]
  have hprog : ∀ {s' released}, Programs s₁ s' mac region_out_port path released →
      Programs s s' mac region_out_port path released := by
    intro s' released hp
    unfold Programs at hp ⊢
    rwa [hidle.switch_out, hidle.net] at hp
  have hbreak : ∀ {s' : Layer2Switch env.nx.Graph} {released}, BreaksOff s₁ s' released → BreaksOff s s' released := by
    intro s' released hb
    unfold BreaksOff at hb ⊢
    rwa [hidle.switch_out] at hb
  rw [wp_ite]
  unfold releaseOf brokenRelease
  refine ⟨fun hbuf => ?_, fun hbuf => ?_⟩
  · simp only [if_pos hbuf]
    refine wp_mono (wp_installBuffered_sends hready hget₁ hbuf hpath₁) (fun _ s' hs' => ?_) fun _ s' hs' => ?_
    · obtain ⟨hc, port, hp⟩ := hs'
      exact ⟨hconn.mp hc, port, hprog hp⟩
    · obtain ⟨hc, port, hb⟩ := hs'
      exact Or.inl ⟨fun h => hc (hconn.mpr h), port, hbreak hb⟩
  · simp only [if_neg hbuf]
    refine wp_mono (wp_installUnbuffered_sends hready hget₁ _ hpath₁) (fun _ s' hs' => ?_) fun _ s' hs' => ?_
    · exact ⟨hconn.mp hs'.1, region_out_port, hprog hs'.2⟩
    · rcases hs' with ⟨hc, hb⟩ | ⟨hc, hlarge, hp⟩
      · exact Or.inl ⟨fun h => hc (hconn.mpr h), region_out_port, hbreak hb⟩
      · exact Or.inr ⟨hconn.mp hc, hlarge, region_out_port, hprog hp⟩

theorem pathRules_unique {net : env.nx.Graph} {port : Nat} :
    ∀ {path : List Node} {rules rules' : List (Nat × List OFPActionOutput)},
      PathRules net port path rules → PathRules net port path rules' → rules = rules'
  | [.dpid d], _, _, h, h' => by
    subst h h'
    rfl
  | .dpid d :: v :: rest, _, _, h, h' => by
    obtain ⟨p, rules, rfl, hedge, hrules⟩ := h
    obtain ⟨p', rules', rfl, hedge', hrules'⟩ := h'
    rw [hedge] at hedge'
    cases hedge'
    rw [pathRules_unique hrules hrules']

theorem exists_pathRules (hports : PortsKnown s.net) : ∀ {path : List Node} {d : Nat},
    path.IsChain (fun u v => (env.nx.edge s.net u v).isSome = true) → Connects s path →
      path.getLast? = some (.dpid d) → ∀ port, ∃ rules, PathRules s.net port path rules
  | [], _, _, _, hlast => by cases hlast
  | [u], d, _, _, hlast => by
    cases hlast
    exact fun port => ⟨[(d, [{ port := port }])], rfl⟩
  | u :: v :: rest, d, hchain, hconn, hlast => by
    obtain ⟨hedge, hrest⟩ := List.isChain_cons_cons.mp hchain
    obtain ⟨⟨d₀, _, rfl⟩, hconn'⟩ := Connects.cons_iff.mp hconn
    rw [List.getLast?_cons_cons] at hlast
    obtain ⟨p, hp⟩ := hports.port hedge
    intro port
    obtain ⟨rules, hrules⟩ := exists_pathRules hports hrest hconn' hlast port
    exact ⟨_, p, rules, rfl, hp, hrules⟩

theorem pathRules_switches {net : env.nx.Graph} {port : Nat} : ∀ {path : List Node} {rules : List (Nat × List OFPActionOutput)},
    PathRules net port path rules → rules.map (fun r => Node.dpid r.1) = path
  | [.dpid d], _, h => by
    subst h
    rfl
  | .dpid d :: v :: rest, _, h => by
    obtain ⟨_, rules, rfl, _, hrules⟩ := h
    rw [List.map_cons, pathRules_switches hrules]

end

/-- **Both branches of a flow mod send the same rules**, one to each switch of
the path: the rules do not depend on what is pending under which xid. From 32
bits on `in_dpid` fails to pack into the packet-out that follows the rules. -/
theorem branches_install_same (env : LocalEnv) (s : Layer2Switch env.nx.Graph) (hports : PortsKnown s.net)
    (in_dpid out_dpid region_out_port : Nat) (dst_mac : Bytes) (path : List Node) (hwin : out_dpid ∈ s.dpid_to_is_win)
    (hpath : env.nx.shortest_path s.net (.dpid in_dpid) (.dpid out_dpid) = .ok path) (hconn : Connects s path) :
    ∃ rules, PathRules s.net region_out_port path rules ∧ rules.map (fun r => Node.dpid r.1) = path ∧ path.Nodup ∧
      ∀ xid xid_to_packet xid_to_packet_timestamp xid_to_buffer_id,
        Ready { s with xid_to_packet, xid_to_packet_timestamp, xid_to_buffer_id } →
        wp (cc_flow_mod_handler env xid in_dpid out_dpid region_out_port dst_mac)
          { s with xid_to_packet, xid_to_packet_timestamp, xid_to_buffer_id }
          (fun _ s' => rulesIn (sentOut s s') = rules.map fun r => (r.1, [.eth_dst dst_mac], r.2))
          fun _ s' => 2 ^ 32 ≤ in_dpid ∧ rulesIn (sentOut s s') = rules.map fun r => (r.1, [.eth_dst dst_mac], r.2) := by
  have hshort := env.nx.shortest_path_ok _ _ _ _ hpath
  have hin : in_dpid ∈ s.datapaths := by
    obtain ⟨d, hmem, hd⟩ := hconn (.dpid in_dpid) (List.mem_of_head? hshort.1.head)
    cases hd
    exact hmem
  -- the rules of a path are determined, so those sent without a pending packet are the rules
  obtain ⟨rules, hrules⟩ := exists_pathRules hports hshort.1.chain hconn hshort.1.last region_out_port
  refine ⟨rules, hrules, pathRules_switches hrules, hshort.nodup, fun xid packets stamps buffers hready => ?_⟩
  have hsame : ∀ {s' : Layer2Switch env.nx.Graph} {released}, Programs { s with
        xid_to_packet := packets, xid_to_packet_timestamp := stamps, xid_to_buffer_id := buffers } s' dst_mac region_out_port path released →
      rulesIn (sentOut s s') = rules.map fun r => (r.1, [.eth_dst dst_mac], r.2) := by
    intro s' released hprog
    obtain ⟨out, rules', hout, _, hrulesIn, hrules'⟩ := hprog
    have hsent : s'.switch_out = s.switch_out ++ out := hout
    rw [sentOut_append hsent, hrulesIn, pathRules_unique hrules' hrules]
  refine wp_mono (wp_flow_mod_sends hready xid hwin hin hpath) (fun _ s' hs' => ?_) fun _ s' hs' => ?_
  · obtain ⟨_, _, hprog⟩ := hs'
    exact hsame hprog
  · rcases hs' with ⟨hbroken, _⟩ | ⟨_, hlarge, _, hprog⟩
    · exact absurd hconn hbroken
    · exact ⟨hlarge, hsame hprog⟩

def lineRun : List LocalEvent :=
  [.SwitchFeatures ⟨1, "10.0.0.1"⟩, .SwitchFeatures ⟨2, "10.0.0.1"⟩, .SwitchFeatures ⟨3, "10.0.0.1"⟩,
    .TopologyChange ⟨[1, 2, 3], [], [⟨⟨1, 1⟩, ⟨2, 1⟩⟩, ⟨⟨2, 2⟩, ⟨3, 1⟩⟩]⟩]

def lineState : Layer2Switch sampleLocalEnv.nx.Graph := lineRun.foldl (step sampleLocalEnv) (init sampleLocalEnv 0)

theorem ready_lineState : Ready lineState := ready_run 0 lineRun

theorem branches_install_same_line : ∃ rules : List (Nat × List OFPActionOutput),
    PathRules lineState.net 7 [.dpid 1, .dpid 2, .dpid 3] rules ∧
    wp (cc_flow_mod_handler sampleLocalEnv 5 1 3 7 (asciiText "00:00:00:00:00:09")) lineState
      (fun _ s' => rulesIn (sentOut lineState s') =
        rules.map fun r => (r.1, [.eth_dst (asciiText "00:00:00:00:00:09")], r.2)) (fun _ _ => False) ∧
    wp (cc_flow_mod_handler sampleLocalEnv 5 1 3 7 (asciiText "00:00:00:00:00:09"))
      { lineState with
        xid_to_packet := AList.insert 5 none ∅
        xid_to_packet_timestamp := AList.insert 5 0 ∅
        xid_to_buffer_id := AList.insert 5 8 ∅ }
      (fun _ s' => rulesIn (sentOut lineState s') =
        rules.map fun r => (r.1, [.eth_dst (asciiText "00:00:00:00:00:09")], r.2)) (fun _ _ => False) := by
  obtain ⟨rules, hrules, -, -, hsame⟩ := branches_install_same sampleLocalEnv lineState ready_lineState.ports 1 3 7
    (asciiText "00:00:00:00:00:09") [.dpid 1, .dpid 2, .dpid 3] (by decide +kernel) (by decide +kernel) (by decide +kernel)
  refine ⟨rules, hrules, wp_mono (hsame 5 _ _ _ ready_lineState) (fun _ _ h => h) fun _ _ h => absurd h.1 (by decide),
    wp_mono (hsame 5 _ _ _ ?_) (fun _ _ h => h) fun _ _ h => absurd h.1 (by decide)⟩
  refine ⟨ready_lineState.keyed, fun x hx => ?_, ready_lineState.ports⟩
  have hx : x = 5 ∨ x ∈ (∅ : Dict Nat (Option Bytes)) := (AList.mem_insert _).mp hx
  rw [or_iff_left (AList.notMem_empty x)] at hx
  exact ⟨(AList.mem_insert _).mpr (.inl hx), (AList.mem_insert _).mpr (.inl hx)⟩

end Layer2Switch

end VnfDockerNet
