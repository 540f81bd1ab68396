import VnfDockerNet.LocalHostSound

/-!
# The links in the graph

A topology event adds the links it lists and takes none out; only a switch that
leaves takes its links with it. So the edges between switches are those of the
last event that named them, whether ryu still lists the link or not.
-/

namespace VnfDockerNet

open Python Networkx Runs

namespace Layer2Switch

variable {env : LocalEnv} {s s' : Layer2Switch env.nx.Graph}

/-! ## Steps that touch no link -/

def Closed (net : env.nx.Graph) : Prop :=
  ∀ u v, (env.nx.edge net u v).isSome = true → env.nx.has_node net u = true ∧ env.nx.has_node net v = true

section
variable {net net' : env.nx.Graph}

theorem Closed.add_node (h : Closed net) (n : Node) : Closed (env.nx.add_node net n) := by
  intro u v huv
  rw [env.nx.edge_add_node] at huv
  obtain ⟨hu, hv⟩ := h u v huv
  simp [env.nx.has_node_add_node, hu, hv]

theorem Closed.add_edge (h : Closed net) (u v : Node) (f : Option Nat → Option Nat) :
    Closed (env.nx.add_edge net u v f) := by
  intro u' v' huv
  rw [env.nx.edge_add_edge] at huv
  rw [env.nx.has_node_add_edge, env.nx.has_node_add_edge]
  by_cases hnew : u' = u ∧ v' = v
  · simp [hnew]
  · rw [if_neg hnew] at huv
    obtain ⟨hu, hv⟩ := h u' v' huv
    simp [hu, hv]

theorem Closed.remove_node (h : Closed net) {n : Node} (hg : env.nx.remove_node net n = .ok net') : Closed net' := by
  intro u v huv
  rw [env.nx.edge_remove_node _ _ _ _ _ hg] at huv
  by_cases hn : u = n ∨ v = n
  · rw [if_pos hn] at huv
    cases huv
  · rw [if_neg hn] at huv
    obtain ⟨hu, hv⟩ := h u v huv
    rw [not_or] at hn
    simp [env.nx.has_node_remove_node _ _ _ _ hg, hu, hv, hn.1, hn.2]

end

structure KeepsLinks (s s' : Layer2Switch env.nx.Graph) : Prop where
  closed : Closed s.net → Closed s'.net
  edges : ∀ a b, env.nx.edge s'.net (.dpid a) (.dpid b) = env.nx.edge s.net (.dpid a) (.dpid b)

instance : IsPreorder (Layer2Switch env.nx.Graph) KeepsLinks where
  refl _ := ⟨id, fun _ _ => rfl⟩
  trans _ _ _ h h' := ⟨h'.closed ∘ h.closed, fun a b => (h'.edges a b).trans (h.edges a b)⟩

theorem KeepsLinks.of_net (h : s'.net = s.net) : KeepsLinks s s' := by
  refine ⟨fun hc => ?_, fun a b => ?_⟩
  · rw [h]
    exact hc
  · rw [h]

theorem keepsLinks_sent (s : Layer2Switch env.nx.Graph) (xid : Nat) (msg : MsgUp) (_ : True) :
    KeepsLinks s { s with sent := s.sent ++ [⟨xid, msg⟩] } := .of_net rfl

theorem keepsLinks_forget (s : Layer2Switch env.nx.Graph) (mac : Bytes) (net : env.nx.Graph)
    (h : env.nx.remove_node s.net (.mac mac) = .ok net) : KeepsLinks s { s with net } := by
  refine ⟨fun hc => hc.remove_node h, fun a b => ?_⟩
  show env.nx.edge net _ _ = _
  rw [env.nx.edge_remove_node _ _ _ _ _ h]
  simp

theorem keepsLinks_learnHost (dpid in_port : Nat) (src : Bytes) : Moves KeepsLinks (learnHost env dpid in_port src) := by
  refine moves_learnHost (fun _ _ => .of_net rfl) keepsLinks_sent (fun _ _ => .of_net rfl) keepsLinks_forget
    (fun _ _ => trivial) (fun s mac => ⟨fun hc => hc.add_node _, fun a b => ?_⟩)
    (fun s dpid mac f => ⟨fun hc => hc.add_edge _ _ _, fun a b => ?_⟩)
    (fun s dpid mac f => ⟨fun hc => hc.add_edge _ _ _, fun a b => ?_⟩) (fun _ _ => trivial) dpid in_port src
  · rw [env.nx.edge_add_node]
  · rw [env.nx.edge_add_edge]
    simp
  · rw [env.nx.edge_add_edge]
    simp

theorem keepsLinks_send_msg (own_xid : Option Nat) (msg : MsgUp) : Moves KeepsLinks (send_msg env own_xid msg) :=
  moves_send_msg (P := fun _ => True) (fun _ _ => .of_net rfl) keepsLinks_sent own_xid trivial

theorem keepsLinks_reportLoads : ∀ l, Moves KeepsLinks (reportLoads env l)
  | [] => .pure _
  | _ :: l => .bind .get fun _ => .bind (.modify fun _ => .of_net rfl) fun _ =>
      .bind (keepsLinks_send_msg _ _) fun _ => keepsLinks_reportLoads l

theorem keepsLinks_removeMacs : ∀ l, Moves KeepsLinks (removeMacs env l)
  | [] => .pure _
  | mac :: l => by
    refine .bind (.modify fun s => ?_) fun _ => keepsLinks_removeMacs l
    cases hnet : env.nx.remove_node s.net (.mac mac) with
    | ok net => exact keepsLinks_forget s mac net hnet
    | error e => exact .of_net rfl

def Relinks : LocalEvent → Prop
  | .TopologyChange _ | .SwitchLeave _ => True
  | _ => False

theorem keepsLinks_handle {e : LocalEvent} (he : ¬ Relinks e) : Moves KeepsLinks (handle env e) := by
  unfold handle
  cases e with
  | SwitchFeatures datapath =>
    exact .bind (.modify fun _ => .of_net rfl) fun _ => .bind .get fun _ => .bind (keepsLinks_send_msg _ _) fun _ =>
      moves_add_flow (fun _ _ => .of_net rfl) _ _ _ _ _
  | RoleReply dpid role => exact .bind .get fun _ => keepsLinks_send_msg _ _
  | PacketIn now msg =>
    show Moves KeepsLinks (ofp_packet_in_handler env now msg)
    unfold ofp_packet_in_handler
    cases msg.pkt.eth with
    | none => exact .throw _
    | some eth =>
      refine .ite (moves_markPort (fun _ _ _ _ => .of_net rfl) _ _) ?_
      exact .bind (moves_countPacket (fun _ _ _ _ => .of_net rfl) _) fun _ => .bind (keepsLinks_learnHost _ _ _) fun _ =>
        moves_forward (fun _ _ => .of_net rfl) keepsLinks_sent (fun _ _ => .of_net rfl) (fun _ _ _ _ => .of_net rfl)
          (fun _ _ _ _ _ _ _ => trivial) now msg eth
  | TopologyChange api => exact absurd trivial he
  | SwitchLeave dpid => exact absurd trivial he
  | Connected => exact .modify fun _ => .of_net rfl
  | Downlink now ev =>
    exact moves_dispatch_event (fun _ _ => .of_net rfl) keepsLinks_sent (fun _ _ => .of_net rfl)
      (fun _ _ _ => .of_net rfl) (fun _ => trivial) (fun _ _ => .of_net rfl) now ev fun _ _ _ => .of_net rfl
  | LoadRound => exact .bind .get fun _ => .ite (.bind .get fun _ => keepsLinks_reportLoads _) (.pure _)
  | GraphInfoRound window_switches =>
    exact moves_graph_info_thread (fun _ _ => .of_net rfl) keepsLinks_sent (fun _ => trivial)
      (fun _ _ _ => .of_net rfl) (fun _ _ => .of_net rfl) window_switches
  | TimeoutRound now =>
    exact .bind .get fun _ => moves_expirePackets (fun _ _ _ => .of_net rfl) (fun _ _ _ _ => .of_net rfl) now _

/-! ## Steps that do -/

/-- The link has an end at port `p` of `a` and the other at `b`. -/
def TailAt (l : Link) (a b p : Nat) : Prop := (l.src = ⟨a, p⟩ ∧ l.dst.dpid = b) ∨ (l.dst = ⟨a, p⟩ ∧ l.src.dpid = b)

theorem edge_addLinks_cases (src dst : Link → LinkEnd) (a b : Nat) : ∀ (links : List Link) (net : env.nx.Graph),
    (∃ l ∈ links, (src l).dpid = a ∧ (dst l).dpid = b ∧
      env.nx.edge (addLinks env net src dst links) (.dpid a) (.dpid b) = some (some (src l).port_no)) ∨
    (∀ l ∈ links, ¬ ((src l).dpid = a ∧ (dst l).dpid = b)) ∧
      env.nx.edge (addLinks env net src dst links) (.dpid a) (.dpid b) = env.nx.edge net (.dpid a) (.dpid b)
  | [], _ => Or.inr ⟨fun _ hl => absurd hl List.not_mem_nil, rfl⟩
  | l :: links, net => by
    have hfold : addLinks env net src dst (l :: links) = addLinks env (env.nx.add_edge net (.dpid (src l).dpid)
      (.dpid (dst l).dpid) fun _ => some (src l).port_no) src dst links := rfl
    rw [hfold]
    rcases edge_addLinks_cases src dst a b links _ with ⟨l', hl', ha, hb, hedge⟩ | ⟨hnone, hedge⟩
    · exact Or.inl ⟨l', List.mem_cons_of_mem _ hl', ha, hb, hedge⟩
    · rw [hedge, env.nx.edge_add_edge]
      by_cases hhere : (src l).dpid = a ∧ (dst l).dpid = b
      · obtain ⟨rfl, rfl⟩ := hhere
        exact Or.inl ⟨l, List.mem_cons_self, rfl, rfl, if_pos ⟨rfl, rfl⟩⟩
      · refine Or.inr ⟨List.forall_mem_cons.mpr ⟨hhere, hnone⟩, if_neg fun h => hhere ?_⟩
        obtain ⟨ha, hb⟩ := h
        cases ha
        cases hb
        exact ⟨rfl, rfl⟩

theorem closed_addSwitches : ∀ (l : List Nat) {net : env.nx.Graph}, Closed net → Closed (addSwitches env net l)
  | [], _, h => h
  | _ :: l, _, h => closed_addSwitches l (h.add_node _)

theorem edge_addSwitches : ∀ (l : List Nat) (net : env.nx.Graph) (u v : Node),
    env.nx.edge (addSwitches env net l) u v = env.nx.edge net u v
  | [], _, _, _ => rfl
  | d :: l, net, u, v => (edge_addSwitches l (env.nx.add_node net (.dpid d)) u v).trans (env.nx.edge_add_node _ _ _ _)

theorem closed_addLinks (src dst : Link → LinkEnd) :
    ∀ (links : List Link) {net : env.nx.Graph}, Closed net → Closed (addLinks env net src dst links)
  | [], _, h => h
  | _ :: links, _, h => closed_addLinks src dst links (h.add_edge _ _ _)

def relinked (env : LocalEnv) (net : env.nx.Graph) (api : Topology) : env.nx.Graph :=
  addLinks env (addLinks env (addSwitches env net api.switch_list) Link.src Link.dst api.links_list)
    Link.dst Link.src api.links_list

theorem closed_relinked {net : env.nx.Graph} (h : Closed net) (api : Topology) : Closed (relinked env net api) :=
  closed_addLinks _ _ _ (closed_addLinks _ _ _ (closed_addSwitches _ h))

theorem edge_relinked (net : env.nx.Graph) (api : Topology) (a b : Nat) :
    (∃ l ∈ api.links_list, ∃ p, TailAt l a b p ∧
      env.nx.edge (relinked env net api) (.dpid a) (.dpid b) = some (some p)) ∨
    (∀ l ∈ api.links_list, ∀ p, ¬ TailAt l a b p) ∧
      env.nx.edge (relinked env net api) (.dpid a) (.dpid b) = env.nx.edge net (.dpid a) (.dpid b) := by
  unfold relinked
  rcases edge_addLinks_cases Link.dst Link.src a b api.links_list (addLinks env (addSwitches env net api.switch_list)
    Link.src Link.dst api.links_list) with ⟨l, hl, ha, hb, hedge⟩ | ⟨hback, hedge⟩
  · subst ha
    exact Or.inl ⟨l, hl, l.dst.port_no, Or.inr ⟨rfl, hb⟩, hedge⟩
  · rw [hedge]
    rcases edge_addLinks_cases Link.src Link.dst a b api.links_list (addSwitches env net api.switch_list) with
      ⟨l, hl, ha, hb, hedge⟩ | ⟨hto, hedge⟩
    · subst ha
      exact Or.inl ⟨l, hl, l.src.port_no, Or.inl ⟨rfl, hb⟩, hedge⟩
    · refine Or.inr ⟨fun l hl p htail => ?_, hedge.trans (edge_addSwitches _ _ _ _)⟩
      rcases htail with ⟨hsrc, hdst⟩ | ⟨hdst, hsrc⟩
      · exact hto l hl ⟨by rw [hsrc], hdst⟩
      · exact hback l hl ⟨by rw [hdst], hsrc⟩

theorem wp_get_topology_data_net (api : Topology) :
    wp (get_topology_data env api) s (fun _ s' => s'.net = relinked env s.net api)
      fun _ s' => s'.net = relinked env s.net api ∨ (api.window_switches ≠ [] ∧ s'.net = s.net) := by
  unfold get_topology_data
  cases hwin : api.window_switches with
  | cons w ws => exact Or.inr ⟨List.cons_ne_nil w ws, rfl⟩
  | nil =>
    simp only [joinWindows, recordWindows, wp_bind, wp_modify, wp_orRaise, wp_pure]
    refine ⟨fun _ _ => wp_send_msg _ _ (fun x y => ?_) fun x y _ _ => ?_, fun _ h => by cases h⟩
    · rfl
    · exact Or.inl rfl

theorem Closed.edge_none {net : env.nx.Graph} (h : Closed net) {n u v : Node} (hn : ¬ env.nx.has_node net n = true)
    (huv : u = n ∨ v = n) : env.nx.edge net u v = none := by
  rw [← Option.not_isSome_iff_eq_none]
  intro hsome
  obtain ⟨hu, hv⟩ := h u v hsome
  rcases huv with rfl | rfl
  · exact hn hu
  · exact hn hv

def Unlinked (d : Nat) (s s' : Layer2Switch env.nx.Graph) : Prop :=
  Closed s'.net ∧ ∀ a b, env.nx.edge s'.net (.dpid a) (.dpid b) =
    if a = d ∨ b = d then none else env.nx.edge s.net (.dpid a) (.dpid b)

theorem wp_removeNode_unlinked (h : Closed s.net) (d : Nat) :
    wp (removeNode env (.dpid d)) s (fun _ => Unlinked d s) fun _ => Unlinked d s := by
  unfold removeNode
  simp only [wp_bind, wp_get, wp_orRaise, wp_modify]
  refine ⟨fun g hg => ⟨h.remove_node hg, fun a b => ?_⟩, fun e he => ⟨h, fun a b => ?_⟩⟩
  · show env.nx.edge g _ _ = _
    rw [env.nx.edge_remove_node _ _ _ _ _ hg]
    simp
  · -- the node is not there, and neither are its edges
    have hn : ¬ env.nx.has_node s.net (.dpid d) = true := by
      intro hn
      obtain ⟨g, hg⟩ := env.nx.remove_node_ok _ _ hn
      rw [hg] at he
      cases he
    by_cases hab : a = d ∨ b = d
    · rw [if_pos hab]
      refine h.edge_none hn ?_
      rcases hab with rfl | rfl
      · exact Or.inl rfl
      · exact Or.inr rfl
    · rw [if_neg hab]

theorem wp_switch_leave_handler_links (h : Closed s.net) (d : Nat) :
    wp (switch_leave_handler env d) s (fun _ => Unlinked d s) fun _ => Unlinked d s := by
  have hrest : ∀ {x : App env Unit} {s₁ : Layer2Switch env.nx.Graph}, Moves KeepsLinks x → Unlinked d s s₁ →
      wp x s₁ (fun _ => Unlinked d s) fun _ => Unlinked d s := by
    intro x s₁ hx hs₁
    have hthen : ∀ s₂, KeepsLinks s₁ s₂ → Unlinked d s s₂ := fun s₂ hk =>
      ⟨hk.closed hs₁.1, fun a b => (hk.edges a b).trans (hs₁.2 a b)⟩
    exact wp_mono (hx s₁) (fun _ => hthen) fun _ => hthen
  unfold switch_leave_handler
  rw [wp_bind]
  refine wp_mono (wp_removeNode_unlinked h d) (fun _ s₁ hs₁ => hrest ?_ hs₁) fun _ _ hs₁ => hs₁
  exact .bind .get fun _ => .bind (.item _ _) fun _ => .bind (.modify fun _ => .of_net rfl) fun _ =>
    .bind .get fun _ => .bind (.item _ _) fun _ => .bind (.modify fun _ => .of_net rfl) fun _ =>
      .bind .get fun _ => .bind (.item _ _) fun _ => .bind (.modify fun _ => .of_net rfl) fun _ =>
        .bind .get fun _ => .bind (.item _ _) fun _ => .bind (keepsLinks_removeMacs _) fun _ =>
          .bind (.modify fun _ => .of_net rfl) fun _ => .bind (keepsLinks_send_msg _ _) fun _ =>
            .modify fun _ => .of_net rfl

theorem closed_step (hc : Closed s.net) (e : LocalEvent) : Closed (step env s e).net := by
  apply step_of_wp (I := fun s' => Closed s'.net)
  · exact fun _ h => h
  · by_cases he : Relinks e
    · cases e with
      | TopologyChange api =>
        refine wp_mono (wp_get_topology_data_net api) (fun _ s' hnet => ?_) fun _ s' hs' => ?_
        · rw [hnet]
          exact closed_relinked hc api
        · rcases hs' with hnet | ⟨-, hnet⟩
          · rw [hnet]
            exact closed_relinked hc api
          · rw [hnet]
            exact hc
      | SwitchLeave d => exact wp_mono (wp_switch_leave_handler_links hc d) (fun _ _ h => h.1) fun _ _ h => h.1
      | _ => exact he.elim
    · exact wp_mono (keepsLinks_handle he s) (fun _ _ h => h.closed hc) fun _ _ h => h.closed hc

/-! ## Runs -/

/-- No window is listed, so that `','.join(window_switches)` does not raise. -/
def WindowFree : LocalEvent → Prop
  | .TopologyChange api => api.window_switches = []
  | _ => True

/-- The event lists a link from port `p` of `a` to `b`, for `x = some p`. -/
def Names (a b : Nat) : LocalEvent → Option Nat → Prop
  | .TopologyChange api, x => ∃ l ∈ api.links_list, ∃ p, x = some p ∧ TailAt l a b p
  | _, _ => False

/-- The event lists a link of the pair, or one of the two leaves. -/
def Touches (a b : Nat) (e : LocalEvent) : Prop := (∃ x, Names a b e x) ∨ e = .SwitchLeave a ∨ e = .SwitchLeave b

structure LinkStep (e : LocalEvent) (s s' : Layer2Switch env.nx.Graph) : Prop where
  closed : Closed s'.net
  kept : ∀ a b, ¬ Touches a b e → env.nx.edge s'.net (.dpid a) (.dpid b) = env.nx.edge s.net (.dpid a) (.dpid b)
  found : ∀ a b, Touches a b e → ∀ x, env.nx.edge s'.net (.dpid a) (.dpid b) = some x → Names a b e x
  named : ∀ a b x, Names a b e x → (env.nx.edge s'.net (.dpid a) (.dpid b)).isSome = true

theorem LinkStep.of_keeps {e : LocalEvent} (hc : Closed s.net) (h : KeepsLinks s s') (he : ∀ a b, ¬ Touches a b e) :
    LinkStep e s s' :=
  ⟨h.closed hc, fun a b _ => h.edges a b, fun a b ht => absurd ht (he a b), fun a b x hn =>
    absurd (Or.inl ⟨x, hn⟩) (he a b)⟩

theorem linkStep_relinked {api : Topology} (hc : Closed s.net) (hnet : s'.net = relinked env s.net api) :
    LinkStep (.TopologyChange api) s s' := by
  refine ⟨?_, fun a b ht => ?_, fun a b ht x hx => ?_, fun a b x hn => ?_⟩
  · rw [hnet]
    exact closed_relinked hc api
  · rw [hnet]
    rcases edge_relinked s.net api a b with ⟨l, hl, p, htail, _⟩ | ⟨_, hedge⟩
    · exact absurd (Or.inl ⟨some p, l, hl, p, rfl, htail⟩) ht
    · exact hedge
  · rw [hnet] at hx
    rcases edge_relinked s.net api a b with ⟨l, hl, p, htail, hedge⟩ | ⟨hnone, _⟩
    · rw [hedge] at hx
      cases hx
      exact ⟨l, hl, p, rfl, htail⟩
    · rcases ht with ⟨y, l, hl, p, _, htail⟩ | he | he
      · exact absurd htail (hnone l hl p)
      · cases he
      · cases he
  · rw [hnet]
    rcases edge_relinked s.net api a b with ⟨l, hl, p, htail, hedge⟩ | ⟨hnone, _⟩
    · rw [hedge]
      rfl
    · obtain ⟨l, hl, p, _, htail⟩ := hn
      exact absurd htail (hnone l hl p)

theorem linkStep_unlinked {d : Nat} (h : Unlinked d s s') : LinkStep (.SwitchLeave d) s s' := by
  have htouches : ∀ a b, Touches a b (.SwitchLeave d) ↔ a = d ∨ b = d := by
    intro a b
    unfold Touches
    simp only [Names, exists_const, false_or, LocalEvent.SwitchLeave.injEq, eq_comm]
  refine ⟨h.1, fun a b ht => ?_, fun a b ht x hx => ?_, fun a b x hn => hn.elim⟩
  · rw [h.2, if_neg fun hab => ht ((htouches a b).mpr hab)]
  · rw [h.2, if_pos ((htouches a b).mp ht)] at hx
    cases hx

theorem linkStep_step (hc : Closed s.net) {e : LocalEvent} (hfree : WindowFree e) : LinkStep e s (step env s e) := by
  refine step_of_wp (fun s' h => ⟨h.closed, h.kept, h.found, h.named⟩) ?_
  by_cases he : Relinks e
  · cases e with
    | TopologyChange api =>
      refine wp_mono (wp_get_topology_data_net api) (fun _ _ => linkStep_relinked hc) fun _ s' hs' => ?_
      rcases hs' with hnet | ⟨hwin, -⟩
      · exact linkStep_relinked hc hnet
      · exact absurd hfree hwin
    | SwitchLeave d =>
      exact wp_mono (wp_switch_leave_handler_links hc d) (fun _ _ => linkStep_unlinked) fun _ _ => linkStep_unlinked
    | _ => exact he.elim
  · have hnot : ∀ a b, ¬ Touches a b e := by
      intro a b ht
      rcases ht with ⟨x, hx⟩ | rfl | rfl
      · cases e with
        | TopologyChange api => exact he trivial
        | _ => exact hx
      · exact he trivial
      · exact he trivial
    exact wp_mono (keepsLinks_handle he s) (fun _ _ h => .of_keeps hc h hnot) fun _ _ h => .of_keeps hc h hnot

theorem named_port {a b : Nat} {es : List LocalEvent} {x : Option Nat} (h : LastSet (Names a b) (Touches a b) es x) :
    ∃ p, x = some p := by
  obtain ⟨_, e, _, _, hn, _⟩ := h
  cases e with
  | TopologyChange api =>
    obtain ⟨_, _, p, rfl, _⟩ := hn
    exact ⟨p, rfl⟩
  | _ => exact hn.elim

/-- **The switch-to-switch edges are those of the last event that named the pair**,
unless one of the two has left since, and show the port of one of its links. -/
theorem edges_follow_reports (env : LocalEnv) (xid : Nat) (es : List LocalEvent) (hfree : ∀ e ∈ es, WindowFree e) (a b : Nat) :
    ((env.nx.edge (es.foldl (step env) (init env xid)).net (.dpid a) (.dpid b)).isSome = true ↔
      ∃ p, LastSet (Names a b) (Touches a b) es (some p)) ∧
    ∀ x, env.nx.edge (es.foldl (step env) (init env xid)).net (.dpid a) (.dpid b) = some x →
      ∃ p, x = some p ∧ LastSet (Names a b) (Touches a b) es (some p) := by
  have hclosed : Closed (init env xid).net := by
    intro u v huv
    have hnone : env.nx.edge (init env xid).net u v = none := env.nx.edge_empty u v
    rw [hnone] at huv
    cases huv
  have hstep := fun (s : Layer2Switch env.nx.Graph) e (he : WindowFree e) (hc : Closed s.net) => linkStep_step hc he
  obtain ⟨hfound, hnamed⟩ := lastSet_run (fun s => Closed s.net) WindowFree
    (fun s => env.nx.edge s.net (.dpid a) (.dpid b)) hclosed (env.nx.edge_empty _ _)
    (fun s e he hc => (hstep s e he hc).closed) (fun s e he hc => (hstep s e he hc).kept a b)
    (fun e x hn => Or.inl ⟨x, hn⟩) (fun s e he hc ht => ⟨(hstep s e he hc).found a b ht, (hstep s e he hc).named a b⟩) hfree
  have hport : ∀ x, env.nx.edge (es.foldl (step env) (init env xid)).net (.dpid a) (.dpid b) = some x →
      ∃ p, x = some p ∧ LastSet (Names a b) (Touches a b) es (some p) := by
    intro x hx
    have hlast := hfound x hx
    obtain ⟨p, rfl⟩ := named_port hlast
    exact ⟨p, rfl, hlast⟩
  refine ⟨⟨fun hsome => ?_, fun hlast => ?_⟩, hport⟩
  · obtain ⟨x, hx⟩ := Option.isSome_iff_exists.mp hsome
    obtain ⟨p, _, hlast⟩ := hport x hx
    exact ⟨p, hlast⟩
  · obtain ⟨p, hlast⟩ := hlast
    exact hnamed (some p) hlast

/-- A link is listed, no longer listed, and gone with its switch. -/
def linkThatDies : List LocalEvent :=
  [.TopologyChange ⟨[1, 2], [], [⟨⟨1, 1⟩, ⟨2, 1⟩⟩]⟩, .TopologyChange ⟨[1, 2], [], []⟩, .SwitchLeave 2]

theorem edges_follow_reports_leave :
    ((sampleLocalEnv.nx.edge (linkThatDies.foldl (step sampleLocalEnv) (init sampleLocalEnv 0)).net (.dpid 1) (.dpid 2)).isSome = true ↔
      ∃ p, LastSet (Names 1 2) (Touches 1 2) linkThatDies (some p)) ∧
    ∀ x, sampleLocalEnv.nx.edge (linkThatDies.foldl (step sampleLocalEnv) (init sampleLocalEnv 0)).net (.dpid 1) (.dpid 2) = some x →
      ∃ p, x = some p ∧ LastSet (Names 1 2) (Touches 1 2) linkThatDies (some p) :=
  edges_follow_reports sampleLocalEnv 0 linkThatDies (by simp [linkThatDies, WindowFree]) 1 2

/-- The edges between switches are those of the links, with the ports of their tails. -/
def Mirrors (net : env.nx.Graph) (links : List Link) : Prop :=
  ∀ a b, ((env.nx.edge net (.dpid a) (.dpid b)).isSome = true ↔ ∃ l ∈ links, ∃ p, TailAt l a b p) ∧
    ∀ x, env.nx.edge net (.dpid a) (.dpid b) = some x → ∃ p, x = some p ∧ ∃ l ∈ links, TailAt l a b p

/-- A link that ryu no longer lists stays. -/
theorem dead_link_stays :
    ¬ ∀ (env : LocalEnv) (xid : Nat) (es : List LocalEvent) (api : Topology), api.window_switches = [] →
      Mirrors ((es ++ [LocalEvent.TopologyChange api]).foldl (step env) (init env xid)).net api.links_list := by
  intro h
  have hmirrors := (h sampleLocalEnv 0 [.TopologyChange ⟨[1, 2], [], [⟨⟨1, 1⟩, ⟨2, 1⟩⟩]⟩] ⟨[1, 2], [], []⟩ rfl 1 2).1
  obtain ⟨l, hl, _⟩ := hmirrors.mp (by decide +kernel)
  exact absurd hl List.not_mem_nil

end Layer2Switch

end VnfDockerNet
