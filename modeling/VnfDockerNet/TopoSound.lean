import VnfDockerNet.Registry

/-!
# The graph of controllers

GRAPH_INFO adds an edge for a window between two controllers, together with its
mirror image, and only when the edge is not there yet. Without DATAPATH_LEAVE
no edge ever goes, so both directions stay in step although only one of them is
looked up.
-/

namespace VnfDockerNet

open Python Networkx Runs

theorem LinkData.flip_flip (a : LinkData) : a.flip.flip = a := rfl

namespace AppManager

section
variable {env : Env}

theorem sameTopo_dispatch (lc : Nat) (ev : Event MsgUp) (s : AppManager env.nx.Graph) (hh : ev.msg ≠ .HelloUp)
    (hl : ∀ dpid, ev.msg ≠ .DatapathLeave dpid) (hg : ∀ text, ev.msg ≠ .GraphInfo text) :
    Always (dispatch_event env lc ev) s fun s' => s'.LC_LEVEL_TOPO = s.LC_LEVEL_TOPO := by
  refine Always.mono (outcome_dispatch lc ev s) ?_
  intro s' hout
  cases hout with
  | hello lcid x msgs hmsg => exact absurd hmsg hh
  | leave dpid hosts dps dps' role load win g hmsg => exact absurd hmsg (hl dpid)
  | graph ws g hmsg =>
    obtain ⟨text, hmsg⟩ := hmsg
    exact absurd hmsg (hg text)
  | connect | hosts | gid | packetIn | load | echo | same => rfl

/-- Edges lead from one known controller to another one, from switch to switch. -/
structure Wired (s : AppManager env.nx.Graph) : Prop where
  apart : ∀ u v a, env.nx.HasEdge s.LC_LEVEL_TOPO u v a → u ≠ v ∧ a.left_dpid ≠ a.right_dpid
  win : ∀ u v a, env.nx.HasEdge s.LC_LEVEL_TOPO u v a → HasWin s.LC_LEVEL_TOPO u ∧ HasWin s.LC_LEVEL_TOPO v
  ends : ∀ u v a, env.nx.HasEdge s.LC_LEVEL_TOPO u v a → u ∈ s.local_ctrl_list ∧ v ∈ s.local_ctrl_list

/-- What every run keeps: the ids, the homes, and the edges between them. -/
structure TopoInv (s : AppManager env.nx.Graph) : Prop where
  registered : Registered s
  homes : HomesKnown s
  wired : Wired s

theorem TopoInv.home {s : AppManager env.nx.Graph} (h : TopoInv s) {d : Nat} {u : Lcid} (hu : homeOf s d = some u) :
    u ∈ s.local_ctrl_list ∧ (env.nx.node s.LC_LEVEL_TOPO u).isSome := by
  cases hget : s.datapath_list.get d with
  | none =>
    unfold homeOf at hu
    rw [hget] at hu
    cases hu
  | some dp =>
    obtain ⟨l, i, hl, hi⟩ := h.homes d dp hget
    unfold homeOf at hu
    rw [hget, Option.bind_some, hl, Option.map_some, hi, Option.some.injEq] at hu
    subst hu
    obtain ⟨_, hn, hc⟩ := h.registered.known _ i (h.registered.numbered l i hi)
    exact ⟨hc, hn⟩

theorem TopoInv.ready {s : AppManager env.nx.Graph} (h : TopoInv s) : WindowReady s := by
  refine ⟨fun d hd => ?_, h.wired.win⟩
  obtain ⟨i, hi⟩ := h.homes.homeOf hd
  exact ⟨some i, hi, (h.home hi).2⟩

theorem TopoInv.regraph {s : AppManager env.nx.Graph} (h : TopoInv s) {g : env.nx.Graph}
    (hnode : ∀ u, (env.nx.node s.LC_LEVEL_TOPO u).isSome → (env.nx.node g u).isSome)
    (hw : Wired { s with LC_LEVEL_TOPO := g }) : TopoInv { s with LC_LEVEL_TOPO := g } :=
  ⟨h.registered.same ⟨fun _ => rfl, fun _ => rfl, rfl, rfl, rfl, hnode⟩, h.homes, hw⟩

theorem TopoInv.rewinned {s : AppManager env.nx.Graph} (h : TopoInv s) {g : env.nx.Graph}
    (hg : Rewinned s.LC_LEVEL_TOPO g) : TopoInv { s with LC_LEVEL_TOPO := g } := by
  refine h.regraph hg.2.1 ⟨fun u v a ha => ?_, fun u v a ha => ?_, fun u v a ha => ?_⟩
  · exact h.wired.apart u v a (hg.hasEdge.mp ha)
  · obtain ⟨hu, hv⟩ := h.wired.win u v a (hg.hasEdge.mp ha)
    exact ⟨hg.2.2 u hu, hg.2.2 v hv⟩
  · exact h.wired.ends u v a (hg.hasEdge.mp ha)

theorem node_add_edge_of_some {g : env.nx.Graph} {n : Lcid} {x : LcNode} (h : env.nx.node g n = some x) (u v : Lcid)
    (a : LinkData) : env.nx.node (env.nx.add_edge g u v a) n = some x := by
  rw [env.nx.node_add_edge, h]
  split <;> rfl

theorem hasWin_add_edge {g : env.nx.Graph} {n : Lcid} (h : HasWin g n) (u v : Lcid) (a : LinkData) :
    HasWin (env.nx.add_edge g u v a) n := by
  obtain ⟨x, hx, hw⟩ := h
  exact ⟨x, node_add_edge_of_some hx u v a, hw⟩

theorem TopoInv.link {s : AppManager env.nx.Graph} (h : TopoInv s) {g : env.nx.Graph} {u v : Lcid} {a : LinkData}
    (hg : Rewinned s.LC_LEVEL_TOPO g) (hu : HasWin g u) (hv : HasWin g v) (hne : u ≠ v)
    (hl : homeOf s a.left_dpid = some u) (hr : homeOf s a.right_dpid = some v) :
    TopoInv { s with LC_LEVEL_TOPO := env.nx.add_edge (env.nx.add_edge g u v a) v u a.flip } := by
  have hwin : ∀ n, HasWin g n → HasWin (env.nx.add_edge (env.nx.add_edge g u v a) v u a.flip) n := fun n hn =>
    hasWin_add_edge (hasWin_add_edge hn u v a) v u a.flip
  have hapart : a.left_dpid ≠ a.right_dpid := fun heq => by
    rw [heq, hr] at hl
    cases hl
    exact hne rfl
  have hcu := (h.home hl).1
  have hcv := (h.home hr).1
  refine h.regraph (fun n hn => ?_) ⟨fun u' v' b hb => ?_, fun u' v' b hb => ?_, fun u' v' b hb => ?_⟩
  · obtain ⟨x, hx⟩ := Option.isSome_iff_exists.mp (hg.2.1 n hn)
    rw [node_add_edge_of_some (node_add_edge_of_some hx u v a) v u a.flip]
    rfl
  all_goals
    rcases env.nx.hasEdge_add_edge.mp hb with ⟨rfl, rfl, rfl⟩ | hb
  · exact ⟨hne.symm, hapart.symm⟩
  · rcases env.nx.hasEdge_add_edge.mp hb with ⟨rfl, rfl, rfl⟩ | hb
    · exact ⟨hne, hapart⟩
    · exact h.wired.apart u' v' b (hg.hasEdge.mp hb)
  · exact ⟨hwin _ hv, hwin _ hu⟩
  · rcases env.nx.hasEdge_add_edge.mp hb with ⟨rfl, rfl, rfl⟩ | hb
    · exact ⟨hwin _ hu, hwin _ hv⟩
    · obtain ⟨hu', hv'⟩ := h.wired.win u' v' b (hg.hasEdge.mp hb)
      exact ⟨hwin u' (hg.2.2 u' hu'), hwin v' (hg.2.2 v' hv')⟩
  · exact ⟨hcv, hcu⟩
  · rcases env.nx.hasEdge_add_edge.mp hb with ⟨rfl, rfl, rfl⟩ | hb
    · exact ⟨hcu, hcv⟩
    · exact h.wired.ends u' v' b (hg.hasEdge.mp hb)

theorem topoInv_handleWindows (I : env.nx.Graph → Prop) (hkeep : ∀ g g', I g → Rewinned g g' → I g')
    (hadd : ∀ g g' u v a, I g → Rewinned g g' → u ≠ v → ¬ env.nx.HasEdge g u v a →
      I (env.nx.add_edge (env.nx.add_edge g' u v a) v u a.flip))
    (ws : List Window) {s : AppManager env.nx.Graph} (h : TopoInv s) (hI : I s.LC_LEVEL_TOPO) :
    wp (handleWindows env ws) s (fun _ s' => TopoInv s' ∧ I s'.LC_LEVEL_TOPO)
      fun _ s' => (TopoInv s' ∧ I s'.LC_LEVEL_TOPO) ∧ ∃ w ∈ ws, ¬ w.complete := by
  refine wp_mono (wp_handleWindows (fun s' => TopoInv s' ∧ I s'.LC_LEVEL_TOPO) (fun _ => True) ?_ ?_ ws s ⟨h, hI⟩
    fun _ _ => trivial) (fun _ _ h => h) fun _ _ h => ⟨h.1, h.2 fun s hs => hs.1.ready⟩
  · intro s g hpre hg
    obtain ⟨hs, hI⟩ := hpre
    exact ⟨hs.rewinned hg, hkeep _ g hI hg⟩
  · intro s g u v a w hpre _ hg hu hv _ hne hl hr hnew
    obtain ⟨hs, hI⟩ := hpre
    exact ⟨hs.link hg hu hv hne hl hr, hadd _ g u v a hI hg hne hnew⟩

theorem Wired.spanning {s s' : AppManager env.nx.Graph} (h : Wired s)
    (hg : env.nx.Spanning s'.LC_LEVEL_TOPO s.LC_LEVEL_TOPO) (hc : s'.local_ctrl_list = s.local_ctrl_list) :
    Wired s' where
  apart u v a ha := h.apart u v a (hg.2 u v a ha)
  win u v a ha := by
    unfold HasWin
    rw [hg.1, hg.1]
    exact h.win u v a (hg.2 u v a ha)
  ends u v a ha := by
    rw [hc]
    exact h.ends u v a (hg.2 u v a ha)

theorem Wired.helloed {s : AppManager env.nx.Graph} (h : Wired s) (lc lcid : Nat) : Wired (helloed s lc lcid) := by
  have hedge : ∀ u v a, env.nx.HasEdge (AppManager.helloed s lc lcid).LC_LEVEL_TOPO u v a →
      env.nx.HasEdge s.LC_LEVEL_TOPO u v a := fun u v a ha => by
    unfold AppManager.helloed at ha
    simp only at ha
    split at ha
    · exact ha
    · exact env.nx.hasEdge_add_node.mp ha
  have hwin : ∀ u, HasWin s.LC_LEVEL_TOPO u → HasWin (AppManager.helloed s lc lcid).LC_LEVEL_TOPO u := fun u hu => by
    obtain ⟨x, hx, hw⟩ := hu
    unfold AppManager.helloed HasWin
    simp only
    split
    · exact ⟨x, hx, hw⟩
    · rw [env.nx.node_add_node]
      split
      · rename_i hu
        subst hu
        rw [hx]
        exact ⟨_, rfl, hw⟩
      · exact ⟨x, hx, hw⟩
  have hctrl : ∀ u, u ∈ s.local_ctrl_list → u ∈ (AppManager.helloed s lc lcid).local_ctrl_list := fun u hu =>
    AList.mem_insert _ |>.mpr (Or.inr hu)
  refine ⟨fun u v a ha => h.apart u v a (hedge u v a ha), fun u v a ha => ?_, fun u v a ha => ?_⟩
  · obtain ⟨hu, hv⟩ := h.win u v a (hedge u v a ha)
    exact ⟨hwin u hu, hwin v hv⟩
  · obtain ⟨hu, hv⟩ := h.ends u v a (hedge u v a ha)
    exact ⟨hctrl u hu, hctrl v hv⟩

theorem topoInv_init (address : Nat → String × Nat) (xid : Nat → Nat) : TopoInv (init env address xid) where
  registered := registered_init address xid
  homes := homesKnown_init address xid
  wired := ⟨fun _ _ _ h => absurd h (env.nx.not_hasEdge_empty), fun _ _ _ h => absurd h (env.nx.not_hasEdge_empty),
    fun _ _ _ h => absurd h (env.nx.not_hasEdge_empty)⟩

theorem wired_dispatch {s : AppManager env.nx.Graph} (r : Received) (h : TopoInv s) :
    Always (dispatch_event env r.lc r.ev) s Wired := by
  cases hmsg : r.ev.msg with
  | HelloUp =>
    unfold dispatch_event
    rw [hmsg]
    refine Always.mono (always_hello_up r.lc s) ?_
    intro _ hpost
    obtain ⟨lcid, x, msgs, _, rfl, _⟩ := hpost
    exact (h.wired.helloed r.lc lcid).spanning (.refl _ _) rfl
  | DatapathLeave dpid =>
    unfold dispatch_event
    rw [hmsg]
    refine Always.mono (always_datapath_leave r.lc dpid s) ?_
    intro _ hpost
    obtain ⟨hosts, dps, dps', role, load, win, g, rfl, _, _, _, _, hg⟩ := hpost
    exact h.wired.spanning hg rfl
  | GraphInfo text =>
    unfold dispatch_event
    rw [hmsg]
    refine wp_graph_info (fun ws _ => ?_) fun _ _ => h.wired
    have hws : TopoInv { s with local_windows := s.local_windows.insert r.lc ws } :=
      ⟨h.registered.same ⟨fun _ => rfl, fun _ => rfl, rfl, rfl, rfl, fun _ h => h⟩, h.homes,
        h.wired.spanning (.refl _ _) rfl⟩
    refine wp_mono (topoInv_handleWindows (fun _ => True) (fun _ _ _ _ => trivial) (fun _ _ _ _ _ _ _ _ _ => trivial)
      ws hws trivial) (fun _ _ h => h.1.wired) fun _ _ h => h.1.1.wired
  | DPConnected | GidRequest | PacketIn | LoadReport | EchoReply | HostConnected | HostLeave | RoleNotify | Error
  | BarrierReply =>
    have hh : r.ev.msg ≠ .HelloUp := fun h => by rw [hmsg] at h; cases h
    have htopo := sameTopo_dispatch r.lc r.ev s hh (fun _ h => by rw [hmsg] at h; cases h)
      fun _ h => by rw [hmsg] at h; cases h
    have hctrls := sameCtrls_dispatch r.lc r.ev s hh
    have hboth := wp_and htopo hctrls
    refine Always.mono hboth ?_
    intro s' hpost
    obtain ⟨ht, hc⟩ := hpost
    exact h.wired.spanning (ht ▸ .refl _ _) hc.ctrls

theorem topoInv_step {s : AppManager env.nx.Graph} {r : Received} (h : TopoInv s) (ha : Accepts env s r) :
    TopoInv (receive env s r) :=
  ⟨(registered_step r h.registered).1, homesKnown_step h.registered h.homes ha,
    receive_of_always _ (fun _ hs => ⟨hs.apart, hs.win, hs.ends⟩) (wired_dispatch r h)⟩

/-! ## Both directions -/

def Stays (r : Received) : Prop :=
  match r.ev.msg with
  | .DatapathLeave _ => False
  | _ => True

instance : ∀ r, Decidable (Stays r)
  | ⟨_, _, .DatapathLeave _⟩ => isFalse not_false
  | ⟨_, _, .HelloUp⟩ | ⟨_, _, .DPConnected ..⟩ | ⟨_, _, .GraphInfo _⟩ | ⟨_, _, .GidRequest _⟩ | ⟨_, _, .PacketIn ..⟩
  | ⟨_, _, .LoadReport ..⟩ | ⟨_, _, .RoleNotify ..⟩ | ⟨_, _, .EchoReply _⟩ | ⟨_, _, .Error ..⟩ | ⟨_, _, .BarrierReply⟩
  | ⟨_, _, .HostConnected ..⟩ | ⟨_, _, .HostLeave ..⟩ => isTrue trivial

/-- Every edge has its mirror image, and none is there twice. -/
def Symmetric (g : env.nx.Graph) : Prop := env.nx.Mirrored LinkData.flip g ∧ env.nx.NoTwins g

theorem symmetric_rewinned {g g' : env.nx.Graph} (h : Symmetric g) (hg : Rewinned g g') : Symmetric g' := by
  refine ⟨fun u v a ha => hg.hasEdge.mpr (h.1 u v a (hg.hasEdge.mp ha)), fun u v k k' a hk hk' => ?_⟩
  rw [hg.1] at hk hk'
  exact h.2 u v k k' a hk hk'

theorem symmetric_link {g g' : env.nx.Graph} {u v : Lcid} {a : LinkData} (h : Symmetric g) (hg : Rewinned g g')
    (hne : u ≠ v) (hn : ¬ env.nx.HasEdge g u v a) :
    Symmetric (env.nx.add_edge (env.nx.add_edge g' u v a) v u a.flip) := by
  have hg' := symmetric_rewinned h hg
  exact ⟨hg'.1.add_pair env.nx LinkData.flip_flip, hg'.1.noTwins_add_pair env.nx LinkData.flip_flip hg'.2 hne
    fun ha => hn (hg.hasEdge.mp ha)⟩

theorem symmetric_add_node {g : env.nx.Graph} (h : Symmetric g) (n : Lcid) (f : LcNode → LcNode) :
    Symmetric (env.nx.add_node g n f) := by
  refine ⟨fun u v a ha => ?_, fun u v k k' a hk hk' => ?_⟩
  · exact env.nx.hasEdge_add_node.mpr (h.1 u v a (env.nx.hasEdge_add_node.mp ha))
  · rw [env.nx.edge_add_node] at hk hk'
    exact h.2 u v k k' a hk hk'

theorem wp_graph_info_symmetric {s : AppManager env.nx.Graph} (lc : Nat) (text : Bytes) (h : TopoInv s)
    (hs : Symmetric s.LC_LEVEL_TOPO) :
    wp (_tflcp_graph_info_handler env lc text) s (fun _ s' => Symmetric s'.LC_LEVEL_TOPO) fun _ s' =>
      Symmetric s'.LC_LEVEL_TOPO ∧ ∀ ws, env.json_loads text = .ok ws → ∃ w ∈ ws, ¬ w.complete := by
  refine wp_graph_info (fun ws hws => ?_) fun e he => ⟨hs, fun ws hws => by rw [he] at hws; cases hws⟩
  have hinv : TopoInv { s with local_windows := s.local_windows.insert lc ws } :=
    ⟨h.registered.same ⟨fun _ => rfl, fun _ => rfl, rfl, rfl, rfl, fun _ h => h⟩, h.homes,
      h.wired.spanning (.refl _ _) rfl⟩
  refine wp_mono (topoInv_handleWindows Symmetric (fun _ _ => symmetric_rewinned)
    (fun _ _ _ _ _ => symmetric_link) ws hinv hs) (fun _ _ h => h.2) fun _ _ h => ⟨h.1.2, fun ws' hws' => ?_⟩
  rw [hws] at hws'
  cases hws'
  exact h.2

theorem symmetric_step {s : AppManager env.nx.Graph} {r : Received} (h : TopoInv s) (hs : Symmetric s.LC_LEVEL_TOPO)
    (hstay : Stays r) : Symmetric (receive env s r).LC_LEVEL_TOPO := by
  refine receive_of_always (fun s' => Symmetric s'.LC_LEVEL_TOPO) (fun _ hs => hs) ?_
  cases hmsg : r.ev.msg with
  | HelloUp =>
    unfold dispatch_event
    rw [hmsg]
    refine Always.mono (always_hello_up r.lc s) ?_
    intro _ hpost
    obtain ⟨lcid, x, msgs, _, rfl, _⟩ := hpost
    show Symmetric (helloed s r.lc lcid).LC_LEVEL_TOPO
    unfold helloed
    simp only
    split
    · exact hs
    · exact symmetric_add_node hs _ _
  | DatapathLeave dpid =>
    unfold Stays at hstay
    rw [hmsg] at hstay
    exact hstay.elim
  | GraphInfo text =>
    unfold dispatch_event
    rw [hmsg]
    exact wp_mono (wp_graph_info_symmetric r.lc text h hs) (fun _ _ h => h) fun _ _ h => h.1
  | DPConnected | GidRequest | PacketIn | LoadReport | EchoReply | HostConnected | HostLeave | RoleNotify | Error
  | BarrierReply =>
    have htopo := sameTopo_dispatch r.lc r.ev s (fun h => by rw [hmsg] at h; cases h)
      (fun _ h => by rw [hmsg] at h; cases h) fun _ h => by rw [hmsg] at h; cases h
    refine Always.mono htopo ?_
    intro s' ht
    rw [ht]
    exact hs

/-- **The controller graph is symmetric**, without loops and without equal
parallel edges, in every run in which no switch leaves, and its handler returns
on every list of complete windows. -/
theorem controller_topology_symmetric (env : Env) (address : Nat → String × Nat) (xid : Nat → Nat) (rs : List Received)
    (h : Allowed (receive env) (fun s r => Accepts env s r ∧ Stays r) (init env address xid) rs) :
    let s := rs.foldl (receive env) (init env address xid)
    (∀ lc text ws, env.json_loads text = .ok ws → (∀ w ∈ ws, w.complete) →
      ∃ s', _tflcp_graph_info_handler env lc text s = .ok () s') ∧
    env.nx.NoTwins s.LC_LEVEL_TOPO ∧
    (∀ u a, ¬ env.nx.HasEdge s.LC_LEVEL_TOPO u u a) ∧
    ∀ u v l o r i, env.nx.HasEdge s.LC_LEVEL_TOPO u v ⟨l, o, r, i⟩ ↔ env.nx.HasEdge s.LC_LEVEL_TOPO v u ⟨r, i, l, o⟩ := by
  have hinv : TopoInv (rs.foldl (receive env) (init env address xid)) ∧
      Symmetric (rs.foldl (receive env) (init env address xid)).LC_LEVEL_TOPO := by
    refine Allowed.invariant (fun s => TopoInv s ∧ Symmetric s.LC_LEVEL_TOPO) ?_ ⟨topoInv_init address xid, ?_⟩ h
    · exact fun s r hs hr => ⟨topoInv_step hs.1 hr.1, symmetric_step hs.1 hs.2 hr.2⟩
    · exact ⟨fun _ _ _ h => absurd h (env.nx.not_hasEdge_empty), env.nx.noTwins_empty⟩
  obtain ⟨hinv, hsym⟩ := hinv
  refine ⟨fun lc text ws hws hc => ?_, hsym.2, fun u a ha => (hinv.wired.apart u u a ha).1 rfl, fun u v l o r i =>
    hsym.1.iff env.nx LinkData.flip_flip⟩
  have hwp := wp_mono (wp_graph_info_symmetric lc text hinv hsym) (fun _ _ h => h) fun _ _ herr => by
    obtain ⟨w, hw, hn⟩ := herr.2 ws hws
    exact hn (hc w hw)
  obtain ⟨_, s', hs', _⟩ := ok_of_wp hwp
  exact ⟨s', hs'⟩

/-- One link as its two ends report it. -/
def linkReports : List (Bytes × List Window) :=
  [(asciiText "[\x7b\"src_dpid\": 11, \"src_port_no\": 1, \"dst_dpid\": 12, \"dst_port_no\": 2\x7d]",
      [⟨some 11, some 1, some 12, some 2⟩]),
    (asciiText "[\x7b\"src_dpid\": 12, \"src_port_no\": 2, \"dst_dpid\": 11, \"dst_port_no\": 1\x7d]",
      [⟨some 12, some 2, some 11, some 1⟩])]

/-- Both ends say hello, connect their switch and report the link. -/
def linkRun : List Received :=
  [received 0 1 .HelloUp, received 1 1 .HelloUp, received 0 2 (.DPConnected 11 true),
    received 1 2 (.DPConnected 12 true), received 0 3 (.GraphInfo (linkReports.map Prod.fst)[0]),
    received 1 3 (.GraphInfo (linkReports.map Prod.fst)[1])]

theorem controller_topology_symmetric_both_report :
    let s := linkRun.foldl (receive (sampleEnv linkReports)) (sampleInit linkReports)
    (∀ lc text ws, (sampleEnv linkReports).json_loads text = .ok ws → (∀ w ∈ ws, w.complete) →
      ∃ s', _tflcp_graph_info_handler (sampleEnv linkReports) lc text s = .ok () s') ∧
    (sampleEnv linkReports).nx.NoTwins s.LC_LEVEL_TOPO ∧
    (∀ u a, ¬ (sampleEnv linkReports).nx.HasEdge s.LC_LEVEL_TOPO u u a) ∧
    ∀ u v l o r i, (sampleEnv linkReports).nx.HasEdge s.LC_LEVEL_TOPO u v ⟨l, o, r, i⟩ ↔
      (sampleEnv linkReports).nx.HasEdge s.LC_LEVEL_TOPO v u ⟨r, i, l, o⟩ :=
  controller_topology_symmetric (sampleEnv linkReports) _ _ linkRun (by decide)

end

end AppManager

end VnfDockerNet
