import VnfDockerNet.TopoSound

/-!
# Flow mods along a path of controllers

The handler of PACKET_IN leaves a controller by the first listed edge to the
next one and enters the next one by the edge with key 0, unless the source is
registered there. For the first controller `path[node_index-1]` is the last one.
The flow mods are a chain exactly if these edges fit together.
-/

namespace VnfDockerNet

open Python Networkx Runs

namespace AppManager

section
variable (env : Env) (g : env.nx.Graph) (xid : Nat) (dst_mac : Bytes)

/-- One flow mod for each controller but the last, by an edge to the next one,
and entering that one where the edge ends. -/
def FlowChain (ctrls : Dict Lcid Nat) : Nat → List Lcid → List Sent → Prop
  | in_dpid, node :: next :: rest, m :: ms => ∃ lc e wildcards, ctrls.get node = some lc ∧
      env.nx.HasEdge g node next e ∧ m = ⟨lc, xid, .FlowMod in_dpid e.left_dpid e.out_port dst_mac wildcards⟩ ∧
      FlowChain ctrls e.right_dpid (next :: rest) ms
  | _, _ :: _ :: _, [] => False
  | _, _, ms => ms = []

def entryDpid (prev node : Lcid) : Option Nat := ((env.nx.edge g prev node).get 0).map LinkData.right_dpid

def firstEdge (node next : Lcid) : Option LinkData := (env.nx.edge g node next).entries.head?.map fun e => e.2

/-- The edges taken fit together: a flow mod for `node` with `in_dpid` is right,
`prev` being the controller before and `carried` the switch named to it. -/
def Linked (src_lcid : Lcid) : Lcid → Nat → Nat → List Lcid → Prop
  | prev, carried, in_dpid, node :: next :: rest =>
    (if src_lcid = node then carried = in_dpid else entryDpid env g prev node = some in_dpid) ∧
    ∃ a, firstEdge env g node next = some a ∧
      ((MsgDown.FlowMod in_dpid a.left_dpid a.out_port dst_mac (if src_lcid = node then 1 else 0)).serialize
        env.host (some xid)).isSome ∧
      ∃ e, env.nx.HasEdge g node next e ∧ e.left_dpid = a.left_dpid ∧ e.out_port = a.out_port ∧
        Linked src_lcid node in_dpid e.right_dpid (next :: rest)
  | _, _, _, _ => True

end

section
variable {env : Env} {xid : Nat} {dst_mac : Bytes} {src_lcid : Lcid}

theorem firstEdge_of_ne {g : env.nx.Graph} {u v : Lcid} (h : env.nx.edge g u v ≠ ∅) :
    ∃ k a, (env.nx.edge g u v).entries.head? = some ⟨k, a⟩ ∧ firstEdge env g u v = some a ∧ env.nx.HasEdge g u v a := by
  cases he : (env.nx.edge g u v).entries with
  | nil => exact absurd (AList.ext he) h
  | cons e l =>
    refine ⟨e.1, e.2, rfl, ?_, e.1, Dict.mem_entries.mp (he ▸ List.mem_cons_self ..)⟩
    unfold firstEdge
    rw [he]
    rfl

theorem wp_send_own {s : AppManager env.nx.Graph} {lc xid : Nat} {msg : MsgDown}
    {Q : Unit → AppManager env.nx.Graph → Prop} {E : Exn → AppManager env.nx.Graph → Prop} :
    wp (send_msg env lc (some xid) msg) s Q E ↔
      ((msg.serialize env.host (some xid)).isSome → Q () { s with sent := s.sent ++ [⟨lc, xid, msg⟩] }) ∧
      ((msg.serialize env.host (some xid)).isNone → E .StructError s) := by
  unfold send_msg
  simp only [wp_bind, wp_pure]
  cases msg.serialize env.host (some xid) <;> simp

theorem dispatched_iff {s : AppManager env.nx.Graph} (s₁ : AppManager env.nx.Graph) {node next : Lcid}
    {rest : List Lcid} {lc in_dpid wildcards : Nat} {a : LinkData} (want : Nat) (hctrl : s.local_ctrl_list.get node = some lc)
    (hs₁ : s₁.sent = s.sent ++ [⟨lc, xid, .FlowMod in_dpid a.left_dpid a.out_port dst_mac wildcards⟩])
    (ih : ∀ dpid, wp (dispatchPath env xid dst_mac src_lcid node in_dpid (next :: rest)) s₁
        (fun _ s' => ∃ msgs, s'.sent = s₁.sent ++ msgs ∧
          FlowChain env s.LC_LEVEL_TOPO xid dst_mac s.local_ctrl_list dpid (next :: rest) msgs) (fun _ _ => False) ↔
        Linked env s.LC_LEVEL_TOPO xid dst_mac src_lcid node in_dpid dpid (next :: rest)) :
    wp (dispatchPath env xid dst_mac src_lcid node in_dpid (next :: rest)) s₁
      (fun _ s' => ∃ msgs, s'.sent = s.sent ++ msgs ∧
        FlowChain env s.LC_LEVEL_TOPO xid dst_mac s.local_ctrl_list want (node :: next :: rest) msgs)
      (fun _ _ => False) ↔
    in_dpid = want ∧ ∃ e, env.nx.HasEdge s.LC_LEVEL_TOPO node next e ∧ e.left_dpid = a.left_dpid ∧
      e.out_port = a.out_port ∧ Linked env s.LC_LEVEL_TOPO xid dst_mac src_lcid node in_dpid e.right_dpid (next :: rest) := by
  constructor
  · intro h
    -- the rest only adds flow mods, so the first one is the one just sent
    have hadds := wp_and h (always_dispatchPath xid dst_mac src_lcid (next :: rest) node in_dpid s₁)
    obtain ⟨_, s', hrun, ⟨msgs, hsent, hchain⟩, msgs', hs', _⟩ :=
      ok_of_wp (wp_mono hadds (fun _ _ h => h) fun _ _ h => h.1)
    have hsent' : s'.sent = s₁.sent ++ msgs' := by rw [hs']
    have hmsgs : msgs = ⟨lc, xid, .FlowMod in_dpid a.left_dpid a.out_port dst_mac wildcards⟩ :: msgs' := by
      rw [hsent', hs₁, List.append_assoc, List.append_cancel_left_eq] at hsent
      exact hsent.symm
    subst hmsgs
    obtain ⟨lc', e, w, _, hedge, hm, hrest⟩ := hchain
    simp only [Sent.mk.injEq, MsgDown.FlowMod.injEq, true_and] at hm
    obtain ⟨_, hin, hleft, hport, _⟩ := hm
    exact ⟨hin, e, hedge, hleft.symm, hport.symm, (ih e.right_dpid).mp (wp_of_ok hrun ⟨msgs', hsent', hrest⟩)⟩
  · intro hx
    obtain ⟨rfl, e, hedge, hleft, hport, hlinked⟩ := hx
    refine wp_mono ((ih e.right_dpid).mpr hlinked) ?_ fun _ _ h => h
    intro _ s' hpost
    obtain ⟨msgs, hsent, hchain⟩ := hpost
    refine ⟨_ :: msgs, by rw [hsent, hs₁, List.append_assoc]; rfl, lc, e, wildcards, hctrl, hedge, ?_, hchain⟩
    rw [hleft, hport]

theorem dispatchPath_iff {g : env.nx.Graph} {ctrls : Dict Lcid Nat} :
    ∀ (path : List Lcid) (prev : Lcid) (carried want : Nat) (s : AppManager env.nx.Graph), s.LC_LEVEL_TOPO = g →
      s.local_ctrl_list = ctrls → path.IsChain (fun u v => env.nx.edge g u v ≠ ∅) →
      (∀ u v a, env.nx.HasEdge g u v a → ∃ lc, ctrls.get u = some lc ∧ (s.lcs lc).id = u) →
      (wp (dispatchPath env xid dst_mac src_lcid prev carried path) s
        (fun _ s' => ∃ msgs, s'.sent = s.sent ++ msgs ∧ FlowChain env g xid dst_mac ctrls want path msgs)
        (fun _ _ => False) ↔ Linked env g xid dst_mac src_lcid prev carried want path)
  | [], _, _, _, s, _, _, _, _ => ⟨fun _ => trivial, fun _ => ⟨[], by simp, rfl⟩⟩
  | [_], _, _, _, s, _, _, _, _ => ⟨fun _ => trivial, fun _ => ⟨[], by simp, rfl⟩⟩
  | node :: next :: rest, prev, carried, want, s, hg, hctrls, hpath, hends => by
    subst hg hctrls
    obtain ⟨hedge, hpath'⟩ := List.isChain_cons_cons.mp hpath
    obtain ⟨k, a, hhead, hfirst, ha⟩ := firstEdge_of_ne hedge
    obtain ⟨lc, hctrl, hid⟩ := hends node next a ha
    have hrest : ∀ in_dpid w, wp (send_msg env lc (some xid) (.FlowMod in_dpid a.left_dpid a.out_port dst_mac w)) s
        (fun _ s₁ => wp (dispatchPath env xid dst_mac src_lcid node in_dpid (next :: rest)) s₁
          (fun _ s' => ∃ msgs, s'.sent = s.sent ++ msgs ∧
            FlowChain env s.LC_LEVEL_TOPO xid dst_mac s.local_ctrl_list want (node :: next :: rest) msgs) fun _ _ => False)
        (fun _ _ => False) ↔
        ((MsgDown.FlowMod in_dpid a.left_dpid a.out_port dst_mac w).serialize env.host (some xid)).isSome ∧
          in_dpid = want ∧ ∃ e, env.nx.HasEdge s.LC_LEVEL_TOPO node next e ∧ e.left_dpid = a.left_dpid ∧
            e.out_port = a.out_port ∧
            Linked env s.LC_LEVEL_TOPO xid dst_mac src_lcid node in_dpid e.right_dpid (next :: rest) := by
      intro in_dpid w
      have hsent := dispatched_iff
        { s with sent := s.sent ++ [⟨lc, xid, .FlowMod in_dpid a.left_dpid a.out_port dst_mac w⟩] } want hctrl rfl
        fun dpid => dispatchPath_iff (next :: rest) node in_dpid dpid _ rfl rfl hpath' hends
      rw [wp_send_own, hsent]
      cases (MsgDown.FlowMod in_dpid a.left_dpid a.out_port dst_mac w).serialize env.host (some xid) <;> simp
    unfold dispatchPath Linked
    simp only [wp_bind, wp_get, hhead, wp_item_some hctrl, hid, hfirst]
    by_cases hsrc : src_lcid = node
    · -- the source is registered here: `in_dpid` stays as it is
      simp only [if_pos hsrc, wp_ite, one_ne_zero, false_imp_iff, not_false_iff, true_imp_iff, true_and, wp_bind,
        wp_pure, hrest, Option.some.injEq, exists_eq_left']
      constructor
      · intro h
        obtain ⟨hser, rfl, he⟩ := h
        exact ⟨rfl, hser, he⟩
      · intro h
        obtain ⟨rfl, hser, he⟩ := h
        exact ⟨hser, rfl, he⟩
    · simp only [if_neg hsrc, wp_ite, true_imp_iff, not_true_eq_false, false_imp_iff, and_true, wp_bind, wp_pure, hrest,
        Option.some.injEq, exists_eq_left']
      unfold entryDpid
      cases hget : (env.nx.edge s.LC_LEVEL_TOPO prev node).get 0 with
      | none => simp [item, hget]
      | some entry =>
        rw [wp_item_some hget, hrest, Option.map_some, Option.some.injEq]
        constructor
        · intro h
          obtain ⟨hser, rfl, he⟩ := h
          exact ⟨rfl, hser, he⟩
        · intro h
          obtain ⟨rfl, hser, he⟩ := h
          exact ⟨hser, rfl, he⟩

/-- **Inter-domain paths.** In a state of any run, with any host table, a
PACKET_IN along a path programs a connected chain exactly if the edges taken
fit together. -/
theorem path_programming_iff (env : Env) (address : Nat → String × Nat) (xid₀ : Nat → Nat) (rs : List Received)
    (hrun : Allowed (receive env) (Accepts env) (init env address xid₀) rs) (hosts : Dict Bytes Lcid)
    (lc xid in_dpid : Nat) (src_mac dst_mac : Bytes) (src_lcid dst_lcid : Lcid) (path : List Lcid)
    (hsrc : hosts.get src_mac = some src_lcid) (hdst : hosts.get dst_mac = some dst_lcid)
    (hne : ((rs.foldl (receive env) (init env address xid₀)).lcs lc).id ≠ dst_lcid)
    (hpath : env.nx.shortest_path (rs.foldl (receive env) (init env address xid₀)).LC_LEVEL_TOPO
      ((rs.foldl (receive env) (init env address xid₀)).lcs lc).id dst_lcid = .ok path) :
    let s := { rs.foldl (receive env) (init env address xid₀) with host_to_lcid := hosts }
    (∃ s' msgs, _tflcp_packet_in_handler env lc xid in_dpid src_mac dst_mac s = .ok () s' ∧
      s'.sent = s.sent ++ msgs ∧ FlowChain env s.LC_LEVEL_TOPO xid dst_mac s.local_ctrl_list in_dpid path msgs) ↔
    Linked env s.LC_LEVEL_TOPO xid dst_mac src_lcid dst_lcid in_dpid in_dpid path := by
  have hinv : TopoInv (rs.foldl (receive env) (init env address xid₀)) :=
    Allowed.invariant _ (fun _ _ => topoInv_step) (topoInv_init address xid₀) hrun
  have hshort := (env.nx.shortest_path_ok _ _ _ _ hpath).1
  have hends : ∀ u v a, env.nx.HasEdge (rs.foldl (receive env) (init env address xid₀)).LC_LEVEL_TOPO u v a →
      ∃ l, (rs.foldl (receive env) (init env address xid₀)).local_ctrl_list.get u = some l ∧
        ((rs.foldl (receive env) (init env address xid₀)).lcs l).id = u := fun u v a ha => by
    obtain ⟨l, hl⟩ := Dict.mem_iff_get.mp (hinv.wired.ends u v a ha).1
    exact ⟨l, hl, (hinv.registered.ctrl u l hl).1⟩
  generalize rs.foldl (receive env) (init env address xid₀) = s at *
  intro s₀
  refine Iff.trans ?_ (dispatchPath_iff path dst_lcid in_dpid in_dpid
    { s₀ with UPDATE_COUNTER := s₀.UPDATE_COUNTER + 1 } rfl rfl hshort.chain hends)
  have hhandler : ∀ Q : Unit → AppManager env.nx.Graph → Prop,
      wp (_tflcp_packet_in_handler env lc xid in_dpid src_mac dst_mac) s₀ Q (fun _ _ => False) ↔
        wp (dispatchPath env xid dst_mac src_lcid dst_lcid in_dpid path)
          { s₀ with UPDATE_COUNTER := s₀.UPDATE_COUNTER + 1 } Q fun _ _ => False := by
    intro Q
    unfold _tflcp_packet_in_handler
    simp only [wp_bind, wp_modify, wp_get, s₀, hsrc, hdst, hne, hpath, if_false, FLOW_DISPATCH_STEPBYSTEP,
      Bool.false_eq_true, hshort.last]
  rw [← hhandler]
  constructor
  · intro hx
    obtain ⟨s', msgs, hok, hmsgs⟩ := hx
    exact wp_of_ok hok ⟨msgs, hmsgs⟩
  · intro h
    obtain ⟨_, s', hok, msgs, hmsgs⟩ := ok_of_wp h
    exact ⟨s', msgs, hok, hmsgs⟩

/-- `linkRun`, and a third controller without a link. -/
def transitRun : List Received := linkRun ++ [received 2 1 .HelloUp]

def srcMac : Bytes := asciiText "00:00:00:00:00:01"
def dstMac : Bytes := asciiText "00:00:00:00:00:02"

def hostsAt (src_lcid : Nat) : Dict Bytes Lcid :=
  AList.insert dstMac (some 2) (AList.insert srcMac (some src_lcid) ∅)

def transitState (src_lcid : Nat) : AppManager (sampleEnv linkReports).nx.Graph :=
  { transitRun.foldl (receive (sampleEnv linkReports)) (sampleInit linkReports) with host_to_lcid := hostsAt src_lcid }

theorem path_programming_own_host :
    ∃ s' msgs, _tflcp_packet_in_handler (sampleEnv linkReports) 0 9 15 srcMac dstMac (transitState 1) = .ok () s' ∧
      s'.sent = (transitState 1).sent ++ msgs ∧
      FlowChain (sampleEnv linkReports) (transitState 1).LC_LEVEL_TOPO 9 dstMac (transitState 1).local_ctrl_list 15
        [some 1, some 2] msgs := by
  have hlinked : Linked (sampleEnv linkReports) (transitState 1).LC_LEVEL_TOPO 9 dstMac (some 1) (some 2) 15 15
      [some 1, some 2] := by
    refine ⟨by rw [if_pos rfl], ⟨11, 1, 12, 2⟩, by decide, ?_, ⟨11, 1, 12, 2⟩, ⟨0, by decide⟩, rfl, rfl, trivial⟩
    rw [if_pos rfl]
    decide
  have hiff := path_programming_iff (sampleEnv linkReports) (fun lc => ("10.0.0.1", 40000 + lc)) (fun lc => lc)
    transitRun (by decide) (hostsAt 1) 0 9 15 srcMac dstMac (some 1) (some 2) [some 1, some 2] (by decide) (by decide)
    (by decide) (by decide)
  exact hiff.mpr hlinked

/-- A controller asks for a source that is registered at the third one. -/
theorem path_programming_transit :
    Allowed (receive (sampleEnv linkReports)) (Accepts (sampleEnv linkReports)) (sampleInit linkReports) transitRun ∧
    (sampleEnv linkReports).nx.shortest_path (transitState 3).LC_LEVEL_TOPO ((transitState 3).lcs 0).id (some 2) =
      .ok [some 1, some 2] ∧
    ¬ ∃ s' msgs, _tflcp_packet_in_handler (sampleEnv linkReports) 0 9 15 srcMac dstMac (transitState 3) = .ok () s' ∧
      s'.sent = (transitState 3).sent ++ msgs ∧
      FlowChain (sampleEnv linkReports) (transitState 3).LC_LEVEL_TOPO 9 dstMac (transitState 3).local_ctrl_list 15
        [some 1, some 2] msgs := by
  refine ⟨by decide, by decide, ?_⟩
  intro h
  obtain ⟨s', msgs, hok, hsent, hchain⟩ := h
  have hall : (match _tflcp_packet_in_handler (sampleEnv linkReports) 0 9 15 srcMac dstMac (transitState 3) with
      | .ok _ s' => s'.sent
      | .error _ s' => s'.sent) = (transitState 3).sent ++ [⟨0, 9, .FlowMod 11 11 1 dstMac 0⟩] := by
    decide +kernel
  rw [hok] at hall
  have hmsgs : msgs = [⟨0, 9, .FlowMod 11 11 1 dstMac 0⟩] := List.append_cancel_left (hsent.symm.trans hall)
  subst hmsgs
  obtain ⟨_, e, _, _, _, hm, _⟩ := hchain
  cases hm

end

end AppManager

end VnfDockerNet
