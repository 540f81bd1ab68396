import VnfDockerNet.Central
import VnfDockerNet.Lib.FnGraph
import VnfDockerNet.MsgSound

/-!
# What the handlers of the central controller can do

One lemma for each handler and each loop. `always_` lemmas describe the state
after the handler whether it returned or raised; `wp_` lemmas reduce a handler
to what its postcondition has to hold of. Later proofs use these lemmas and do
not unfold the handlers again.
-/

namespace VnfDockerNet

open Python Networkx

/-! ## Messages and windows -/

def Sent.isFlowMod (m : Sent) : Prop := ∃ in_dpid out_dpid out_port dst_mac wildcards,
  m.msg = .FlowMod in_dpid out_dpid out_port dst_mac wildcards

def AtMostOne (msg : MsgDown) (msgs : List Sent) : Prop := msgs.length ≤ 1 ∧ ∀ m ∈ msgs, m.msg = msg

def Window.complete (w : Window) : Prop :=
  w.src_dpid.isSome ∧ w.src_port_no.isSome ∧ w.dst_dpid.isSome ∧ w.dst_port_no.isSome

def Window.Says (w : Window) (data : LinkData) : Prop :=
  w.src_dpid = some data.left_dpid ∧ w.src_port_no = some data.out_port ∧ w.dst_dpid = some data.right_dpid ∧
    w.dst_port_no = some data.in_port

def LinkData.flip (a : LinkData) : LinkData := ⟨a.right_dpid, a.in_port, a.left_dpid, a.out_port⟩

theorem update_proj {α : Type} (proj : LocalController → α) {lcs : Nat → LocalController} {lc : Nat}
    {c : LocalController} (h : proj c = proj (lcs lc)) (l : Nat) :
    proj (Function.update lcs lc c l) = proj (lcs l) := by
  by_cases hl : l = lc
  · subst hl; rw [Function.update_self, h]
  · rw [Function.update_of_ne hl]

namespace AppManager

section
variable {env : Env} {s : AppManager env.nx.Graph} {α : Type} {E : Exn → AppManager env.nx.Graph → Prop}

@[simp] theorem wp_modifyLc (lc : Nat) (f : LocalController → LocalController)
    {Q : Unit → AppManager env.nx.Graph → Prop} :
    wp (modifyLc env lc f) s Q E ↔ Q () { s with lcs := Function.update s.lcs lc (f (s.lcs lc)) } := Iff.rfl

@[simp] theorem wp_setDatapath (dpid : Nat) (dp : Datapath) {Q : Unit → AppManager env.nx.Graph → Prop} :
    wp (setDatapath env dpid dp) s Q E ↔ Q () { s with datapath_list := s.datapath_list.insert dpid dp } := Iff.rfl

@[simp] theorem wp_delHost (mac : Bytes) {Q : Unit → AppManager env.nx.Graph → Prop} :
    wp (delHost env mac) s Q E ↔
      (mac ∈ s.host_to_lcid → Q () { s with host_to_lcid := s.host_to_lcid.erase mac }) ∧
      (mac ∉ s.host_to_lcid → E .KeyError s) := by
  unfold delHost
  simp only [wp_bind, wp_get, wp_item, wp_modify]
  constructor
  · intro h
    obtain ⟨h1, h2⟩ := h
    exact ⟨fun hm => by obtain ⟨v, hv⟩ := Dict.mem_iff_get.mp hm; exact h1 v hv,
      fun hm => h2 (Dict.get_eq_none.mpr hm)⟩
  · intro h
    obtain ⟨h1, h2⟩ := h
    exact ⟨fun v hv => h1 (Dict.mem_iff_get.mpr ⟨v, hv⟩), fun hn => h2 (Dict.get_eq_none.mp hn)⟩

def sends (s : AppManager env.nx.Graph) (lc xid : Nat) (msgs : List Sent) : AppManager env.nx.Graph :=
  { s with lcs := Function.update s.lcs lc { s.lcs lc with xid }, sent := s.sent ++ msgs }

@[simp] theorem sends_id (lc x : Nat) (msgs : List Sent) (l : Nat) :
    ((sends s lc x msgs).lcs l).id = (s.lcs l).id := update_proj LocalController.id (by rfl) l

@[simp] theorem sends_address (lc x : Nat) (msgs : List Sent) (l : Nat) :
    ((sends s lc x msgs).lcs l).address = (s.lcs l).address := update_proj LocalController.address (by rfl) l

@[simp] theorem sends_role (lc x : Nat) (msgs : List Sent) (l : Nat) :
    ((sends s lc x msgs).lcs l).dpid_to_role = (s.lcs l).dpid_to_role :=
  update_proj LocalController.dpid_to_role (by rfl) l

@[simp] theorem close_id (lc l : Nat) : ((s.close lc).lcs l).id = (s.lcs l).id :=
  update_proj LocalController.id (by rfl) l

@[simp] theorem close_address (lc l : Nat) : ((s.close lc).lcs l).address = (s.lcs l).address :=
  update_proj LocalController.address (by rfl) l

@[simp] theorem close_role (lc l : Nat) : ((s.close lc).lcs l).dpid_to_role = (s.lcs l).dpid_to_role :=
  update_proj LocalController.dpid_to_role (by rfl) l

theorem wp_send_msg (lc : Nat) (own_xid : Option Nat) (msg : MsgDown) {Q : Unit → AppManager env.nx.Graph → Prop}
    (hQ : ∀ x y, Q () (sends s lc x [⟨lc, y, msg⟩])) (hE : ∀ x, E .StructError (sends s lc x [])) :
    wp (send_msg env lc own_xid msg) s Q E := by
  unfold send_msg
  cases own_xid with
  | some y =>
    simp only [wp_bind, wp_pure]
    have hs : ∀ msgs, sends s lc (s.lcs lc).xid msgs = { s with sent := s.sent ++ msgs } := fun msgs => by
      unfold sends; simp
    cases msg.serialize env.host (some y) with
    | some frame => have := hQ (s.lcs lc).xid y; rw [hs] at this; exact this
    | none => have := hE (s.lcs lc).xid; rw [hs, List.append_nil] at this; exact this
  | none =>
    unfold set_xid
    simp only [wp_bind, wp_pure, wp_modifyLc, wp_get]
    split
    · exact hQ _ _
    · have := hE (((s.lcs lc).xid + 1) &&& MAX_XID)
      unfold sends at this; rw [List.append_nil] at this; exact this

/-- `x` ends in a state with `P`, whether it returns or raises. -/
abbrev Always (x : App env α) (s : AppManager env.nx.Graph) (P : AppManager env.nx.Graph → Prop) : Prop :=
  wp x s (fun _ => P) (fun _ => P)

theorem Always.mono {x : App env α} {s : AppManager env.nx.Graph} {P P' : AppManager env.nx.Graph → Prop}
    (h : Always x s P) (hP : ∀ s', P s' → P' s') : Always x s P' := wp_mono h (fun _ => hP) fun _ => hP

def SameButMacs (dps dps' : Dict Nat Datapath) : Prop :=
  ∃ mac : Nat → List Bytes, ∀ d, dps'.get d = (dps.get d).map fun dp => { dp with mac := mac d }

theorem SameButMacs.refl (dps : Dict Nat Datapath) : SameButMacs dps dps := by
  refine ⟨fun d => ((dps.get d).map Datapath.mac).getD [], fun d => ?_⟩
  cases h : dps.get d <;> simp [h]

theorem SameButMacs.trans {dps dps' dps'' : Dict Nat Datapath} (h : SameButMacs dps dps')
    (h' : SameButMacs dps' dps'') : SameButMacs dps dps'' := by
  obtain ⟨mac, h⟩ := h
  obtain ⟨mac', h'⟩ := h'
  refine ⟨mac', fun d => ?_⟩
  rw [h', h, Option.map_map]
  rfl

theorem SameButMacs.insert {dps : Dict Nat Datapath} {dpid : Nat} {dp : Datapath} (h : dps.get dpid = some dp)
    (mac : List Bytes) : SameButMacs dps (dps.insert dpid { dp with mac }) := by
  obtain ⟨mac', h'⟩ := SameButMacs.refl dps
  refine ⟨fun d => if d = dpid then mac else mac' d, fun d => ?_⟩
  rw [Dict.get_insert]
  by_cases hd : d = dpid
  · subst hd; simp [h]
  · simpa [hd] using h' d

theorem del_mac_ok {dp dp' : Datapath} {mac : Bytes} (h : dp.del_mac mac = .ok dp') :
    dp' = { dp with mac := dp.mac.erase mac } := by
  unfold Datapath.del_mac at h
  split at h <;> cases h
  rfl

theorem always_purgeMacs (dpid : Nat) : ∀ (fuel i : Nat) (s : AppManager env.nx.Graph),
    Always (purgeMacs env dpid fuel i) s fun s' => ∃ hosts dps,
      s' = { s with host_to_lcid := hosts, datapath_list := dps } ∧ SameButMacs s.datapath_list dps
  | 0, _, s => ⟨s.host_to_lcid, s.datapath_list, rfl, .refl _⟩
  | fuel + 1, i, s => by
    unfold purgeMacs
    simp only [wp_bind, wp_get, wp_item]
    refine ⟨fun dp hdp => ?_, fun _ => ⟨_, _, rfl, .refl _⟩⟩
    split
    · exact ⟨_, _, rfl, .refl _⟩
    · rename_i mac_t _
      simp only [wp_bind, wp_delHost, wp_orRaise, wp_setDatapath]
      refine ⟨fun _ => ⟨fun dp' hdp' => ?_, fun _ _ => ⟨_, _, rfl, .refl _⟩⟩, fun _ => ⟨_, _, rfl, .refl _⟩⟩
      rw [del_mac_ok hdp']
      refine Always.mono (always_purgeMacs dpid fuel (i + 1) _) ?_
      intro s' hpost
      obtain ⟨hosts, dps, rfl, honly⟩ := hpost
      exact ⟨hosts, dps, rfl, (SameButMacs.insert hdp _).trans honly⟩

theorem always_send_msg (lc : Nat) (own_xid : Option Nat) (msg : MsgDown) (s : AppManager env.nx.Graph) :
    Always (send_msg env lc own_xid msg) s fun s' => ∃ x msgs, s' = sends s lc x msgs ∧ AtMostOne msg msgs :=
  wp_send_msg lc own_xid msg (fun x y => ⟨x, _, rfl, by simp [AtMostOne]⟩) fun x => ⟨x, _, rfl, by simp [AtMostOne]⟩

def helloed (s : AppManager env.nx.Graph) (lc lcid : Nat) : AppManager env.nx.Graph :=
  let known := (s.lcs lc).address ∈ s.lcip_to_lcid
  { s with
    lcs := Function.update s.lcs lc { s.lcs lc with state := .LC_STATE_LIVE, id := some lcid }
    lcip_to_lcid := if known then s.lcip_to_lcid else s.lcip_to_lcid.insert (s.lcs lc).address s.glcid
    LC_LEVEL_TOPO := if known then s.LC_LEVEL_TOPO
      else env.nx.add_node s.LC_LEVEL_TOPO (some s.glcid) fun n => { n with type := some "controller" }
    glcid := if known then s.glcid else if s.glcid + 1 > MAX_LC_ID then 1 else s.glcid + 1
    local_ctrl_list := s.local_ctrl_list.insert (some lcid) lc
    lc_outline := s.lc_outline.insert (some lcid) false
    lc_outline_0 := s.lc_outline_0.insert (some lcid) false
    lc_outline_1 := s.lc_outline_1.insert (some lcid) false }

theorem helloed_id (lc lcid l : Nat) : ((helloed s lc lcid).lcs l).id = if l = lc then some lcid else (s.lcs l).id := by
  by_cases hl : l = lc
  · subst hl; simp [helloed]
  · simp [helloed, hl]

@[simp] theorem helloed_address (lc lcid l : Nat) : ((helloed s lc lcid).lcs l).address = (s.lcs l).address :=
  update_proj LocalController.address (by rfl) l

@[simp] theorem helloed_role (lc lcid l : Nat) : ((helloed s lc lcid).lcs l).dpid_to_role = (s.lcs l).dpid_to_role :=
  update_proj LocalController.dpid_to_role (by rfl) l

theorem wp_hello_up {lc lcid : Nat} {Q : Unit → AppManager env.nx.Graph → Prop}
    (hid : lcid = (s.lcip_to_lcid.get (s.lcs lc).address).getD s.glcid)
    (h : wp (send_msg env lc none (.HelloDown lcid)) (helloed s lc lcid) Q E) :
    wp (_tflcp_hello_up_handler env lc) s Q E := by
  unfold _tflcp_hello_up_handler
  simp only [wp_bind, wp_modifyLc, wp_get, wp_ite, wp_modify, Function.update_self, Function.update_idem]
  subst hid
  refine ⟨fun hn => ?_, fun hn => ?_⟩
  · simpa [helloed, hn] using h
  · simpa [helloed, not_not.mp hn] using h

theorem wp_get_generation_id (dpid : Nat) {Q : Nat → AppManager env.nx.Graph → Prop} :
    wp (get_generation_id env dpid) s Q E ↔
      (∀ dp, s.datapath_list.get dpid = some dp → Q dp._generation_id { s with
        datapath_list := s.datapath_list.insert dpid { dp with _generation_id := dp._generation_id + 1 } }) ∧
      (s.datapath_list.get dpid = none → E .KeyError s) := by
  unfold get_generation_id
  simp only [wp_bind, wp_get, wp_item, wp_setDatapath, wp_pure]

def homed (s : AppManager env.nx.Graph) (lc dpid : Nat) (dp : Datapath) : AppManager env.nx.Graph :=
  { s with
    datapath_list := s.datapath_list.insert dpid
      { (dp.add_lc lc).set_home_lc lc with _generation_id := dp._generation_id + 1 }
    lcs := Function.update s.lcs lc { s.lcs lc with
      dpid_to_role := (s.lcs lc).dpid_to_role.insert dpid OFPCR_ROLE_MASTER
      dpid_to_load := (s.lcs lc).dpid_to_load.insert dpid dp.load } }

@[simp] theorem homed_id (lc dpid : Nat) (dp : Datapath) (l : Nat) : ((homed s lc dpid dp).lcs l).id = (s.lcs l).id :=
  update_proj LocalController.id (by rfl) l

@[simp] theorem homed_address (lc dpid : Nat) (dp : Datapath) (l : Nat) :
    ((homed s lc dpid dp).lcs l).address = (s.lcs l).address := update_proj LocalController.address (by rfl) l

theorem homed_role (lc dpid : Nat) (dp : Datapath) (l d : Nat) : ((homed s lc dpid dp).lcs l).dpid_to_role.get d =
    if l = lc ∧ d = dpid then some OFPCR_ROLE_MASTER else (s.lcs l).dpid_to_role.get d := by
  by_cases hl : l = lc
  · subst hl; simp [homed, Dict.get_insert]
  · simp [homed, hl]

theorem gid_add_lc (dp : Datapath) (lc : Nat) : (dp.add_lc lc)._generation_id = dp._generation_id := by
  unfold Datapath.add_lc; split <;> rfl

theorem wp_assignRole {lc dpid : Nat} {dp : Datapath} {Q : Unit → AppManager env.nx.Graph → Prop}
    (hdp : s.datapath_list.get dpid = some dp)
    (h : wp (send_msg env lc none (.RoleAssign dpid (s.lcs lc).id OFPCR_ROLE_MASTER dp._generation_id))
      (homed s lc dpid dp) Q E) :
    wp (assignRole env lc dpid) s Q E := by
  unfold assignRole
  simp only [wp_bind, wp_get, wp_item, wp_setDatapath, wp_modifyLc, wp_get_generation_id, Dict.get_insert, hdp,
    Function.update_self, ite_true, Option.some.injEq, AList.insert_insert]
  refine ⟨?_, fun hn => by cases hn⟩
  rintro _ rfl
  refine ⟨?_, fun hn => by cases hn⟩
  rintro _ rfl
  simpa [homed, Datapath.set_home_lc, gid_add_lc] using h

theorem wp_datapath_connected {lc dpid : Nat} {Q : Unit → AppManager env.nx.Graph → Prop}
    (hnew : s.datapath_list.get dpid = none →
      wp (assignRole env lc dpid) { s with datapath_list := s.datapath_list.insert dpid { id := dpid } } Q E)
    (hold : ∀ dp, s.datapath_list.get dpid = some dp →
      wp (purgeMacs env dpid dp.mac.length 0) s (fun _ s' => wp (assignRole env lc dpid) s' Q E) E) :
    wp (_tflcp_datapath_connected_handler env lc dpid) s Q E := by
  unfold _tflcp_datapath_connected_handler
  simp only [wp_bind, wp_get]
  cases hdp : s.datapath_list.get dpid with
  | none => simpa only [wp_bind, wp_setDatapath] using hnew hdp
  | some dp => simpa only [wp_bind] using hold dp hdp

/-- What is left when `dpid` has lost its connection to `lc`, or was about to. -/
def Dropped (lc dpid : Nat) (dps dps' : Dict Nat Datapath) : Prop :=
  ∃ dp, dps.get dpid = some dp ∧
    ((dp.lc_connected.length = 1 ∧ dps' = dps.erase dpid) ∨
      dp.lc_connected.length ≠ 1 ∧ dps' = dps.insert dpid { dp with lc_connected := dp.lc_connected.erase lc })

theorem del_lc_ok {dp dp' : Datapath} {lc : Nat} (h : dp.del_lc lc = .ok dp') :
    lc ∈ dp.lc_connected ∧ dp' = { dp with lc_connected := dp.lc_connected.erase lc } := by
  unfold Datapath.del_lc at h
  split at h
  · cases h; exact ⟨by assumption, rfl⟩
  · cases h

theorem always_dropDatapath (lc dpid : Nat) (s : AppManager env.nx.Graph) :
    Always (dropDatapath env lc dpid) s fun s' => ∃ dps role load win,
      s' = { s with
        datapath_list := dps
        lcs := Function.update s.lcs lc { s.lcs lc with dpid_to_role := role, dpid_to_load := load, dp_win := win } } ∧
      (role = (s.lcs lc).dpid_to_role ∨ role = (s.lcs lc).dpid_to_role.erase dpid) ∧
      (load = (s.lcs lc).dpid_to_load ∨ load = (s.lcs lc).dpid_to_load.erase dpid) ∧
      (dps = s.datapath_list ∨ Dropped lc dpid s.datapath_list dps) := by
  have hself : Function.update s.lcs lc (s.lcs lc) = s.lcs := Function.update_eq_self ..
  unfold dropDatapath
  simp only [wp_bind, wp_get, wp_item, wp_ite, wp_modify, wp_modifyLc, wp_orRaise, wp_setDatapath,
    Function.update_self, Function.update_idem]
  refine ⟨fun dp hdp => ⟨fun hlen => ?_, fun hlen => ?_⟩, fun _ => ?_⟩
  · -- the last connection: the object is out of the list
    have hdrop : Dropped lc dpid s.datapath_list (s.datapath_list.erase dpid) := ⟨dp, hdp, Or.inl ⟨hlen, rfl⟩⟩
    have hout : dpid ∉ s.datapath_list.erase dpid := by
      rw [← Dict.get_eq_none, Dict.get_erase, if_pos rfl]
    refine ⟨fun _ _ => ⟨fun _ _ => ⟨fun dp' _ => ⟨fun hin => absurd hin hout, fun _ => ?_⟩, fun _ _ => ?_⟩,
      fun _ => ?_⟩, fun _ => ?_⟩
    · exact ⟨_, _, _, _, rfl, Or.inr rfl, Or.inr rfl, Or.inr hdrop⟩
    · exact ⟨_, _, _, _, rfl, Or.inr rfl, Or.inr rfl, Or.inr hdrop⟩
    · exact ⟨_, _, _, _, rfl, Or.inr rfl, Or.inl rfl, Or.inr hdrop⟩
    · exact ⟨_, _, _, _, by rw [hself], Or.inl rfl, Or.inl rfl, Or.inr hdrop⟩
  · refine ⟨fun _ _ => ⟨fun _ _ => ⟨fun dp' hdp' => ⟨fun _ => ?_, fun _ => ?_⟩, fun _ _ => ?_⟩,
      fun _ => ?_⟩, fun _ => ?_⟩
    · rw [(del_lc_ok hdp').2]
      exact ⟨_, _, _, _, rfl, Or.inr rfl, Or.inr rfl, Or.inr ⟨dp, hdp, Or.inr ⟨hlen, rfl⟩⟩⟩
    · exact ⟨_, _, _, _, rfl, Or.inr rfl, Or.inr rfl, Or.inl rfl⟩
    · exact ⟨_, _, _, _, rfl, Or.inr rfl, Or.inr rfl, Or.inl rfl⟩
    · exact ⟨_, _, _, _, rfl, Or.inr rfl, Or.inl rfl, Or.inl rfl⟩
    · exact ⟨_, _, _, _, by rw [hself], Or.inl rfl, Or.inl rfl, Or.inl rfl⟩
  · exact ⟨_, _, _, _, by rw [hself], Or.inl rfl, Or.inl rfl, Or.inl rfl⟩

def dropped (s : AppManager env.nx.Graph) (lc dpid : Nat) (dp : Datapath) : AppManager env.nx.Graph :=
  { s with
    datapath_list := if dp.lc_connected.length = 1 then s.datapath_list.erase dpid
      else s.datapath_list.insert dpid { dp with lc_connected := dp.lc_connected.erase lc }
    lcs := Function.update s.lcs lc { s.lcs lc with
      dpid_to_role := (s.lcs lc).dpid_to_role.erase dpid
      dpid_to_load := (s.lcs lc).dpid_to_load.erase dpid
      dp_win := (s.lcs lc).dp_win.erase dpid } }

theorem wp_dropDatapath {lc dpid : Nat} {dp : Datapath} {Q : Unit → AppManager env.nx.Graph → Prop}
    (hdp : s.datapath_list.get dpid = some dp) (hlc : lc ∈ dp.lc_connected) (hrole : dpid ∈ (s.lcs lc).dpid_to_role)
    (hload : dpid ∈ (s.lcs lc).dpid_to_load) (h : Q () (dropped s lc dpid dp)) :
    wp (dropDatapath env lc dpid) s Q E := by
  obtain ⟨_, hrole'⟩ := Dict.mem_iff_get.mp hrole
  obtain ⟨_, hload'⟩ := Dict.mem_iff_get.mp hload
  have hdel : dp.del_lc lc = .ok { dp with lc_connected := dp.lc_connected.erase lc } := by
    unfold Datapath.del_lc
    rw [if_pos hlc]
  have hout : dpid ∉ s.datapath_list.erase dpid := by
    rw [← Dict.get_eq_none, Dict.get_erase, if_pos rfl]
  unfold dropped at h
  unfold dropDatapath
  simp only [wp_bind, wp_get, wp_ite, wp_modify, wp_modifyLc, wp_setDatapath, wp_item_some hdp, wp_item_some hrole',
    wp_item_some hload', wp_orRaise_ok hdel, Function.update_self, Function.update_idem]
  refine ⟨fun hlen => ⟨fun hin => absurd hin hout, fun _ => ?_⟩, fun hlen => ⟨fun _ => ?_, fun hn => ?_⟩⟩
  · rw [if_pos hlen] at h
    exact h
  · rw [if_neg hlen] at h
    exact h
  · exact absurd (Dict.mem_iff_get.mpr ⟨dp, hdp⟩) hn

theorem wp_datapath_leave {lc dpid : Nat} {Q : Unit → AppManager env.nx.Graph → Prop}
    (hnone : s.datapath_list.get dpid = none → E .KeyError s)
    (hold : ∀ dp, s.datapath_list.get dpid = some dp →
      wp (purgeMacs env dpid dp.mac.length 0) s (fun _ s' => wp (dropDatapath env lc dpid) s' (fun _ s'' =>
        wp (removeWindowEdges env dpid (env.nx.edges s''.LC_LEVEL_TOPO)) s'' Q E) E) E) :
    wp (_tflcp_datapath_leave_handler env lc dpid) s Q E := by
  unfold _tflcp_datapath_leave_handler
  simp only [wp_bind, wp_get, wp_item]
  exact ⟨hold, hnone⟩

theorem always_removeEdgeIf (hit : Bool) (u v : Lcid) (s : AppManager env.nx.Graph) :
    Always (removeEdgeIf env hit u v) s fun s' => ∃ g, s' = { s with LC_LEVEL_TOPO := g } ∧
      env.nx.Spanning g s.LC_LEVEL_TOPO := by
  unfold removeEdgeIf
  simp only [wp_bind, wp_get, wp_orRaise, wp_modify, wp_ite]
  exact ⟨fun _ => ⟨fun g hg => ⟨g, rfl, env.nx.spanning_remove_edge hg⟩, fun _ _ => ⟨_, rfl, .refl _ _⟩⟩,
    fun _ => ⟨_, rfl, .refl _ _⟩⟩

theorem always_removeWindowEdges (dpid : Nat) : ∀ (es : List (Lcid × Lcid × LinkData)) (s : AppManager env.nx.Graph),
    Always (removeWindowEdges env dpid es) s fun s' => ∃ g, s' = { s with LC_LEVEL_TOPO := g } ∧
      env.nx.Spanning g s.LC_LEVEL_TOPO
  | [], s => ⟨_, rfl, .refl _ _⟩
  | (u, v, data) :: es, s => by
    unfold removeWindowEdges
    simp only [wp_bind]
    refine wp_mono (always_removeEdgeIf _ u v s) ?_ fun _ _ h => h
    intro _ _ hpost
    obtain ⟨g₁, rfl, h₁⟩ := hpost
    refine wp_mono (always_removeEdgeIf _ u v _) ?_ ?_
    · intro _ _ hpost
      obtain ⟨g₂, rfl, h₂⟩ := hpost
      refine Always.mono (always_removeWindowEdges dpid es _) ?_
      intro _ hpost
      obtain ⟨g₃, rfl, h₃⟩ := hpost
      exact ⟨g₃, rfl, (h₃.trans _ h₂).trans _ h₁⟩
    · intro _ _ hpost
      obtain ⟨g₂, rfl, h₂⟩ := hpost
      exact ⟨g₂, rfl, h₂.trans _ h₁⟩

theorem always_gid_request (lc dpid : Nat) (s : AppManager env.nx.Graph) :
    Always (_tflcp_gid_request_handler env lc dpid) s fun s' => s' = s ∨ ∃ dp x msgs,
      s.datapath_list.get dpid = some dp ∧
      s' = sends { s with
        datapath_list := s.datapath_list.insert dpid { dp with _generation_id := dp._generation_id + 1 } } lc x msgs ∧
      AtMostOne (.GidReply dpid dp._generation_id) msgs := by
  unfold _tflcp_gid_request_handler
  simp only [wp_bind, wp_get_generation_id]
  refine ⟨fun dp hdp => ?_, fun _ => Or.inl trivial⟩
  refine Always.mono (always_send_msg lc none _ _) ?_
  intro s' hpost
  obtain ⟨x, msgs, rfl, hm⟩ := hpost
  exact Or.inr ⟨dp, x, msgs, hdp, rfl, hm⟩

def Dispatched (s : AppManager env.nx.Graph) (xid : Nat) (path : List Lcid) (m : Sent) : Prop :=
  m.isFlowMod ∧ m.xid = xid ∧ ∃ node ∈ path, s.local_ctrl_list.get node = some m.lc

theorem always_send_flowMod (lc xid in_dpid out_dpid out_port wildcards : Nat) (dst_mac : Bytes)
    (s : AppManager env.nx.Graph) :
    Always (send_msg env lc (some xid) (.FlowMod in_dpid out_dpid out_port dst_mac wildcards)) s fun s' =>
      ∃ msgs, s' = { s with sent := s.sent ++ msgs } ∧ ∀ m ∈ msgs, m.isFlowMod ∧ m.xid = xid ∧ m.lc = lc := by
  unfold send_msg
  simp only [wp_bind, wp_pure]
  split
  · exact ⟨_, rfl, by simp [Sent.isFlowMod]⟩
  · exact ⟨[], by simp, by simp⟩

theorem always_dispatchPath (xid : Nat) (dst_mac : Bytes) (src_lcid : Lcid) :
    ∀ (path : List Lcid) (prev : Lcid) (in_dpid : Nat) (s : AppManager env.nx.Graph),
      Always (dispatchPath env xid dst_mac src_lcid prev in_dpid path) s fun s' =>
        ∃ msgs, s' = { s with sent := s.sent ++ msgs } ∧ ∀ m ∈ msgs, Dispatched s xid path m
  | [], _, _, s => ⟨[], by simp, by simp⟩
  | [_], _, _, s => ⟨[], by simp, by simp⟩
  | node :: next :: rest, prev, in_dpid, s => by
    have hkeep : ∃ msgs, s = { s with sent := s.sent ++ msgs } ∧ ∀ m ∈ msgs, Dispatched s xid (node :: next :: rest) m :=
      ⟨[], by simp, by simp⟩
    have hrest : ∀ lc y (data : LinkData) in_dpid', s.local_ctrl_list.get node = some lc →
        wp (send_msg env lc (some xid) (.FlowMod in_dpid' data.left_dpid data.out_port dst_mac y)) s
        (fun _ s' => Always (dispatchPath env xid dst_mac src_lcid node in_dpid' (next :: rest)) s' fun s' =>
          ∃ msgs, s' = { s with sent := s.sent ++ msgs } ∧ ∀ m ∈ msgs, Dispatched s xid (node :: next :: rest) m)
        (fun _ s' => ∃ msgs, s' = { s with sent := s.sent ++ msgs } ∧
          ∀ m ∈ msgs, Dispatched s xid (node :: next :: rest) m) := by
      intro lc y data in_dpid' hlc
      have hhere : ∀ m : Sent, m.isFlowMod ∧ m.xid = xid ∧ m.lc = lc → Dispatched s xid (node :: next :: rest) m :=
        fun m hm => ⟨hm.1, hm.2.1, node, List.mem_cons_self, by rw [hm.2.2]; exact hlc⟩
      refine wp_mono (always_send_flowMod lc xid _ _ _ _ dst_mac s) ?_ ?_
      · intro _ _ hpost
        obtain ⟨msgs, rfl, hm⟩ := hpost
        refine Always.mono (always_dispatchPath xid dst_mac src_lcid (next :: rest) node in_dpid' _) ?_
        intro _ hpost
        obtain ⟨msgs', rfl, hm'⟩ := hpost
        refine ⟨msgs ++ msgs', by simp, fun m h => ?_⟩
        rcases List.mem_append.mp h with h | h
        · exact hhere m (hm m h)
        · obtain ⟨hflow, hxid, node', hnode', hlc'⟩ := hm' m h
          exact ⟨hflow, hxid, node', List.mem_cons_of_mem node hnode', hlc'⟩
      · intro _ _ hpost
        obtain ⟨msgs, rfl, hm⟩ := hpost
        exact ⟨msgs, rfl, fun m h => hhere m (hm m h)⟩
    unfold dispatchPath
    simp only [wp_bind, wp_get]
    split
    · exact hkeep
    · simp only [wp_bind, wp_item, wp_ite, wp_pure]
      refine ⟨fun lc hlc => ⟨fun _ => ⟨fun entry _ => ?_, fun _ => hkeep⟩, fun _ => ?_⟩, fun _ => hkeep⟩
      · exact hrest _ _ _ _ hlc
      · exact hrest _ _ _ _ hlc

/-- The controllers on the path of a request from `lc` for `dst_mac`. -/
def routeOf (env : Env) (s : AppManager env.nx.Graph) (lc : Nat) (dst_mac : Bytes) : List Nat :=
  match s.host_to_lcid.get dst_mac with
  | none => []
  | some dst_lcid =>
    match env.nx.shortest_path s.LC_LEVEL_TOPO (s.lcs lc).id dst_lcid with
    | .ok path => path.filterMap s.local_ctrl_list.get
    | .error _ => []

theorem always_packet_in (lc xid in_dpid : Nat) (src_mac dst_mac : Bytes) (s : AppManager env.nx.Graph) :
    Always (_tflcp_packet_in_handler env lc xid in_dpid src_mac dst_mac) s fun s' => ∃ msgs,
      s' = { s with UPDATE_COUNTER := s.UPDATE_COUNTER + 1, sent := s.sent ++ msgs } ∧
      ∀ m ∈ msgs, m.isFlowMod ∧ m.xid = xid ∧ m.lc ∈ routeOf env s lc dst_mac := by
  unfold _tflcp_packet_in_handler
  simp only [wp_bind, wp_modify, wp_get]
  have hkeep : ∃ msgs, { s with UPDATE_COUNTER := s.UPDATE_COUNTER + 1 } =
      { s with UPDATE_COUNTER := s.UPDATE_COUNTER + 1, sent := s.sent ++ msgs } ∧
      ∀ m ∈ msgs, m.isFlowMod ∧ m.xid = xid ∧ m.lc ∈ routeOf env s lc dst_mac := ⟨[], by simp, by simp⟩
  split
  · rename_i src_lcid dst_lcid _ hdst
    simp only [wp_ite, wp_pure]
    refine ⟨fun _ => hkeep, fun _ => ?_⟩
    split
    · rename_i path hpath
      rw [if_neg (by decide)]
      split
      · refine Always.mono (always_dispatchPath xid dst_mac _ path _ in_dpid _) ?_
        intro _ hpost
        obtain ⟨msgs, rfl, hm⟩ := hpost
        refine ⟨msgs, rfl, fun m h => ⟨(hm m h).1, (hm m h).2.1, ?_⟩⟩
        obtain ⟨_, _, node, hnode, hlc⟩ := hm m h
        unfold routeOf
        rw [hdst]
        simp only [hpath]
        exact List.mem_filterMap.mpr ⟨node, hnode, hlc⟩
      · exact hkeep
    · exact hkeep
    · exact hkeep
  · exact hkeep

theorem always_load_report (lc dpid pkt_in_cnt : Nat) (s : AppManager env.nx.Graph) :
    Always (_tflcp_load_report_handler env lc dpid pkt_in_cnt) s fun s' => s' = s ∨ ∃ dp,
      s.datapath_list.get dpid = some dp ∧ s' = { s with
        datapath_list := s.datapath_list.insert dpid (dp.set_load pkt_in_cnt)
        lcs := Function.update s.lcs lc { s.lcs lc with
          dpid_to_load := (s.lcs lc).dpid_to_load.insert dpid pkt_in_cnt } } := by
  unfold _tflcp_load_report_handler
  simp only [wp_bind, wp_get, wp_item, wp_setDatapath, wp_modifyLc]
  exact ⟨fun dp hdp => Or.inr ⟨dp, hdp, rfl⟩, fun _ => Or.inl trivial⟩

theorem always_forgetHost (mac : Bytes) : ∀ (dpids : List Nat) (s : AppManager env.nx.Graph),
    Always (forgetHost env mac dpids) s fun s' => ∃ dps, s' = { s with datapath_list := dps } ∧
      SameButMacs s.datapath_list dps
  | [], s => ⟨_, rfl, .refl _⟩
  | old_dpid :: dpids, s => by
    unfold forgetHost
    simp only [wp_bind, wp_get, wp_item, wp_ite, wp_orRaise, wp_setDatapath]
    refine ⟨fun dp hdp => ⟨fun _ => ⟨fun dp' hdp' => ?_, fun _ _ => ⟨_, rfl, .refl _⟩⟩, fun _ => ?_⟩,
      fun _ => ⟨_, rfl, .refl _⟩⟩
    · rw [del_mac_ok hdp']
      exact ⟨_, rfl, .insert hdp _⟩
    · exact always_forgetHost mac dpids s

theorem add_mac_mac (dp : Datapath) (mac : Bytes) : ∃ macs, dp.add_mac mac = { dp with mac := macs } := by
  unfold Datapath.add_mac
  split
  · exact ⟨_, rfl⟩
  · exact ⟨_, rfl⟩

theorem always_recordHost (lc dpid : Nat) (mac : Bytes) (s : AppManager env.nx.Graph) :
    Always (recordHost env lc dpid mac) s fun s' => ∃ hosts dps,
      s' = { s with host_to_lcid := hosts, datapath_list := dps } ∧ SameButMacs s.datapath_list dps := by
  unfold recordHost
  simp only [wp_bind, wp_modify, wp_get, wp_item, wp_setDatapath]
  refine ⟨fun dp hdp => ?_, fun _ => ⟨_, _, rfl, .refl _⟩⟩
  obtain ⟨macs, hmacs⟩ := add_mac_mac dp mac
  exact ⟨_, _, rfl, hmacs ▸ .insert hdp macs⟩

theorem always_host_connected (lc dpid : Nat) (mac : Bytes) (s : AppManager env.nx.Graph) :
    Always (_tflcp_host_connected_handler env lc dpid mac) s fun s' => ∃ hosts dps,
      s' = { s with host_to_lcid := hosts, datapath_list := dps } ∧ SameButMacs s.datapath_list dps := by
  unfold _tflcp_host_connected_handler
  simp only [wp_bind, wp_get, wp_ite, wp_delHost]
  refine ⟨fun hm => ⟨fun _ => ?_, fun hn => absurd hm hn⟩, fun _ => always_recordHost lc dpid mac s⟩
  refine wp_mono (always_forgetHost mac _ _) ?_ ?_
  · intro _ _ hpost
    obtain ⟨dps, rfl, hsame⟩ := hpost
    refine Always.mono (always_recordHost lc dpid mac _) ?_
    intro _ hpost
    obtain ⟨hosts, dps', rfl, hsame'⟩ := hpost
    exact ⟨hosts, dps', rfl, hsame.trans hsame'⟩
  · intro _ _ hpost
    obtain ⟨dps, rfl, hsame⟩ := hpost
    exact ⟨_, dps, rfl, hsame⟩

theorem always_host_leave (dpid : Nat) (mac : Bytes) (s : AppManager env.nx.Graph) :
    Always (_tflcp_host_leave_handler env dpid mac) s fun s' => ∃ hosts dps,
      s' = { s with host_to_lcid := hosts, datapath_list := dps } ∧ SameButMacs s.datapath_list dps := by
  unfold _tflcp_host_leave_handler
  simp only [wp_bind, wp_get, wp_modify, wp_item, wp_ite, wp_orRaise, wp_setDatapath, wp_pure]
  refine ⟨fun dp hdp => ⟨fun _ => ⟨fun dp' hdp' => ?_, fun _ _ => ⟨_, _, rfl, .refl _⟩⟩,
    fun _ => ⟨_, _, rfl, .refl _⟩⟩, fun _ => ⟨_, _, rfl, .refl _⟩⟩
  rw [del_mac_ok hdp']
  exact ⟨_, _, rfl, .insert hdp _⟩

/-! ### HELLO_UP, DATAPATH_CONNECTED, DATAPATH_LEAVE -/

theorem always_hello_up (lc : Nat) (s : AppManager env.nx.Graph) :
    Always (_tflcp_hello_up_handler env lc) s fun s' => ∃ lcid x msgs,
      lcid = (s.lcip_to_lcid.get (s.lcs lc).address).getD s.glcid ∧ s' = sends (helloed s lc lcid) lc x msgs ∧
      AtMostOne (.HelloDown lcid) msgs := by
  refine wp_hello_up rfl ?_
  refine Always.mono (always_send_msg lc none _ _) ?_
  intro _ hpost
  obtain ⟨x, msgs, rfl, hm⟩ := hpost
  exact ⟨_, x, msgs, rfl, rfl, hm⟩

theorem SameButMacs.get_some {dps dps' : Dict Nat Datapath} (h : SameButMacs dps dps') {d : Nat} {dp : Datapath}
    (hdp : dps.get d = some dp) : ∃ mac, dps'.get d = some { dp with mac } := by
  obtain ⟨mac, h⟩ := h
  exact ⟨mac d, by rw [h, hdp]; rfl⟩

theorem always_datapath_connected (lc dpid : Nat) (s : AppManager env.nx.Graph) :
    Always (_tflcp_datapath_connected_handler env lc dpid) s fun s' =>
      (∃ hosts dps, s' = { s with host_to_lcid := hosts, datapath_list := dps } ∧ SameButMacs s.datapath_list dps) ∨
      ∃ hosts dps dp x msgs,
        (SameButMacs s.datapath_list dps ∨
          s.datapath_list.get dpid = none ∧ dps = s.datapath_list.insert dpid { id := dpid }) ∧
        dps.get dpid = some dp ∧
        s' = sends (homed { s with host_to_lcid := hosts, datapath_list := dps } lc dpid dp) lc x msgs ∧
        AtMostOne (.RoleAssign dpid (s.lcs lc).id OFPCR_ROLE_MASTER dp._generation_id) msgs := by
  refine wp_datapath_connected (fun hnone => ?_) fun dp hdp => ?_
  · have hget : Dict.get (s.datapath_list.insert dpid { id := dpid }) dpid = some { id := dpid } := by
      rw [Dict.get_insert, if_pos rfl]
    refine wp_assignRole hget (wp_mono (always_send_msg lc none _ _) ?_ ?_)
    all_goals
      intro _ _ hpost
      obtain ⟨x, msgs, rfl, hm⟩ := hpost
      exact Or.inr ⟨s.host_to_lcid, _, _, x, msgs, Or.inr ⟨hnone, rfl⟩, hget, rfl, hm⟩
  · refine wp_mono (always_purgeMacs dpid _ 0 s) ?_ ?_
    · intro _ _ hpost
      obtain ⟨hosts, dps, rfl, hsame⟩ := hpost
      obtain ⟨mac, hget⟩ := hsame.get_some hdp
      refine wp_assignRole hget (wp_mono (always_send_msg lc none _ _) ?_ ?_)
      all_goals
        intro _ _ hpost
        obtain ⟨x, msgs, rfl, hm⟩ := hpost
        exact Or.inr ⟨hosts, dps, _, x, msgs, Or.inl hsame, hget, rfl, hm⟩
    · intro _ _ hpost
      obtain ⟨hosts, dps, rfl, hsame⟩ := hpost
      exact Or.inl ⟨hosts, dps, rfl, hsame⟩

theorem always_datapath_leave (lc dpid : Nat) (s : AppManager env.nx.Graph) :
    Always (_tflcp_datapath_leave_handler env lc dpid) s fun s' => ∃ hosts dps dps' role load win g,
      s' = { s with
        host_to_lcid := hosts
        datapath_list := dps'
        LC_LEVEL_TOPO := g
        lcs := Function.update s.lcs lc { s.lcs lc with dpid_to_role := role, dpid_to_load := load, dp_win := win } } ∧
      SameButMacs s.datapath_list dps ∧ (dps' = dps ∨ Dropped lc dpid dps dps') ∧
      (role = (s.lcs lc).dpid_to_role ∨ role = (s.lcs lc).dpid_to_role.erase dpid) ∧
      (load = (s.lcs lc).dpid_to_load ∨ load = (s.lcs lc).dpid_to_load.erase dpid) ∧
      env.nx.Spanning g s.LC_LEVEL_TOPO := by
  have hself : Function.update s.lcs lc { s.lcs lc with
      dpid_to_role := (s.lcs lc).dpid_to_role, dpid_to_load := (s.lcs lc).dpid_to_load, dp_win := (s.lcs lc).dp_win } =
        s.lcs := Function.update_eq_self ..
  refine wp_datapath_leave (fun _ => ?_) fun dp _ => ?_
  · exact ⟨_, _, _, _, _, _, _, by rw [hself], .refl _, Or.inl rfl, Or.inl rfl, Or.inl rfl, .refl _ _⟩
  · refine wp_mono (always_purgeMacs dpid _ 0 s) ?_ ?_
    · intro _ _ hpost
      obtain ⟨hosts, dps, rfl, hsame⟩ := hpost
      refine wp_mono (always_dropDatapath lc dpid _) ?_ ?_
      · intro _ _ hpost
        obtain ⟨dps', role, load, win, rfl, hrole, hload, hdrop⟩ := hpost
        refine Always.mono (always_removeWindowEdges dpid _ _) ?_
        intro _ hpost
        obtain ⟨g, rfl, hg⟩ := hpost
        exact ⟨hosts, dps, dps', role, load, win, g, rfl, hsame, hdrop, hrole, hload, hg⟩
      · intro _ _ hpost
        obtain ⟨dps', role, load, win, rfl, hrole, hload, hdrop⟩ := hpost
        exact ⟨hosts, dps, dps', role, load, win, _, rfl, hsame, hdrop, hrole, hload, .refl _ _⟩
    · intro _ _ hpost
      obtain ⟨hosts, dps, rfl, hsame⟩ := hpost
      exact ⟨hosts, dps, dps, _, _, _, _, by rw [hself], hsame, Or.inl rfl, Or.inl rfl, Or.inl rfl, .refl _ _⟩

/-! ### GRAPH_INFO -/

theorem wp_linkData (w : Window) {Q : LinkData → AppManager env.nx.Graph → Prop}
    (hQ : ∀ data, w.Says data → Q data s) (hE : ¬ w.complete → E .KeyError s) : wp (linkData env w) s Q E := by
  unfold linkData
  simp only [wp_bind, wp_key, wp_pure]
  refine ⟨fun l hl => ⟨fun o ho => ⟨fun r hr => ⟨fun i hi => hQ ⟨l, o, r, i⟩ ⟨hl, ho, hr, hi⟩, fun h => hE ?_⟩,
    fun h => hE ?_⟩, fun h => hE ?_⟩, fun h => hE ?_⟩
  all_goals
    unfold Window.complete
    simp [h]

def HasWin (g : env.nx.Graph) (u : Lcid) : Prop := ∃ n, env.nx.node g u = some n ∧ n.win_dpid.isSome

/-- Same edges, and no node and no `win_dpid` lost. -/
def Rewinned (g g' : env.nx.Graph) : Prop :=
  (∀ u v, env.nx.edge g' u v = env.nx.edge g u v) ∧ (∀ u, (env.nx.node g u).isSome → (env.nx.node g' u).isSome) ∧
    ∀ u, HasWin g u → HasWin g' u

theorem Rewinned.refl (g : env.nx.Graph) : Rewinned g g := ⟨fun _ _ => rfl, fun _ h => h, fun _ h => h⟩

theorem Rewinned.trans {g g' g'' : env.nx.Graph} (h : Rewinned g g') (h' : Rewinned g' g'') : Rewinned g g'' :=
  ⟨fun u v => (h'.1 u v).trans (h.1 u v), fun u hu => h'.2.1 u (h.2.1 u hu), fun u hu => h'.2.2 u (h.2.2 u hu)⟩

theorem rewinned_add_node (g : env.nx.Graph) (u : Lcid) (dpids : List Nat) :
    Rewinned g (env.nx.add_node g u fun n => { n with win_dpid := some dpids }) ∧
      HasWin (env.nx.add_node g u fun n => { n with win_dpid := some dpids }) u := by
  refine ⟨⟨fun _ _ => env.nx.edge_add_node .., fun v hv => ?_, fun v hv => ?_⟩, ?_⟩
  · rw [env.nx.node_add_node]
    split
    · rfl
    · exact hv
  · unfold HasWin
    rw [env.nx.node_add_node]
    split
    · exact ⟨_, rfl, rfl⟩
    · exact hv
  · unfold HasWin
    rw [env.nx.node_add_node, if_pos rfl]
    exact ⟨_, rfl, rfl⟩

theorem wp_appendWinDpid (u : Lcid) (dpid : Nat) {Q : Unit → AppManager env.nx.Graph → Prop}
    (hQ : ∀ g, Rewinned s.LC_LEVEL_TOPO g → HasWin g u → Q () { s with LC_LEVEL_TOPO := g })
    (hE : ¬ HasWin s.LC_LEVEL_TOPO u → E .KeyError s) : wp (appendWinDpid env u dpid) s Q E := by
  unfold appendWinDpid
  simp only [wp_bind, wp_get]
  split
  · rename_i dpids hnode
    obtain ⟨h, hw⟩ := rewinned_add_node s.LC_LEVEL_TOPO u (dpids ++ [dpid])
    exact hQ _ h hw
  · rename_i hno
    refine hE ?_
    intro hx
    obtain ⟨n, hn, hw⟩ := hx
    obtain ⟨dpids, hd⟩ := Option.isSome_iff_exists.mp hw
    exact hno n.type dpids (by rw [hn, ← hd])

theorem wp_setWinDpid (u : Lcid) (dpid : Nat) {Q : Unit → AppManager env.nx.Graph → Prop}
    (hQ : ∀ g, Rewinned s.LC_LEVEL_TOPO g → HasWin g u → Q () { s with LC_LEVEL_TOPO := g })
    (hE : (env.nx.node s.LC_LEVEL_TOPO u).isNone → E .KeyError s) : wp (setWinDpid env u dpid) s Q E := by
  unfold setWinDpid
  simp only [wp_bind, wp_get]
  split
  · obtain ⟨h, hw⟩ := rewinned_add_node s.LC_LEVEL_TOPO u [dpid]
    exact hQ _ h hw
  · rename_i hno
    exact hE (by rw [hno]; rfl)

theorem hasEdges_iff {g : env.nx.Graph} {u v : Lcid} : hasEdges env g u v = true ↔ ∃ a, env.nx.HasEdge g u v a := by
  unfold hasEdges
  simp only [List.any_eq_true, Bool.and_eq_true, decide_eq_true_eq]
  constructor
  · intro h
    obtain ⟨⟨u', v', a⟩, hmem, rfl, rfl⟩ := h
    exact ⟨a, env.nx.mem_edges.mp hmem⟩
  · intro h
    obtain ⟨a, ha⟩ := h
    exact ⟨(u, v, a), env.nx.mem_edges.mpr ha, rfl, rfl⟩

theorem mem_values_iff {g : env.nx.Graph} {u v : Lcid} {a : LinkData} :
    a ∈ (env.nx.edge g u v).entries.map (fun e => e.2) ↔ env.nx.HasEdge g u v a := by
  rw [List.mem_map]
  constructor
  · intro h
    obtain ⟨⟨k, b⟩, hmem, rfl⟩ := h
    exact ⟨k, Dict.mem_entries.mp hmem⟩
  · intro h
    obtain ⟨k, hk⟩ := h
    exact ⟨⟨k, a⟩, Dict.mem_entries.mpr hk, rfl⟩

theorem Rewinned.hasEdge {g g' : env.nx.Graph} (h : Rewinned g g') {u v : Lcid} {a : LinkData} :
    env.nx.HasEdge g' u v a ↔ env.nx.HasEdge g u v a := by
  unfold MultiDiGraph.HasEdge; rw [h.1]

theorem wp_linkWindow (w : Window) (src_dpid dst_dpid : Nat) (u v : Lcid)
    {Q : Unit → AppManager env.nx.Graph → Prop}
    (hkeep : ∀ g, Rewinned s.LC_LEVEL_TOPO g → Q () { s with LC_LEVEL_TOPO := g })
    (hadd : ∀ g a, Rewinned s.LC_LEVEL_TOPO g → HasWin g u → HasWin g v → w.Says a →
      ¬ env.nx.HasEdge s.LC_LEVEL_TOPO u v a →
      Q () { s with LC_LEVEL_TOPO := env.nx.add_edge (env.nx.add_edge g u v a) v u a.flip })
    (hraise : ∀ e g, Rewinned s.LC_LEVEL_TOPO g →
      (¬ w.complete ∨ (∃ a, env.nx.HasEdge s.LC_LEVEL_TOPO u v a) ∧ ¬ (HasWin s.LC_LEVEL_TOPO u ∧ HasWin s.LC_LEVEL_TOPO v) ∨
        ¬ ((env.nx.node s.LC_LEVEL_TOPO u).isSome ∧ (env.nx.node s.LC_LEVEL_TOPO v).isSome)) →
      E e { s with LC_LEVEL_TOPO := g }) :
    wp (linkWindow env w src_dpid dst_dpid u v) s Q E := by
  unfold linkWindow
  simp only [wp_bind, wp_get, wp_ite, Bool.not_eq_true']
  refine ⟨fun hedge => ?_, fun hno => ⟨fun _ => ?_, fun h => absurd (by simpa using hno) h⟩⟩
  · obtain ⟨b, hb⟩ := hasEdges_iff.mp hedge
    refine wp_linkData w (fun a hsaid => ?_) fun hc => hraise _ _ (.refl _) (Or.inl hc)
    simp only [mem_values_iff]
    refine ⟨fun hnew => ?_, fun hold => ⟨fun h => ?_, fun _ => hkeep _ (.refl _)⟩⟩
    · refine wp_appendWinDpid u src_dpid (fun g₁ h₁ hw₁ => ?_) fun hw => ?_
      · refine wp_appendWinDpid v dst_dpid (fun g₂ h₂ hw₂ => ?_) fun hw => ?_
        · have hr : Rewinned s.LC_LEVEL_TOPO g₂ := h₁.trans h₂
          simp only [addWindowEdges, wp_modify]
          refine ⟨fun h => ?_, fun _ => hadd g₂ a hr (h₂.2.2 u hw₁) hw₂ hsaid hnew⟩
          have hin : hasEdges env (env.nx.add_edge (env.nx.add_edge g₂ u v a) v u a.flip) u v = true :=
            hasEdges_iff.mpr ⟨a, (env.nx.hasEdge_add_edge).mpr
              (Or.inr ((env.nx.hasEdge_add_edge).mpr (Or.inl ⟨rfl, rfl, rfl⟩)))⟩
          have h' : hasEdges env (env.nx.add_edge (env.nx.add_edge g₂ u v a) v u a.flip) u v = false := h
          rw [hin] at h'; cases h'
        · exact hraise _ _ h₁ (Or.inr (Or.inl ⟨⟨b, hb⟩, fun hwin => hw (h₁.2.2 v hwin.2)⟩))
      · exact hraise _ _ (.refl _) (Or.inr (Or.inl ⟨⟨b, hb⟩, fun hwin => hw hwin.1⟩))
    · rw [hedge] at h; cases h
  · have hnone : ∀ a, ¬ env.nx.HasEdge s.LC_LEVEL_TOPO u v a := fun a ha => hno (hasEdges_iff.mpr ⟨a, ha⟩)
    refine wp_setWinDpid u src_dpid (fun g₁ h₁ hw₁ => ?_) fun hn => ?_
    · refine wp_setWinDpid v dst_dpid (fun g₂ h₂ hw₂ => ?_) fun hn => ?_
      · have hr : Rewinned s.LC_LEVEL_TOPO g₂ := h₁.trans h₂
        refine wp_linkData w (fun a hsaid => ?_) fun hc => hraise _ _ hr (Or.inl hc)
        exact hadd g₂ a hr (h₂.2.2 u hw₁) hw₂ hsaid (hnone a)
      · refine hraise _ _ h₁ (Or.inr (Or.inr fun hnode => ?_))
        have := h₁.2.1 v hnode.2
        rw [Option.isNone_iff_eq_none.mp hn] at this
        cases this
    · refine hraise _ _ (.refl _) (Or.inr (Or.inr fun hnode => ?_))
      rw [Option.isNone_iff_eq_none.mp hn] at hnode
      cases hnode.1

def homeOf {Γ : Type} (s : AppManager Γ) (dpid : Nat) : Option Lcid :=
  ((s.datapath_list.get dpid).bind Datapath.lc_home).map fun lc => (s.lcs lc).id

theorem wp_homeId (dpid : Nat) {Q : Lcid → AppManager env.nx.Graph → Prop}
    (hQ : ∀ u, homeOf s dpid = some u → Q u s) (hE : homeOf s dpid = none → ∀ e, E e s) :
    wp (homeId env dpid) s Q E := by
  unfold homeId
  simp only [wp_bind, wp_get, wp_item]
  refine ⟨fun dp hdp => ?_, fun hn => hE (by unfold homeOf; rw [hn]; rfl) _⟩
  split
  · rename_i lc hlc
    exact hQ _ (by unfold homeOf; rw [hdp]; simp [hlc])
  · rename_i hlc
    exact hE (by unfold homeOf; rw [hdp]; simp [hlc]) _

/-- No lookup for a complete window can fail. -/
structure WindowReady (s : AppManager env.nx.Graph) : Prop where
  home : ∀ d, d ∈ s.datapath_list → ∃ u, homeOf s d = some u ∧ (env.nx.node s.LC_LEVEL_TOPO u).isSome
  win : ∀ u v a, env.nx.HasEdge s.LC_LEVEL_TOPO u v a → HasWin s.LC_LEVEL_TOPO u ∧ HasWin s.LC_LEVEL_TOPO v

theorem wp_handleWindow (w : Window) {Q : Unit → AppManager env.nx.Graph → Prop}
    (hkeep : ∀ g, Rewinned s.LC_LEVEL_TOPO g → Q () { s with LC_LEVEL_TOPO := g })
    (hadd : ∀ g u v a, Rewinned s.LC_LEVEL_TOPO g → HasWin g u → HasWin g v → w.Says a → u ≠ v →
      homeOf s a.left_dpid = some u → homeOf s a.right_dpid = some v → ¬ env.nx.HasEdge s.LC_LEVEL_TOPO u v a →
      Q () { s with LC_LEVEL_TOPO := env.nx.add_edge (env.nx.add_edge g u v a) v u a.flip })
    (hraise : ∀ e g, Rewinned s.LC_LEVEL_TOPO g → (WindowReady s → ¬ w.complete) → E e { s with LC_LEVEL_TOPO := g }) :
    wp (handleWindow env w) s Q E := by
  have hsame : Q () s := hkeep _ (.refl _)
  unfold handleWindow
  simp only [wp_bind, wp_key, wp_get, wp_ite, wp_pure]
  refine ⟨fun src hsrc => ⟨fun hin => ⟨fun dst hdst => ⟨fun hin' => ?_, fun _ => hsame⟩, fun h => ?_⟩, fun _ => hsame⟩,
    fun h => ?_⟩
  · refine wp_homeId src (fun u hu => ?_) fun hn e => hraise e _ (.refl _) fun hr => ?_
    · refine wp_homeId dst (fun v hv => ?_) fun hn e => hraise e _ (.refl _) fun hr => ?_
      · refine ⟨fun hne => ?_, fun _ => hsame⟩
        refine wp_linkWindow w src dst u v hkeep (fun g a hg hu' hv' hsaid hnew => ?_) fun e g hg hwhy =>
          hraise e g hg fun hr hc => ?_
        · have hl : a.left_dpid = src := by rw [hsaid.1] at hsrc; cases hsrc; rfl
          have hr : a.right_dpid = dst := by rw [hsaid.2.2.1] at hdst; cases hdst; rfl
          exact hadd g u v a hg hu' hv' hsaid hne (hl ▸ hu) (hr ▸ hv) hnew
        · obtain ⟨u', hu', hnu⟩ := hr.home src hin
          obtain ⟨v', hv', hnv⟩ := hr.home dst hin'
          rw [hu] at hu'
          rw [hv] at hv'
          cases hu'; cases hv'
          rcases hwhy with hwhy | ⟨⟨a, ha⟩, hwin⟩ | hnode
          · exact hwhy hc
          · exact hwin (hr.win u v a ha)
          · exact hnode ⟨hnu, hnv⟩
      · obtain ⟨v, hv, _⟩ := hr.home dst hin'
        rw [hn] at hv; cases hv
    · obtain ⟨u, hu, _⟩ := hr.home src hin
      rw [hn] at hu; cases hu
  · exact hraise _ _ (.refl _) fun _ hc => by rw [Window.complete, h] at hc; simp at hc
  · exact hraise _ _ (.refl _) fun _ hc => by rw [Window.complete, h] at hc; simp at hc

theorem wp_handleWindows (I : AppManager env.nx.Graph → Prop) (P : Window → Prop)
    (hkeep : ∀ s g, I s → Rewinned s.LC_LEVEL_TOPO g → I { s with LC_LEVEL_TOPO := g })
    (hadd : ∀ s g u v a w, I s → P w → Rewinned s.LC_LEVEL_TOPO g → HasWin g u → HasWin g v → w.Says a → u ≠ v →
      homeOf s a.left_dpid = some u → homeOf s a.right_dpid = some v → ¬ env.nx.HasEdge s.LC_LEVEL_TOPO u v a →
      I { s with LC_LEVEL_TOPO := env.nx.add_edge (env.nx.add_edge g u v a) v u a.flip }) :
    ∀ (ws : List Window) (s : AppManager env.nx.Graph), I s → (∀ w ∈ ws, P w) →
      wp (handleWindows env ws) s (fun _ => I) fun _ s' => I s' ∧ ((∀ s, I s → WindowReady s) → ∃ w ∈ ws, ¬ w.complete)
  | [], _, hs, _ => hs
  | w :: ws, s, hs, hP => by
    have hrest : ∀ s, I s → wp (handleWindows env ws) s (fun _ => I) fun _ s' =>
        I s' ∧ ((∀ s, I s → WindowReady s) → ∃ w' ∈ w :: ws, ¬ w'.complete) := fun s hs => by
      refine wp_mono (wp_handleWindows I P hkeep hadd ws s hs fun w' h => hP w' (List.mem_cons_of_mem w h))
        (fun _ _ h => h) fun _ _ h => ⟨h.1, fun hr => ?_⟩
      obtain ⟨w', hw', hc⟩ := h.2 hr
      exact ⟨w', List.mem_cons_of_mem w hw', hc⟩
    unfold handleWindows
    rw [wp_bind]
    refine wp_handleWindow w (fun g hg => hrest _ (hkeep s g hs hg)) ?_ fun e g hg hwhy =>
      ⟨hkeep s g hs hg, fun hr => ⟨w, List.mem_cons_self .., hwhy (hr s hs)⟩⟩
    intro g u v a hg hu hv hsaid hne hl hr hnew
    exact hrest _ (hadd s g u v a w hs (hP w (List.mem_cons_self ..)) hg hu hv hsaid hne hl hr hnew)

theorem wp_graph_info {lc : Nat} {text : Bytes} {Q : Unit → AppManager env.nx.Graph → Prop}
    (hok : ∀ ws, env.json_loads text = .ok ws →
      wp (handleWindows env ws) { s with local_windows := s.local_windows.insert lc ws } Q E)
    (herr : ∀ e, env.json_loads text = .error e → E e s) : wp (_tflcp_graph_info_handler env lc text) s Q E := by
  unfold _tflcp_graph_info_handler
  simp only [wp_bind, wp_orRaise, wp_modify]
  exact ⟨hok, herr⟩

theorem always_graph_info (lc : Nat) (text : Bytes) (s : AppManager env.nx.Graph) :
    Always (_tflcp_graph_info_handler env lc text) s fun s' => ∃ ws g,
      s' = { s with local_windows := ws, LC_LEVEL_TOPO := g } ∧
      ∀ u, (env.nx.node s.LC_LEVEL_TOPO u).isSome → (env.nx.node g u).isSome := by
  refine wp_graph_info (fun ws _ => ?_) fun _ _ => ⟨_, _, rfl, fun _ h => h⟩
  have hI := wp_handleWindows
    (fun s' => ∃ g, s' = { s with local_windows := s.local_windows.insert lc ws, LC_LEVEL_TOPO := g } ∧
      ∀ u, (env.nx.node s.LC_LEVEL_TOPO u).isSome → (env.nx.node g u).isSome) (fun _ => True) ?_ ?_ ws
    { s with local_windows := s.local_windows.insert lc ws } ⟨_, rfl, fun _ h => h⟩ (fun _ _ => trivial)
  · refine wp_mono hI ?_ ?_
    · intro _ _ hpost
      obtain ⟨g, rfl, hg⟩ := hpost
      exact ⟨_, g, rfl, hg⟩
    · intro _ _ hpost
      obtain ⟨⟨g, rfl, hg⟩, _⟩ := hpost
      exact ⟨_, g, rfl, hg⟩
  · intro _ g' hpost hw
    obtain ⟨g, rfl, hg⟩ := hpost
    exact ⟨g', rfl, fun u hu => hw.2.1 u (hg u hu)⟩
  · intro _ g' u v a w hpost _ hw _ _ _ _ _ _ _
    obtain ⟨g, rfl, hg⟩ := hpost
    refine ⟨_, rfl, fun n hn => ?_⟩
    have hn' := hw.2.1 n (hg n hn)
    simp only [env.nx.node_add_edge]
    split
    · rfl
    · split
      · rfl
      · exact hn'

/-! ### Steps -/

inductive Outcome (lc : Nat) (ev : Event MsgUp) (s : AppManager env.nx.Graph) : AppManager env.nx.Graph → Prop
  | hello (lcid x : Nat) (msgs : List Sent) (hmsg : ev.msg = .HelloUp)
      (hid : lcid = (s.lcip_to_lcid.get (s.lcs lc).address).getD s.glcid) (hmsgs : AtMostOne (.HelloDown lcid) msgs) :
      Outcome lc ev s (sends (helloed s lc lcid) lc x msgs)
  | connect (dpid : Nat) (w : Bool) (hosts : Dict Bytes Lcid) (dps : Dict Nat Datapath) (dp : Datapath) (x : Nat)
      (msgs : List Sent) (hmsg : ev.msg = .DPConnected dpid w)
      (hdps : SameButMacs s.datapath_list dps ∨
        s.datapath_list.get dpid = none ∧ dps = s.datapath_list.insert dpid { id := dpid })
      (hdp : dps.get dpid = some dp)
      (hmsgs : AtMostOne (.RoleAssign dpid (s.lcs lc).id OFPCR_ROLE_MASTER dp._generation_id) msgs) :
      Outcome lc ev s (sends (homed { s with host_to_lcid := hosts, datapath_list := dps } lc dpid dp) lc x msgs)
  | hosts (hosts : Dict Bytes Lcid) (dps : Dict Nat Datapath)
      (hmsg : (∃ dpid w, ev.msg = .DPConnected dpid w) ∨ ∃ dpid mac, ev.msg = .HostConnected dpid mac ∨
        ev.msg = .HostLeave dpid mac) (hdps : SameButMacs s.datapath_list dps) :
      Outcome lc ev s { s with host_to_lcid := hosts, datapath_list := dps }
  | gid (dpid : Nat) (dp : Datapath) (x : Nat) (msgs : List Sent) (hmsg : ev.msg = .GidRequest dpid)
      (hdp : s.datapath_list.get dpid = some dp) (hmsgs : AtMostOne (.GidReply dpid dp._generation_id) msgs) :
      Outcome lc ev s (sends { s with
        datapath_list := s.datapath_list.insert dpid { dp with _generation_id := dp._generation_id + 1 } } lc x msgs)
  | packetIn (dst_mac : Bytes) (msgs : List Sent)
      (hmsg : ∃ in_dpid src_mac src_ip dst_ip tp_src tp_dst,
        ev.msg = .PacketIn in_dpid src_mac dst_mac src_ip dst_ip tp_src tp_dst)
      (hmsgs : ∀ m ∈ msgs, m.isFlowMod ∧ m.xid = ev.header.xid ∧ m.lc ∈ routeOf env s lc dst_mac) :
      Outcome lc ev s { s with UPDATE_COUNTER := s.UPDATE_COUNTER + 1, sent := s.sent ++ msgs }
  | load (dpid pkt_in_cnt : Nat) (dp : Datapath) (hdp : s.datapath_list.get dpid = some dp) :
      Outcome lc ev s { s with
        datapath_list := s.datapath_list.insert dpid (dp.set_load pkt_in_cnt)
        lcs := Function.update s.lcs lc { s.lcs lc with
          dpid_to_load := (s.lcs lc).dpid_to_load.insert dpid pkt_in_cnt } }
  | echo : Outcome lc ev s { s with
        lc_outline := s.lc_outline.insert (s.lcs lc).id false
        lc_outline_0 := s.lc_outline_0.insert (s.lcs lc).id false
        lc_outline_1 := s.lc_outline_1.insert (s.lcs lc).id false }
  | leave (dpid : Nat) (hosts : Dict Bytes Lcid) (dps dps' : Dict Nat Datapath) (role load win : Dict Nat Nat)
      (g : env.nx.Graph) (hmsg : ev.msg = .DatapathLeave dpid) (hdps : SameButMacs s.datapath_list dps)
      (hdrop : dps' = dps ∨ Dropped lc dpid dps dps')
      (hrole : role = (s.lcs lc).dpid_to_role ∨ role = (s.lcs lc).dpid_to_role.erase dpid)
      (hload : load = (s.lcs lc).dpid_to_load ∨ load = (s.lcs lc).dpid_to_load.erase dpid)
      (hg : env.nx.Spanning g s.LC_LEVEL_TOPO) :
      Outcome lc ev s { s with
        host_to_lcid := hosts
        datapath_list := dps'
        LC_LEVEL_TOPO := g
        lcs := Function.update s.lcs lc { s.lcs lc with dpid_to_role := role, dpid_to_load := load, dp_win := win } }
  | graph (ws : Dict Nat (List Window)) (g : env.nx.Graph) (hmsg : ∃ text, ev.msg = .GraphInfo text)
      (hg : ∀ u, (env.nx.node s.LC_LEVEL_TOPO u).isSome → (env.nx.node g u).isSome) :
      Outcome lc ev s { s with local_windows := ws, LC_LEVEL_TOPO := g }
  | same : Outcome lc ev s s

theorem outcome_dispatch (lc : Nat) (ev : Event MsgUp) (s : AppManager env.nx.Graph) :
    Always (dispatch_event env lc ev) s (Outcome lc ev s) := by
  unfold dispatch_event
  cases hmsg : ev.msg with
  | HelloUp =>
    refine Always.mono (always_hello_up lc s) ?_
    intro _ hpost
    obtain ⟨lcid, x, msgs, hid, rfl, hmsgs⟩ := hpost
    exact .hello lcid x msgs hmsg hid hmsgs
  | DPConnected dpid w =>
    refine Always.mono (always_datapath_connected lc dpid s) ?_
    intro _ hpost
    rcases hpost with ⟨hosts, dps, rfl, hdps⟩ | ⟨hosts, dps, dp, x, msgs, hdps, hdp, rfl, hmsgs⟩
    · exact .hosts hosts dps (Or.inl ⟨dpid, w, hmsg⟩) hdps
    · exact .connect dpid w hosts dps dp x msgs hmsg hdps hdp hmsgs
  | GidRequest dpid =>
    refine Always.mono (always_gid_request lc dpid s) ?_
    intro _ hpost
    rcases hpost with rfl | ⟨dp, x, msgs, hdp, rfl, hmsgs⟩
    · exact .same
    · exact .gid dpid dp x msgs hmsg hdp hmsgs
  | PacketIn in_dpid src_mac dst_mac src_ip dst_ip tp_src tp_dst =>
    refine Always.mono (always_packet_in lc _ in_dpid src_mac dst_mac s) ?_
    intro _ hpost
    obtain ⟨msgs, rfl, hmsgs⟩ := hpost
    exact .packetIn dst_mac msgs ⟨in_dpid, src_mac, src_ip, dst_ip, tp_src, tp_dst, hmsg⟩ hmsgs
  | LoadReport dpid pkt_in_cnt =>
    refine Always.mono (always_load_report lc dpid pkt_in_cnt s) ?_
    intro _ hpost
    rcases hpost with rfl | ⟨dp, hdp, rfl⟩
    · exact .same
    · exact .load dpid pkt_in_cnt dp hdp
  | EchoReply timestamp => exact .echo
  | HostConnected dpid mac =>
    refine Always.mono (always_host_connected lc dpid mac s) ?_
    intro _ hpost
    obtain ⟨hosts, dps, rfl, hdps⟩ := hpost
    exact .hosts hosts dps (Or.inr ⟨dpid, mac, Or.inl hmsg⟩) hdps
  | HostLeave dpid mac =>
    refine Always.mono (always_host_leave dpid mac s) ?_
    intro _ hpost
    obtain ⟨hosts, dps, rfl, hdps⟩ := hpost
    exact .hosts hosts dps (Or.inr ⟨dpid, mac, Or.inr hmsg⟩) hdps
  | DatapathLeave dpid =>
    refine Always.mono (always_datapath_leave lc dpid s) ?_
    intro _ hpost
    obtain ⟨hosts, dps, dps', role, load, win, g, rfl, hdps, hdrop, hrole, hload, hg⟩ := hpost
    exact .leave dpid hosts dps dps' role load win g hmsg hdps hdrop hrole hload hg
  | GraphInfo text =>
    refine Always.mono (always_graph_info lc text s) ?_
    intro _ hpost
    obtain ⟨ws, g, rfl, hg⟩ := hpost
    exact .graph ws g ⟨text, hmsg⟩ hg
  | RoleNotify | Error | BarrierReply => exact .same


theorem receive_of_always (P : AppManager env.nx.Graph → Prop) {r : Received} (hclose : ∀ s, P s → P (s.close r.lc))
    (h : Always (dispatch_event env r.lc r.ev) s P) : P (receive env s r) := by
  unfold Always wp at h
  unfold receive
  cases hx : dispatch_event env r.lc r.ev s with
  | ok a s' => rw [hx] at h; exact h
  | error e s' => rw [hx] at h; exact hclose s' h

end

end AppManager

/-! ## An environment to compute with -/

def received (lc xid : Nat) (msg : MsgUp) : Received :=
  ⟨lc, ⟨TFLC_VERSION_1, msg.msg_type, ((msg.serialize .little (some xid)).map List.length).getD 0, xid⟩, msg⟩

/-- Function graphs, and a parser that knows the texts of a list. -/
def sampleEnv (texts : List (Bytes × List Window)) : Env where
  host := .little
  nx := fnMultiDiGraph Lcid LcNode LinkData
  json_loads text := match texts.lookup text with
    | some ws => .ok ws
    | none => .error .ValueError
  datapath_order dps := dps.keys
  datapath_order_perm _ := .refl _

def sampleInit (texts : List (Bytes × List Window)) : AppManager (sampleEnv texts).nx.Graph :=
  AppManager.init (sampleEnv texts) (fun lc => ("10.0.0.1", 40000 + lc)) fun lc => lc

end VnfDockerNet
