import VnfDockerNet.HostSound
import VnfDockerNet.TopoSound

/-!
# A switch changes its controller

The old controller reports that the datapath left, the new one that it
connected, and then the hosts. The two streams arrive on different connections.
No handler raises, in whatever order, but each of the two purges skips every
other host, and a late leave purges hosts that the new controller has reported.
-/

namespace VnfDockerNet

open Python Networkx Runs Index

namespace AppManager

section
variable {env : Env} {s : AppManager env.nx.Graph} {E : Exn → AppManager env.nx.Graph → Prop}
  {Q : Unit → AppManager env.nx.Graph → Prop}

/-! ## The edges of a switch that leaves -/

theorem wp_removeEdgeIf {hit : Bool} {u v : Lcid} (hin : hit = true → 0 < env.nx.parallel s.LC_LEVEL_TOPO u v)
    (hskip : hit = false → Q () s)
    (hrem : hit = true → ∀ g, env.nx.remove_edge s.LC_LEVEL_TOPO u v = .ok g → Q () { s with LC_LEVEL_TOPO := g }) :
    wp (removeEdgeIf env hit u v) s Q E := by
  unfold removeEdgeIf
  simp only [wp_bind, wp_get, wp_orRaise, wp_modify, wp_ite, wp_pure]
  refine ⟨fun hhit => ⟨fun g hg => hrem hhit g hg, fun e he => ?_⟩, fun hhit => hskip (by simpa using hhit)⟩
  obtain ⟨g, hg⟩ := env.nx.remove_edge_ok _ u v (env.nx.edge_ne_empty_of_parallel (hin hhit))
  rw [hg] at he
  cases he

theorem wp_removeWindowEdges (dpid : Nat) : ∀ (es : List (Lcid × Lcid × LinkData)) (s : AppManager env.nx.Graph),
    (∀ e ∈ es, e.2.2.left_dpid ≠ e.2.2.right_dpid) →
    (∀ u v, (es.filter fun e => e.1 = u ∧ e.2.1 = v).length ≤ env.nx.parallel s.LC_LEVEL_TOPO u v) →
    (∀ g, Q () { s with LC_LEVEL_TOPO := g }) → wp (removeWindowEdges env dpid es) s Q E
  | [], s, _, _, h => h s.LC_LEVEL_TOPO
  | (u, v, data) :: es, s, hapart, hcount, h => by
    have hcount' : ∀ u' v', (es.filter fun e => e.1 = u' ∧ e.2.1 = v').length +
        (if u' = u ∧ v' = v then 1 else 0) ≤ env.nx.parallel s.LC_LEVEL_TOPO u' v' := fun u' v' => by
      have := hcount u' v'
      rw [List.filter_cons] at this
      by_cases huv : u' = u ∧ v' = v
      · obtain ⟨rfl, rfl⟩ := huv
        simpa using this
      · have hne : ¬ (u = u' ∧ v = v') := fun h => huv ⟨h.1.symm, h.2.symm⟩
        simpa [huv, hne] using this
    have hhere : 0 < env.nx.parallel s.LC_LEVEL_TOPO u v := by
      have := hcount' u v
      rw [if_pos ⟨rfl, rfl⟩] at this
      omega
    have hrest : ∀ g, (∀ u' v', env.nx.parallel s.LC_LEVEL_TOPO u' v' ≤
        env.nx.parallel g u' v' + if u' = u ∧ v' = v then 1 else 0) →
        wp (removeWindowEdges env dpid es) { s with LC_LEVEL_TOPO := g } Q E := fun g hg =>
      wp_removeWindowEdges dpid es _ (fun e he => hapart e (List.mem_cons_of_mem _ he)) (fun u' v' => by
        have h₁ := hcount' u' v'
        have h₂ := hg u' v'
        show _ ≤ env.nx.parallel g u' v'
        omega) h
    have hremoved : ∀ g, env.nx.remove_edge s.LC_LEVEL_TOPO u v = .ok g → ∀ u' v',
        env.nx.parallel s.LC_LEVEL_TOPO u' v' ≤ env.nx.parallel g u' v' + if u' = u ∧ v' = v then 1 else 0 := by
      intro g hg u' v'
      rw [env.nx.parallel_remove_edge hg]
      split
      · rename_i huv
        rw [huv.1, huv.2]
        omega
      · omega
    have hne := hapart _ (List.mem_cons_self ..)
    unfold removeWindowEdges
    rw [wp_bind]
    refine wp_removeEdgeIf (fun _ => hhere) (fun _ => ?_) fun hhit g hg => ?_
    · rw [wp_bind]
      refine wp_removeEdgeIf (fun _ => hhere) (fun _ => ?_) fun _ g hg => hrest g (hremoved g hg)
      exact hrest s.LC_LEVEL_TOPO fun u' v' => Nat.le_add_right _ _
    · -- the left end is at the switch, so the right end is not
      rw [wp_bind]
      have hright : decide (data.right_dpid = dpid) = false := by
        rw [decide_eq_false_iff_not, ← of_decide_eq_true hhit]
        exact hne.symm
      refine wp_removeEdgeIf (fun h => ?_) (fun _ => hrest g (hremoved g hg)) fun h => ?_
      · rw [hright] at h; cases h
      · rw [hright] at h; cases h

theorem wp_removeWindowEdges_all (hw : Wired s) (dpid : Nat) (h : ∀ g, Q () { s with LC_LEVEL_TOPO := g }) :
    wp (removeWindowEdges env dpid (env.nx.edges s.LC_LEVEL_TOPO)) s Q E := by
  refine wp_removeWindowEdges dpid _ s (fun e he => ?_) (fun u v => (env.nx.length_filter_edges _ u v).le) h
  exact (hw.apart e.1 e.2.1 e.2.2 (env.nx.mem_edges.mp he)).2

/-! ## Phases of a migration -/

def placed {Γ : Type} (s : AppManager Γ) (d : Nat) : Option (Option Nat × List Nat) :=
  (s.datapath_list.get d).map fun dp => (dp.lc_home, dp.lc_connected)

/-- `d` lists the hosts `macs`; those in `told` are mapped to `u`, the others in
`old` are listed nowhere else, and what is mapped but not listed is `stale`. -/
structure Phase (s : AppManager env.nx.Graph) (d : Nat) (old told macs : List Bytes) (stale : Bytes → Prop)
    (u : Lcid) : Prop where
  index : HostIndex s stale
  list : macsOf s d = macs
  others : ∀ m ∈ old, ∀ e, e ≠ d → m ∉ macsOf s e
  named : ∀ m ∈ told, m ∈ macs → s.host_to_lcid.get m = some u

variable {d : Nat} {old told macs : List Bytes} {stale : Bytes → Prop} {u : Lcid}

theorem Phase.congr {s' : AppManager env.nx.Graph} (h : Phase s d old told macs stale u)
    (hmacs : macsOf s' = macsOf s) (hhosts : s'.host_to_lcid = s.host_to_lcid) : Phase s' d old told macs stale u := by
  refine ⟨?_, hmacs ▸ h.list, hmacs ▸ h.others, hhosts ▸ h.named⟩
  unfold HostIndex
  rw [hmacs, hhosts]
  exact h.index

theorem Phase.purge (h : Phase s d old told macs stale u) {hosts : Dict Bytes Lcid} {dps : Dict Nat Datapath}
    (hhosts : ∀ m, hosts.get m = if m ∈ visited (macsOf s d) then none else s.host_to_lcid.get m)
    (hdps : SetMacs (fun e => if e = d then skipped (macsOf s e) else macsOf s e) s.datapath_list dps) :
    Phase { s with host_to_lcid := hosts, datapath_list := dps } d old told (skipped macs) stale u := by
  have hmacs := hdps.macsOf (fun e he => by rw [macsOf_none he]; split <;> rfl) hosts
  refine ⟨h.index.purge hhosts hdps, ?_, fun m hm e he => ?_, fun m hm hmem => ?_⟩
  · rw [hmacs, ← h.list]
    exact if_pos rfl
  · rw [hmacs]
    have := h.others m hm e he
    simpa [he] using this
  · have hnd := h.index.nodup d
    rw [← h.list] at hmem
    obtain ⟨hin, hnv⟩ := (mem_skipped_iff hnd).mp hmem
    exact (hhosts m).trans ((if_neg hnv).trans (h.named m hm (h.list ▸ hin)))

theorem Phase.drop {s' : AppManager env.nx.Graph} (h : Phase s d old told macs stale u)
    (hmacs : ∀ e, macsOf s' e = if e = d then [] else macsOf s e) (hhosts : s'.host_to_lcid = s.host_to_lcid) :
    Phase s' d old told [] (fun m => stale m ∨ m ∈ macs) u := by
  refine ⟨?_, (hmacs d).trans (if_pos rfl), fun m hm e he => ?_, fun m _ hmem => by cases hmem⟩
  · unfold HostIndex
    rw [hhosts]
    exact h.index.drop d hmacs fun m => by rw [h.list]
  · rw [hmacs, if_neg he]
    exact h.others m hm e he

def announce (macs : List Bytes) (m : Bytes) : List Bytes := macs.erase m ++ [m]

theorem mem_announce {macs : List Bytes} {m k : Bytes} : k ∈ announce macs m ↔ k ∈ macs ∨ k = m := by
  unfold announce
  rw [List.mem_append, List.mem_singleton]
  by_cases hk : k = m
  · simp [hk]
  · rw [List.mem_erase_of_ne hk]

theorem mem_foldl_announce {k : Bytes} : ∀ (ms macs : List Bytes), k ∈ ms.foldl announce macs ↔ k ∈ macs ∨ k ∈ ms
  | [], macs => by simp
  | m :: ms, macs => by
    rw [List.foldl_cons, mem_foldl_announce ms, mem_announce, List.mem_cons, or_assoc]

theorem Phase.announce {m : Bytes} (h : Phase s d old told macs stale u) (hlisted : d ∈ s.datapath_list)
    {hosts : Dict Bytes Lcid} {dps : Dict Nat Datapath}
    (hhosts : ∀ k, hosts.get k = if k = m then some u else s.host_to_lcid.get k)
    (hdps : SetMacs (fun e => if e = d then (macsOf s e).erase m ++ [m] else (macsOf s e).erase m) s.datapath_list dps) :
    Phase { s with host_to_lcid := hosts, datapath_list := dps } d old (told ++ [m]) (announce macs m)
      (fun k => stale k ∧ k ≠ m) u := by
  have hmacs := hdps.macsOf (fun e he => by
    have hne : e ≠ d := fun h => Dict.get_eq_none.mp he (h ▸ hlisted)
    rw [if_neg hne, macsOf_none he]; rfl) hosts
  refine ⟨h.index.move hlisted hhosts hdps, ?_, fun k hk e he => ?_, fun k hk hmem => (hhosts k).trans ?_⟩
  · rw [hmacs, ← h.list]
    exact if_pos rfl
  · rw [hmacs]
    have := h.others k hk e he
    simp only [if_neg he]
    exact fun hk' => this (List.mem_of_mem_erase hk')
  · by_cases hkm : k = m
    · exact if_pos hkm
    · rw [if_neg hkm]
      have hk' : k ∈ told := (List.mem_append.mp hk).resolve_right fun h => hkm (List.mem_singleton.mp h)
      exact h.named k hk' ((mem_announce.mp hmem).resolve_right hkm)

theorem placed_eq {d : Nat} {dp : Datapath} (hdp : s.datapath_list.get d = some dp) :
    placed s d = some (dp.lc_home, dp.lc_connected) := by
  unfold placed
  rw [hdp]; rfl

theorem wp_leave_phase (hw : Wired s) (hc : Connections s) (h : Phase s d old told macs stale u) {lc home : Nat}
    {conn : List Nat} (hplaced : placed s d = some (some home, conn)) (hlc : lc ∈ conn)
    (hlast : conn.length = 1 → ∀ s', placed s' d = none →
      Phase s' d old told [] (fun m => stale m ∨ m ∈ skipped macs) u → Q () s')
    (hmore : conn.length ≠ 1 → ∀ s', placed s' d = some (some home, conn.erase lc) →
      Phase s' d old told (skipped macs) stale u → Q () s') :
    wp (_tflcp_datapath_leave_handler env lc d) s Q E := by
  obtain ⟨dp, hdp, hplace⟩ := Option.map_eq_some_iff.mp hplaced
  obtain ⟨hhome, rfl⟩ := Prod.mk.inj hplace
  refine wp_datapath_leave (fun hn => by rw [hdp] at hn; cases hn) fun dp' hdp' => ?_
  rw [hdp] at hdp'
  cases hdp'
  refine wp_purge h.index hdp fun hosts dps hhosts hdps => ?_
  have hpurged := h.purge hhosts hdps
  have hget := get_purged hdps hdp
  obtain ⟨hrole, hload⟩ := (hc d dp hdp).2 lc hlc
  refine wp_dropDatapath hget hlc hrole hload ?_
  have hdrop : ∀ e, (dropped { s with host_to_lcid := hosts, datapath_list := dps } lc d
      { dp with mac := skipped (macsOf s d) }).datapath_list.get e = if e = d then
        (if dp.lc_connected.length = 1 then none
          else some { dp with mac := skipped (macsOf s d), lc_connected := dp.lc_connected.erase lc })
        else dps.get e := by
    intro e
    unfold dropped
    simp only
    split
    · rw [Dict.get_erase]
    · rw [Dict.get_insert]
  have hw' : Wired (dropped { s with host_to_lcid := hosts, datapath_list := dps } lc d
      { dp with mac := skipped (macsOf s d) }) := hw.spanning (.refl _ _) rfl
  refine wp_removeWindowEdges_all hw' d fun g => ?_
  by_cases hlen : dp.lc_connected.length = 1
  · refine hlast hlen _ ?_ (hpurged.drop (fun e => ?_) rfl)
    · show Option.map _ (Dict.get _ d) = none
      rw [hdrop, if_pos rfl, if_pos hlen]
      rfl
    · show ((Dict.get _ e).map Datapath.mac).getD [] = _
      rw [hdrop]
      by_cases he : e = d
      · simp [he, hlen]
      · rw [if_neg he, if_neg he]
        rfl
  · refine hmore hlen _ ?_ (hpurged.congr (funext fun e => ?_) rfl)
    · show Option.map _ (Dict.get _ d) = _
      rw [hdrop, if_pos rfl, if_neg hlen, ← hhome]
      rfl
    · show ((Dict.get _ e).map Datapath.mac).getD [] = ((dps.get e).map Datapath.mac).getD []
      rw [hdrop]
      by_cases he : e = d
      · rw [he, if_pos rfl, if_neg hlen, hget]
        rfl
      · rw [if_neg he]

theorem wp_send_fits {lc : Nat} {msg : MsgDown} (hu : msg.inUse = true) (hf : msg.fits = true)
    (h : ∀ x y, Q () (sends s lc x [⟨lc, y, msg⟩])) : wp (send_msg env lc none msg) s Q E := by
  have hxid : ∀ x, x &&& MAX_XID < 2 ^ 32 := fun x => Nat.lt_of_le_of_lt Nat.and_le_right (by decide)
  unfold send_msg set_xid
  simp only [wp_bind, wp_pure, wp_modifyLc, wp_get, Function.update_self]
  obtain ⟨frame, hframe, _⟩ := downlink_delivers env.host (hxid ((s.lcs lc).xid + 1)) msg hu hf
  rw [hframe]
  exact h _ _

theorem wp_assignRole_phase (h : Phase s d old told macs stale u) {lc i : Nat} {dp : Datapath}
    (hdp : s.datapath_list.get d = some dp) (hlc : lc ∉ dp.lc_connected) (hid : (s.lcs lc).id = some i)
    (hi : i ≤ MAX_LC_ID) (hd : d < 2 ^ 64) (hgid : dp._generation_id < 2 ^ 64)
    (hQ : ∀ s', placed s' d = some (some lc, dp.lc_connected ++ [lc]) → Phase s' d old told macs stale u → Q () s') :
    wp (assignRole env lc d) s Q E := by
  refine wp_assignRole hdp (wp_send_fits rfl ?_ fun x y => hQ _ ?_ ?_)
  · have hi' : i < 2 ^ 32 := Nat.lt_of_le_of_lt hi (by decide)
    have hrole : OFPCR_ROLE_MASTER < 2 ^ 32 := by decide
    simp only [MsgDown.fits, hid, Option.any_some, Bool.and_eq_true, decide_eq_true_eq]
    exact ⟨⟨⟨hd, hi'⟩, hrole⟩, hgid⟩
  · have hadd : dp.add_lc lc = { dp with lc_connected := dp.lc_connected ++ [lc] } := if_neg hlc
    have hget : Dict.get (homed s lc d dp).datapath_list d =
        some { (dp.add_lc lc).set_home_lc lc with _generation_id := dp._generation_id + 1 } :=
      (Dict.get_insert ..).trans (if_pos rfl)
    rw [hadd] at hget
    exact placed_eq (by exact hget)
  · exact h.congr (macsOf_homed lc hdp) rfl

theorem wp_connect_new (h : Phase s d old told macs stale u) {lc i : Nat} (hplaced : placed s d = none)
    (hid : (s.lcs lc).id = some i) (hi : i ≤ MAX_LC_ID) (hd : d < 2 ^ 64)
    (hQ : ∀ s', placed s' d = some (some lc, [lc]) → Phase s' d old told macs stale u → Q () s') :
    wp (_tflcp_datapath_connected_handler env lc d) s Q E := by
  have hnone : s.datapath_list.get d = none := Option.map_eq_none_iff.mp hplaced
  refine wp_datapath_connected (fun _ => ?_) fun dp hdp => by rw [hnone] at hdp; cases hdp
  have hnew : Phase { s with datapath_list := s.datapath_list.insert d { id := d } } d old told macs stale u := by
    refine h.congr (funext fun e => ?_) rfl
    unfold macsOf
    rw [Dict.get_insert]
    split
    · rename_i he
      rw [he, hnone]; rfl
    · rfl
  have hget : Dict.get (s.datapath_list.insert d { id := d }) d = some { id := d } :=
    (Dict.get_insert ..).trans (if_pos rfl)
  have hgid : 1 < 2 ^ 64 := by decide
  exact wp_assignRole_phase hnew hget List.not_mem_nil hid hi hd hgid hQ

theorem wp_connect_old (h : Phase s d old told macs stale u) {lc i : Nat} {dp : Datapath}
    (hdp : s.datapath_list.get d = some dp) (hlc : lc ∉ dp.lc_connected) (hid : (s.lcs lc).id = some i)
    (hi : i ≤ MAX_LC_ID) (hd : d < 2 ^ 64) (hgid : dp._generation_id < 2 ^ 64)
    (hQ : ∀ s', placed s' d = some (some lc, dp.lc_connected ++ [lc]) →
      Phase s' d old told (skipped macs) stale u → Q () s') :
    wp (_tflcp_datapath_connected_handler env lc d) s Q E := by
  refine wp_datapath_connected (fun hn => by rw [hdp] at hn; cases hn) fun dp' hdp' => ?_
  rw [hdp] at hdp'
  cases hdp'
  refine wp_purge h.index hdp fun hosts dps hhosts hdps => ?_
  have hget := get_purged hdps hdp
  exact wp_assignRole_phase (h.purge hhosts hdps) hget hlc hid hi hd hgid hQ

theorem wp_host_phase (h : Phase s d old told macs stale u) {lc : Nat} {m : Bytes} {place : Option Nat × List Nat}
    (hplaced : placed s d = some place) (hid : (s.lcs lc).id = u)
    (hQ : ∀ s', placed s' d = some place →
      Phase s' d old (told ++ [m]) (announce macs m) (fun k => stale k ∧ k ≠ m) u → Q () s') :
    wp (_tflcp_host_connected_handler env lc d m) s Q E := by
  obtain ⟨dp, hdp, hplace⟩ := Option.map_eq_some_iff.mp hplaced
  have hlisted : d ∈ s.datapath_list := Dict.mem_iff_get.mpr ⟨dp, hdp⟩
  refine wp_host_connected h.index hlisted fun hosts dps hhosts hdps => ?_
  rw [hid] at hhosts
  refine hQ _ ?_ (h.announce hlisted hhosts hdps)
  show Option.map _ (dps.get d) = some place
  rw [hdps, hdp, ← hplace]
  rfl

/-! ## The two streams -/

def Returns (env : Env) (s : AppManager env.nx.Graph) (r : Received) : Prop :=
  ∃ s', dispatch_event env r.lc r.ev s = .ok () s'

/-- Both controllers are connected and known, in a state that a run can reach. -/
structure Ready (s : AppManager env.nx.Graph) (lc₁ lc₂ i : Nat) : Prop where
  topo : TopoInv s
  conns : Connections s
  active : (s.lcs lc₁).is_active = true ∧ (s.lcs lc₂).is_active = true
  id₁ : (s.lcs lc₁).id ≠ none
  id₂ : (s.lcs lc₂).id = some i

theorem active_dispatch (lc : Nat) (ev : Event MsgUp) (s : AppManager env.nx.Graph) :
    Always (dispatch_event env lc ev) s fun s' => ∀ l, (s'.lcs l).is_active = (s.lcs l).is_active := by
  refine Always.mono (outcome_dispatch lc ev s) ?_
  intro s' hout l
  cases hout with
  | hello lcid x msgs =>
    refine (update_proj LocalController.is_active (by rfl) l).trans ?_
    exact update_proj LocalController.is_active (by rfl) l
  | connect dpid w hosts dps dp x msgs =>
    refine (update_proj LocalController.is_active (by rfl) l).trans ?_
    exact update_proj LocalController.is_active (by rfl) l
  | gid dpid dp x msgs => exact update_proj LocalController.is_active (by rfl) l
  | load dpid pkt_in_cnt dp => exact update_proj LocalController.is_active (by rfl) l
  | leave dpid hosts dps dps' role load win g => exact update_proj LocalController.is_active (by rfl) l
  | hosts | packetIn | echo | graph | same => rfl

theorem Ready.step {lc₁ lc₂ i : Nat} {r : Received} {P : AppManager env.nx.Graph → Prop} (h : Ready s lc₁ lc₂ i)
    (hlc : r.lc = lc₁ ∨ r.lc = lc₂)
    (hwp : wp (dispatch_event env r.lc r.ev) s (fun _ => P) fun _ _ => False) :
    (Accepts env s r ∧ Returns env s r) ∧ Ready (receive env s r) lc₁ lc₂ i ∧ P (receive env s r) := by
  have hboth := wp_and hwp (active_dispatch r.lc r.ev s)
  obtain ⟨_, s', hok, hP, hactive⟩ := ok_of_wp (wp_mono hboth (fun _ _ h => h) fun _ _ h => h.1)
  have hrec : receive env s r = s' := by
    unfold receive
    rw [hok]
  have hacc : Accepts env s r := by
    rcases hlc with hlc | hlc
    · rw [Accepts, hlc]
      exact ⟨h.active.1, Or.inl h.id₁⟩
    · rw [Accepts, hlc]
      exact ⟨h.active.2, Or.inl (by rw [h.id₂]; exact Option.some_ne_none i)⟩
  have hids := (registered_step r h.topo.registered).2
  refine ⟨⟨hacc, s', hok⟩, ⟨topoInv_step h.topo hacc, connections_step r h.conns, ?_, ?_, hids lc₂ i h.id₂⟩, hrec ▸ hP⟩
  · rw [hrec, hactive, hactive]
    exact h.active
  · obtain ⟨j, hj⟩ := Option.ne_none_iff_exists'.mp h.id₁
    rw [hids lc₁ j hj]
    exact Option.some_ne_none j

theorem hosts_run {lc₁ lc₂ i : Nat} {conn : List Nat} : ∀ (rs : List Received) (ms : List Bytes)
    (s : AppManager env.nx.Graph) (told macs : List Bytes) (stale : Bytes → Prop),
    rs.map (fun r => (r.lc, r.ev.msg)) = ms.map (fun m => (lc₂, MsgUp.HostConnected d m)) →
    Ready s lc₁ lc₂ i → Phase s d old told macs stale (some i) → placed s d = some (some lc₂, conn) →
    Allowed (receive env) (fun s r => Accepts env s r ∧ Returns env s r) s rs ∧
      Ready (rs.foldl (receive env) s) lc₁ lc₂ i ∧
      Phase (rs.foldl (receive env) s) d old (told ++ ms) (ms.foldl announce macs) (fun k => stale k ∧ k ∉ ms) (some i) ∧
      placed (rs.foldl (receive env) s) d = some (some lc₂, conn)
  | [], [], s, told, macs, stale, _, hready, hphase, hplaced => by
    refine ⟨trivial, hready, ?_, hplaced⟩
    rw [List.append_nil]
    simpa using hphase
  | [], _ :: _, _, _, _, _, hstream, _, _, _ => by cases hstream
  | _ :: _, [], _, _, _, _, hstream, _, _, _ => by cases hstream
  | r :: rs, m :: ms, s, told, macs, stale, hstream, hready, hphase, hplaced => by
    obtain ⟨hr, hrs⟩ := List.cons.inj hstream
    obtain ⟨hlc, hmsg⟩ := Prod.mk.inj hr
    have hwp : wp (dispatch_event env r.lc r.ev) s (fun _ s' => placed s' d = some (some lc₂, conn) ∧
        Phase s' d old (told ++ [m]) (announce macs m) (fun k => stale k ∧ k ≠ m) (some i)) fun _ _ => False := by
      unfold dispatch_event
      rw [hmsg, hlc]
      exact wp_host_phase hphase hplaced hready.id₂ fun s' hp hs' => ⟨hp, hs'⟩
    obtain ⟨hok, hready', hplaced', hphase'⟩ := hready.step (Or.inr hlc) hwp
    obtain ⟨hall, hfin, hphase'', hplaced''⟩ :=
      hosts_run rs ms (receive env s r) (told ++ [m]) (announce macs m) _ hrs hready' hphase' hplaced'
    refine ⟨⟨hok, hall⟩, hfin, ?_, hplaced''⟩
    have hstale : (fun k => (stale k ∧ k ≠ m) ∧ k ∉ ms) = fun k => stale k ∧ k ∉ m :: ms := by
      funext k
      rw [List.mem_cons, not_or, and_assoc]
    rw [hstale, List.append_assoc] at hphase''
    exact hphase''

/-- Where the switch and its hosts are after a migration. -/
structure Migrated {Γ : Type} (s : AppManager Γ) (d lc₂ : Nat) (ms old : List Bytes) : Prop where
  listed : ∃ dp, s.datapath_list.get d = some dp ∧ dp.lc_home = some lc₂ ∧ dp.lc_connected = [lc₂] ∧
    ∀ m, m ∈ dp.mac ↔ m ∈ ms
  hosts : ∀ m ∈ ms, s.host_to_lcid.get m = some (s.lcs lc₂).id
  rest : ∀ m ∈ old, m ∉ ms → m ∉ s.host_to_lcid

theorem Phase.migrated_iff {ms : List Bytes} {lc₂ : Nat} (h : Phase s d old ms macs stale u)
    (hplaced : placed s d = some (some lc₂, [lc₂])) (hid : (s.lcs lc₂).id = u) :
    Migrated s d lc₂ ms old ↔ (∀ m, m ∈ macs ↔ m ∈ ms) ∧ ∀ m ∈ old, stale m → m ∈ ms := by
  obtain ⟨dp, hdp, hplace⟩ := Option.map_eq_some_iff.mp hplaced
  have hmac : dp.mac = macs := (macsOf_some hdp).symm.trans h.list
  constructor
  · intro hx
    obtain ⟨⟨dp', hdp', _, _, hmacs⟩, _, hrest⟩ := hx
    rw [hdp] at hdp'
    cases hdp'
    refine ⟨hmac ▸ hmacs, fun m hm hs => ?_⟩
    by_contra hn
    exact (h.index.known m).mpr (Or.inr hs) (Dict.get_eq_none.mpr (hrest m hm hn))
  · intro hx
    obtain ⟨hmacs, hstale⟩ := hx
    refine ⟨⟨dp, hdp, congrArg Prod.fst hplace, congrArg Prod.snd hplace, fun m => hmac ▸ hmacs m⟩,
      fun m hm => ?_, fun m hm hn => ?_⟩
    · rw [hid]
      exact h.named m hm ((hmacs m).mpr hm)
    · rw [← Dict.get_eq_none]
      by_contra hsome
      rcases (h.index.known m).mp hsome with ⟨e, he⟩ | hs
      · by_cases hed : e = d
        · subst hed
          exact hn ((hmacs m).mp (h.list ▸ he))
        · exact h.others m hm e hed he
      · exact hn (hstale m hm hs)

/-- When a migration ends well, by the old hosts, the new hosts, and the number
of messages of the new controller before the leave of the old one. -/
def MigrationSafe (macs ms : List Bytes) : Nat → Prop
  | 0 => ∀ m ∈ skipped macs, m ∈ ms
  | n + 1 => ∀ m, m ∈ skipped ((ms.take n).foldl announce (skipped macs)) ∨ m ∈ ms.drop n ↔ m ∈ ms

theorem connections_init (address : Nat → String × Nat) (xid : Nat → Nat) : Connections (init env address xid) := by
  intro d dp hdp
  have hdp' : (∅ : Dict Nat Datapath).get d = some dp := hdp
  rw [Dict.get_empty] at hdp'
  cases hdp'

theorem migrate_leave_first {lc₁ lc₂ i : Nat} {w : Bool} {ms : List Bytes} {leave conn : Received} {hosts : List Received}
    (hready : Ready s lc₁ lc₂ i) (hphase : Phase s d old [] macs (fun _ => False) (some i))
    (hplaced : placed s d = some (some lc₁, [lc₁])) (hi : i ≤ MAX_LC_ID) (hd : d < 2 ^ 64) (hlc : leave.lc = lc₁)
    (hleave : leave.ev.msg = .DatapathLeave d) (hconn : (conn.lc, conn.ev.msg) = (lc₂, .DPConnected d w))
    (hhosts : hosts.map (fun r => (r.lc, r.ev.msg)) = ms.map fun m => (lc₂, .HostConnected d m)) :
    let s' := (leave :: conn :: hosts).foldl (receive env) s
    Allowed (receive env) (fun s r => Accepts env s r ∧ Returns env s r) s (leave :: conn :: hosts) ∧
      Ready s' lc₁ lc₂ i ∧ placed s' d = some (some lc₂, [lc₂]) ∧
      Phase s' d old ms (ms.foldl announce []) (fun m => m ∈ skipped macs ∧ m ∉ ms) (some i) := by
  obtain ⟨hclc, hcmsg⟩ := Prod.mk.inj hconn
  have hleft : wp (dispatch_event env leave.lc leave.ev) s (fun _ s' => placed s' d = none ∧
      Phase s' d old [] [] (fun m => False ∨ m ∈ skipped macs) (some i)) fun _ _ => False := by
    unfold dispatch_event
    rw [hleave, hlc]
    exact wp_leave_phase hready.topo.wired hready.conns hphase hplaced (List.mem_singleton_self lc₁)
      (fun _ s' hp hs' => ⟨hp, hs'⟩) fun hlen => absurd rfl hlen
  obtain ⟨hok₁, hready₁, hplaced₁, hphase₁⟩ := hready.step (Or.inl hlc) hleft
  have hnew : wp (dispatch_event env conn.lc conn.ev) (receive env s leave) (fun _ s' =>
      placed s' d = some (some lc₂, [lc₂]) ∧ Phase s' d old [] [] (fun m => False ∨ m ∈ skipped macs) (some i))
      fun _ _ => False := by
    unfold dispatch_event
    rw [hcmsg, hclc]
    exact wp_connect_new hphase₁ hplaced₁ hready₁.id₂ hi hd fun s' hp hs' => ⟨hp, hs'⟩
  obtain ⟨hok₂, hready₂, hplaced₂, hphase₂⟩ := hready₁.step (Or.inr hclc) hnew
  obtain ⟨hall, hready₃, hphase₃, hplaced₃⟩ := hosts_run hosts ms _ [] [] _ hhosts hready₂ hphase₂ hplaced₂
  simp only [false_or] at hphase₃
  exact ⟨⟨hok₁, hok₂, hall⟩, hready₃, hplaced₃, hphase₃⟩

theorem migrate_leave_late {lc₁ lc₂ i : Nat} {w : Bool} {ms₁ ms₂ : List Bytes} {leave conn : Received}
    {hosts₁ hosts₂ : List Received} {dp : Datapath} (hready : Ready s lc₁ lc₂ i)
    (hphase : Phase s d old [] macs (fun _ => False) (some i)) (hdp : s.datapath_list.get d = some dp)
    (hdpconn : dp.lc_connected = [lc₁]) (hne : lc₁ ≠ lc₂) (hi : i ≤ MAX_LC_ID) (hd : d < 2 ^ 64)
    (hgid : dp._generation_id < 2 ^ 64) (hlc : leave.lc = lc₁) (hleave : leave.ev.msg = .DatapathLeave d)
    (hconn : (conn.lc, conn.ev.msg) = (lc₂, .DPConnected d w))
    (hhosts₁ : hosts₁.map (fun r => (r.lc, r.ev.msg)) = ms₁.map fun m => (lc₂, .HostConnected d m))
    (hhosts₂ : hosts₂.map (fun r => (r.lc, r.ev.msg)) = ms₂.map fun m => (lc₂, .HostConnected d m)) :
    let s' := (conn :: hosts₁ ++ leave :: hosts₂).foldl (receive env) s
    Allowed (receive env) (fun s r => Accepts env s r ∧ Returns env s r) s (conn :: hosts₁ ++ leave :: hosts₂) ∧
      Ready s' lc₁ lc₂ i ∧ placed s' d = some (some lc₂, [lc₂]) ∧
      Phase s' d old (ms₁ ++ ms₂) (ms₂.foldl announce (skipped (ms₁.foldl announce (skipped macs)))) (fun _ => False)
        (some i) := by
  obtain ⟨hclc, hcmsg⟩ := Prod.mk.inj hconn
  have hne' : lc₂ ∉ dp.lc_connected := by
    rw [hdpconn, List.mem_singleton]
    exact hne.symm
  have hcon : wp (dispatch_event env conn.lc conn.ev) s (fun _ s' =>
      placed s' d = some (some lc₂, [lc₁, lc₂]) ∧ Phase s' d old [] (skipped macs) (fun _ => False) (some i))
      fun _ _ => False := by
    unfold dispatch_event
    rw [hcmsg, hclc]
    refine wp_connect_old hphase hdp hne' hready.id₂ hi hd hgid fun s' hp hs' => ⟨?_, hs'⟩
    rw [hp, hdpconn]
    rfl
  obtain ⟨hok₁, hready₁, hplaced₁, hphase₁⟩ := hready.step (Or.inr hclc) hcon
  obtain ⟨hall₁, hready₂, hphase₂, hplaced₂⟩ := hosts_run hosts₁ ms₁ _ [] _ _ hhosts₁ hready₁ hphase₁ hplaced₁
  have herase : [lc₁, lc₂].erase lc₁ = [lc₂] := List.erase_cons_head lc₁ [lc₂]
  have hleft : wp (dispatch_event env leave.lc leave.ev) (hosts₁.foldl (receive env) (receive env s conn)) (fun _ s' =>
      placed s' d = some (some lc₂, [lc₂]) ∧ Phase s' d old ([] ++ ms₁)
        (skipped (ms₁.foldl announce (skipped macs))) (fun m => False ∧ m ∉ ms₁) (some i)) fun _ _ => False := by
    unfold dispatch_event
    rw [hleave, hlc]
    refine wp_leave_phase hready₂.topo.wired hready₂.conns hphase₂ hplaced₂ (List.mem_cons_self ..)
      (fun hlen => by simp at hlen) fun _ s' hp hs' => ⟨?_, hs'⟩
    rw [hp, herase]
  obtain ⟨hok₂, hready₃, hplaced₃, hphase₃⟩ := hready₂.step (Or.inl hlc) hleft
  obtain ⟨hall₂, hready₄, hphase₄, hplaced₄⟩ := hosts_run hosts₂ ms₂ _ _ _ _ hhosts₂ hready₃ hphase₃ hplaced₃
  simp only [false_and, List.nil_append] at hphase₄
  intro s'
  have hs' : s' = hosts₂.foldl (receive env) (receive env (hosts₁.foldl (receive env) (receive env s conn)) leave) := by
    show (conn :: hosts₁ ++ leave :: hosts₂).foldl (receive env) s = _
    rw [List.foldl_append]
    rfl
  rw [hs']
  refine ⟨?_, hready₄, hplaced₄, hphase₄⟩
  rw [allowed_append]
  exact ⟨⟨hok₁, hall₁⟩, hok₂, hall₂⟩

/-- **Migration.** In a state that a run of safe steps can reach, no
interleaving of the two streams makes a handler raise, and it ends as it should
exactly if the purges skip no host that is not reported, and take none that is
not reported again. -/
theorem migration_iff (env : Env) (address : Nat → String × Nat) (xid : Nat → Nat) (run : List Received)
    (hrun : Allowed (receive env) (fun s r => Accepts env s r ∧ HostSafe s r) (init env address xid) run)
    (s : AppManager env.nx.Graph) (hs : s = run.foldl (receive env) (init env address xid))
    (d lc₁ lc₂ : Nat) (w : Bool) (dp : Datapath) (hdp : s.datapath_list.get d = some dp) (hhome : dp.lc_home = some lc₁)
    (hconn : dp.lc_connected = [lc₁]) (hne : lc₁ ≠ lc₂)
    (hactive : (s.lcs lc₁).is_active = true ∧ (s.lcs lc₂).is_active = true) (hid : (s.lcs lc₂).id ≠ none)
    (hd : d < 2 ^ 64) (hgid : dp._generation_id < 2 ^ 64)
    (ms : List Bytes) (pre post : List Received) (leave : Received) (hlc : leave.lc = lc₁)
    (hleave : leave.ev.msg = .DatapathLeave d)
    (hstream : (pre ++ post).map (fun r => (r.lc, r.ev.msg)) =
      (lc₂, .DPConnected d w) :: ms.map fun m => (lc₂, .HostConnected d m)) :
    Allowed (receive env) (fun s r => Accepts env s r ∧ Returns env s r) s (pre ++ leave :: post) ∧
    (Migrated ((pre ++ leave :: post).foldl (receive env) s) d lc₂ ms dp.mac ↔ MigrationSafe dp.mac ms pre.length) := by
  have hinv : HostInv s ∧ TopoInv s ∧ Connections s := by
    rw [hs]
    refine Allowed.invariant (fun s => HostInv s ∧ TopoInv s ∧ Connections s) (fun s r h hr => ?_)
      ⟨hostInv_init address xid, topoInv_init address xid, connections_init address xid⟩ hrun
    exact ⟨hostInv_step h.1 hr, topoInv_step h.2.1 hr.1, connections_step r h.2.2⟩
  obtain ⟨hhost, htopo, hconns⟩ := hinv
  obtain ⟨i, hi⟩ := Option.ne_none_iff_exists'.mp hid
  have hmax : i ≤ MAX_LC_ID := (htopo.registered.known _ i (htopo.registered.numbered lc₂ i hi)).1
  have hready : Ready s lc₁ lc₂ i := by
    refine ⟨htopo, hconns, hactive, ?_, hi⟩
    obtain ⟨l, j, hl, hj⟩ := htopo.homes d dp hdp
    rw [hhome] at hl
    cases hl
    rw [hj]
    exact Option.some_ne_none j
  have hphase : Phase s d dp.mac [] dp.mac (fun _ => False) (some i) := by
    refine ⟨hhost.agreed.index, macsOf_some hdp, fun m hm e he hme => ?_, fun m hm => by cases hm⟩
    exact he (hhost.agreed.index.single e d m hme (by rw [macsOf_some hdp]; exact hm))
  have hplaced : placed s d = some (some lc₁, [lc₁]) := by rw [placed_eq hdp, hhome, hconn]
  cases pre with
  | nil =>
    cases post with
    | nil => cases hstream
    | cons conn hosts =>
      obtain ⟨hc, hh⟩ := List.cons.inj hstream
      obtain ⟨hall, hready', hplaced', hphase'⟩ := migrate_leave_first hready hphase hplaced hmax hd hlc hleave hc hh
      refine ⟨hall, (hphase'.migrated_iff hplaced' hready'.id₂).trans ?_⟩
      simp only [mem_foldl_announce, List.not_mem_nil, false_or, implies_true, true_and]
      constructor
      · intro h m hm
        by_contra hn
        exact hn (h m ((skipped_sublist _).subset hm) ⟨hm, hn⟩)
      · exact fun h m _ hm => absurd (h m hm.1) hm.2
  | cons conn hosts =>
    obtain ⟨hc, hh⟩ := List.cons.inj hstream
    have hlen : (hosts.map fun r => (r.lc, r.ev.msg)).length = hosts.length := List.length_map _
    rw [List.append_eq, List.map_append] at hh
    have hh₁ : hosts.map (fun r => (r.lc, r.ev.msg)) =
        (ms.take hosts.length).map fun m => (lc₂, MsgUp.HostConnected d m) := by
      have := congrArg (List.take hosts.length) hh
      rwa [List.take_left' hlen, ← List.map_take] at this
    have hh₂ : post.map (fun r => (r.lc, r.ev.msg)) =
        (ms.drop hosts.length).map fun m => (lc₂, MsgUp.HostConnected d m) := by
      have := congrArg (List.drop hosts.length) hh
      rwa [List.drop_left' hlen, ← List.map_drop] at this
    obtain ⟨hall, hready', hplaced', hphase'⟩ :=
      migrate_leave_late hready hphase hdp hconn hne hmax hd hgid hlc hleave hc hh₁ hh₂
    rw [List.take_append_drop] at hphase'
    refine ⟨hall, (hphase'.migrated_iff hplaced' hready'.id₂).trans ?_⟩
    simp only [mem_foldl_announce, false_imp_iff, implies_true, and_true]
    rfl

/-- Switch 7 is at controller 0, with one host. -/
def homedRun : List Received :=
  [received 0 1 .HelloUp, received 1 1 .HelloUp, received 0 2 (.DPConnected 7 false),
    received 0 3 (.HostConnected 7 (asciiText "00:00:00:00:00:01"))]

def homedState : AppManager (sampleEnv []).nx.Graph := homedRun.foldl (receive (sampleEnv [])) (sampleInit [])

theorem migration_before_hosts :
    Migrated ([received 1 2 (.DPConnected 7 false), received 0 4 (.DatapathLeave 7),
        received 1 3 (.HostConnected 7 (asciiText "00:00:00:00:00:02"))].foldl (receive (sampleEnv [])) homedState)
      7 1 [asciiText "00:00:00:00:00:02"] [asciiText "00:00:00:00:00:01"] := by
  have hdp : (homedState.datapath_list.get 7).map
      (fun dp => (dp.lc_home, dp.lc_connected, dp._generation_id, dp.mac)) =
      some (some 0, [0], 2, [asciiText "00:00:00:00:00:01"]) := by decide
  obtain ⟨dp, hdp, hfields⟩ := Option.map_eq_some_iff.mp hdp
  simp only [Prod.mk.injEq] at hfields
  obtain ⟨hhome, hconn, hgid, hmac⟩ := hfields
  have h := migration_iff (sampleEnv []) _ _ homedRun (by decide) homedState rfl 7 0 1 false dp hdp hhome hconn
    (by decide) (by decide) (by decide) (by decide) (by rw [hgid]; decide) [asciiText "00:00:00:00:00:02"]
    [received 1 2 (.DPConnected 7 false)] [received 1 3 (.HostConnected 7 (asciiText "00:00:00:00:00:02"))]
    (received 0 4 (.DatapathLeave 7)) rfl rfl rfl
  rw [hmac] at h
  refine h.2.mpr fun m => ?_
  simp [skipped]

/-- The leave of the old controller takes the host that the new one has reported. -/
theorem migration_late_leave :
    Allowed (receive (sampleEnv [])) (Accepts (sampleEnv [])) (sampleInit []) homedRun ∧
    placed homedState 7 = some (some 0, [0]) ∧
    ¬ Migrated ([received 1 2 (.DPConnected 7 false),
        received 1 3 (.HostConnected 7 (asciiText "00:00:00:00:00:02")), received 0 4 (.DatapathLeave 7)].foldl
      (receive (sampleEnv [])) homedState) 7 1 [asciiText "00:00:00:00:00:02"] [asciiText "00:00:00:00:00:01"] := by
  refine ⟨by decide, by decide, fun h => ?_⟩
  have := h.hosts (asciiText "00:00:00:00:00:02") (List.mem_singleton_self _)
  exact absurd this (by decide)

end

end AppManager

end VnfDockerNet
