import VnfDockerNet.HostSound

/-!
# Roaming hosts

HOST_LEAVE takes a host out of `host_to_lcid` by its address, whichever datapath
the entry is for. A host that has roamed is placed where it is now only if the
old controller reports the leave before the new one reports the host, and no
third datapath has kept the host in its list.
-/

namespace VnfDockerNet

open Python Networkx Runs

namespace AppManager

structure Touches {Γ : Type} (p : Bytes → Prop) (q : Nat → Prop) (s s' : AppManager Γ) : Prop where
  host : ∀ m, ¬ p m → s'.host_to_lcid.get m = s.host_to_lcid.get m
  listed : ∀ d m, ¬ p m → (m ∈ macsOf s' d ↔ m ∈ macsOf s d)
  nodup : (∀ d, (macsOf s d).Nodup) → ∀ d, (macsOf s' d).Nodup
  kept : ∀ d, ¬ q d → d ∈ s.datapath_list → d ∈ s'.datapath_list

section
variable {Γ : Type} {p : Bytes → Prop} {q : Nat → Prop} {s s' s'' : AppManager Γ}

theorem Touches.refl (s : AppManager Γ) : Touches p q s s :=
  ⟨fun _ _ => rfl, fun _ _ _ => .rfl, fun h => h, fun _ _ h => h⟩

theorem Touches.trans (h : Touches p q s s') (h' : Touches p q s' s'') : Touches p q s s'' where
  host m hm := (h'.host m hm).trans (h.host m hm)
  listed d m hm := (h'.listed d m hm).trans (h.listed d m hm)
  nodup hs := h'.nodup (h.nodup hs)
  kept d hd hs := h'.kept d hd (h.kept d hd hs)

theorem touches_same (hhosts : s'.host_to_lcid = s.host_to_lcid)
    (hmacs : ∀ d, (s'.datapath_list.get d).map Datapath.mac = (s.datapath_list.get d).map Datapath.mac) :
    Touches p q s s' := by
  have hall : macsOf s' = macsOf s := by
    funext d
    unfold macsOf
    rw [hmacs]
  refine ⟨fun m _ => by rw [hhosts], fun d m _ => by rw [hall], fun hs => ?_, fun d _ hd => ?_⟩
  · rw [hall]
    exact hs
  · obtain ⟨dp, hdp⟩ := Dict.mem_iff_get.mp hd
    have hmac := hmacs d
    rw [hdp, Option.map_some, Option.map_eq_some_iff] at hmac
    obtain ⟨dp', hdp', _⟩ := hmac
    exact Dict.mem_iff_get.mpr ⟨dp', hdp'⟩

theorem touches_host {hosts : Dict Bytes Lcid} (h : ∀ m, ¬ p m → hosts.get m = s.host_to_lcid.get m) :
    Touches p q s { s with host_to_lcid := hosts } := ⟨h, fun _ _ _ => .rfl, fun h => h, fun _ _ h => h⟩

theorem macsOf_insert (dpid : Nat) (dp : Datapath) (d : Nat) :
    macsOf { s with datapath_list := s.datapath_list.insert dpid dp } d = if d = dpid then dp.mac else macsOf s d := by
  unfold macsOf
  simp only [Dict.get_insert]
  split
  · rfl
  · rfl

theorem touches_macs {dpid : Nat} {dp : Datapath} {macs : List Bytes} (hdp : s.datapath_list.get dpid = some dp)
    (hmem : ∀ m, ¬ p m → (m ∈ macs ↔ m ∈ dp.mac)) (hnodup : dp.mac.Nodup → macs.Nodup) :
    Touches p q s { s with datapath_list := s.datapath_list.insert dpid { dp with mac := macs } } := by
  have hmacs := macsOf_insert (s := s) dpid { dp with mac := macs }
  have hold : macsOf s dpid = dp.mac := by
    unfold macsOf
    rw [hdp]
    rfl
  refine ⟨fun _ _ => rfl, fun d m hm => ?_, fun hs d => ?_, fun d _ hd => ?_⟩
  · rw [hmacs]
    split
    · rename_i hd
      rw [hd, hold]
      exact hmem m hm
    · exact .rfl
  · rw [hmacs]
    split
    · refine hnodup ?_
      rw [← hold]
      exact hs dpid
    · exact hs d
  · rw [AList.mem_insert]
    exact Or.inr hd

theorem mem_erase_of_not {m mac : Bytes} {macs : List Bytes} (hp : p mac) (hm : ¬ p m) :
    m ∈ macs.erase mac ↔ m ∈ macs := by
  have hne : m ≠ mac := fun he => hm (he ▸ hp)
  exact List.mem_erase_of_ne hne

theorem touches_erase {dpid : Nat} (hp : ∀ m ∈ macsOf s dpid, p m) (hq : q dpid) :
    Touches p q s { s with datapath_list := s.datapath_list.erase dpid } := by
  have hmacs : ∀ d, macsOf { s with datapath_list := s.datapath_list.erase dpid } d =
      if d = dpid then [] else macsOf s d := by
    intro d
    unfold macsOf
    simp only [Dict.get_erase]
    split
    · rfl
    · rfl
  refine ⟨fun _ _ => rfl, fun d m hm => ?_, fun hs d => ?_, fun d hd hmem => ?_⟩
  · rw [hmacs]
    split
    · rename_i hd
      subst hd
      exact iff_of_false List.not_mem_nil fun hm' => hm (hp m hm')
    · exact .rfl
  · rw [hmacs]
    split
    · exact List.nodup_nil
    · exact hs d
  · refine AList.mem_erase.mpr ⟨?_, hmem⟩
    rintro rfl
    exact hd hq

theorem Unmoved.touches (h : Unmoved s s') : Touches p q s s' := by
  refine touches_same h.hosts fun d => ?_
  have hplace := congrArg (Option.map Prod.fst) (h.listed d)
  rw [Option.map_map, Option.map_map] at hplace
  exact hplace

end

/-! ## What each message touches -/

section
variable {env : Env} {p : Bytes → Prop} {q : Nat → Prop} {s : AppManager env.nx.Graph}

theorem touches_purge (dpid : Nat) : ∀ (fuel i : Nat) (s : AppManager env.nx.Graph),
    (∀ m ∈ macsOf s dpid, p m) → Always (purgeMacs env dpid fuel i) s (Touches p q s)
  | 0, _, s, _ => Touches.refl s
  | fuel + 1, i, s, hp => by
    unfold purgeMacs
    simp only [wp_bind, wp_get, wp_item]
    refine ⟨fun dp hdp => ?_, fun _ => .refl s⟩
    split
    · exact Touches.refl s
    · rename_i mac_t hmac
      have hpt : p mac_t := hp mac_t (by rw [macsOf_some hdp]; exact List.mem_of_getElem? hmac)
      have hhosts : Touches p q s { s with host_to_lcid := s.host_to_lcid.erase mac_t } := by
        refine touches_host fun m hm => ?_
        rw [Dict.get_erase, if_neg]
        rintro rfl
        exact hm hpt
      simp only [wp_bind, wp_delHost, wp_orRaise, wp_setDatapath]
      refine ⟨fun _ => ⟨fun dp' hdp' => ?_, fun _ _ => hhosts⟩, fun _ => .refl s⟩
      rw [del_mac_ok hdp']
      have hmacs : Touches p q { s with host_to_lcid := s.host_to_lcid.erase mac_t } { s with
          host_to_lcid := s.host_to_lcid.erase mac_t
          datapath_list := s.datapath_list.insert dpid { dp with mac := dp.mac.erase mac_t } } :=
        touches_macs hdp (fun m hm => mem_erase_of_not hpt hm) fun hn => hn.erase mac_t
      refine Always.mono (touches_purge dpid fuel (i + 1) _ fun m hm => ?_) fun s' hs' => (hhosts.trans hmacs).trans hs'
      by_contra hm'
      have hold := ((hhosts.trans hmacs).listed dpid m hm').mp hm
      exact hm' (hp m hold)

theorem touches_forgetHost (mac : Bytes) (hp : p mac) : ∀ (dpids : List Nat) (s : AppManager env.nx.Graph),
    Always (forgetHost env mac dpids) s (Touches p q s)
  | [], s => Touches.refl s
  | old_dpid :: dpids, s => by
    unfold forgetHost
    simp only [wp_bind, wp_get, wp_item, wp_ite, wp_orRaise, wp_setDatapath]
    refine ⟨fun dp hdp => ⟨fun _ => ⟨fun dp' hdp' => ?_, fun _ _ => .refl s⟩, fun _ => ?_⟩, fun _ => .refl s⟩
    · rw [del_mac_ok hdp']
      exact touches_macs hdp (fun m hm => mem_erase_of_not hp hm) fun hn => hn.erase mac
    · exact touches_forgetHost mac hp dpids s

theorem touches_recordHost (lc dpid : Nat) {mac : Bytes} (hp : p mac) :
    Always (recordHost env lc dpid mac) s fun s' => Touches p q s s' ∧ (dpid ∈ s.datapath_list →
      s'.host_to_lcid.get mac = some (s.lcs lc).id ∧ ∀ d, mac ∈ macsOf s' d ↔ d = dpid ∨ mac ∈ macsOf s d) := by
  have hhosts : Touches p q s { s with host_to_lcid := s.host_to_lcid.insert mac (s.lcs lc).id } := by
    refine touches_host fun m hm => ?_
    rw [Dict.get_insert, if_neg]
    rintro rfl
    exact hm hp
  unfold recordHost
  simp only [wp_bind, wp_modify, wp_get, wp_item, wp_setDatapath]
  refine ⟨fun dp hdp => ?_, fun hnone => ⟨hhosts, fun hlisted => absurd hlisted (Dict.get_eq_none.mp hnone)⟩⟩
  have hadd : ∃ macs, dp.add_mac mac = { dp with mac := macs } ∧ (dp.mac.Nodup → macs.Nodup) ∧
      ∀ m, m ∈ macs ↔ m = mac ∨ m ∈ dp.mac := by
    unfold Datapath.add_mac
    split
    · rename_i hin
      refine ⟨dp.mac, rfl, fun hn => hn, fun m => ⟨Or.inr, ?_⟩⟩
      rintro (rfl | hm)
      · exact hin
      · exact hm
    · rename_i hout
      refine ⟨dp.mac ++ [mac], rfl, fun hn => hn.append (List.nodup_singleton mac) (by simpa using hout), fun m => ?_⟩
      rw [List.mem_append, List.mem_singleton, or_comm]
  obtain ⟨macs, hmacs, hnodup, hmem⟩ := hadd
  rw [hmacs]
  refine ⟨hhosts.trans (touches_macs hdp (fun m hm => ?_) hnodup), fun _ => ⟨?_, fun d => ?_⟩⟩
  · rw [hmem]
    exact or_iff_right fun he => hm (he ▸ hp)
  · show Dict.get (s.host_to_lcid.insert mac (s.lcs lc).id) mac = _
    rw [Dict.get_insert, if_pos rfl]
  · have hmacs' := macsOf_insert (s := { s with host_to_lcid := s.host_to_lcid.insert mac (s.lcs lc).id }) dpid
      { dp with mac := macs } d
    rw [hmacs']
    by_cases hd : d = dpid
    · subst hd
      simp [hmem]
    · rw [if_neg hd, or_iff_right hd]
      rfl

def touched {Γ : Type} (s : AppManager Γ) : MsgUp → Bytes → Prop
  | .DPConnected dpid _, m => m ∈ macsOf s dpid
  | .DatapathLeave dpid, m => m ∈ macsOf s dpid
  | .HostConnected _ mac, m => m = mac
  | .HostLeave _ mac, m => m = mac
  | _, _ => False

theorem touches_connected (lc dpid : Nat) :
    Always (_tflcp_datapath_connected_handler env lc dpid) s (Touches (fun m => m ∈ macsOf s dpid) q s) := by
  -- the new home and the answer leave the hosts alone
  have hassign : ∀ (s' : AppManager env.nx.Graph) dp, s'.datapath_list.get dpid = some dp →
      Touches (fun m => m ∈ macsOf s dpid) q s s' →
      Always (assignRole env lc dpid) s' (Touches (fun m => m ∈ macsOf s dpid) q s) := by
    intro s' dp hdp hs'
    refine wp_assignRole hdp (wp_mono (always_send_msg lc none _ _) ?_ ?_)
    all_goals
      intro _ _ hpost
      obtain ⟨x, msgs, rfl, _⟩ := hpost
      refine hs'.trans (touches_same rfl fun d => ?_)
      have hmac : (dp.add_lc lc).mac = dp.mac := by unfold Datapath.add_lc; split <;> rfl
      show ((homed s' lc dpid dp).datapath_list.get d).map Datapath.mac = _
      unfold homed
      rw [Dict.get_insert]
      split
      · rename_i hd
        rw [hd, hdp]
        exact congrArg some hmac
      · rfl
  refine wp_datapath_connected (fun hnone => ?_) fun dp hdp => ?_
  · refine hassign _ { id := dpid } (by rw [Dict.get_insert, if_pos rfl]) ?_
    refine ⟨fun _ _ => rfl, fun d m _ => ?_, fun hs d => ?_, fun d _ hd => ?_⟩
    · rw [macsOf_insert]
      split
      · rename_i hd
        rw [hd, macsOf_none hnone]
      · exact .rfl
    · rw [macsOf_insert]
      split
      · exact List.nodup_nil
      · exact hs d
    · rw [AList.mem_insert]
      exact Or.inr hd
  · refine wp_mono (wp_and (touches_purge dpid _ 0 s fun _ hm => hm) (always_purgeMacs dpid _ 0 s)) ?_ fun _ _ h => h.1
    intro _ s' hpost
    obtain ⟨htouch, hosts, dps, rfl, hsame⟩ := hpost
    obtain ⟨mac, hdp'⟩ := hsame.get_some hdp
    exact hassign _ _ hdp' htouch

theorem touches_leave (lc dpid : Nat) (hq : q dpid) :
    Always (_tflcp_datapath_leave_handler env lc dpid) s (Touches (fun m => m ∈ macsOf s dpid) q s) := by
  refine wp_datapath_leave (fun _ => .refl s) fun dp _ => ?_
  refine wp_mono (touches_purge dpid _ 0 s fun _ hm => hm) ?_ fun _ _ h => h
  intro _ s' hs'
  have hdropped : ∀ dps, (dps = s'.datapath_list ∨ Dropped lc dpid s'.datapath_list dps) →
      Touches (fun m => m ∈ macsOf s dpid) q s { s' with datapath_list := dps } := by
    intro dps hdrop
    refine hs'.trans ?_
    rcases hdrop with rfl | ⟨dp, hdp, ⟨_, rfl⟩ | ⟨_, rfl⟩⟩
    · exact touches_same rfl fun _ => rfl
    · have herase : Touches (fun m => m ∈ macsOf s dpid) q s' { s' with datapath_list := s'.datapath_list.erase dpid } := by
        refine touches_erase (fun m hm => ?_) hq
        by_contra hm'
        exact hm' ((hs'.listed dpid m hm').mp hm)
      exact herase
    · refine touches_same rfl fun d => ?_
      show (Dict.get (s'.datapath_list.insert dpid _) d).map Datapath.mac = _
      rw [Dict.get_insert]
      split
      · rename_i hd
        rw [hd, hdp]
        rfl
      · rfl
  refine wp_mono (always_dropDatapath lc dpid s') ?_ ?_
  · intro _ _ hpost
    obtain ⟨dps, role, load, win, rfl, _, _, hdrop⟩ := hpost
    refine Always.mono (always_removeWindowEdges dpid _ _) ?_
    intro _ hpost
    obtain ⟨g, rfl, _⟩ := hpost
    exact (hdropped dps hdrop).trans (touches_same rfl fun _ => rfl)
  · intro _ _ hpost
    obtain ⟨dps, role, load, win, rfl, _, _, hdrop⟩ := hpost
    exact (hdropped dps hdrop).trans (touches_same rfl fun _ => rfl)

theorem touches_host_connected (lc dpid : Nat) {mac : Bytes} (hp : p mac) :
    Always (_tflcp_host_connected_handler env lc dpid mac) s (Touches p q s) := by
  have hrecord : ∀ s' : AppManager env.nx.Graph, Touches p q s s' →
      Always (recordHost env lc dpid mac) s' (Touches p q s) :=
    fun s' hs' => Always.mono (touches_recordHost lc dpid hp) fun s'' hs'' => hs'.trans hs''.1
  unfold _tflcp_host_connected_handler
  simp only [wp_bind, wp_get, wp_ite, wp_delHost]
  refine ⟨fun hin => ⟨fun _ => ?_, fun hn => absurd hin hn⟩, fun _ => hrecord s (.refl s)⟩
  have hdel : Touches p q s { s with host_to_lcid := s.host_to_lcid.erase mac } := by
    refine touches_host fun m hm => ?_
    rw [Dict.get_erase, if_neg]
    rintro rfl
    exact hm hp
  refine wp_mono (touches_forgetHost mac hp _ _) ?_ fun _ _ h => hdel.trans h
  exact fun _ s' hs' => hrecord s' (hdel.trans hs')

theorem touches_host_leave (dpid : Nat) {mac : Bytes} (hp : p mac) :
    Always (_tflcp_host_leave_handler env dpid mac) s fun s' => Touches p q s s' ∧ s'.host_to_lcid.get mac = none ∧
      ((macsOf s dpid).Nodup → ∀ d, mac ∈ macsOf s' d ↔ mac ∈ macsOf s d ∧ d ≠ dpid) := by
  have hhosts : Touches p q s { s with host_to_lcid := s.host_to_lcid.erase mac } := by
    refine touches_host fun m hm => ?_
    rw [Dict.get_erase, if_neg]
    rintro rfl
    exact hm hp
  have hnone : Dict.get (s.host_to_lcid.erase mac) mac = none := by rw [Dict.get_erase, if_pos rfl]
  -- where the datapath does not list the host, nothing is left to do
  have hstay : mac ∉ macsOf s dpid → ∀ d, mac ∈ macsOf s d ↔ mac ∈ macsOf s d ∧ d ≠ dpid := by
    intro hout d
    refine ⟨fun hm => ⟨hm, ?_⟩, And.left⟩
    rintro rfl
    exact hout hm
  unfold _tflcp_host_leave_handler
  simp only [wp_bind, wp_modify, wp_get, wp_item, wp_ite, wp_orRaise, wp_setDatapath, wp_pure]
  refine ⟨fun dp hdp => ⟨fun hin => ⟨fun dp' hdp' => ?_, fun e he => ?_⟩, fun hout => ?_⟩, fun hdp => ?_⟩
  · rw [del_mac_ok hdp']
    refine ⟨hhosts.trans (touches_macs hdp (fun m hm => mem_erase_of_not hp hm) fun hn => hn.erase mac), hnone,
      fun hnodup d => ?_⟩
    have hmacs := macsOf_insert (s := { s with host_to_lcid := s.host_to_lcid.erase mac }) dpid
      { dp with mac := dp.mac.erase mac } d
    rw [hmacs]
    rw [macsOf_some hdp] at hnodup
    by_cases hd : d = dpid
    · subst hd
      rw [if_pos rfl]
      exact iff_of_false (fun hm => (hnodup.mem_erase_iff.mp hm).1 rfl) fun hm => hm.2 rfl
    · rw [if_neg hd]
      exact (and_iff_left hd).symm
  · unfold Datapath.del_mac at he
    rw [if_pos hin] at he
    cases he
  · exact ⟨hhosts, hnone, fun _ => hstay (by rw [macsOf_some hdp]; exact hout)⟩
  · exact ⟨hhosts, hnone, fun _ => hstay (by rw [macsOf_none hdp]; exact List.not_mem_nil)⟩

theorem touches_dispatch (lc : Nat) (ev : Event MsgUp) (s : AppManager env.nx.Graph) :
    Always (dispatch_event env lc ev) s (Touches (touched s ev.msg) (fun d => ev.msg = .DatapathLeave d) s) := by
  cases hmsg : ev.msg with
  | DPConnected dpid w =>
    unfold dispatch_event
    rw [hmsg]
    exact touches_connected lc dpid
  | DatapathLeave dpid =>
    unfold dispatch_event
    rw [hmsg]
    exact touches_leave lc dpid rfl
  | HostConnected dpid mac =>
    unfold dispatch_event
    rw [hmsg]
    exact touches_host_connected lc dpid rfl
  | HostLeave dpid mac =>
    unfold dispatch_event
    rw [hmsg]
    exact Always.mono (touches_host_leave (p := fun m => m = mac) dpid rfl) fun _ h => h.1
  | HelloUp | GidRequest | PacketIn | LoadReport | EchoReply | GraphInfo | RoleNotify | Error | BarrierReply =>
    refine Always.mono (unmoved_dispatch lc ev s (fun _ _ h => ?_) (fun _ h => ?_) (fun _ _ h => ?_) fun _ _ h => ?_)
      fun _ hu => hu.touches
    all_goals
      rw [hmsg] at h
      cases h

theorem touches_receive (r : Received) (s : AppManager env.nx.Graph) :
    Touches (touched s r.ev.msg) (fun d => r.ev.msg = .DatapathLeave d) s (receive env s r) := by
  refine receive_of_always _ (fun s' hs' => ?_) (touches_dispatch r.lc r.ev s)
  exact hs'.trans (touches_same rfl fun _ => rfl)

/-! ## A host that roams -/

def Reachable (env : Env) (s : AppManager env.nx.Graph) : Prop :=
  ∃ address xid rs, Allowed (receive env) (Accepts env) (init env address xid) rs ∧
    s = rs.foldl (receive env) (init env address xid)

theorem nodup_of_reachable (h : Reachable env s) : ∀ d, (macsOf s d).Nodup := by
  obtain ⟨address, xid, rs, hrs, rfl⟩ := h
  refine Allowed.invariant (fun s => ∀ d, (macsOf s d).Nodup) (fun s r hs _ => (touches_receive r s).nodup hs) ?_ hrs
  intro d
  rw [macsOf_none (Dict.get_empty d)]
  exact List.nodup_nil

def LeavesAlone {Γ : Type} (m : Bytes) (d : Nat) (s : AppManager Γ) (r : Received) : Prop :=
  ¬ touched s r.ev.msg m ∧ r.ev.msg ≠ .DatapathLeave d

theorem leavesAlone_run {m : Bytes} {d : Nat} : ∀ {mid : List Received} {s : AppManager env.nx.Graph},
    Allowed (receive env) (LeavesAlone m d) s mid →
    (mid.foldl (receive env) s).host_to_lcid.get m = s.host_to_lcid.get m ∧
      (∀ d', m ∈ macsOf (mid.foldl (receive env) s) d' ↔ m ∈ macsOf s d') ∧
      (d ∈ s.datapath_list → d ∈ (mid.foldl (receive env) s).datapath_list)
  | [], _, _ => ⟨rfl, fun _ => .rfl, fun hd => hd⟩
  | r :: mid, s, h => by
    obtain ⟨⟨hm, hd⟩, hmid⟩ := h
    have htouch := touches_receive r s
    obtain ⟨hhost, hlisted, hkept⟩ := leavesAlone_run hmid
    refine ⟨hhost.trans (htouch.host m hm), fun d' => (hlisted d').trans (htouch.listed d' m hm), fun hin => ?_⟩
    exact hkept (htouch.kept d hd hin)

/-- The host is known under the controller's id, and listed at the datapath only. -/
def PlacedAt {Γ : Type} (s : AppManager Γ) (lc d : Nat) (m : Bytes) : Prop :=
  s.host_to_lcid.get m = some (s.lcs lc).id ∧ ∀ d', m ∈ macsOf s d' ↔ d' = d

/-- The two reports in one order, and other messages between them. -/
def roaming (leaveFirst : Bool) (leave conn : Received) (mid : List Received) : List Received :=
  if leaveFirst then leave :: mid ++ [conn] else conn :: mid ++ [leave]

theorem host_left {r : Received} {d : Nat} {m : Bytes} (hmsg : r.ev.msg = .HostLeave d m)
    (s : AppManager env.nx.Graph) : (receive env s r).host_to_lcid.get m = none ∧
      ((macsOf s d).Nodup → ∀ d', m ∈ macsOf (receive env s r) d' ↔ m ∈ macsOf s d' ∧ d' ≠ d) := by
  refine receive_of_always (fun s' => s'.host_to_lcid.get m = none ∧
    ((macsOf s d).Nodup → ∀ d', m ∈ macsOf s' d' ↔ m ∈ macsOf s d' ∧ d' ≠ d)) (fun _ h => h) ?_
  unfold dispatch_event
  rw [hmsg]
  exact Always.mono (touches_host_leave (p := fun m' => m' = m) (q := fun _ => False) d rfl) fun _ h => h.2

theorem host_placed {r : Received} {d : Nat} {m : Bytes} (hmsg : r.ev.msg = .HostConnected d m)
    {s : AppManager env.nx.Graph} (hnone : s.host_to_lcid.get m = none) (hd : d ∈ s.datapath_list) :
    (receive env s r).host_to_lcid.get m = some ((receive env s r).lcs r.lc).id ∧
      ∀ d', m ∈ macsOf (receive env s r) d' ↔ d' = d ∨ m ∈ macsOf s d' := by
  have hid : ∀ l, ((receive env s r).lcs l).id = (s.lcs l).id := by
    refine receive_of_always (fun s' => ∀ l, (s'.lcs l).id = (s.lcs l).id) (fun s' hs' l => ?_) ?_
    · rw [close_id]
      exact hs' l
    · refine Always.mono (sameCtrls_dispatch r.lc r.ev s fun hh => ?_) fun _ hs => hs.id
      rw [hmsg] at hh
      cases hh
  rw [hid]
  refine receive_of_always (fun s' => s'.host_to_lcid.get m = some (s.lcs r.lc).id ∧
    ∀ d', m ∈ macsOf s' d' ↔ d' = d ∨ m ∈ macsOf s d') (fun _ h => h) ?_
  unfold dispatch_event
  rw [hmsg]
  simp only
  unfold _tflcp_host_connected_handler
  simp only [wp_bind, wp_get, wp_ite]
  refine ⟨fun hin => absurd hin (Dict.get_eq_none.mp hnone), fun _ => ?_⟩
  exact Always.mono (touches_recordHost (p := fun m' => m' = m) (q := fun _ => False) r.lc d rfl) fun _ h => h.2 hd

/-- **Where a roaming host is found**: the leave is handled first, and before it
the host is listed at its old and its new datapath at most. -/
theorem roaming_host_placed_iff (env : Env) (s : AppManager env.nx.Graph) (hs : Reachable env s) (m : Bytes)
    (d₁ d₂ : Nat) (leave conn : Received) (hleave : leave.ev.msg = .HostLeave d₁ m)
    (hconn : conn.ev.msg = .HostConnected d₂ m) (hd₂ : d₂ ∈ s.datapath_list) (leaveFirst : Bool) (mid : List Received)
    (hmid : Allowed (receive env) (LeavesAlone m d₂) (receive env s (if leaveFirst then leave else conn)) mid) :
    PlacedAt ((roaming leaveFirst leave conn mid).foldl (receive env) s) conn.lc d₂ m ↔
      leaveFirst = true ∧ ∀ d, m ∈ macsOf s d → d = d₁ ∨ d = d₂ := by
  obtain ⟨hhost, hlisted, hkept⟩ := leavesAlone_run hmid
  unfold roaming
  cases leaveFirst with
  | false =>
    -- the leave comes last and forgets the host
    refine iff_of_false (fun h => ?_) fun h => Bool.false_ne_true h.1
    rw [if_neg Bool.false_ne_true, List.foldl_append] at h
    have hforgotten := (host_left hleave ((conn :: mid).foldl (receive env) s)).1
    exact Option.some_ne_none _ (h.1.symm.trans hforgotten)
  | true =>
    rw [if_pos rfl] at hhost hlisted hkept
    rw [if_pos rfl, List.foldl_append, List.foldl_cons]
    obtain ⟨hgone, hout⟩ := host_left hleave s
    have hout := hout (nodup_of_reachable hs d₁)
    have hin : d₂ ∈ (receive env s leave).datapath_list := by
      refine (touches_receive leave s).kept d₂ (fun hm => ?_) hd₂
      rw [hleave] at hm
      cases hm
    obtain ⟨hplaced, hmacs⟩ := host_placed hconn (hhost.trans hgone) (hkept hin)
    have hall : ∀ d, m ∈ macsOf (receive env (mid.foldl (receive env) (receive env s leave)) conn) d ↔
        d = d₂ ∨ m ∈ macsOf s d ∧ d ≠ d₁ := by
      intro d
      rw [hmacs, hlisted, hout]
    unfold PlacedAt
    constructor
    · intro h
      refine ⟨rfl, fun d hd => ?_⟩
      by_cases hd₁ : d = d₁
      · exact Or.inl hd₁
      · exact Or.inr ((h.2 d).mp ((hall d).mpr (Or.inr ⟨hd, hd₁⟩)))
    · intro h
      refine ⟨hplaced, fun d => (hall d).trans ⟨fun hd => ?_, Or.inl⟩⟩
      rcases hd with hd | ⟨hd, hne⟩
      · exact hd
      · exact (h.2 d hd).resolve_left hne

def homeRun : List Received :=
  [received 0 1 .HelloUp, received 1 1 .HelloUp, received 0 2 (.DPConnected 7 false), received 1 2 (.DPConnected 8 false),
    received 0 3 (.HostConnected 7 (List.replicate 17 97))]

theorem roaming_host_placed :
    PlacedAt ((roaming true (received 0 4 (.HostLeave 7 (List.replicate 17 97)))
        (received 1 4 (.HostConnected 8 (List.replicate 17 97)))
        [received 1 3 (.HostConnected 8 (List.replicate 17 98))]).foldl (receive (sampleEnv []))
      (homeRun.foldl (receive (sampleEnv [])) (sampleInit []))) 1 8 (List.replicate 17 97) := by
  have hmid : ∀ s, Allowed (receive (sampleEnv [])) (LeavesAlone (List.replicate 17 97) 8) s
      [received 1 3 (.HostConnected 8 (List.replicate 17 98))] := by
    refine fun s => ⟨⟨fun h => ?_, fun h => ?_⟩, trivial⟩
    · have h : (List.replicate 17 97 : Bytes) = List.replicate 17 98 := h
      exact absurd h (by decide)
    · cases h
  have hkeys : (homeRun.foldl (receive (sampleEnv [])) (sampleInit [])).datapath_list.keys = [7, 8] := by decide
  refine (roaming_host_placed_iff (sampleEnv []) _ ⟨_, _, homeRun, by decide, rfl⟩ _ 7 8 _ _ rfl rfl (by decide) true _
    (hmid _)).mpr ⟨rfl, fun d hd => ?_⟩
  obtain ⟨dp, hdp⟩ := listed_of_macsOf (List.ne_nil_of_mem hd)
  have hin := AList.mem_keys.mp (Dict.mem_iff_get.mpr ⟨dp, hdp⟩)
  have hin : d ∈ (homeRun.foldl (receive (sampleEnv [])) (sampleInit [])).datapath_list.keys := hin
  rw [hkeys] at hin
  simpa using hin

/-- The old controller reports the leave after the arrival, and the host is forgotten. -/
theorem roaming_host_forgotten :
    Allowed (receive (sampleEnv [])) (Accepts (sampleEnv [])) (sampleInit [])
      (homeRun ++ [received 1 4 (.HostConnected 8 (List.replicate 17 97)),
        received 0 4 (.HostLeave 7 (List.replicate 17 97))]) ∧
    ¬ PlacedAt ((homeRun ++ [received 1 4 (.HostConnected 8 (List.replicate 17 97)),
        received 0 4 (.HostLeave 7 (List.replicate 17 97))]).foldl (receive (sampleEnv [])) (sampleInit []))
      1 8 (List.replicate 17 97) := by
  refine ⟨by decide, fun h => ?_⟩
  exact absurd h.1 (by decide)

end

end AppManager

end VnfDockerNet
