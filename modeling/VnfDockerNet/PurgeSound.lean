import VnfDockerNet.FailSound

/-!
# What a purge leaves of the hosts

A datapath that leaves, or is connected once more, loses the hosts it lists. The
loop removes from the list it runs over, so it takes every other one. All are
lost exactly when there is one at most.
-/

namespace VnfDockerNet

open Python Networkx Runs Index

namespace AppManager

/-- Every host that is listed is known, and listed at one datapath, once. -/
structure ListedOnce {Γ : Type} (s : AppManager Γ) : Prop where
  known : ∀ d, ∀ m ∈ macsOf s d, m ∈ s.host_to_lcid
  nodup : ∀ d, (macsOf s d).Nodup
  single : ∀ d d' m, m ∈ macsOf s d → m ∈ macsOf s d' → d = d'

/-- The hosts `macs` of `dpid` are gone, and all others are as they were. -/
structure HostsLost {Γ : Type} (s s' : AppManager Γ) (dpid : Nat) (macs : List Bytes) : Prop where
  gone : ∀ m ∈ macs, m ∉ s'.host_to_lcid
  kept : ∀ m ∉ macs, s'.host_to_lcid.get m = s.host_to_lcid.get m
  emptied : macsOf s' dpid = []

/-- DATAPATH_LEAVE returns and the hosts are lost. The object may be out of
`datapath_list` then; its list is the one the purge has left. -/
def LeaveLosesHosts (env : Env) (s : AppManager env.nx.Graph) (lc dpid : Nat) (dp : Datapath) : Prop :=
  wp (purgeMacs env dpid dp.mac.length 0) s (fun _ s₁ => macsOf s₁ dpid = []) (fun _ _ => False) ∧
    wp (_tflcp_datapath_leave_handler env lc dpid) s (fun _ s' => HostsLost s s' dpid dp.mac) fun _ _ => False

/-- DATAPATH_CONNECTED returns and the hosts are lost. -/
def ConnectLosesHosts (env : Env) (s : AppManager env.nx.Graph) (lc dpid : Nat) (dp : Datapath) : Prop :=
  wp (_tflcp_datapath_connected_handler env lc dpid) s (fun _ s' => HostsLost s s' dpid dp.mac) fun _ _ => False

section
variable {env : Env} {s : AppManager env.nx.Graph} {E : Exn → AppManager env.nx.Graph → Prop}
  {Q : Unit → AppManager env.nx.Graph → Prop} {dpid : Nat} {dp : Datapath}

structure Purged (s s₁ : AppManager env.nx.Graph) (dpid : Nat) (dp : Datapath) : Prop where
  same : ∃ hosts dps, s₁ = { s with host_to_lcid := hosts, datapath_list := dps }
  hosts : ∀ m, s₁.host_to_lcid.get m = if m ∈ visited dp.mac then none else s.host_to_lcid.get m
  listed : s₁.datapath_list.get dpid = some { dp with mac := skipped dp.mac }

theorem ListedOnce.purge (h : ListedOnce s) (hdp : s.datapath_list.get dpid = some dp) :
    ∃ s₁, purgeMacs env dpid dp.mac.length 0 s = .ok () s₁ ∧ Purged s s₁ dpid dp := by
  have hmacs := macsOf_some hdp
  have hnd : ([] ++ dp.mac).Nodup := hmacs ▸ h.nodup dpid
  have hknown : ∀ m ∈ dp.mac, m ∈ s.host_to_lcid := fun m hm => h.known dpid m (hmacs ▸ hm)
  have hpurge : wp (purgeMacs env dpid dp.mac.length 0) s (fun _ s₁ => Purged s s₁ dpid dp) fun _ _ => False := by
    refine wp_purgeMacs dpid dp.mac.length [] dp.mac s dp hdp rfl hnd le_rfl hknown fun hosts dps hhosts hdps => ?_
    exact ⟨⟨hosts, dps, rfl⟩, hhosts, by rw [hdps, if_pos rfl, List.nil_append]⟩
  obtain ⟨_, s₁, hx, hpost⟩ := ok_of_wp hpurge
  exact ⟨s₁, hx, hpost⟩

theorem Purged.gone_iff {s₁ : AppManager env.nx.Graph} (hp : Purged s s₁ dpid dp) (h : ListedOnce s)
    (hdp : s.datapath_list.get dpid = some dp) : (∀ m ∈ dp.mac, m ∉ s₁.host_to_lcid) ↔ dp.mac.length ≤ 1 := by
  have hmacs := macsOf_some hdp
  have hnd : dp.mac.Nodup := hmacs ▸ h.nodup dpid
  rw [← skipped_eq_nil_iff]
  constructor
  · intro hgone
    refine List.eq_nil_iff_forall_not_mem.mpr fun m hm => ?_
    obtain ⟨hin, hout⟩ := (mem_skipped_iff hnd).mp hm
    obtain ⟨u, hu⟩ := Dict.mem_iff_get.mp (h.known dpid m (hmacs ▸ hin))
    have hsame := hp.hosts m
    rw [if_neg hout, hu] at hsame
    exact hgone m hin (Dict.mem_iff_get.mpr ⟨u, hsame⟩)
  · intro hnil m hm
    have hvisited : m ∈ visited dp.mac := (mem_visited_or_skipped.mp hm).resolve_right (by rw [hnil]; simp)
    rw [← Dict.get_eq_none, hp.hosts, if_pos hvisited]

theorem Purged.kept {s₁ : AppManager env.nx.Graph} (hp : Purged s s₁ dpid dp) {m : Bytes} (hm : m ∉ dp.mac) :
    s₁.host_to_lcid.get m = s.host_to_lcid.get m := by
  rw [hp.hosts, if_neg fun hv => hm (mem_visited_or_skipped.mpr (Or.inl hv))]

theorem Purged.macsOf {s₁ : AppManager env.nx.Graph} (hp : Purged s s₁ dpid dp) : macsOf s₁ dpid = skipped dp.mac :=
  macsOf_some hp.listed

theorem Purged.lost_iff {s₁ : AppManager env.nx.Graph} (hp : Purged s s₁ dpid dp) (h : ListedOnce s)
    (hdp : s.datapath_list.get dpid = some dp) {x : App env Unit}
    (hx : Always x s₁ fun s' => s'.host_to_lcid = s₁.host_to_lcid ∧
      (AppManager.macsOf s' dpid = AppManager.macsOf s₁ dpid ∨ AppManager.macsOf s' dpid = [])) :
    wp x s₁ (fun _ s' => HostsLost s s' dpid dp.mac) (fun _ _ => False) ↔ dp.mac.length ≤ 1 ∧ Completes x s₁ := by
  have hgone := hp.gone_iff h hdp
  constructor
  · intro hlost
    obtain ⟨_, s', hok, hl, hhosts, _⟩ := ok_of_wp (wp_mono (wp_and hlost hx) (fun _ _ h => h) fun _ _ h => h.1)
    have hone : dp.mac.length ≤ 1 := hgone.mp fun m hm => hhosts ▸ hl.gone m hm
    exact ⟨hone, wp_of_ok hok trivial⟩
  · intro hboth
    obtain ⟨hone, hcompletes⟩ := hboth
    refine hcompletes.wp (wp_mono hx (fun _ s' hs' => ?_) fun _ _ _ => trivial)
    obtain ⟨hhosts, hmacs⟩ := hs'
    refine ⟨fun m hm => hhosts ▸ hgone.mpr hone m hm, fun m hm => hhosts ▸ hp.kept hm, ?_⟩
    rcases hmacs with hsame | hnil
    · rw [hsame, hp.macsOf, skipped_eq_nil_iff.mpr hone]
    · exact hnil

/-! ## The end of a connection -/

theorem macsOf_dropped {lc : Nat} {dps dps' : Dict Nat Datapath} (hdps : s.datapath_list = dps)
    (hdrop : dps' = dps ∨ Dropped lc dpid dps dps') :
    ((dps'.get dpid).map Datapath.mac).getD [] = macsOf s dpid ∨ ((dps'.get dpid).map Datapath.mac).getD [] = [] := by
  subst hdps
  rcases hdrop with rfl | ⟨dp, hdp, ⟨_, rfl⟩ | ⟨_, rfl⟩⟩
  · exact Or.inl rfl
  · rw [Dict.get_erase, if_pos rfl]
    exact Or.inr rfl
  · rw [Dict.get_insert, if_pos rfl, macsOf_some hdp]
    exact Or.inl rfl

theorem always_endConnection (lc dpid : Nat) (s : AppManager env.nx.Graph) :
    Always (endConnection env lc dpid) s fun s' => s'.host_to_lcid = s.host_to_lcid ∧
      (macsOf s' dpid = macsOf s dpid ∨ macsOf s' dpid = []) := by
  unfold endConnection
  simp only [wp_bind, wp_get]
  refine wp_mono (always_dropDatapath lc dpid s) (fun _ s' hs' => ?_) fun _ s' hs' => ?_
  · obtain ⟨dps, role, load, win, rfl, _, _, hdps⟩ := hs'
    refine (always_removeWindowEdges dpid _ _).mono fun s'' hs'' => ?_
    obtain ⟨g, rfl, _⟩ := hs''
    exact ⟨rfl, macsOf_dropped rfl hdps⟩
  · obtain ⟨dps, role, load, win, rfl, _, _, hdps⟩ := hs'
    exact ⟨rfl, macsOf_dropped rfl hdps⟩

theorem leave_loses_iff (h : ListedOnce s) (lc : Nat) (hdp : s.datapath_list.get dpid = some dp) :
    LeaveLosesHosts env s lc dpid dp ↔ dp.mac.length ≤ 1 ∧ Endable env s lc dpid dp := by
  obtain ⟨s₁, hx, hp⟩ := h.purge hdp
  have hlost := hp.lost_iff h hdp (always_endConnection lc dpid s₁)
  have hends := endConnection_completes_iff s₁ lc hp.listed
  have hsame : Endable env s₁ lc dpid { dp with mac := skipped dp.mac } ↔ Endable env s lc dpid dp := by
    obtain ⟨hosts, dps, rfl⟩ := hp.same
    exact Iff.rfl
  unfold LeaveLosesHosts
  rw [datapath_leave_eq]
  simp only [wp_bind, wp_get, wp_item_some hdp]
  rw [wp_iff_of_ends (wp_of_ok hx rfl), wp_iff_of_ends (wp_of_ok hx rfl), hp.macsOf, skipped_eq_nil_iff, hlost, hends, hsame]
  tauto

/-! ## A new home -/

theorem always_assignRole_hosts (lc : Nat) {s₁ : AppManager env.nx.Graph} (hp : Purged s s₁ dpid dp) :
    Always (assignRole env lc dpid) s₁ fun s' => s'.host_to_lcid = s₁.host_to_lcid ∧
      (macsOf s' dpid = macsOf s₁ dpid ∨ macsOf s' dpid = []) := by
  refine wp_assignRole hp.listed (Always.mono (always_send_msg lc none _ _) fun s' hs' => ?_)
  obtain ⟨x, msgs, rfl, _⟩ := hs'
  have hmacs : macsOf (sends (homed s₁ lc dpid { dp with mac := skipped dp.mac }) lc x msgs) =
      macsOf (homed s₁ lc dpid { dp with mac := skipped dp.mac }) := rfl
  rw [hmacs, macsOf_homed lc hp.listed]
  exact ⟨rfl, Or.inl rfl⟩

theorem connect_loses_iff (h : ListedOnce s) (lc : Nat) (hdp : s.datapath_list.get dpid = some dp) :
    ConnectLosesHosts env s lc dpid dp ↔ dp.mac.length ≤ 1 ∧ Assignable s lc dpid dp._generation_id := by
  obtain ⟨s₁, hx, hp⟩ := h.purge hdp
  have hlost := hp.lost_iff h hdp (always_assignRole_hosts lc hp)
  have hanswer := assignRole_completes_iff s₁ lc hp.listed
  have hsame : Assignable s₁ lc dpid dp._generation_id ↔ Assignable s lc dpid dp._generation_id := by
    obtain ⟨hosts, dps, rfl⟩ := hp.same
    exact Iff.rfl
  unfold ConnectLosesHosts _tflcp_datapath_connected_handler
  simp only [wp_bind, wp_get, hdp]
  rw [wp_iff_of_ends (wp_of_ok hx rfl), hlost, hanswer, hsame]

theorem Agreed.listedOnce (h : Agreed s) : ListedOnce s where
  known d m hm := by
    have hkeyed := (h.index.known m).mpr (Or.inl ⟨d, hm⟩)
    exact not_not.mp fun hn => hkeyed (Dict.get_eq_none.mpr hn)
  nodup := h.index.nodup
  single := h.index.single

/-- **A datapath loses all its hosts exactly when it has one at most.** The
connection must also be one that can end, and the answer one that fits. -/
theorem hosts_lost_iff (env : Env) (s : AppManager env.nx.Graph) (hlisted : ListedOnce s) (lc dpid : Nat) (dp : Datapath)
    (hdp : s.datapath_list.get dpid = some dp) :
    (LeaveLosesHosts env s lc dpid dp ↔ dp.mac.length ≤ 1 ∧ Endable env s lc dpid dp) ∧
      (ConnectLosesHosts env s lc dpid dp ↔ dp.mac.length ≤ 1 ∧ Assignable s lc dpid dp._generation_id) :=
  ⟨leave_loses_iff hlisted lc hdp, connect_loses_iff hlisted lc hdp⟩

def hostedRun (macs : List Bytes) : List Received :=
  [received 0 1 .HelloUp, received 0 2 (.DPConnected 7 false)] ++ macs.map fun mac => received 0 3 (.HostConnected 7 mac)

def hostedState (macs : List Bytes) : AppManager (sampleEnv []).nx.Graph :=
  (hostedRun macs).foldl (receive (sampleEnv [])) (sampleInit [])

theorem listedOnce_hosted {macs : List Bytes}
    (h : Allowed (receive (sampleEnv [])) (fun s r => Accepts (sampleEnv []) s r ∧ HostSafe s r) (sampleInit [])
      (hostedRun macs)) : ListedOnce (hostedState macs) :=
  (Allowed.invariant _ (fun _ _ => hostInv_step) (hostInv_init _ _) h).agreed.listedOnce

theorem hosts_lost_iff_one :
    (LeaveLosesHosts (sampleEnv []) (hostedState [List.replicate 17 97]) 0 7
        ⟨7, 2, [List.replicate 17 97], some 0, [0], 0⟩ ↔
      1 ≤ 1 ∧ Endable (sampleEnv []) (hostedState [List.replicate 17 97]) 0 7
        ⟨7, 2, [List.replicate 17 97], some 0, [0], 0⟩) ∧
    (ConnectLosesHosts (sampleEnv []) (hostedState [List.replicate 17 97]) 0 7
        ⟨7, 2, [List.replicate 17 97], some 0, [0], 0⟩ ↔
      1 ≤ 1 ∧ Assignable (hostedState [List.replicate 17 97]) 0 7 2) :=
  hosts_lost_iff (sampleEnv []) (hostedState [List.replicate 17 97]) (listedOnce_hosted (by decide)) 0 7
    ⟨7, 2, [List.replicate 17 97], some 0, [0], 0⟩ rfl

/-- Of two hosts the second one stays known. -/
theorem hosts_lost_two :
    ListedOnce (hostedState [List.replicate 17 97, List.replicate 17 98]) ∧
    (hostedState [List.replicate 17 97, List.replicate 17 98]).datapath_list.get 7 =
      some ⟨7, 2, [List.replicate 17 97, List.replicate 17 98], some 0, [0], 0⟩ ∧
    ¬ LeaveLosesHosts (sampleEnv []) (hostedState [List.replicate 17 97, List.replicate 17 98]) 0 7
      ⟨7, 2, [List.replicate 17 97, List.replicate 17 98], some 0, [0], 0⟩ ∧
    ¬ ConnectLosesHosts (sampleEnv []) (hostedState [List.replicate 17 97, List.replicate 17 98]) 0 7
      ⟨7, 2, [List.replicate 17 97, List.replicate 17 98], some 0, [0], 0⟩ := by
  refine ⟨listedOnce_hosted (by decide), rfl, fun h => ?_, fun h => ?_⟩
  · have hstays : wp (_tflcp_datapath_leave_handler (sampleEnv []) 0 7)
        (hostedState [List.replicate 17 97, List.replicate 17 98])
        (fun _ s' => List.replicate 17 98 ∉ s'.host_to_lcid) (fun _ _ => False) :=
      wp_mono h.2 (fun _ _ hl => hl.gone _ (by simp)) fun _ _ hf => hf
    exact absurd hstays (by decide)
  · have hstays : wp (_tflcp_datapath_connected_handler (sampleEnv []) 0 7)
        (hostedState [List.replicate 17 97, List.replicate 17 98])
        (fun _ s' => List.replicate 17 98 ∉ s'.host_to_lcid) (fun _ _ => False) :=
      wp_mono h (fun _ _ hl => hl.gone _ (by simp)) fun _ _ hf => hf
    exact absurd hstays (by decide)

end

end AppManager

end VnfDockerNet
