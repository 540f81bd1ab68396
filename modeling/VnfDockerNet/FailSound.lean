import VnfDockerNet.HostSound

/-!
# What a failing message leaves

A handler that raises keeps what it has written until then. Of each handler the
lookups that can fail are paired with the writes before them: the message is
harmless exactly when none of the lookups fails, or the first one that does
comes before the first write.
-/

namespace VnfDockerNet

open Python Networkx Index

namespace AppManager

structure SameRecords {Γ : Type} (s s' : AppManager Γ) : Prop where
  hosts : ∀ mac, s'.host_to_lcid.get mac = s.host_to_lcid.get mac
  datapaths : ∀ d, s'.datapath_list.get d = s.datapath_list.get d
  roles : ∀ lc d, (s'.lcs lc).dpid_to_role.get d = (s.lcs lc).dpid_to_role.get d
  loads : ∀ lc d, (s'.lcs lc).dpid_to_load.get d = (s.lcs lc).dpid_to_load.get d
  topo : s'.LC_LEVEL_TOPO = s.LC_LEVEL_TOPO

theorem SameRecords.refl {Γ : Type} (s : AppManager Γ) : SameRecords s s := ⟨fun _ => rfl, fun _ => rfl, fun _ _ => rfl, fun _ _ => rfl, rfl⟩

section
variable {env : Env} {s : AppManager env.nx.Graph}

/-! ## The purge -/

/-- Every host the purge visits is known, and is visited once. -/
def Purgeable {Γ : Type} (s : AppManager Γ) (macs : List Bytes) : Prop :=
  (visited macs).Nodup ∧ ∀ m ∈ visited macs, m ∈ s.host_to_lcid

/-- The loop from index `pre.length` on; a host it takes out may stand there twice. -/
theorem purge_completes_iff (dpid : Nat) : ∀ (fuel : Nat) (pre rest : List Bytes) (s : AppManager env.nx.Graph) (dp : Datapath),
    s.datapath_list.get dpid = some dp → dp.mac = pre ++ rest → rest.length ≤ fuel →
    (Completes (purgeMacs env dpid fuel pre.length) s ↔ Purgeable s rest)
  | fuel, pre, [], s, dp, hdp, hmac, _ => by
    have hcompletes : Completes (purgeMacs env dpid fuel pre.length) s :=
      wp_purgeMacs_past hdp fuel (by rw [hmac]; simp) trivial
    simp [hcompletes, Purgeable, visited]
  | 0, _, _ :: _, _, _, _, _, hlen => absurd hlen (by simp)
  | fuel + 1, pre, a :: l, s, dp, hdp, hmac, hlen => by
    have hat : dp.mac[pre.length]? = some a := by rw [hmac]; simp
    have hin : a ∈ dp.mac := by rw [hmac]; simp
    have hdel : dp.del_mac a = .ok { dp with mac := dp.mac.erase a } := if_pos hin
    have hstep : Completes (purgeMacs env dpid (fuel + 1) pre.length) s ↔ a ∈ s.host_to_lcid ∧
        Completes (purgeMacs env dpid fuel (pre.length + 1)) { s with
          host_to_lcid := s.host_to_lcid.erase a
          datapath_list := s.datapath_list.insert dpid { dp with mac := dp.mac.erase a } } := by
      unfold Completes
      rw [purgeMacs]
      simp only [wp_bind, wp_get, wp_item_some hdp, hat, wp_delHost, wp_orRaise_ok hdel, wp_setDatapath]
      tauto
    -- wherever the first `a` stands, the loop goes on with the element after the next one
    obtain ⟨pre', hlen', herase⟩ : ∃ pre' : List Bytes, pre'.length = pre.length ∧ dp.mac.erase a = pre' ++ l := by
      rw [hmac]
      by_cases ha : a ∈ pre
      · refine ⟨pre.erase a ++ [a], ?_, ?_⟩
        · have hpos := List.length_pos_of_mem ha
          simp only [List.length_append, List.length_erase_of_mem ha, List.length_singleton]
          omega
        · rw [List.erase_append_left _ ha, List.append_assoc]
          rfl
      · exact ⟨pre, rfl, by rw [List.erase_append_right _ ha, List.erase_cons_head]⟩
    have hget : Dict.get (s.datapath_list.insert dpid { dp with mac := dp.mac.erase a }) dpid =
        some { dp with mac := dp.mac.erase a } := by rw [Dict.get_insert, if_pos rfl]
    have herased : ∀ m, m ∈ s.host_to_lcid.erase a ↔ m ≠ a ∧ m ∈ s.host_to_lcid := fun m => AList.mem_erase
    rw [hstep]
    cases l with
    | nil =>
      have hend : Completes (purgeMacs env dpid fuel (pre.length + 1)) { s with
          host_to_lcid := s.host_to_lcid.erase a
          datapath_list := s.datapath_list.insert dpid { dp with mac := dp.mac.erase a } } :=
        wp_purgeMacs_past hget fuel (by rw [herase]; simp [hlen']) trivial
      simp [hend, Purgeable, visited]
    | cons b l =>
      have ih := purge_completes_iff dpid fuel (pre' ++ [b]) l
        { s with
          host_to_lcid := s.host_to_lcid.erase a
          datapath_list := s.datapath_list.insert dpid { dp with mac := dp.mac.erase a } }
        { dp with mac := dp.mac.erase a } hget (by rw [herase]; simp) (by simp at hlen; omega)
      rw [List.length_append, List.length_singleton, hlen'] at ih
      rw [ih]
      unfold Purgeable
      simp only [visited, List.nodup_cons, List.forall_mem_cons]
      constructor
      · intro h
        obtain ⟨ha, hnd, hknown⟩ := h
        exact ⟨⟨fun hv => ((herased a).mp (hknown a hv)).1 rfl, hnd⟩, ha, fun m hm => ((herased m).mp (hknown m hm)).2⟩
      · intro h
        obtain ⟨⟨hav, hnd⟩, ha, hknown⟩ := h
        refine ⟨ha, hnd, fun m hm => (herased m).mpr ⟨?_, hknown m hm⟩⟩
        rintro rfl
        exact hav hm

theorem purge_all_completes_iff {dpid : Nat} {dp : Datapath} (hdp : s.datapath_list.get dpid = some dp) :
    Completes (purgeMacs env dpid dp.mac.length 0) s ↔ Purgeable s dp.mac :=
  purge_completes_iff dpid dp.mac.length [] dp.mac s dp hdp rfl le_rfl

theorem always_purge_unknown (dpid : Nat) (m : Bytes) : ∀ (fuel i : Nat) (s : AppManager env.nx.Graph),
    m ∉ s.host_to_lcid → Always (purgeMacs env dpid fuel i) s fun s' => m ∉ s'.host_to_lcid
  | 0, _, _, hm => hm
  | fuel + 1, i, s, hm => by
    unfold purgeMacs
    simp only [wp_bind, wp_get, wp_item]
    refine ⟨fun dp hdp => ?_, fun _ => hm⟩
    split
    · exact hm
    · rename_i mac_t _
      have hm' : m ∉ s.host_to_lcid.erase mac_t := fun h => hm (AList.mem_erase.mp h).2
      simp only [wp_bind, wp_delHost, wp_orRaise, wp_setDatapath]
      exact ⟨fun _ => ⟨fun dp' _ => always_purge_unknown dpid m fuel (i + 1) _ hm', fun _ _ => hm'⟩, fun _ => hm⟩

theorem purge_first {dpid : Nat} {dp : Datapath} {a : Bytes} {l : List Bytes} (hdp : s.datapath_list.get dpid = some dp)
    (hmac : dp.mac = a :: l) :
    (a ∈ s.host_to_lcid → Always (purgeMacs env dpid dp.mac.length 0) s fun s' => a ∉ s'.host_to_lcid) ∧
      (a ∉ s.host_to_lcid → Raises (purgeMacs env dpid dp.mac.length 0) s fun s' => s' = s) := by
  have hat : dp.mac[0]? = some a := by rw [hmac]; rfl
  have hin : a ∈ dp.mac := by rw [hmac]; simp
  have hdel : dp.del_mac a = .ok { dp with mac := dp.mac.erase a } := if_pos hin
  have hlen : dp.mac.length = l.length + 1 := by rw [hmac]; rfl
  have hgone : a ∉ s.host_to_lcid.erase a := fun h => (AList.mem_erase.mp h).1 rfl
  rw [hlen]
  constructor
  · intro ha
    unfold purgeMacs
    simp only [wp_bind, wp_get, wp_item_some hdp, hat, wp_delHost, wp_orRaise_ok hdel, wp_setDatapath]
    exact ⟨fun _ => always_purge_unknown dpid a _ _ _ hgone, fun hn => absurd ha hn⟩
  · intro ha
    unfold Raises purgeMacs
    simp only [wp_bind, wp_get, wp_item_some hdp, hat, wp_delHost, wp_orRaise_ok hdel, wp_setDatapath]
    exact ⟨fun h => absurd h ha, fun _ => trivial⟩

def FirstUnknown {Γ : Type} (s : AppManager Γ) (macs : List Bytes) : Prop := ∃ a l, macs = a :: l ∧ a ∉ s.host_to_lcid

theorem purge_harmless_iff {dpid : Nat} {dp : Datapath} (hdp : s.datapath_list.get dpid = some dp)
    {Q : Unit → AppManager env.nx.Graph → Prop} :
    wp (purgeMacs env dpid dp.mac.length 0) s Q (fun _ s' => SameRecords s s') ↔
      FirstUnknown s dp.mac ∨ Purgeable s dp.mac ∧ wp (purgeMacs env dpid dp.mac.length 0) s Q fun _ _ => True := by
  have hiff : Completes (purgeMacs env dpid dp.mac.length 0) s ↔ Purgeable s dp.mac := purge_all_completes_iff hdp
  constructor
  · intro h
    have hQ : wp (purgeMacs env dpid dp.mac.length 0) s Q fun _ _ => True := wp_mono h (fun _ _ h => h) fun _ _ _ => trivial
    by_cases hp : Purgeable s dp.mac
    · exact Or.inr ⟨hp, hQ⟩
    · left
      cases hmac : dp.mac with
      | nil => exact absurd (by simp [Purgeable, hmac, visited]) hp
      | cons a l =>
        refine ⟨a, l, rfl, fun ha => ?_⟩
        have hgone := raises_of_not_completes (mt hiff.mp hp) (wp_mono ((purge_first hdp hmac).1 ha) (fun _ _ _ => trivial)
          fun _ _ h => h)
        refine not_wp_of_raises (wp_mono hgone (fun _ _ h => h) fun _ s' hs' _ hsame => ?_) h
        apply hs'
        rw [Dict.mem_iff_get] at ha ⊢
        rwa [hsame.hosts a]
  · intro h
    rcases h with ⟨a, l, hmac, ha⟩ | ⟨hp, hQ⟩
    · refine wp_mono ((purge_first hdp hmac).2 ha) (fun _ _ h => h.elim) fun _ s' hs' => ?_
      rw [hs']
      exact .refl s
    · exact (hiff.mpr hp).wp hQ

/-! ## Answers -/

theorem send_msg_completes_iff (lc : Nat) (msg : MsgDown) :
    Completes (send_msg env lc none msg) s ↔
      msg.serialize env.host (some (((s.lcs lc).xid + 1) &&& MAX_XID)) ≠ none := by
  unfold Completes send_msg set_xid
  simp only [wp_bind, wp_modifyLc, wp_get, wp_pure, Function.update_self]
  cases msg.serialize env.host (some (((s.lcs lc).xid + 1) &&& MAX_XID)) with
  | none => simp
  | some frame => simp

theorem masked_lt (xid : Nat) : xid &&& MAX_XID < 2 ^ 32 := lt_of_le_of_lt Nat.and_le_right (by decide)

def Assignable {Γ : Type} (s : AppManager Γ) (lc dpid gid : Nat) : Prop :=
  (MsgDown.RoleAssign dpid (s.lcs lc).id OFPCR_ROLE_MASTER gid).fits = true

theorem assignRole_completes_iff (s : AppManager env.nx.Graph) (lc : Nat) {dpid : Nat} {dp : Datapath}
    (hdp : s.datapath_list.get dpid = some dp) :
    Completes (assignRole env lc dpid) s ↔ Assignable s lc dpid dp._generation_id := by
  have hsend := send_msg_completes_iff (s := homed s lc dpid dp) lc
    (.RoleAssign dpid (s.lcs lc).id OFPCR_ROLE_MASTER dp._generation_id)
  rw [roleAssign_packed_iff (masked_lt _)] at hsend
  constructor
  · intro h
    by_contra hn
    have hraise : Raises (assignRole env lc dpid) s fun _ => True :=
      wp_assignRole hdp (raises_of_not_completes (mt hsend.mp hn) (always_send_msg lc none _ _ |>.mono fun _ _ => trivial))
    exact not_wp_of_raises (wp_mono hraise (fun _ _ h => h) fun _ _ _ _ h => h) h
  · exact fun h => wp_assignRole hdp (hsend.mpr h)

theorem always_assignRole_gid {lc dpid : Nat} {dp : Datapath} (hdp : s.datapath_list.get dpid = some dp) :
    Always (assignRole env lc dpid) s fun s' => ∃ dp', s'.datapath_list.get dpid = some dp' ∧
      dp'._generation_id = dp._generation_id + 1 := by
  refine wp_assignRole hdp (Always.mono (always_send_msg lc none _ _) ?_)
  intro _ hpost
  obtain ⟨x, msgs, rfl, _⟩ := hpost
  exact ⟨_, Dict.get_insert_some.mpr (Or.inl ⟨rfl, rfl⟩), rfl⟩

theorem datapath_connected_harmless_iff (lc dpid : Nat) :
    wp (_tflcp_datapath_connected_handler env lc dpid) s (fun _ _ => True) (fun _ s' => SameRecords s s') ↔
      FirstUnknown s (macsOf s dpid) ∨ Purgeable s (macsOf s dpid) ∧
        Assignable s lc dpid (((s.datapath_list.get dpid).map Datapath._generation_id).getD 1) := by
  unfold _tflcp_datapath_connected_handler
  simp only [wp_bind, wp_get]
  cases hdp : s.datapath_list.get dpid with
  | none =>
    have hget : Dict.get (s.datapath_list.insert dpid { id := dpid }) dpid = some { id := dpid } := by
      rw [Dict.get_insert, if_pos rfl]
    have hcompletes := assignRole_completes_iff { s with datapath_list := s.datapath_list.insert dpid { id := dpid } } lc hget
    have hempty : macsOf s dpid = [] := macsOf_none hdp
    simp only [wp_bind, wp_setDatapath]
    rw [wp_iff_completes]
    · rw [hcompletes]
      simp [FirstUnknown, Purgeable, hempty, visited, Assignable]
    · refine wp_mono (always_assignRole_gid hget) (fun _ _ _ => trivial) fun _ s' hs' hsame => ?_
      obtain ⟨dp', hdp', _⟩ := hs'
      rw [hsame.datapaths, hdp] at hdp'
      cases hdp'
  | some dp =>
    simp only [wp_bind, macsOf_some hdp, Option.map_some, Option.getD_some]
    rw [purge_harmless_iff hdp]
    refine or_congr_right (and_congr_right fun hp => ?_)
    -- the answer of a purged datapath is the one the datapath would have given before
    refine ((purge_all_completes_iff hdp).mpr hp).wp_iff (wp_mono (always_purgeMacs dpid dp.mac.length 0 s)
      (fun _ _ h => h) fun _ _ _ => trivial) fun _ s' hs' => ?_
    obtain ⟨hosts, dps, rfl, hdps⟩ := hs'
    obtain ⟨mac, hdp'⟩ := hdps.get_some hdp
    have hcompletes := assignRole_completes_iff { s with host_to_lcid := hosts, datapath_list := dps } lc hdp'
    rw [wp_iff_completes]
    · exact hcompletes
    · refine wp_mono (always_assignRole_gid hdp') (fun _ _ _ => trivial) fun _ s' hs' hsame => ?_
      obtain ⟨dp', hdp'', hgid⟩ := hs'
      rw [hsame.datapaths, hdp] at hdp''
      cases hdp''
      simp at hgid

/-! ## The end of a connection -/

/-- How often the loop asks for an edge from `u` to `v` to be taken out. -/
def asked (dpid : Nat) (u v : Lcid) (es : List (Lcid × Lcid × LinkData)) : Nat :=
  es.countP (fun e => e.1 = u ∧ e.2.1 = v ∧ e.2.2.left_dpid = dpid) +
    es.countP (fun e => e.1 = u ∧ e.2.1 = v ∧ e.2.2.right_dpid = dpid)

theorem removeEdgeIf_then_iff {x : App env Unit} {need : Lcid → Lcid → Nat}
    (hx : ∀ s, Completes x s ↔ ∀ u v, need u v ≤ env.nx.parallel s.LC_LEVEL_TOPO u v) (hit : Bool) (u v : Lcid)
    (s : AppManager env.nx.Graph) :
    wp (removeEdgeIf env hit u v) s (fun _ => Completes x) (fun _ _ => False) ↔
      ∀ u' v', (if hit = true ∧ u' = u ∧ v' = v then 1 else 0) + need u' v' ≤
        env.nx.parallel s.LC_LEVEL_TOPO u' v' := by
  unfold removeEdgeIf
  cases hit with
  | false => simpa using hx s
  | true =>
    simp only [wp_bind, wp_get, wp_modify, if_true, true_and]
    cases hg : env.nx.remove_edge s.LC_LEVEL_TOPO u v with
    | error e =>
      have hnone : env.nx.parallel s.LC_LEVEL_TOPO u v = 0 := by
        by_contra hne
        obtain ⟨g, hok⟩ := env.nx.remove_edge_ok _ _ _ (env.nx.edge_ne_empty_of_parallel (Nat.pos_of_ne_zero hne))
        rw [hg] at hok
        cases hok
      constructor
      · intro h
        exact absurd h (by simp)
      · intro h
        have := h u v
        rw [hnone, if_pos ⟨rfl, rfl⟩] at this
        omega
    | ok g =>
      have hpos : 0 < env.nx.parallel s.LC_LEVEL_TOPO u v := by
        obtain ⟨k, hk, _⟩ := env.nx.edge_remove_edge _ _ _ _ hg
        exact List.length_pos_of_mem (AList.mem_keys.mp hk)
      rw [wp_orRaise_ok rfl, hx]
      refine forall_congr' fun u' => forall_congr' fun v' => ?_
      show need u' v' ≤ env.nx.parallel g u' v' ↔ _
      rw [env.nx.parallel_remove_edge hg]
      split
      · rename_i h
        obtain ⟨rfl, rfl⟩ := h
        omega
      · rw [Nat.zero_add]

theorem removeWindowEdges_completes_iff (dpid : Nat) : ∀ (es : List (Lcid × Lcid × LinkData)) (s : AppManager env.nx.Graph),
    Completes (removeWindowEdges env dpid es) s ↔ ∀ u v, asked dpid u v es ≤ env.nx.parallel s.LC_LEVEL_TOPO u v
  | [], s => by simp [removeWindowEdges, asked, Completes]
  | (u, v, data) :: es, s => by
    have hright := removeEdgeIf_then_iff (removeWindowEdges_completes_iff dpid es) (data.right_dpid = dpid) u v
    have hleft := removeEdgeIf_then_iff (x := do
        removeEdgeIf env (data.right_dpid = dpid) u v
        removeWindowEdges env dpid es) (fun s => by
      unfold Completes
      rw [wp_bind]
      exact hright s) (data.left_dpid = dpid) u v s
    unfold Completes at hleft ⊢
    rw [removeWindowEdges, wp_bind, hleft]
    refine forall_congr' fun u' => forall_congr' fun v' => ?_
    unfold asked
    simp only [List.countP_cons, decide_eq_true_eq]
    have hl : (data.left_dpid = dpid ∧ u' = u ∧ v' = v) ↔ (u = u' ∧ v = v' ∧ data.left_dpid = dpid) := by tauto
    have hr : (data.right_dpid = dpid ∧ u' = u ∧ v' = v) ↔ (u = u' ∧ v = v' ∧ data.right_dpid = dpid) := by tauto
    simp only [hl, hr]
    omega

/-- What DATAPATH_LEAVE does after the purge. -/
def endConnection (env : Env) (lc dpid : Nat) : App env Unit := do
  dropDatapath env lc dpid
  removeWindowEdges env dpid (env.nx.edges (← get).LC_LEVEL_TOPO)

def Endable (env : Env) (s : AppManager env.nx.Graph) (lc dpid : Nat) (dp : Datapath) : Prop :=
  dpid ∈ (s.lcs lc).dpid_to_role ∧ dpid ∈ (s.lcs lc).dpid_to_load ∧ lc ∈ dp.lc_connected ∧
    ∀ u v, asked dpid u v (env.nx.edges s.LC_LEVEL_TOPO) ≤ env.nx.parallel s.LC_LEVEL_TOPO u v

theorem dropDatapath_unknown {lc dpid : Nat} {dp : Datapath} (hdp : s.datapath_list.get dpid = some dp)
    (hrole : dpid ∉ (s.lcs lc).dpid_to_role) :
    Raises (dropDatapath env lc dpid) s fun s' => s' = { s with
      datapath_list := if dp.lc_connected.length = 1 then s.datapath_list.erase dpid else s.datapath_list } := by
  have hnone := Dict.get_eq_none.mpr hrole
  unfold Raises dropDatapath
  simp only [wp_bind, wp_get, wp_item_some hdp, wp_ite, wp_modify]
  simp only [wp_item, hnone]
  refine ⟨fun hlen => ⟨fun _ h => (by cases h), fun _ => ?_⟩, fun hlen => ⟨fun _ h => (by cases h), fun _ => ?_⟩⟩
  · rw [if_pos hlen]
  · rw [if_neg hlen]

theorem dropDatapath_known {lc dpid : Nat} {dp : Datapath} (hdp : s.datapath_list.get dpid = some dp)
    (hrole : dpid ∈ (s.lcs lc).dpid_to_role) :
    Always (dropDatapath env lc dpid) s fun s' => dpid ∉ (s'.lcs lc).dpid_to_role := by
  obtain ⟨role, hget⟩ := Dict.mem_iff_get.mp hrole
  have hgone : dpid ∉ (s.lcs lc).dpid_to_role.erase dpid := fun h => (AList.mem_erase.mp h).1 rfl
  unfold dropDatapath
  simp only [wp_bind, wp_get, wp_item_some hdp, wp_item_some hget, wp_ite, wp_modify, wp_modifyLc, wp_setDatapath,
    Function.update_self]
  simp only [wp_item, wp_orRaise, Function.update_self]
  tauto

theorem dropDatapath_raises {lc dpid : Nat} {dp : Datapath} (hdp : s.datapath_list.get dpid = some dp)
    (h : ¬ (dpid ∈ (s.lcs lc).dpid_to_role ∧ dpid ∈ (s.lcs lc).dpid_to_load ∧ lc ∈ dp.lc_connected)) :
    Raises (dropDatapath env lc dpid) s fun _ => True := by
  by_cases hrole : dpid ∈ (s.lcs lc).dpid_to_role
  · obtain ⟨role, hget⟩ := Dict.mem_iff_get.mp hrole
    have hload : ∀ v, (s.lcs lc).dpid_to_load.get dpid = some v → dpid ∈ (s.lcs lc).dpid_to_load :=
      fun v hv => Dict.mem_iff_get.mpr ⟨v, hv⟩
    have hconn : ∀ dp', dp.del_lc lc = .ok dp' → lc ∈ dp.lc_connected := fun dp' hdel => (del_lc_ok hdel).1
    unfold Raises dropDatapath
    simp only [wp_bind, wp_get, wp_item_some hdp, wp_item_some hget, wp_ite, wp_modify, wp_modifyLc, wp_setDatapath,
      Function.update_self]
    simp only [wp_item, wp_orRaise]
    constructor
    · exact fun _ => ⟨fun v hv => ⟨fun dp' hdel => absurd ⟨hrole, hload v hv, hconn dp' hdel⟩ h, fun _ _ => trivial⟩,
        fun _ => trivial⟩
    · exact fun _ => ⟨fun v hv => ⟨fun dp' hdel => absurd ⟨hrole, hload v hv, hconn dp' hdel⟩ h, fun _ _ => trivial⟩,
        fun _ => trivial⟩
  · exact wp_mono (dropDatapath_unknown hdp hrole) (fun _ _ h => h) fun _ _ _ => trivial

theorem endConnection_completes_iff (s : AppManager env.nx.Graph) (lc : Nat) {dpid : Nat} {dp : Datapath}
    (hdp : s.datapath_list.get dpid = some dp) :
    Completes (endConnection env lc dpid) s ↔ Endable env s lc dpid dp := by
  unfold endConnection Completes
  simp only [wp_bind, wp_get]
  by_cases hparts : dpid ∈ (s.lcs lc).dpid_to_role ∧ dpid ∈ (s.lcs lc).dpid_to_load ∧ lc ∈ dp.lc_connected
  · obtain ⟨hrole, hload, hlc⟩ := hparts
    rw [wp_iff_of_ends (wp_dropDatapath hdp hlc hrole hload rfl)]
    have hedges := removeWindowEdges_completes_iff dpid (env.nx.edges s.LC_LEVEL_TOPO) (dropped s lc dpid dp)
    unfold Endable
    simp only [hrole, hload, hlc, true_and]
    exact hedges
  · constructor
    · intro h
      exact absurd h (not_wp_of_raises (wp_mono (dropDatapath_raises hdp hparts) (fun _ _ h => h) fun _ _ _ _ h => h))
    · intro h
      obtain ⟨hrole, hload, hlc, _⟩ := h
      exact absurd ⟨hrole, hload, hlc⟩ hparts

/-- An error at the end of a connection breaks nothing only when the role is unknown and the datapath stays. -/
theorem endConnection_harmless_iff (s₀ s : AppManager env.nx.Graph) (lc : Nat) {dpid : Nat} {dp : Datapath}
    (hdp : s.datapath_list.get dpid = some dp) (hdp₀ : dpid ∈ s₀.datapath_list)
    (hrole₀ : dpid ∈ (s.lcs lc).dpid_to_role ↔ dpid ∈ (s₀.lcs lc).dpid_to_role) :
    wp (endConnection env lc dpid) s (fun _ _ => True) (fun _ s' => SameRecords s₀ s') ↔
      (dpid ∉ (s.lcs lc).dpid_to_role ∧ dp.lc_connected.length ≠ 1 ∧ SameRecords s₀ s) ∨ Endable env s lc dpid dp := by
  by_cases hrole : dpid ∈ (s.lcs lc).dpid_to_role
  · have hbreaks : wp (endConnection env lc dpid) s (fun _ _ => True) fun _ s' => ¬ SameRecords s₀ s' := by
      have hlost : ∀ s' : AppManager env.nx.Graph, dpid ∉ (s'.lcs lc).dpid_to_role → ¬ SameRecords s₀ s' := by
        intro s' hs' hsame
        obtain ⟨role, hget⟩ := Dict.mem_iff_get.mp (hrole₀.mp hrole)
        rw [← hsame.roles] at hget
        exact hs' (Dict.mem_iff_get.mpr ⟨role, hget⟩)
      unfold endConnection
      simp only [wp_bind, wp_get]
      refine wp_mono (dropDatapath_known hdp hrole) (fun _ s' hs' => ?_) fun _ s' hs' => hlost s' hs'
      refine wp_mono (always_removeWindowEdges dpid _ s') (fun _ _ _ => trivial) fun _ s'' hs'' => ?_
      obtain ⟨g, rfl, _⟩ := hs''
      exact hlost _ hs'
    rw [wp_iff_completes hbreaks, endConnection_completes_iff s lc hdp]
    simp [hrole]
  · have hraises : Raises (endConnection env lc dpid) s fun s' => s' = { s with
        datapath_list := if dp.lc_connected.length = 1 then s.datapath_list.erase dpid else s.datapath_list } := by
      unfold endConnection Raises
      rw [wp_bind]
      exact wp_mono (dropDatapath_unknown hdp hrole) (fun _ _ h => h.elim) fun _ _ h => h
    have hno : ¬ Endable env s lc dpid dp := fun h => hrole h.1
    simp only [hrole, hno, not_false_eq_true, true_and, or_false]
    rw [wp_iff_of_raises hraises]
    by_cases hlen : dp.lc_connected.length = 1
    · obtain ⟨dp₀, hget⟩ := Dict.mem_iff_get.mp hdp₀
      simp only [hlen, if_true, ne_eq, not_true_eq_false, false_and, iff_false]
      intro hsame
      have hout := hsame.datapaths dpid
      rw [Dict.get_erase, if_pos rfl, hget] at hout
      cases hout
    · simp only [hlen, if_false, ne_eq, not_false_eq_true, true_and]

/-- DATAPATH_LEAVE meets nothing unknown, or meets it before it changes anything. -/
def LeaveHarmless (env : Env) (s : AppManager env.nx.Graph) (lc dpid : Nat) : Prop :=
  ∀ dp, s.datapath_list.get dpid = some dp → FirstUnknown s dp.mac ∨ Purgeable s dp.mac ∧
    (dpid ∉ (s.lcs lc).dpid_to_role ∧ dp.lc_connected.length ≠ 1 ∧ dp.mac = [] ∨ Endable env s lc dpid dp)

theorem purge_same_iff {dpid : Nat} {dp : Datapath} (hdp : s.datapath_list.get dpid = some dp) (hp : Purgeable s dp.mac) :
    Always (purgeMacs env dpid dp.mac.length 0) s fun s' => SameRecords s s' ↔ dp.mac = [] := by
  cases hmac : dp.mac with
  | nil =>
    simp only [iff_true]
    exact SameRecords.refl s
  | cons a l =>
    have ha : a ∈ s.host_to_lcid := by
      apply hp.2
      rw [hmac]
      cases l <;> exact List.mem_cons_self ..
    rw [← hmac]
    refine ((purge_first hdp hmac).1 ha).mono fun s' hs' => ?_
    simp only [hmac, reduceCtorEq, iff_false]
    intro hsame
    apply hs'
    rw [Dict.mem_iff_get] at ha ⊢
    rwa [hsame.hosts a]

theorem datapath_leave_eq (env : Env) (lc dpid : Nat) : _tflcp_datapath_leave_handler env lc dpid = (do
    let datapath ← item (← get).datapath_list dpid
    purgeMacs env dpid datapath.mac.length 0
    endConnection env lc dpid) := rfl

theorem datapath_leave_harmless_iff (lc dpid : Nat) :
    wp (_tflcp_datapath_leave_handler env lc dpid) s (fun _ _ => True) (fun _ s' => SameRecords s s') ↔
      LeaveHarmless env s lc dpid := by
  have hlisted : ∀ dp, s.datapath_list.get dpid = some dp →
      (wp (purgeMacs env dpid dp.mac.length 0) s (fun _ s' => wp (endConnection env lc dpid) s' (fun _ _ => True)
        fun _ s'' => SameRecords s s'') (fun _ s' => SameRecords s s') ↔ FirstUnknown s dp.mac ∨ Purgeable s dp.mac ∧
          (dpid ∉ (s.lcs lc).dpid_to_role ∧ dp.lc_connected.length ≠ 1 ∧ dp.mac = [] ∨ Endable env s lc dpid dp)) := by
    intro dp hdp
    rw [purge_harmless_iff hdp]
    refine or_congr_right (and_congr_right fun hp => ?_)
    have hpost := wp_and (always_purgeMacs dpid dp.mac.length 0 s) (purge_same_iff hdp hp)
    refine ((purge_all_completes_iff hdp).mpr hp).wp_iff (wp_mono hpost (fun _ _ h => h) fun _ _ _ => trivial) ?_
    intro _ s' hs'
    obtain ⟨⟨hosts, dps, rfl, hdps⟩, hsame⟩ := hs'
    obtain ⟨mac, hdp'⟩ := hdps.get_some hdp
    have hend := endConnection_harmless_iff s { s with host_to_lcid := hosts, datapath_list := dps } lc hdp'
      (Dict.mem_iff_get.mpr ⟨dp, hdp⟩) Iff.rfl
    rw [hsame] at hend
    exact hend
  rw [datapath_leave_eq]
  unfold LeaveHarmless
  simp only [wp_bind, wp_get, wp_item]
  constructor
  · exact fun h dp hdp => (hlisted dp hdp).mp (h.1 dp hdp)
  · exact fun h => ⟨fun dp hdp => (hlisted dp hdp).mpr (h dp hdp), fun _ => .refl s⟩

/-! ## Hosts -/

theorem forgetHost_listed (mac : Bytes) : ∀ (dpids : List Nat) (s : AppManager env.nx.Graph),
    (∀ d ∈ dpids, d ∈ s.datapath_list) → wp (forgetHost env mac dpids) s (fun _ s' => ∃ dps,
      s' = { s with datapath_list := dps } ∧ SameButMacs s.datapath_list dps ∧
      ((∀ d, dps.get d = s.datapath_list.get d) ↔ ∀ d ∈ dpids, mac ∉ macsOf s d)) fun _ _ => False
  | [], s, _ => ⟨s.datapath_list, rfl, .refl _, by simp⟩
  | d₀ :: dpids, s, hkeys => by
    obtain ⟨dp₀, hdp₀⟩ := Dict.mem_iff_get.mp (hkeys d₀ (List.mem_cons_self ..))
    have hmacs := macsOf_some hdp₀
    unfold forgetHost
    simp only [wp_bind, wp_get, wp_item_some hdp₀, wp_ite]
    refine ⟨fun hin => ?_, fun hout => ?_⟩
    · have hdel : dp₀.del_mac mac = .ok { dp₀ with mac := dp₀.mac.erase mac } := if_pos hin
      simp only [wp_orRaise_ok hdel, wp_setDatapath]
      refine ⟨_, rfl, .insert hdp₀ _, iff_of_false (fun h => ?_) fun h => ?_⟩
      · have hsame := h d₀
        rw [Dict.get_insert, if_pos rfl, hdp₀] at hsame
        have hmac := congrArg List.length (congrArg Datapath.mac (Option.some.inj hsame))
        have hlen : (dp₀.mac.erase mac).length = dp₀.mac.length := hmac
        have hpos := List.length_pos_of_mem hin
        rw [List.length_erase_of_mem hin] at hlen
        omega
      · exact h d₀ (List.mem_cons_self ..) (hmacs ▸ hin)
    · refine wp_mono (forgetHost_listed mac dpids s fun d hd => hkeys d (List.mem_cons_of_mem d₀ hd)) ?_ fun _ _ h => h
      intro _ s' h
      obtain ⟨dps, hs', hsame, hiff⟩ := h
      refine ⟨dps, hs', hsame, hiff.trans ?_⟩
      rw [List.forall_mem_cons, hmacs]
      simp [hout]

theorem wp_recordHost {lc dpid : Nat} {mac : Bytes} (hout : dpid ∉ s.datapath_list) {Q : Unit → AppManager env.nx.Graph → Prop}
    {E : Exn → AppManager env.nx.Graph → Prop} : wp (recordHost env lc dpid mac) s Q E ↔
      E .KeyError { s with host_to_lcid := s.host_to_lcid.insert mac (s.lcs lc).id } := by
  have hnone := Dict.get_eq_none.mpr hout
  unfold recordHost
  simp only [wp_bind, wp_modify, wp_get, wp_item, hnone]
  simp

theorem mem_datapath_order {d : Nat} : d ∈ env.datapath_order s.datapath_list ↔ d ∈ s.datapath_list :=
  (env.datapath_order_perm _).mem_iff.trans AList.mem_keys.symm

theorem host_connected_listed {lc dpid : Nat} (mac : Bytes) (hin : dpid ∈ s.datapath_list) :
    wp (_tflcp_host_connected_handler env lc dpid mac) s (fun _ _ => True) (fun _ s' => SameRecords s s') := by
  have hrecord : ∀ (hosts : Dict Bytes Lcid) (dps : Dict Nat Datapath), SameButMacs s.datapath_list dps →
      wp (recordHost env lc dpid mac) { s with host_to_lcid := hosts, datapath_list := dps } (fun _ _ => True)
        fun _ s' => SameRecords s s' := by
    intro hosts dps hdps
    obtain ⟨dp, hdp⟩ := Dict.mem_iff_get.mp hin
    obtain ⟨macs, hdp'⟩ := hdps.get_some hdp
    unfold recordHost
    simp only [wp_bind, wp_modify, wp_get, wp_item_some hdp', wp_setDatapath]
  unfold _tflcp_host_connected_handler
  simp only [wp_bind, wp_get, wp_ite, wp_delHost]
  refine ⟨fun hknown => ⟨fun _ => ?_, fun hn => absurd hknown hn⟩, fun _ => hrecord s.host_to_lcid s.datapath_list (.refl _)⟩
  refine wp_mono (forgetHost_listed mac _ { s with host_to_lcid := s.host_to_lcid.erase mac }
    fun d hd => mem_datapath_order.mp hd) ?_ fun _ _ h => h.elim
  intro _ _ hpost
  obtain ⟨dps, rfl, hdps, _⟩ := hpost
  exact hrecord _ dps hdps

theorem host_connected_unlisted {lc dpid : Nat} (mac : Bytes) (hin : dpid ∉ s.datapath_list) :
    wp (_tflcp_host_connected_handler env lc dpid mac) s (fun _ _ => True) (fun _ s' => SameRecords s s') ↔
      s.host_to_lcid.get mac = some (s.lcs lc).id ∧ ∀ d, mac ∉ macsOf s d := by
  have hall : (∀ d ∈ env.datapath_order s.datapath_list, mac ∉ macsOf s d) ↔ ∀ d, mac ∉ macsOf s d := by
    refine ⟨fun h d hd => ?_, fun h d _ => h d⟩
    obtain ⟨dp, hdp⟩ := listed_of_macsOf (List.ne_nil_of_mem hd)
    exact h d (mem_datapath_order.mpr (Dict.mem_iff_get.mpr ⟨dp, hdp⟩)) hd
  unfold _tflcp_host_connected_handler
  simp only [wp_bind, wp_get, wp_ite, wp_delHost]
  by_cases hknown : mac ∈ s.host_to_lcid
  · obtain ⟨_, _, hx, dps, rfl, hdps, hiff⟩ := ok_of_wp
      (forgetHost_listed mac _ { s with host_to_lcid := s.host_to_lcid.erase mac } fun d hd => mem_datapath_order.mp hd)
    have hout : dpid ∉ dps := fun h => by
      obtain ⟨dp', hdp'⟩ := Dict.mem_iff_get.mp h
      obtain ⟨dp, hdp, _⟩ := hdps.listed hdp'
      exact hin (Dict.mem_iff_get.mpr ⟨dp, hdp⟩)
    rw [wp_iff_of_ends (wp_of_ok hx rfl), wp_recordHost hout]
    simp only [hknown, forall_const, not_true_eq_false, false_implies, and_true]
    rw [← hall]
    constructor
    · intro h
      refine ⟨?_, hiff.mp h.datapaths⟩
      have hnew := h.hosts mac
      rw [Dict.get_insert, if_pos rfl] at hnew
      exact hnew.symm
    · intro h
      refine ⟨fun m => ?_, hiff.mpr h.2, fun _ _ => rfl, fun _ _ => rfl, rfl⟩
      rw [Dict.get_insert, Dict.get_erase]
      split
      · rename_i hm
        rw [hm, h.1]
      · rfl
  · have hnone := Dict.get_eq_none.mpr hknown
    simp only [hknown, false_implies, not_false_eq_true, true_implies, true_and, hnone, reduceCtorEq, false_and,
      iff_false, wp_recordHost hin]
    intro hsame
    have hnew := hsame.hosts mac
    rw [Dict.get_insert, if_pos rfl, hnone] at hnew
    cases hnew

theorem host_connected_harmless_iff (lc dpid : Nat) (mac : Bytes) :
    wp (_tflcp_host_connected_handler env lc dpid mac) s (fun _ _ => True) (fun _ s' => SameRecords s s') ↔
      dpid ∈ s.datapath_list ∨ s.host_to_lcid.get mac = some (s.lcs lc).id ∧ ∀ d, mac ∉ macsOf s d := by
  by_cases hin : dpid ∈ s.datapath_list
  · exact iff_of_true (host_connected_listed mac hin) (Or.inl hin)
  · rw [host_connected_unlisted mac hin, or_iff_right hin]

theorem host_leave_harmless_iff (dpid : Nat) (mac : Bytes) :
    wp (_tflcp_host_leave_handler env dpid mac) s (fun _ _ => True) (fun _ s' => SameRecords s s') ↔
      dpid ∈ s.datapath_list ∨ mac ∉ s.host_to_lcid := by
  unfold _tflcp_host_leave_handler
  simp only [wp_bind, wp_modify, wp_get]
  cases hdp : s.datapath_list.get dpid with
  | none =>
    have hout : dpid ∉ s.datapath_list := Dict.get_eq_none.mp hdp
    simp only [wp_item, hdp, hout, false_or]
    constructor
    · intro h hin
      obtain ⟨v, hv⟩ := Dict.mem_iff_get.mp hin
      have hsame := (h.2 trivial).hosts mac
      rw [Dict.get_erase, if_pos rfl, hv] at hsame
      cases hsame
    · intro hn
      refine ⟨fun _ h => (by cases h), fun _ => ⟨fun m => ?_, fun _ => rfl, fun _ _ => rfl, fun _ _ => rfl, rfl⟩⟩
      rw [Dict.get_erase]
      split
      · rename_i hm
        rw [hm, Dict.get_eq_none.mpr hn]
      · rfl
  | some dp =>
    have hin : dpid ∈ s.datapath_list := Dict.mem_iff_get.mpr ⟨dp, hdp⟩
    have hdel : mac ∈ dp.mac → dp.del_mac mac = .ok { dp with mac := dp.mac.erase mac } := fun hmac => if_pos hmac
    simp only [wp_item_some hdp, wp_ite, wp_bind, wp_pure, implies_true, and_true, hin, true_or, iff_true]
    intro hmac
    simp only [wp_orRaise_ok (hdel hmac), wp_setDatapath]

theorem gid_request_harmless_iff (lc dpid : Nat) :
    wp (_tflcp_gid_request_handler env lc dpid) s (fun _ _ => True) (fun _ s' => SameRecords s s') ↔
      ∀ dp, s.datapath_list.get dpid = some dp → (MsgDown.GidReply dpid dp._generation_id).fits = true := by
  unfold _tflcp_gid_request_handler
  simp only [wp_bind, wp_get_generation_id]
  have hsend : ∀ dp, s.datapath_list.get dpid = some dp →
      (wp (send_msg env lc none (.GidReply dpid dp._generation_id))
        { s with datapath_list := s.datapath_list.insert dpid { dp with _generation_id := dp._generation_id + 1 } }
        (fun _ _ => True) (fun _ s' => SameRecords s s') ↔ (MsgDown.GidReply dpid dp._generation_id).fits = true) := by
    intro dp hdp
    rw [wp_iff_completes, send_msg_completes_iff, gidReply_packed_iff (masked_lt _)]
    refine wp_mono (always_send_msg lc none _ _) (fun _ _ _ => trivial) fun _ s' hs' hsame => ?_
    obtain ⟨x, msgs, rfl, _⟩ := hs'
    have hgid := hsame.datapaths dpid
    simp only [sends, Dict.get_insert, hdp, if_true, Option.some.injEq] at hgid
    exact absurd (congrArg Datapath._generation_id hgid) (by simp)
  constructor
  · exact fun h dp hdp => (hsend dp hdp).mp (h.1 dp hdp)
  · exact fun h => ⟨fun dp hdp => (hsend dp hdp).mpr (h dp hdp), fun _ => .refl s⟩

theorem load_report_harmless (lc dpid pkt_in_cnt : Nat) :
    wp (_tflcp_load_report_handler env lc dpid pkt_in_cnt) s (fun _ _ => True) (fun _ s' => SameRecords s s') := by
  unfold _tflcp_load_report_handler
  simp only [wp_bind, wp_get, wp_item, wp_setDatapath, wp_modifyLc]
  exact ⟨fun _ _ => trivial, fun _ => .refl s⟩

/-! ## Messages -/

def Updates : MsgUp → Prop
  | .HostConnected .. | .HostLeave .. | .DPConnected .. | .DatapathLeave .. | .GidRequest .. | .LoadReport .. => True
  | _ => False

instance (msg : MsgUp) : Decidable (Updates msg) := by cases msg <;> unfold Updates <;> infer_instance

/-- No lookup fails that the handler makes after a change. -/
def Harmless (env : Env) (s : AppManager env.nx.Graph) (lc : Nat) : MsgUp → Prop
  | .HostConnected dpid mac =>
    dpid ∈ s.datapath_list ∨ s.host_to_lcid.get mac = some (s.lcs lc).id ∧ ∀ d, mac ∉ macsOf s d
  | .HostLeave dpid mac => dpid ∈ s.datapath_list ∨ mac ∉ s.host_to_lcid
  | .DPConnected dpid _ => FirstUnknown s (macsOf s dpid) ∨ Purgeable s (macsOf s dpid) ∧
      Assignable s lc dpid (((s.datapath_list.get dpid).map Datapath._generation_id).getD 1)
  | .DatapathLeave dpid => LeaveHarmless env s lc dpid
  | .GidRequest dpid => ∀ dp, s.datapath_list.get dpid = some dp → (MsgDown.GidReply dpid dp._generation_id).fits = true
  | _ => True

/-- **A failing message changes nothing exactly when it is harmless.** -/
theorem failing_message_keeps_iff (env : Env) (s : AppManager env.nx.Graph) (lc : Nat) (ev : Event MsgUp)
    (hupdates : Updates ev.msg) :
    (∀ e s', dispatch_event env lc ev s = .error e s' → SameRecords s s') ↔ Harmless env s lc ev.msg := by
  rw [← wp_true_iff]
  unfold dispatch_event
  cases hmsg : ev.msg with
  | HostConnected dpid mac => exact host_connected_harmless_iff lc dpid mac
  | HostLeave dpid mac => exact host_leave_harmless_iff dpid mac
  | DPConnected dpid is_window => exact datapath_connected_harmless_iff lc dpid
  | DatapathLeave dpid => exact datapath_leave_harmless_iff lc dpid
  | GidRequest dpid => exact gid_request_harmless_iff lc dpid
  | LoadReport dpid pkt_in_cnt => exact iff_of_true (load_report_harmless lc dpid pkt_in_cnt) trivial
  | _ => rw [hmsg] at hupdates; exact hupdates.elim

theorem failing_message_keeps_iff_leave :
    (∀ e s', dispatch_event (sampleEnv []) 0 (received 0 3 (.HostLeave 7 (List.replicate 17 97))).ev
      ([received 0 1 .HelloUp, received 0 2 (.DPConnected 7 false)].foldl (receive (sampleEnv [])) (sampleInit [])) =
        .error e s' → SameRecords
          ([received 0 1 .HelloUp, received 0 2 (.DPConnected 7 false)].foldl (receive (sampleEnv [])) (sampleInit [])) s') ↔
      Harmless (sampleEnv [])
        ([received 0 1 .HelloUp, received 0 2 (.DPConnected 7 false)].foldl (receive (sampleEnv [])) (sampleInit [])) 0
        (.HostLeave 7 (List.replicate 17 97)) :=
  failing_message_keeps_iff (sampleEnv []) _ 0 (received 0 3 (.HostLeave 7 (List.replicate 17 97))).ev (by decide)

/-- A host at a datapath that never connected enters one table and not the other. -/
theorem failing_message_half_done :
    Updates (.HostConnected 7 (List.replicate 17 97)) ∧
    ∃ s', dispatch_event (sampleEnv []) 0 (received 0 2 (.HostConnected 7 (List.replicate 17 97))).ev
      ([received 0 1 .HelloUp].foldl (receive (sampleEnv [])) (sampleInit [])) = .error .KeyError s' ∧
      ¬ SameRecords ([received 0 1 .HelloUp].foldl (receive (sampleEnv [])) (sampleInit [])) s' := by
  refine ⟨trivial, _, rfl, fun h => ?_⟩
  exact absurd (h.hosts (List.replicate 17 97)) (by decide)

end

end AppManager

end VnfDockerNet
