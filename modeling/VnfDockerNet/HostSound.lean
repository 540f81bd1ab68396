import VnfDockerNet.Registry
import VnfDockerNet.Lib.Index

/-!
# The host registry of the central controller

`host_to_lcid` is an index beside the `mac` lists of the datapaths. The two
agree as long as four things do not happen: a datapath with two hosts or more
leaves for good or gets another home, since the purge skips every other host;
a host is reported for a datapath by a controller that is not its home; and a
host leaves a datapath it is not listed at.
-/

namespace VnfDockerNet

open Python Networkx Runs Index

namespace AppManager

def macsOf {Γ : Type} (s : AppManager Γ) (dpid : Nat) : List Bytes :=
  ((s.datapath_list.get dpid).map Datapath.mac).getD []

abbrev HostIndex {Γ : Type} (s : AppManager Γ) (stale : Bytes → Prop) : Prop :=
  Indexed (macsOf s) s.host_to_lcid.get stale

def SetMacs (macs : Nat → List Bytes) (dps dps' : Dict Nat Datapath) : Prop :=
  ∀ d, dps'.get d = (dps.get d).map fun dp => { dp with mac := macs d }

section
variable {env : Env} {s : AppManager env.nx.Graph} {E : Exn → AppManager env.nx.Graph → Prop}
  {Q : Unit → AppManager env.nx.Graph → Prop}

theorem macsOf_some {d : Nat} {dp : Datapath} (h : s.datapath_list.get d = some dp) : macsOf s d = dp.mac := by
  unfold macsOf
  rw [h]; rfl

theorem macsOf_none {d : Nat} (h : s.datapath_list.get d = none) : macsOf s d = [] := by
  unfold macsOf
  rw [h]; rfl

theorem SetMacs.macsOf {macs : Nat → List Bytes} {dps : Dict Nat Datapath} (h : SetMacs macs s.datapath_list dps)
    (hnil : ∀ d, s.datapath_list.get d = none → macs d = []) (hosts : Dict Bytes Lcid) :
    macsOf { s with host_to_lcid := hosts, datapath_list := dps } = macs := by
  funext d
  show ((dps.get d).map Datapath.mac).getD [] = macs d
  rw [h]
  cases hget : s.datapath_list.get d with
  | none => rw [hnil d hget]; rfl
  | some dp => rfl

theorem SetMacs.homeOf {macs : Nat → List Bytes} {dps : Dict Nat Datapath} (h : SetMacs macs s.datapath_list dps)
    (hosts : Dict Bytes Lcid) (d : Nat) :
    homeOf { s with host_to_lcid := hosts, datapath_list := dps } d = homeOf s d := by
  unfold AppManager.homeOf
  simp only [h d]
  cases s.datapath_list.get d <;> rfl

theorem SetMacs.same {macs : Nat → List Bytes} {dps dps' : Dict Nat Datapath} (h : SetMacs macs dps dps') :
    SameButMacs dps dps' := ⟨macs, h⟩

theorem setMacs_erase_of_not_mem {mac : Bytes} (hout : ∀ d, mac ∉ macsOf s d) :
    SetMacs (fun d => (macsOf s d).erase mac) s.datapath_list s.datapath_list := by
  intro d
  cases hget : s.datapath_list.get d with
  | none => rfl
  | some dp =>
    have hnot := hout d
    rw [macsOf_some hget] at hnot
    simp [macsOf_some hget, List.erase_of_not_mem hnot]

theorem setMacs_erase_at {mac : Bytes} {dpid : Nat} {dp : Datapath} (hdp : s.datapath_list.get dpid = some dp)
    (hother : ∀ d, d ≠ dpid → mac ∉ macsOf s d) {dps : Dict Nat Datapath}
    (hdps : ∀ d, dps.get d = if d = dpid then some { dp with mac := dp.mac.erase mac } else s.datapath_list.get d) :
    SetMacs (fun d => (macsOf s d).erase mac) s.datapath_list dps := by
  intro d
  rw [hdps]
  by_cases hd : d = dpid
  · subst hd
    simp [hdp, macsOf_some hdp]
  · cases hget : s.datapath_list.get d with
    | none => simp [hd]
    | some dp' =>
      have hnot := hother d hd
      rw [macsOf_some hget] at hnot
      simp [hd, macsOf_some hget, List.erase_of_not_mem hnot]

/-! ## The purge -/

theorem wp_purgeMacs_past {dpid : Nat} {dp : Datapath} (hdp : s.datapath_list.get dpid = some dp) (fuel : Nat) {i : Nat}
    (hi : dp.mac.length ≤ i) (h : Q () s) : wp (purgeMacs env dpid fuel i) s Q E := by
  cases fuel with
  | zero => exact h
  | succ fuel =>
    unfold purgeMacs
    simp only [wp_bind, wp_get, wp_item_some hdp, List.getElem?_eq_none hi, wp_pure]
    exact h

theorem wp_purgeMacs (dpid : Nat) : ∀ (fuel : Nat) (pre rest : List Bytes) (s : AppManager env.nx.Graph)
      (dp : Datapath),
    s.datapath_list.get dpid = some dp → dp.mac = pre ++ rest → (pre ++ rest).Nodup → rest.length ≤ fuel →
    (∀ m ∈ rest, m ∈ s.host_to_lcid) →
    (∀ hosts dps, (∀ m, hosts.get m = if m ∈ visited rest then none else s.host_to_lcid.get m) →
      (∀ d, dps.get d = if d = dpid then some { dp with mac := pre ++ skipped rest } else s.datapath_list.get d) →
      Q () { s with host_to_lcid := hosts, datapath_list := dps }) →
    wp (purgeMacs env dpid fuel pre.length) s Q E
  | fuel, pre, [], s, dp, hdp, hmac, _, _, _, h => by
    refine wp_purgeMacs_past hdp fuel (by rw [hmac]; simp) (h s.host_to_lcid s.datapath_list (fun m => ?_) fun d => ?_)
    · simp [visited]
    · split
      · rename_i hd
        rw [hd, hdp]
        show some dp = some { dp with mac := pre ++ [] }
        rw [← hmac]
      · rfl
  | 0, _, _ :: _, _, _, _, _, _, hlen, _, _ => absurd hlen (by simp)
  | fuel + 1, pre, a :: l, s, dp, hdp, hmac, hnd, hlen, hmap, h => by
    have hat : dp.mac[pre.length]? = some a := by rw [hmac]; simp
    have hapre : a ∉ pre := fun ha => (List.nodup_append.mp hnd).2.2 a ha a (List.mem_cons_self ..) rfl
    have hdel : dp.del_mac a = .ok { dp with mac := pre ++ l } := by
      unfold Datapath.del_mac
      rw [if_pos (by rw [hmac]; simp), hmac, List.erase_append_right _ hapre, List.erase_cons_head]
    have hget : ∀ (mac : List Bytes) (d : Nat), Dict.get (s.datapath_list.insert dpid { dp with mac }) d =
        if d = dpid then some { dp with mac } else s.datapath_list.get d := fun mac d => Dict.get_insert ..
    have hal : a ∉ l := (List.nodup_cons.mp (List.nodup_append.mp hnd).2.1).1
    unfold purgeMacs
    simp only [wp_bind, wp_get, wp_item_some hdp, hat, wp_delHost, wp_orRaise_ok hdel, wp_setDatapath]
    refine ⟨fun _ => ?_, fun hn => absurd (hmap a (List.mem_cons_self ..)) hn⟩
    cases l with
    | nil =>
      refine wp_purgeMacs_past (by rw [hget, if_pos rfl]) fuel (by simp) (h _ _ (fun m => ?_) (hget _))
      rw [Dict.get_erase]
      simp [visited]
    | cons b l =>
      -- `b` moves to the place of `a`, which the loop has left
      have hnd' : ((pre ++ [b]) ++ l).Nodup := by
        rw [List.append_assoc]
        exact hnd.sublist (List.Sublist.append_left (.cons a (.refl _)) pre)
      have := wp_purgeMacs dpid fuel (pre ++ [b]) l
        { s with
          host_to_lcid := s.host_to_lcid.erase a
          datapath_list := s.datapath_list.insert dpid { dp with mac := pre ++ b :: l } }
        { dp with mac := pre ++ b :: l } (by rw [hget, if_pos rfl]) (by simp) hnd' (by simp at hlen; omega) ?_ ?_
      · rwa [List.length_append, List.length_singleton] at this
      · intro m hm
        rw [AList.mem_erase]
        refine ⟨?_, hmap m (List.mem_cons_of_mem a (List.mem_cons_of_mem b hm))⟩
        rintro rfl
        exact hal (List.mem_cons_of_mem b hm)
      · intro hosts dps hhosts hdps
        refine h hosts dps (fun m => ?_) fun d => ?_
        · rw [hhosts, Dict.get_erase]
          by_cases hm : m ∈ visited l <;> by_cases hma : m = a <;> simp [visited, hm, hma]
        · rw [hdps, hget]
          by_cases hd : d = dpid <;> simp [hd, skipped]

theorem wp_purge {stale : Bytes → Prop} (hix : HostIndex s stale) {dpid : Nat} {dp : Datapath}
    (hdp : s.datapath_list.get dpid = some dp)
    (h : ∀ hosts dps, (∀ m, hosts.get m = if m ∈ visited (macsOf s dpid) then none else s.host_to_lcid.get m) →
      SetMacs (fun d => if d = dpid then skipped (macsOf s d) else macsOf s d) s.datapath_list dps →
      Q () { s with host_to_lcid := hosts, datapath_list := dps }) :
    wp (purgeMacs env dpid dp.mac.length 0) s Q E := by
  have hmacs := macsOf_some hdp
  refine wp_purgeMacs dpid dp.mac.length [] dp.mac s dp hdp rfl (hmacs ▸ hix.nodup dpid) le_rfl (fun m hm => ?_) ?_
  · have := (hix.known m).mpr (Or.inl ⟨dpid, by rw [hmacs]; exact hm⟩)
    exact not_not.mp fun hn => this (Dict.get_eq_none.mpr hn)
  · intro hosts dps hhosts hdps
    refine h hosts dps (by rw [hmacs]; exact hhosts) fun d => ?_
    rw [hdps]
    by_cases hd : d = dpid
    · subst hd
      simp [hdp, hmacs]
    · cases hget : s.datapath_list.get d with
      | none => simp [hd]
      | some dp' => simp [hd, macsOf_some hget]

theorem get_purged {dpid : Nat} {dp : Datapath} {dps : Dict Nat Datapath}
    (hdps : SetMacs (fun d => if d = dpid then skipped (macsOf s d) else macsOf s d) s.datapath_list dps)
    (hdp : s.datapath_list.get dpid = some dp) : dps.get dpid = some { dp with mac := skipped (macsOf s dpid) } := by
  rw [hdps, hdp]
  simp

theorem HostIndex.purge {stale : Bytes → Prop} (hix : HostIndex s stale) {dpid : Nat} {hosts : Dict Bytes Lcid}
    {dps : Dict Nat Datapath}
    (hhosts : ∀ m, hosts.get m = if m ∈ visited (macsOf s dpid) then none else s.host_to_lcid.get m)
    (hdps : SetMacs (fun d => if d = dpid then skipped (macsOf s d) else macsOf s d) s.datapath_list dps) :
    HostIndex { s with host_to_lcid := hosts, datapath_list := dps } stale := by
  have hmacs := hdps.macsOf (fun d hd => by rw [macsOf_none hd]; split <;> rfl) hosts
  unfold HostIndex
  rw [hmacs]
  have hlisted : ∀ m, m ∈ visited (macsOf s dpid) → m ∈ macsOf s dpid := fun m hm =>
    mem_visited_or_skipped.mpr (Or.inl hm)
  refine hix.forget (fun m => m ∈ visited (macsOf s dpid)) (fun d => ?_) (fun d m => ?_) (fun m hm => ?_)
    (fun m hm => ?_) fun m => ⟨fun hs => ⟨hs, fun hv => hix.unlisted m hs dpid (hlisted m hv)⟩, fun h => h.1⟩
  · split
    · exact (hix.nodup d).sublist (skipped_sublist _)
    · exact hix.nodup d
  · split
    · rename_i hd
      subst hd
      exact mem_skipped_iff (hix.nodup d)
    · rename_i hd
      exact ⟨fun hm => ⟨hm, fun hv => hd (hix.single d dpid m hm (hlisted m hv))⟩, fun h => h.1⟩
  · exact (hhosts m).trans (if_pos hm)
  · exact (hhosts m).trans (if_neg hm)

/-! ## Single hosts -/

theorem wp_forgetHost (mac : Bytes) : ∀ (dpids : List Nat) (s : AppManager env.nx.Graph),
    (∀ d ∈ dpids, d ∈ s.datapath_list) → (∀ d d', mac ∈ macsOf s d → mac ∈ macsOf s d' → d = d') →
    (∀ d, mac ∈ macsOf s d → d ∈ dpids) →
    (∀ dps, SetMacs (fun d => (macsOf s d).erase mac) s.datapath_list dps → Q () { s with datapath_list := dps }) →
    wp (forgetHost env mac dpids) s Q E
  | [], s, _, _, hall, h => by
    refine h s.datapath_list (setMacs_erase_of_not_mem fun d hm => ?_)
    cases hall d hm
  | d₀ :: dpids, s, hkeys, huniq, hall, h => by
    obtain ⟨dp₀, hdp₀⟩ := Dict.mem_iff_get.mp (hkeys d₀ (List.mem_cons_self ..))
    have hmacs := macsOf_some hdp₀
    unfold forgetHost
    simp only [wp_bind, wp_get, wp_item_some hdp₀, wp_ite]
    refine ⟨fun hin => ?_, fun hout => ?_⟩
    · have hdel : dp₀.del_mac mac = .ok { dp₀ with mac := dp₀.mac.erase mac } := by
        unfold Datapath.del_mac
        rw [if_pos hin]
      simp only [wp_orRaise_ok hdel, wp_setDatapath]
      have hother : ∀ d, d ≠ d₀ → mac ∉ macsOf s d := fun d hd hm => hd (huniq d d₀ hm (by rw [hmacs]; exact hin))
      exact h _ (setMacs_erase_at hdp₀ hother fun d => Dict.get_insert ..)
    · refine wp_forgetHost mac dpids s (fun d hd => hkeys d (List.mem_cons_of_mem d₀ hd)) huniq (fun d hd => ?_) h
      rcases List.mem_cons.mp (hall d hd) with rfl | hin
      · rw [hmacs] at hd
        exact absurd hd hout
      · exact hin

theorem wp_host_connected {stale : Bytes → Prop} (hix : HostIndex s stale) {lc dpid : Nat} {mac : Bytes}
    (hlisted : dpid ∈ s.datapath_list)
    (h : ∀ hosts dps, (∀ m, hosts.get m = if m = mac then some (s.lcs lc).id else s.host_to_lcid.get m) →
      SetMacs (fun d => if d = dpid then (macsOf s d).erase mac ++ [mac] else (macsOf s d).erase mac) s.datapath_list dps →
      Q () { s with host_to_lcid := hosts, datapath_list := dps }) :
    wp (_tflcp_host_connected_handler env lc dpid mac) s Q E := by
  -- adding the host to a table where it is not listed any more
  have hrecord : ∀ hosts dps, (∀ m, m ≠ mac → hosts.get m = s.host_to_lcid.get m) →
      SetMacs (fun d => (macsOf s d).erase mac) s.datapath_list dps →
      wp (recordHost env lc dpid mac) { s with host_to_lcid := hosts, datapath_list := dps } Q E := by
    intro hosts dps hhosts hdps
    obtain ⟨dp, hdp⟩ := Dict.mem_iff_get.mp hlisted
    have hdp' : dps.get dpid = some { dp with mac := dp.mac.erase mac } := by
      rw [hdps, hdp, ← macsOf_some hdp]; rfl
    have hadd : ({ dp with mac := dp.mac.erase mac } : Datapath).add_mac mac =
        { dp with mac := dp.mac.erase mac ++ [mac] } := by
      have hnot : mac ∉ dp.mac.erase mac := fun hm => by
        have hnd := hix.nodup dpid
        rw [macsOf_some hdp] at hnd
        exact (hnd.mem_erase_iff.mp hm).1 rfl
      unfold Datapath.add_mac
      rw [if_neg hnot]
    unfold recordHost
    simp only [wp_bind, wp_modify, wp_get, wp_item_some hdp', wp_setDatapath, hadd]
    refine h _ _ (fun m => ?_) fun d => ?_
    · rw [Dict.get_insert]
      split
      · rfl
      · rename_i hm
        exact hhosts m hm
    · rw [Dict.get_insert]
      by_cases hd : d = dpid
      · subst hd
        simp [hdp, macsOf_some hdp]
      · rw [if_neg hd, hdps d]
        simp [hd]
  unfold _tflcp_host_connected_handler
  simp only [wp_bind, wp_get, wp_ite, wp_delHost]
  refine ⟨fun hm => ⟨fun _ => ?_, fun hn => absurd hm hn⟩, fun hn => ?_⟩
  · have hperm := env.datapath_order_perm s.datapath_list
    refine wp_forgetHost mac _ _ (fun d hd => AList.mem_keys.mpr (hperm.mem_iff.mp hd))
      (fun d d' hd hd' => hix.single d d' mac hd hd') (fun d hd => ?_) fun dps hdps => ?_
    · have hd' : mac ∈ macsOf s d := hd
      cases hget : s.datapath_list.get d with
      | none => rw [macsOf_none hget] at hd'; cases hd'
      | some dp => exact hperm.mem_iff.mpr (AList.mem_keys.mp (Dict.mem_iff_get.mpr ⟨dp, hget⟩))
    · exact hrecord _ dps (fun m hne => by rw [Dict.get_erase, if_neg hne]) hdps
  · have hout : ∀ d, mac ∉ macsOf s d := (hix.unlisted_of_none (Dict.get_eq_none.mpr hn)).1
    exact hrecord s.host_to_lcid s.datapath_list (fun _ _ => rfl) (setMacs_erase_of_not_mem hout)

theorem wp_host_leave {stale : Bytes → Prop} (hix : HostIndex s stale) {dpid : Nat} {mac : Bytes}
    (hat : mac ∉ s.host_to_lcid ∨ mac ∈ macsOf s dpid)
    (h : ∀ hosts dps, (∀ m, hosts.get m = if m = mac then none else s.host_to_lcid.get m) →
      SetMacs (fun d => (macsOf s d).erase mac) s.datapath_list dps →
      Q () { s with host_to_lcid := hosts, datapath_list := dps })
    (hE : dpid ∉ s.datapath_list → ∀ e hosts, (∀ m, hosts.get m = s.host_to_lcid.get m) →
      E e { s with host_to_lcid := hosts }) :
    wp (_tflcp_host_leave_handler env dpid mac) s Q E := by
  have herase : ∀ m, Dict.get (s.host_to_lcid.erase mac) m = if m = mac then none else s.host_to_lcid.get m :=
    fun m => Dict.get_erase ..
  have hother : ∀ d, d ≠ dpid → mac ∉ macsOf s d := by
    intro d hd hm
    rcases hat with hn | hin
    · exact (hix.unlisted_of_none (Dict.get_eq_none.mpr hn)).1 d hm
    · exact hd (hix.single d dpid mac hm hin)
  unfold _tflcp_host_leave_handler
  simp only [wp_bind, wp_modify, wp_get]
  cases hdp : s.datapath_list.get dpid with
  | none =>
    have hn : mac ∉ s.host_to_lcid := hat.resolve_right fun hin => by
      rw [macsOf_none hdp] at hin; cases hin
    rw [wp_item]
    refine ⟨fun dp hdp' => ?_, fun _ => hE (Dict.get_eq_none.mp hdp) _ _ fun m => ?_⟩
    · rw [hdp] at hdp'; cases hdp'
    · rw [herase]
      split
      · rename_i hm
        rw [hm, Dict.get_eq_none.mpr hn]
      · rfl
  | some dp =>
    rw [wp_item_some hdp, wp_ite]
    refine ⟨fun hin => ?_, fun hout => ?_⟩
    · have hdel : dp.del_mac mac = .ok { dp with mac := dp.mac.erase mac } := by
        unfold Datapath.del_mac
        rw [if_pos hin]
      simp only [wp_bind, wp_orRaise_ok hdel, wp_setDatapath]
      exact h _ _ herase (setMacs_erase_at hdp hother fun d => Dict.get_insert ..)
    · have hnot : ∀ d, mac ∉ macsOf s d := fun d hm => by
        by_cases hd : d = dpid
        · rw [hd, macsOf_some hdp] at hm
          exact hout hm
        · exact hother d hd hm
      exact h _ s.datapath_list herase (setMacs_erase_of_not_mem hnot)

theorem HostIndex.remove {stale : Bytes → Prop} (hix : HostIndex s stale) {mac : Bytes} {hosts : Dict Bytes Lcid}
    {dps : Dict Nat Datapath} (hhosts : ∀ m, hosts.get m = if m = mac then none else s.host_to_lcid.get m)
    (hdps : SetMacs (fun d => (macsOf s d).erase mac) s.datapath_list dps) :
    HostIndex { s with host_to_lcid := hosts, datapath_list := dps } fun m => stale m ∧ m ≠ mac := by
  have hmacs := hdps.macsOf (fun d hd => by rw [macsOf_none hd]; rfl) hosts
  unfold HostIndex
  rw [hmacs]
  refine hix.forget (fun m => m = mac) (fun d => (hix.nodup d).erase mac) (fun d m => ?_) (fun m hm => ?_)
    (fun m hm => ?_) fun m => Iff.rfl
  · rw [(hix.nodup d).mem_erase_iff]
    exact and_comm
  · exact (hhosts m).trans (if_pos hm)
  · exact (hhosts m).trans (if_neg hm)

theorem HostIndex.move {stale : Bytes → Prop} (hix : HostIndex s stale) {mac : Bytes} {dpid : Nat} {u : Lcid}
    {hosts : Dict Bytes Lcid} {dps : Dict Nat Datapath} (hlisted : dpid ∈ s.datapath_list)
    (hhosts : ∀ m, hosts.get m = if m = mac then some u else s.host_to_lcid.get m)
    (hdps : SetMacs (fun d => if d = dpid then (macsOf s d).erase mac ++ [mac] else (macsOf s d).erase mac)
      s.datapath_list dps) :
    HostIndex { s with host_to_lcid := hosts, datapath_list := dps } fun m => stale m ∧ m ≠ mac := by
  have hmacs := hdps.macsOf (fun d hd => by
    have hne : d ≠ dpid := fun h => Dict.get_eq_none.mp hd (h ▸ hlisted)
    rw [if_neg hne, macsOf_none hd]; rfl) hosts
  unfold HostIndex
  rw [hmacs]
  have herase : ∀ d m, m ∈ (macsOf s d).erase mac ↔ m ∈ macsOf s d ∧ ¬ m = mac := fun d m => by
    rw [(hix.nodup d).mem_erase_iff]
    exact and_comm
  have hmid : Indexed (fun d => (macsOf s d).erase mac) (fun m => if m = mac then none else s.host_to_lcid.get m)
      fun m => stale m ∧ m ≠ mac :=
    hix.forget (fun m => m = mac) (fun d => (hix.nodup d).erase mac) herase (fun m hm => if_pos hm)
      (fun m hm => if_neg hm) fun m => Iff.rfl
  have hout : ∀ d, mac ∉ (macsOf s d).erase mac := fun d hm => ((herase d mac).mp hm).2 rfl
  refine hmid.put dpid mac (if_pos rfl) (fun d => ?_) (fun d m => ?_) ?_ fun m hm => ?_
  · split
    · exact (hmid.nodup d).append (List.nodup_singleton mac) (by simpa using hout d)
    · exact hmid.nodup d
  · by_cases hd : d = dpid <;> simp [hd]
  · rw [hhosts, if_pos rfl]
    exact Option.some_ne_none u
  · show hosts.get m = _
    rw [hhosts, if_neg hm, if_neg hm]

/-! ## Agreement over runs -/

/-- The index has what is listed, under the id of the home. -/
structure Agreed (s : AppManager env.nx.Graph) : Prop where
  index : HostIndex s fun _ => False
  owned : ∀ d m, m ∈ macsOf s d → s.host_to_lcid.get m = homeOf s d

theorem Agreed.congr {s' : AppManager env.nx.Graph} (h : Agreed s) (hmacs : macsOf s' = macsOf s)
    (hhosts : s'.host_to_lcid = s.host_to_lcid) (hhome : ∀ d, macsOf s d ≠ [] → homeOf s' d = homeOf s d) :
    Agreed s' where
  index := by
    unfold HostIndex
    rw [hmacs, hhosts]
    exact h.index
  owned d m hm := by
    rw [hmacs] at hm
    rw [hhosts, hhome d (List.ne_nil_of_mem hm)]
    exact h.owned d m hm

theorem listed_of_macsOf {d : Nat} (h : macsOf s d ≠ []) : ∃ dp, s.datapath_list.get d = some dp := by
  cases hget : s.datapath_list.get d with
  | none => exact absurd (macsOf_none hget) h
  | some dp => exact ⟨dp, rfl⟩

theorem Agreed.unmoved {s' : AppManager env.nx.Graph} (h : Agreed s) (hu : Unmoved s s') (hk : HomesKnown s)
    (hid : ∀ l i, (s.lcs l).id = some i → (s'.lcs l).id = some i) : Agreed s' := by
  refine h.congr (funext fun d => ?_) hu.hosts fun d hd => ?_
  · have hplace := congrArg (Option.map fun p => p.1) (hu.listed d)
    rw [Option.map_map, Option.map_map] at hplace
    unfold macsOf
    exact congrArg (fun o => o.getD []) hplace
  · obtain ⟨dp, hdp⟩ := listed_of_macsOf hd
    have hplace := hu.listed d
    rw [hdp, Option.map_some, Option.map_eq_some_iff] at hplace
    obtain ⟨dp', hdp', hplace⟩ := hplace
    have hhome : dp'.lc_home = dp.lc_home := congrArg (fun p => p.2.1) hplace
    obtain ⟨l, i, hl, hi⟩ := hk d dp hdp
    unfold homeOf
    rw [hdp, hdp', Option.bind_some, Option.bind_some, hhome, hl, Option.map_some, Option.map_some, hi, hid l i hi]

theorem agreed_close (lc : Nat) (h : Agreed s) : Agreed (s.close lc) := by
  refine h.congr rfl rfl fun d _ => ?_
  unfold homeOf
  simp only [close_id]
  rfl

theorem Agreed.purge (h : Agreed s) {dpid : Nat} {hosts : Dict Bytes Lcid} {dps : Dict Nat Datapath}
    (hhosts : ∀ m, hosts.get m = if m ∈ visited (macsOf s dpid) then none else s.host_to_lcid.get m)
    (hdps : SetMacs (fun d => if d = dpid then skipped (macsOf s d) else macsOf s d) s.datapath_list dps) :
    Agreed { s with host_to_lcid := hosts, datapath_list := dps } := by
  have hix := h.index.purge hhosts hdps
  refine ⟨hix, fun d m hm => ?_⟩
  have hmacs := hdps.macsOf (fun d hd => by rw [macsOf_none hd]; split <;> rfl) hosts
  have hsome : hosts.get m ≠ none := (hix.known m).mpr (Or.inl ⟨d, hm⟩)
  have hkeep : hosts.get m = s.host_to_lcid.get m := by
    rw [hhosts] at hsome ⊢
    split
    · rename_i hv
      rw [if_pos hv] at hsome
      exact absurd rfl hsome
    · rfl
  have hold : m ∈ macsOf s d := by
    rw [hmacs] at hm
    have hm' : m ∈ if d = dpid then skipped (macsOf s d) else macsOf s d := hm
    split at hm'
    · exact (skipped_sublist _).subset hm'
    · exact hm'
  exact hkeep.trans ((h.owned d m hold).trans (hdps.homeOf hosts d).symm)

theorem homeOf_sends (s : AppManager env.nx.Graph) (lc x : Nat) (msgs : List Sent) (d : Nat) :
    homeOf (sends s lc x msgs) d = homeOf s d := by
  unfold homeOf
  simp only [sends_id]
  rfl

theorem macsOf_homed (lc : Nat) {dpid : Nat} {dp : Datapath} (hdp : s.datapath_list.get dpid = some dp) :
    macsOf (homed s lc dpid dp) = macsOf s := by
  funext d
  have hmac : (dp.add_lc lc).mac = dp.mac := by unfold Datapath.add_lc; split <;> rfl
  unfold macsOf homed
  simp only [Dict.get_insert]
  split
  · rename_i hd
    rw [hd, hdp]
    exact hmac
  · rfl

theorem homeOf_homed {lc dpid : Nat} {dp : Datapath} (d : Nat) :
    homeOf (homed s lc dpid dp) d = if d = dpid then some (s.lcs lc).id else homeOf s d := by
  have hget : (homed s lc dpid dp).datapath_list.get d = if d = dpid then
      some { (dp.add_lc lc).set_home_lc lc with _generation_id := dp._generation_id + 1 } else s.datapath_list.get d :=
    Dict.get_insert ..
  unfold homeOf
  rw [hget]
  simp only [homed_id]
  split <;> rfl

theorem Agreed.homed (h : Agreed s) {lc dpid x : Nat} {dp : Datapath} {msgs : List Sent}
    (hdp : s.datapath_list.get dpid = some dp) (hsafe : dp.mac = [] ∨ homeOf s dpid = some (s.lcs lc).id) :
    Agreed (sends (homed s lc dpid dp) lc x msgs) := by
  have hmacs := macsOf_homed lc hdp
  refine h.congr hmacs rfl fun d hd => ?_
  rw [homeOf_sends, homeOf_homed]
  split
  · rename_i hd'
    subst hd'
    rcases hsafe with hnil | hhome
    · rw [macsOf_some hdp] at hd
      exact absurd hnil hd
    · exact hhome.symm
  · rfl

/-- The step does not make the two tables disagree. -/
def HostSafe {Γ : Type} (s : AppManager Γ) (r : Received) : Prop :=
  match r.ev.msg with
  | .DPConnected dpid _ => (macsOf s dpid).length ≤ 1 ∨ homeOf s dpid = some (s.lcs r.lc).id
  | .DatapathLeave dpid => (macsOf s dpid).length ≤ 1 ∨
      (s.datapath_list.get dpid).map (fun dp => dp.lc_connected.length) ≠ some 1
  | .HostConnected dpid _ => homeOf s dpid = some (s.lcs r.lc).id
  | .HostLeave dpid mac => mac ∉ s.host_to_lcid ∨ mac ∈ macsOf s dpid
  | _ => True

instance {Γ : Type} (s : AppManager Γ) : ∀ r, Decidable (HostSafe s r)
  | ⟨_, _, .DPConnected ..⟩ | ⟨_, _, .DatapathLeave _⟩ | ⟨_, _, .HostLeave ..⟩ => inferInstanceAs (Decidable (_ ∨ _))
  | ⟨_, _, .HostConnected ..⟩ => inferInstanceAs (Decidable (_ = _))
  | ⟨_, _, .HelloUp⟩ | ⟨_, _, .GraphInfo _⟩ | ⟨_, _, .GidRequest _⟩ | ⟨_, _, .PacketIn ..⟩ | ⟨_, _, .LoadReport ..⟩
  | ⟨_, _, .RoleNotify ..⟩ | ⟨_, _, .EchoReply _⟩ | ⟨_, _, .Error ..⟩ | ⟨_, _, .BarrierReply⟩ => isTrue trivial

theorem agreed_connected {lc dpid : Nat} (h : Agreed s)
    (hsafe : (macsOf s dpid).length ≤ 1 ∨ homeOf s dpid = some (s.lcs lc).id) :
    Always (_tflcp_datapath_connected_handler env lc dpid) s Agreed := by
  refine wp_datapath_connected (fun hnone => ?_) fun dp hdp => ?_
  · have hget : ∀ d, Dict.get (s.datapath_list.insert dpid { id := dpid }) d =
        if d = dpid then some { id := dpid } else s.datapath_list.get d := fun d => Dict.get_insert ..
    have hnew : Agreed { s with datapath_list := s.datapath_list.insert dpid { id := dpid } } := by
      refine h.congr (funext fun d => ?_) rfl fun d hd => ?_
      · unfold macsOf
        rw [hget]
        split
        · rename_i hd
          rw [hd, hnone]; rfl
        · rfl
      · have hne : d ≠ dpid := fun hd' => hd (macsOf_none (hd' ▸ hnone))
        unfold homeOf
        rw [hget, if_neg hne]
    refine wp_assignRole ((hget dpid).trans (if_pos rfl)) (wp_mono (always_send_msg lc none _ _) ?_ ?_)
    all_goals
      intro _ _ hpost
      obtain ⟨x, msgs, rfl, _⟩ := hpost
      exact hnew.homed ((hget dpid).trans (if_pos rfl)) (Or.inl rfl)
  · refine wp_purge h.index hdp fun hosts dps hhosts hdps => ?_
    have hpurged := h.purge hhosts hdps
    have hdp' := get_purged hdps hdp
    refine wp_assignRole hdp' (wp_mono (always_send_msg lc none _ _) ?_ ?_)
    all_goals
      intro _ _ hpost
      obtain ⟨x, msgs, rfl, _⟩ := hpost
      refine hpurged.homed hdp' ?_
      rw [hdps.homeOf]
      exact hsafe.imp (fun hlen => skipped_eq_nil_iff.mpr hlen) id

theorem agreed_leave {lc dpid : Nat} (h : Agreed s)
    (hsafe : (macsOf s dpid).length ≤ 1 ∨ (s.datapath_list.get dpid).map (fun dp => dp.lc_connected.length) ≠ some 1) :
    Always (_tflcp_datapath_leave_handler env lc dpid) s Agreed := by
  refine wp_datapath_leave (fun _ => h) fun dp hdp => ?_
  refine wp_purge h.index hdp fun hosts dps hhosts hdps => ?_
  have hpurged := h.purge hhosts hdps
  have hdp' := get_purged hdps hdp
  -- the lists of the other datapaths stay, and so does this one unless it has no host
  have hdropped : ∀ dps' role load win, (dps' = dps ∨ Dropped lc dpid dps dps') →
      Agreed { s with
        host_to_lcid := hosts
        datapath_list := dps'
        lcs := Function.update s.lcs lc { s.lcs lc with dpid_to_role := role, dpid_to_load := load, dp_win := win } } := by
    intro dps' role load win hdrop
    have hid : ∀ l, (Function.update s.lcs lc
        { s.lcs lc with dpid_to_role := role, dpid_to_load := load, dp_win := win } l).id = (s.lcs l).id :=
      update_proj LocalController.id (by rfl)
    have hkeep : ∀ d, ((dps'.get d).map Datapath.mac).getD [] = ((dps.get d).map Datapath.mac).getD [] ∧
        (((dps.get d).map Datapath.mac).getD [] ≠ [] →
          (dps'.get d).bind Datapath.lc_home = (dps.get d).bind Datapath.lc_home) := by
      intro d
      rcases hdrop with rfl | ⟨dp', hget, ⟨hlen, rfl⟩ | ⟨_, rfl⟩⟩
      · exact ⟨rfl, fun _ => rfl⟩
      · rw [hdp'] at hget
        cases hget
        rw [Dict.get_erase]
        by_cases hd : d = dpid
        · subst hd
          have hnil : skipped (macsOf s d) = [] := by
            refine skipped_eq_nil_iff.mpr (hsafe.resolve_right fun hne => hne ?_)
            rw [hdp, Option.map_some, hlen]
          rw [if_pos rfl, hdp', hnil]
          exact ⟨rfl, fun hne => absurd rfl hne⟩
        · rw [if_neg hd]
          exact ⟨rfl, fun _ => rfl⟩
      · rw [hdp'] at hget
        cases hget
        rw [Dict.get_insert]
        by_cases hd : d = dpid
        · subst hd
          rw [if_pos rfl, hdp']
          exact ⟨rfl, fun _ => rfl⟩
        · rw [if_neg hd]
          exact ⟨rfl, fun _ => rfl⟩
    refine hpurged.congr (funext fun d => (hkeep d).1) rfl fun d hd => ?_
    unfold homeOf
    simp only [hid]
    rw [(hkeep d).2 hd]
  refine wp_mono (always_dropDatapath lc dpid _) ?_ ?_
  · intro _ _ hpost
    obtain ⟨dps', role, load, win, rfl, _, _, hdrop⟩ := hpost
    have hs' := hdropped dps' role load win hdrop
    refine Always.mono (always_removeWindowEdges dpid _ _) ?_
    intro _ hpost
    obtain ⟨g, rfl, _⟩ := hpost
    exact ⟨hs'.index, hs'.owned⟩
  · intro _ _ hpost
    obtain ⟨dps', role, load, win, rfl, _, _, hdrop⟩ := hpost
    exact hdropped dps' role load win hdrop

theorem homeOf_listed {d : Nat} {u : Lcid} (h : homeOf s d = some u) : d ∈ s.datapath_list := by
  rw [Dict.mem_iff_get]
  cases hget : s.datapath_list.get d with
  | none => unfold homeOf at h; rw [hget] at h; cases h
  | some dp => exact ⟨dp, rfl⟩

theorem agreed_host_connected {lc dpid : Nat} {mac : Bytes} (h : Agreed s)
    (hsafe : homeOf s dpid = some (s.lcs lc).id) :
    Always (_tflcp_host_connected_handler env lc dpid mac) s Agreed := by
  have hlisted := homeOf_listed hsafe
  refine wp_host_connected h.index hlisted fun hosts dps hhosts hdps => ?_
  have hix := h.index.move hlisted hhosts hdps
  simp only [false_and] at hix
  refine ⟨hix, fun d m hm => ?_⟩
  rw [hdps.homeOf]
  rw [hdps.macsOf (fun d hd => by
    have hne : d ≠ dpid := fun hd' => Dict.get_eq_none.mp hd (hd' ▸ hlisted)
    rw [if_neg hne, macsOf_none hd]; rfl)] at hm
  have hm' : m ∈ if d = dpid then (macsOf s d).erase mac ++ [mac] else (macsOf s d).erase mac := hm
  show hosts.get m = homeOf s d
  rw [hhosts]
  by_cases hmac : m = mac
  · have hd : d = dpid := by
      by_contra hd
      rw [if_neg hd, hmac] at hm'
      exact ((h.index.nodup d).mem_erase_iff.mp hm').1 rfl
    rw [if_pos hmac, hd, hsafe]
  · rw [if_neg hmac]
    refine h.owned d m ?_
    split at hm'
    · rcases List.mem_append.mp hm' with hm' | hm'
      · exact List.mem_of_mem_erase hm'
      · exact absurd (List.mem_singleton.mp hm') hmac
    · exact List.mem_of_mem_erase hm'

theorem agreed_host_leave {dpid : Nat} {mac : Bytes} (h : Agreed s)
    (hsafe : mac ∉ s.host_to_lcid ∨ mac ∈ macsOf s dpid) :
    Always (_tflcp_host_leave_handler env dpid mac) s Agreed := by
  refine wp_host_leave h.index hsafe (fun hosts dps hhosts hdps => ?_) fun _ _ hosts hhosts => ?_
  · have hix := h.index.remove hhosts hdps
    simp only [false_and] at hix
    refine ⟨hix, fun d m hm => ?_⟩
    rw [hdps.homeOf]
    rw [hdps.macsOf fun d hd => by rw [macsOf_none hd]; rfl] at hm
    obtain ⟨hne, hmem⟩ := (h.index.nodup d).mem_erase_iff.mp hm
    exact (hhosts m).trans ((if_neg hne).trans (h.owned d m hmem))
  · have hsame : Dict.get hosts = Dict.get s.host_to_lcid := funext hhosts
    refine ⟨?_, fun d m hm => ?_⟩
    · show Indexed (macsOf s) (Dict.get hosts) _
      rw [hsame]
      exact h.index
    · exact (hhosts m).trans (h.owned d m hm)

theorem agreed_step {s : AppManager env.nx.Graph} {r : Received} (hreg : Registered s) (hk : HomesKnown s) (h : Agreed s)
    (hsafe : HostSafe s r) : Agreed (receive env s r) := by
  have hclose : ∀ s' : AppManager env.nx.Graph, Agreed s' → Agreed (s'.close r.lc) :=
    fun s' hs' => agreed_close r.lc hs'
  unfold HostSafe at hsafe
  cases hmsg : r.ev.msg with
  | DPConnected dpid w =>
    rw [hmsg] at hsafe
    refine receive_of_always _ hclose ?_
    unfold dispatch_event
    rw [hmsg]
    exact agreed_connected h hsafe
  | DatapathLeave dpid =>
    rw [hmsg] at hsafe
    refine receive_of_always _ hclose ?_
    unfold dispatch_event
    rw [hmsg]
    exact agreed_leave h hsafe
  | HostConnected dpid mac =>
    rw [hmsg] at hsafe
    refine receive_of_always _ hclose ?_
    unfold dispatch_event
    rw [hmsg]
    exact agreed_host_connected h hsafe
  | HostLeave dpid mac =>
    rw [hmsg] at hsafe
    refine receive_of_always _ hclose ?_
    unfold dispatch_event
    rw [hmsg]
    exact agreed_host_leave h hsafe
  | HelloUp | GidRequest | PacketIn | LoadReport | EchoReply | GraphInfo | RoleNotify | Error | BarrierReply =>
    have hu := unmoved_dispatch r.lc r.ev s (fun _ _ h => by rw [hmsg] at h; cases h)
      (fun _ h => by rw [hmsg] at h; cases h) (fun _ _ h => by rw [hmsg] at h; cases h)
      fun _ _ h => by rw [hmsg] at h; cases h
    have hrec : Unmoved s (receive env s r) :=
      receive_of_always _ (fun s' hs' => hs'.trans (unmoved_close s' r.lc)) hu
    exact h.unmoved hrec hk (registered_step r hreg).2

structure HostInv (s : AppManager env.nx.Graph) : Prop where
  registered : Registered s
  homes : HomesKnown s
  agreed : Agreed s

theorem hostInv_init (address : Nat → String × Nat) (xid : Nat → Nat) : HostInv (init env address xid) where
  registered := registered_init address xid
  homes := homesKnown_init address xid
  agreed := by
    refine ⟨⟨fun _ => List.nodup_nil, fun _ _ _ hk => ?_, fun m => ⟨fun hm => absurd rfl hm, ?_⟩, fun _ h => h.elim⟩,
      fun _ _ hm => ?_⟩
    · cases hk
    · intro hx
      rcases hx with ⟨d, hd⟩ | h
      · cases hd
      · exact h.elim
    · cases hm

theorem hostInv_step {s : AppManager env.nx.Graph} {r : Received} (h : HostInv s)
    (hr : Accepts env s r ∧ HostSafe s r) : HostInv (receive env s r) :=
  ⟨(registered_step r h.registered).1, homesKnown_step h.registered h.homes hr.1,
    agreed_step h.registered h.homes h.agreed hr.2⟩

/-- A MAC is a key exactly if one datapath lists it, and then under the id of the home. -/
def HostsAgree {Γ : Type} (s : AppManager Γ) : Prop :=
  ∀ mac, (mac ∈ s.host_to_lcid ↔ ∃! d, mac ∈ macsOf s d) ∧
    (mac ∈ s.host_to_lcid → ∀ d, mac ∈ macsOf s d → s.host_to_lcid.get mac = homeOf s d)

/-- **The host registry is consistent** after every run of safe steps. -/
theorem host_registry_agrees (env : Env) (address : Nat → String × Nat) (xid : Nat → Nat) (rs : List Received)
    (h : Allowed (receive env) (fun s r => Accepts env s r ∧ HostSafe s r) (init env address xid) rs) :
    HostsAgree (rs.foldl (receive env) (init env address xid)) := by
  have hinv := Allowed.invariant _ (fun _ _ => hostInv_step) (hostInv_init address xid) h
  intro mac
  refine ⟨?_, fun _ d hd => hinv.agreed.owned d mac hd⟩
  rw [← hinv.agreed.index.existsUnique mac, ne_eq, Dict.get_eq_none, not_not]

theorem host_registry_agrees_roaming :
    HostsAgree ([received 0 1 .HelloUp, received 1 1 .HelloUp, received 0 2 (.DPConnected 7 false),
        received 1 2 (.DPConnected 8 false), received 0 3 (.HostConnected 7 (List.replicate 17 97)),
        received 0 4 (.HostConnected 7 (List.replicate 17 98)), received 1 3 (.HostConnected 8 (List.replicate 17 97)),
        received 1 4 (.HostLeave 8 (List.replicate 17 97)), received 0 5 (.DatapathLeave 7)].foldl
      (receive (sampleEnv [])) (sampleInit [])) :=
  host_registry_agrees (sampleEnv []) _ _ _ (by decide)

/-- The switch gets a new home while two hosts are listed; the purge skips the second one. -/
theorem host_registry_agrees_skipped :
    Allowed (receive (sampleEnv [])) (Accepts (sampleEnv [])) (sampleInit [])
      [received 0 1 .HelloUp, received 1 1 .HelloUp, received 0 2 (.DPConnected 7 false),
        received 0 3 (.HostConnected 7 (List.replicate 17 97)), received 0 4 (.HostConnected 7 (List.replicate 17 98)),
        received 1 2 (.DPConnected 7 false)] ∧
    ¬ HostsAgree ([received 0 1 .HelloUp, received 1 1 .HelloUp, received 0 2 (.DPConnected 7 false),
        received 0 3 (.HostConnected 7 (List.replicate 17 97)), received 0 4 (.HostConnected 7 (List.replicate 17 98)),
        received 1 2 (.DPConnected 7 false)].foldl (receive (sampleEnv [])) (sampleInit [])) := by
  refine ⟨by decide, fun h => ?_⟩
  have := (h (List.replicate 17 98)).2 (by decide) 7 (by decide)
  exact absurd this (by decide)

end

end AppManager

end VnfDockerNet
