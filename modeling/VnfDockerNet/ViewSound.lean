import VnfDockerNet.InventorySound
import VnfDockerNet.HostSound
import VnfDockerNet.Network

/-!
# The central controller's view of a local controller

Switches and hosts have controllers of their own, and the messages of each
controller arrive in order. Then what the central controller has recorded under
an open connection is what its local controller had when it sent the last
message handled: the messages on their way, replayed on the view, give the
inventory of the local controller.
-/

namespace VnfDockerNet

open Python Networkx Runs Index

namespace AppManager

variable {env : Env} {D : Domains}

/-! ## Views -/

/-- What the central controller has recorded under the home `lc`. -/
def viewOf {Γ : Type} (s : AppManager Γ) (lc : Nat) : Inventory where
  switches := {d | ∃ dp, s.datapath_list.get d = some dp ∧ dp.lc_home = some lc}
  hosts := {x | ∃ dp, s.datapath_list.get x.2 = some dp ∧ dp.lc_home = some lc ∧ x.1 ∈ dp.mac}

def placeAt {Γ : Type} (s : AppManager Γ) (dpid : Nat) : Option (List Bytes × Option Nat × List Nat) :=
  (s.datapath_list.get dpid).map placeOf

/-- Switches are at their own controllers, with hosts of these controllers, which
the index has under the ids of the controllers. The index may have more. -/
structure Tables (D : Domains) (s : AppManager env.nx.Graph) : Prop where
  index : ∃ stale, HostIndex s stale
  owned : ∀ d m, m ∈ macsOf s d → s.host_to_lcid.get m = some (s.lcs (D.home d)).id
  placed : ∀ d p, placeAt s d = some p → p.2 = (some (D.home d), [D.home d]) ∧ ∀ m ∈ p.1, D.owner m = D.home d

section
variable {s s' : AppManager env.nx.Graph}

theorem macsOf_placeAt (s : AppManager env.nx.Graph) (d : Nat) : macsOf s d = ((placeAt s d).map fun p => p.1).getD [] := by
  unfold macsOf placeAt
  cases s.datapath_list.get d <;> rfl

theorem placeAt_some {d : Nat} {dp : Datapath} (h : s.datapath_list.get d = some dp) : placeAt s d = some (placeOf dp) := by
  unfold placeAt
  rw [h]
  rfl

theorem Tables.mem_switches (h : Tables D s) {d l : Nat} : d ∈ (viewOf s l).switches ↔ (placeAt s d).isSome ∧ D.home d = l := by
  constructor
  · rintro ⟨dp, hdp, hhome⟩
    have hplace := placeAt_some hdp
    have hp := (h.placed d _ hplace).1
    have hhome' : dp.lc_home = some (D.home d) := congrArg (fun p => p.1) hp
    rw [hhome] at hhome'
    cases hhome'
    exact ⟨by rw [hplace]; rfl, rfl⟩
  · rintro ⟨hsome, rfl⟩
    cases hdp : s.datapath_list.get d with
    | none =>
      unfold placeAt at hsome
      rw [hdp] at hsome
      cases hsome
    | some dp => exact ⟨dp, hdp, congrArg (fun p => p.1) (h.placed d _ (placeAt_some hdp)).1⟩

theorem Tables.mem_hosts (h : Tables D s) {d l : Nat} {m : Bytes} : (m, d) ∈ (viewOf s l).hosts ↔ m ∈ macsOf s d ∧ D.home d = l := by
  constructor
  · rintro ⟨dp, hdp, hhome, hm⟩
    have hp := (h.placed d _ (placeAt_some hdp)).1
    have hhome' : dp.lc_home = some (D.home d) := congrArg (fun p => p.1) hp
    rw [hhome] at hhome'
    cases hhome'
    exact ⟨by rw [macsOf_some hdp]; exact hm, rfl⟩
  · rintro ⟨hm, rfl⟩
    obtain ⟨dp, hdp⟩ := listed_of_macsOf (List.ne_nil_of_mem hm)
    rw [macsOf_some hdp] at hm
    exact ⟨dp, hdp, congrArg (fun p => p.1) (h.placed d _ (placeAt_some hdp)).1, hm⟩

theorem Tables.owner (h : Tables D s) {d : Nat} {m : Bytes} (hm : m ∈ macsOf s d) : D.owner m = D.home d := by
  obtain ⟨dp, hdp⟩ := listed_of_macsOf (List.ne_nil_of_mem hm)
  rw [macsOf_some hdp] at hm
  exact (h.placed d _ (placeAt_some hdp)).2 m hm

theorem view_ext {i : Inventory} {l : Nat} (h' : Tables D s')
    (hswitches : ∀ d, (placeAt s' d).isSome ∧ D.home d = l ↔ d ∈ i.switches)
    (hhosts : ∀ m d, m ∈ macsOf s' d ∧ D.home d = l ↔ (m, d) ∈ i.hosts) : viewOf s' l = i := by
  refine Inventory.ext (Set.ext fun d => ?_) (Set.ext fun x => ?_)
  · rw [h'.mem_switches]
    exact hswitches d
  · obtain ⟨m, d⟩ := x
    rw [h'.mem_hosts]
    exact hhosts m d

theorem Tables.same (h : Tables D s) (hplace : ∀ d, placeAt s' d = placeAt s d) (hhosts : s'.host_to_lcid = s.host_to_lcid)
    (hid : ∀ d, (placeAt s d).isSome → (s'.lcs (D.home d)).id = (s.lcs (D.home d)).id) :
    Tables D s' ∧ viewOf s' = viewOf s := by
  have hmacs : macsOf s' = macsOf s := funext fun d => by rw [macsOf_placeAt, macsOf_placeAt, hplace]
  have htables : Tables D s' := by
    refine ⟨?_, fun d m hm => ?_, fun d p hp => ?_⟩
    · obtain ⟨stale, hix⟩ := h.index
      refine ⟨stale, ?_⟩
      unfold HostIndex
      rw [hmacs, hhosts]
      exact hix
    · rw [hmacs] at hm
      have hsome : (placeAt s d).isSome := by
        obtain ⟨dp, hdp⟩ := listed_of_macsOf (List.ne_nil_of_mem hm)
        rw [placeAt_some hdp]
        rfl
      rw [hhosts, hid d hsome]
      exact h.owned d m hm
    · rw [hplace] at hp
      exact h.placed d p hp
  refine ⟨htables, funext fun l => view_ext htables (fun d => ?_) fun m d => ?_⟩
  · rw [hplace, h.mem_switches]
  · rw [hmacs, h.mem_hosts]

theorem Tables.unmoved (h : Tables D s) (hk : HomesKnown s) (hu : Unmoved s s')
    (hid : ∀ l i, (s.lcs l).id = some i → (s'.lcs l).id = some i) : Tables D s' ∧ viewOf s' = viewOf s := by
  refine h.same hu.listed hu.hosts fun d hsome => ?_
  cases hdp : s.datapath_list.get d with
  | none =>
    unfold placeAt at hsome
    rw [hdp] at hsome
    cases hsome
  | some dp =>
    obtain ⟨l, i, hl, hi⟩ := hk d dp hdp
    have hhome : dp.lc_home = some (D.home d) := congrArg (fun p => p.1) (h.placed d _ (placeAt_some hdp)).1
    rw [hl] at hhome
    cases hhome
    rw [hi, hid _ i hi]

/-! ## Messages -/

/-- The tables are kept, and the views of the other controllers. -/
structure Apart (D : Domains) (lc : Nat) (s s' : AppManager env.nx.Graph) : Prop where
  tables : Tables D s'
  others : ∀ l, l ≠ lc → viewOf s' l = viewOf s l

structure Takes (D : Domains) (lc : Nat) (msg : MsgUp) (s s' : AppManager env.nx.Graph) : Prop extends Apart D lc s s' where
  own : viewOf s' lc = (viewOf s lc).after msg

variable {lc dpid : Nat} {mac : Bytes}

theorem Tables.joined (h : Tables D s) (w : Bool) (hhome : D.home dpid = lc) (hnil : macsOf s dpid = [])
    (hplace : ∀ d, placeAt s' d = if d = dpid then some ([], some lc, [lc]) else placeAt s d)
    (hhosts : s'.host_to_lcid = s.host_to_lcid) (hid : ∀ l, (s'.lcs l).id = (s.lcs l).id) :
    Takes D lc (.DPConnected dpid w) s s' := by
  have hmacs : macsOf s' = macsOf s := by
    funext d
    rw [macsOf_placeAt, hplace]
    by_cases hd : d = dpid
    · rw [if_pos hd, hd, hnil]
      rfl
    · rw [if_neg hd, ← macsOf_placeAt]
  have htables : Tables D s' := by
    refine ⟨?_, fun d m hm => ?_, fun d p hp => ?_⟩
    · obtain ⟨stale, hix⟩ := h.index
      refine ⟨stale, ?_⟩
      unfold HostIndex
      rw [hmacs, hhosts]
      exact hix
    · rw [hmacs] at hm
      rw [hhosts, hid]
      exact h.owned d m hm
    · rw [hplace] at hp
      by_cases hd : d = dpid
      · rw [if_pos hd] at hp
        cases hp
        rw [hd, hhome]
        exact ⟨rfl, fun m hm => absurd hm List.not_mem_nil⟩
      · rw [if_neg hd] at hp
        exact h.placed d p hp
  refine ⟨⟨htables, fun l hl => view_ext htables (fun d => ?_) fun m d => ?_⟩, view_ext htables (fun d => ?_) fun m d => ?_⟩
  · rw [hplace, h.mem_switches]
    by_cases hd : d = dpid
    · subst hd
      exact ⟨fun hx => absurd (hx.2.symm.trans hhome) hl, fun hx => absurd (hx.2.symm.trans hhome) hl⟩
    · rw [if_neg hd]
  · rw [hmacs, h.mem_hosts]
  · show _ ↔ d = dpid ∨ d ∈ (viewOf s lc).switches
    rw [hplace, h.mem_switches]
    by_cases hd : d = dpid
    · rw [if_pos hd, hd]
      exact ⟨fun _ => Or.inl rfl, fun _ => ⟨rfl, hhome⟩⟩
    · rw [if_neg hd]
      exact (or_iff_right hd).symm
  · rw [hmacs, ← h.mem_hosts]
    exact Iff.rfl

theorem placeAt_homed {dp : Datapath} (d : Nat) : placeAt (homed s lc dpid dp) d =
    if d = dpid then some (dp.mac, some lc, (dp.add_lc lc).lc_connected) else placeAt s d := by
  have hmac : (dp.add_lc lc).mac = dp.mac := by unfold Datapath.add_lc; split <;> rfl
  unfold placeAt homed
  simp only [Dict.get_insert]
  split
  · exact congrArg some (congrArg (·, some lc, (dp.add_lc lc).lc_connected) hmac)
  · rfl

theorem view_connected (h : Tables D s) (w : Bool) (hhome : D.home dpid = lc)
    (hempty : ∀ mac, (mac, dpid) ∉ (viewOf s lc).hosts) :
    Always (_tflcp_datapath_connected_handler env lc dpid) s (Takes D lc (.DPConnected dpid w) s) := by
  have hnil : macsOf s dpid = [] := by
    rw [List.eq_nil_iff_forall_not_mem]
    exact fun m hm => hempty m (h.mem_hosts.mpr ⟨hm, hhome⟩)
  refine wp_datapath_connected (fun hnone => ?_) fun dp hdp => ?_
  · have hget : ∀ d, Dict.get (s.datapath_list.insert dpid { id := dpid }) d =
        if d = dpid then some { id := dpid } else s.datapath_list.get d := fun d => Dict.get_insert ..
    refine wp_assignRole ((hget dpid).trans (if_pos rfl)) (Always.mono (always_send_msg lc none _ _) fun _ hpost => ?_)
    obtain ⟨x, msgs, rfl, -⟩ := hpost
    refine h.joined w hhome hnil (fun d => ?_) rfl fun l => ?_
    · show placeAt (homed _ lc dpid _) d = _
      rw [placeAt_homed]
      by_cases hd : d = dpid
      · rw [if_pos hd, if_pos hd]
        rfl
      · rw [if_neg hd, if_neg hd]
        unfold placeAt
        rw [hget, if_neg hd]
    · rw [sends_id, homed_id]
  · have hmac : dp.mac = [] := by rw [← macsOf_some hdp]; exact hnil
    have hplace := (h.placed dpid _ (placeAt_some hdp)).1
    rw [hhome] at hplace
    have hconn : dp.lc_connected = [lc] := congrArg (fun p => p.2) hplace
    have hadd : dp.add_lc lc = dp := if_pos (by rw [hconn]; exact List.mem_singleton_self lc)
    rw [hmac]
    refine wp_assignRole hdp (Always.mono (always_send_msg lc none _ _) fun _ hpost => ?_)
    obtain ⟨x, msgs, rfl, -⟩ := hpost
    refine h.joined w hhome hnil (fun d => ?_) rfl fun l => ?_
    · show placeAt (homed _ lc dpid _) d = _
      rw [placeAt_homed, hmac, hadd, hconn]
    · rw [sends_id, homed_id]

theorem placeAt_setMacs {macs : Nat → List Bytes} (hosts : Dict Bytes Lcid) {dps : Dict Nat Datapath}
    (h : SetMacs macs s.datapath_list dps) (d : Nat) :
    placeAt { s with host_to_lcid := hosts, datapath_list := dps } d = (placeAt s d).map fun p => (macs d, p.2) := by
  show (dps.get d).map placeOf = ((s.datapath_list.get d).map placeOf).map _
  rw [h d]
  cases s.datapath_list.get d <;> rfl

theorem Tables.moved (h : Tables D s) (lc : Nat) {macs : Nat → List Bytes} {hosts : Dict Bytes Lcid} {dps : Dict Nat Datapath}
    (hdps : SetMacs macs s.datapath_list dps) (hnil : ∀ d, s.datapath_list.get d = none → macs d = [])
    (hindex : ∃ stale, HostIndex { s with host_to_lcid := hosts, datapath_list := dps } stale)
    (howned : ∀ d m, m ∈ macs d → hosts.get m = some (s.lcs (D.home d)).id)
    (howner : ∀ d m, m ∈ macs d → D.owner m = D.home d) (i : Inventory) (hswitches : i.switches = (viewOf s lc).switches)
    (hmacs : ∀ m d, m ∈ macs d ∧ D.home d = lc ↔ (m, d) ∈ i.hosts)
    (hother : ∀ d, D.home d ≠ lc → ∀ m, m ∈ macs d ↔ m ∈ macsOf s d) :
    Apart D lc s { s with host_to_lcid := hosts, datapath_list := dps } ∧
      viewOf { s with host_to_lcid := hosts, datapath_list := dps } lc = i := by
  have hmacsOf := hdps.macsOf hnil hosts
  have hplace := placeAt_setMacs hosts hdps
  have hsome : ∀ d, (placeAt { s with host_to_lcid := hosts, datapath_list := dps } d).isSome = (placeAt s d).isSome := by
    intro d
    rw [hplace, Option.isSome_map]
  have htables : Tables D { s with host_to_lcid := hosts, datapath_list := dps } := by
    refine ⟨hindex, fun d m hm => ?_, fun d p hp => ?_⟩
    · rw [hmacsOf] at hm
      exact howned d m hm
    · rw [hplace, Option.map_eq_some_iff] at hp
      obtain ⟨p₀, hp₀, rfl⟩ := hp
      exact ⟨(h.placed d p₀ hp₀).1, fun m hm => howner d m hm⟩
  refine ⟨⟨htables, fun l hl => view_ext htables (fun d => ?_) fun m d => ?_⟩, view_ext htables (fun d => ?_) fun m d => ?_⟩
  · rw [hsome, h.mem_switches]
  · rw [hmacsOf, h.mem_hosts]
    by_cases hd : D.home d = l
    · rw [hother d fun hlc => hl (hd.symm.trans hlc)]
    · exact ⟨fun hx => absurd hx.2 hd, fun hx => absurd hx.2 hd⟩
  · rw [hsome, hswitches, h.mem_switches]
  · rw [hmacsOf]
    exact hmacs m d

theorem view_host_connected (h : Tables D s) (howner : D.owner mac = lc) (hlisted : dpid ∈ (viewOf s lc).switches)
    (hnew : ∀ d, (mac, d) ∉ (viewOf s lc).hosts) :
    Always (_tflcp_host_connected_handler env lc dpid mac) s (Takes D lc (.HostConnected dpid mac) s) := by
  obtain ⟨hsome, hhome⟩ := h.mem_switches.mp hlisted
  have hin : dpid ∈ s.datapath_list := by
    rw [Dict.mem_iff_get]
    obtain ⟨dp, hdp, -⟩ := hlisted
    exact ⟨dp, hdp⟩
  have hnowhere : ∀ d, mac ∉ macsOf s d := by
    intro d hm
    exact hnew d (h.mem_hosts.mpr ⟨hm, (h.owner hm).symm.trans howner⟩)
  obtain ⟨stale, hix⟩ := h.index
  refine wp_host_connected hix hin fun hosts dps hhosts hdps => ?_
  have hmem : ∀ d m, (m ∈ if d = dpid then (macsOf s d).erase mac ++ [mac] else (macsOf s d).erase mac) ↔
      d = dpid ∧ m = mac ∨ m ∈ macsOf s d := by
    intro d m
    rw [List.erase_of_not_mem (hnowhere d)]
    by_cases hd : d = dpid
    · rw [if_pos hd, List.mem_append, List.mem_singleton]
      tauto
    · rw [if_neg hd]
      tauto
  have hnil : ∀ d, s.datapath_list.get d = none →
      (if d = dpid then (macsOf s d).erase mac ++ [mac] else (macsOf s d).erase mac) = [] := by
    intro d hd
    have hne : d ≠ dpid := fun hd' => Dict.get_eq_none.mp hd (hd' ▸ hin)
    rw [if_neg hne, macsOf_none hd]
    rfl
  have howned : ∀ d m, (m ∈ if d = dpid then (macsOf s d).erase mac ++ [mac] else (macsOf s d).erase mac) →
      hosts.get m = some (s.lcs (D.home d)).id := by
    intro d m hm
    rw [hhosts]
    rcases (hmem d m).mp hm with ⟨rfl, rfl⟩ | hm
    · rw [if_pos rfl, hhome]
    · rw [if_neg (ne_of_mem_of_not_mem hm (hnowhere d))]
      exact h.owned d m hm
  have howners : ∀ d m, (m ∈ if d = dpid then (macsOf s d).erase mac ++ [mac] else (macsOf s d).erase mac) →
      D.owner m = D.home d := by
    intro d m hm
    rcases (hmem d m).mp hm with ⟨rfl, rfl⟩ | hm
    · exact howner.trans hhome.symm
    · exact h.owner hm
  obtain ⟨hapart, hown⟩ := h.moved lc hdps hnil ⟨_, hix.move hin hhosts hdps⟩ howned howners
    ((viewOf s lc).after (.HostConnected dpid mac)) rfl
    (by
      intro m d
      show _ ↔ (m, d) = (mac, dpid) ∨ (m, d) ∈ (viewOf s lc).hosts
      rw [hmem, h.mem_hosts, Prod.mk.injEq]
      constructor
      · rintro ⟨⟨rfl, rfl⟩ | hm, hd⟩
        · exact Or.inl ⟨rfl, rfl⟩
        · exact Or.inr ⟨hm, hd⟩
      · rintro (⟨rfl, rfl⟩ | ⟨hm, hd⟩)
        · exact ⟨Or.inl ⟨rfl, rfl⟩, hhome⟩
        · exact ⟨Or.inr hm, hd⟩)
    (by
      intro d hd m
      rw [hmem]
      refine or_iff_right fun hx => hd ?_
      rw [hx.1, hhome])
  exact ⟨hapart, hown⟩

theorem view_host_leave (h : Tables D s) (hlisted : (mac, dpid) ∈ (viewOf s lc).hosts) :
    Always (_tflcp_host_leave_handler env dpid mac) s (Takes D lc (.HostLeave dpid mac) s) := by
  obtain ⟨hat, hhome⟩ := h.mem_hosts.mp hlisted
  obtain ⟨stale, hix⟩ := h.index
  refine wp_host_leave hix (Or.inr hat) (fun hosts dps hhosts hdps => ?_) fun hout => ?_
  · have hmem : ∀ d m, m ∈ (macsOf s d).erase mac ↔ m ≠ mac ∧ m ∈ macsOf s d := fun d m => (hix.nodup d).mem_erase_iff
    have howned : ∀ d m, m ∈ (macsOf s d).erase mac → hosts.get m = some (s.lcs (D.home d)).id := by
      intro d m hm
      obtain ⟨hne, hm⟩ := (hmem d m).mp hm
      rw [hhosts, if_neg hne]
      exact h.owned d m hm
    obtain ⟨hapart, hown⟩ := h.moved lc hdps
      (fun d hd => by rw [macsOf_none hd]; rfl) ⟨_, hix.remove hhosts hdps⟩ howned
      (fun d m hm => h.owner ((hmem d m).mp hm).2) ((viewOf s lc).after (.HostLeave dpid mac)) rfl
      (by
        intro m d
        show _ ↔ (m, d) ∈ (viewOf s lc).hosts ∧ ¬ (m, d) = (mac, dpid)
        rw [hmem, h.mem_hosts, Prod.mk.injEq]
        constructor
        · rintro ⟨⟨hne, hm⟩, hd⟩
          exact ⟨⟨hm, hd⟩, fun hx => hne hx.1⟩
        · rintro ⟨⟨hm, hd⟩, hne⟩
          refine ⟨⟨fun hx => hne ⟨hx, ?_⟩, hm⟩, hd⟩
          rw [hx] at hm
          exact hix.single d dpid mac hm hat)
      (by
        intro d hd m
        rw [hmem]
        refine and_iff_right_of_imp fun hm hx => hd ?_
        rw [hx] at hm
        rw [hix.single d dpid mac hm hat, hhome])
    exact ⟨hapart, hown⟩
  · obtain ⟨dp, hdp⟩ := listed_of_macsOf (List.ne_nil_of_mem hat)
    exact absurd (Dict.mem_iff_get.mpr ⟨dp, hdp⟩) hout

theorem Tables.left (h : Tables D s) (hhome : D.home dpid = lc)
    (hplace : ∀ d, placeAt s' d = if d = dpid then none else placeAt s d)
    (hindex : ∃ stale, HostIndex s' stale) (hhosts : ∀ d m, d ≠ dpid → m ∈ macsOf s d → s'.host_to_lcid.get m = s.host_to_lcid.get m)
    (hid : ∀ l, (s'.lcs l).id = (s.lcs l).id) : Takes D lc (.DatapathLeave dpid) s s' := by
  have hmacs : ∀ d, macsOf s' d = if d = dpid then [] else macsOf s d := by
    intro d
    rw [macsOf_placeAt, hplace, macsOf_placeAt]
    by_cases hd : d = dpid
    · rw [if_pos hd, if_pos hd]
      rfl
    · rw [if_neg hd, if_neg hd]
  have hmem : ∀ m d, m ∈ macsOf s' d ↔ d ≠ dpid ∧ m ∈ macsOf s d := by
    intro m d
    rw [hmacs]
    by_cases hd : d = dpid
    · simp [hd]
    · simp [hd]
  have hsome : ∀ d, (placeAt s' d).isSome ↔ d ≠ dpid ∧ (placeAt s d).isSome := by
    intro d
    rw [hplace]
    by_cases hd : d = dpid
    · simp [hd]
    · simp [hd]
  have htables : Tables D s' := by
    refine ⟨hindex, fun d m hm => ?_, fun d p hp => ?_⟩
    · obtain ⟨hd, hm⟩ := (hmem m d).mp hm
      rw [hhosts d m hd hm, hid]
      exact h.owned d m hm
    · rw [hplace] at hp
      by_cases hd : d = dpid
      · rw [if_pos hd] at hp
        cases hp
      · rw [if_neg hd] at hp
        exact h.placed d p hp
  refine ⟨⟨htables, fun l hl => view_ext htables (fun d => ?_) fun m d => ?_⟩, view_ext htables (fun d => ?_) fun m d => ?_⟩
  · rw [hsome, h.mem_switches, and_assoc]
    refine and_iff_right_of_imp fun hx hd => hl ?_
    rw [← hx.2, hd, hhome]
  · rw [hmem, h.mem_hosts, and_assoc]
    refine and_iff_right_of_imp fun hx hd => hl ?_
    rw [← hx.2, hd, hhome]
  · show _ ↔ d ∈ (viewOf s lc).switches ∧ d ≠ dpid
    rw [hsome, h.mem_switches, and_assoc, and_comm]
  · show _ ↔ (m, d) ∈ (viewOf s lc).hosts ∧ d ≠ dpid
    rw [hmem, h.mem_hosts, and_assoc, and_comm]

theorem placeAt_dropped (s : AppManager env.nx.Graph) (lc dpid : Nat) {dp : Datapath} (hlen : dp.lc_connected.length = 1) (d : Nat) :
    placeAt (dropped s lc dpid dp) d = if d = dpid then none else placeAt s d := by
  unfold placeAt dropped
  simp only [if_pos hlen]
  rw [Dict.get_erase]
  split <;> rfl

theorem dropped_id (dp : Datapath) (l : Nat) : ((dropped s lc dpid dp).lcs l).id = (s.lcs l).id :=
  update_proj LocalController.id (by rfl) l

theorem view_leave (h : Tables D s) (hconn : Connections s) (hlisted : dpid ∈ (viewOf s lc).switches) :
    Always (_tflcp_datapath_leave_handler env lc dpid) s (Takes D lc (.DatapathLeave dpid) s) := by
  obtain ⟨hsome, hhome⟩ := h.mem_switches.mp hlisted
  obtain ⟨stale, hix⟩ := h.index
  refine wp_datapath_leave (fun hnone => ?_) fun dp hdp => ?_
  · unfold placeAt at hsome
    rw [hnone] at hsome
    cases hsome
  · have hplace := (h.placed dpid _ (placeAt_some hdp)).1
    rw [hhome] at hplace
    have hsingle : dp.lc_connected = [lc] := congrArg (fun p => p.2) hplace
    have hin : lc ∈ dp.lc_connected := by
      rw [hsingle]
      exact List.mem_singleton_self lc
    have hknows := (hconn dpid dp hdp).2 lc hin
    refine wp_purge hix hdp fun hosts dps hhosts hdps => ?_
    have hdp' := get_purged hdps hdp
    refine wp_dropDatapath hdp' hin hknows.1 hknows.2 ?_
    refine Always.mono (always_removeWindowEdges dpid _ _) ?_
    rintro _ ⟨g, rfl, -⟩
    have hlen : ({ dp with mac := skipped (macsOf s dpid) } : Datapath).lc_connected.length = 1 := by
      rw [hsingle]
      rfl
    have hplaces := placeAt_dropped { s with host_to_lcid := hosts, datapath_list := dps } lc dpid hlen
    have hpurged := placeAt_setMacs hosts hdps
    refine h.left hhome (fun d => ?_) ?_ (fun d m hd hm => ?_) fun l => dropped_id { dp with mac := skipped (macsOf s dpid) } l
    · refine (hplaces d).trans ?_
      by_cases hd : d = dpid
      · rw [if_pos hd, if_pos hd]
      · rw [if_neg hd, if_neg hd, hpurged, if_neg hd]
        unfold placeAt macsOf
        cases s.datapath_list.get d <;> rfl
    · -- what the purge skipped stays in the index
      have hix' := hix.purge hhosts hdps
      refine ⟨fun m => stale m ∨ m ∈ macsOf { s with host_to_lcid := hosts, datapath_list := dps } dpid,
        hix'.drop dpid (fun d => ?_) fun m => Iff.rfl⟩
      refine (macsOf_placeAt _ d).trans ((congrArg (fun p => (Option.map (fun p => p.1) p).getD []) (hplaces d)).trans ?_)
      by_cases hd : d = dpid
      · rw [if_pos hd, if_pos hd]
        rfl
      · rw [if_neg hd, if_neg hd]
        exact (macsOf_placeAt _ d).symm
    · show hosts.get m = _
      rw [hhosts, if_neg]
      intro hv
      exact hd (hix.single d dpid m hm (mem_visited_or_skipped.mpr (Or.inl hv)))

theorem Takes.close {msg : MsgUp} (hk : HomesKnown s') (h : Takes D lc msg s s') (l : Nat) : Takes D lc msg s (s'.close l) := by
  obtain ⟨htables, hview⟩ := h.tables.unmoved hk (unmoved_close s' l) fun l' i hi => by rw [close_id]; exact hi
  refine ⟨⟨htables, fun l' hl' => ?_⟩, ?_⟩
  · rw [hview]
    exact h.others l' hl'
  · rw [hview]
    exact h.own

/-! ### Every message -/

/-- What every run keeps. -/
structure ViewInv (D : Domains) (s : AppManager env.nx.Graph) : Prop where
  registered : Registered s
  homes : HomesKnown s
  connections : Connections s
  tables : Tables D s

theorem viewInv_init (address : Nat → String × Nat) (xid : Nat → Nat) : ViewInv D (init env address xid) where
  registered := registered_init address xid
  homes := homesKnown_init address xid
  connections d dp hdp := by
    have hdp' : (∅ : Dict Nat Datapath).get d = some dp := hdp
    rw [Dict.get_empty] at hdp'
    cases hdp'
  tables := by
    refine ⟨⟨fun _ => False, (hostInv_init address xid).agreed.index⟩, fun d m hm => ?_, fun d p hp => ?_⟩
    · cases hm
    · have hp' : (Dict.get (∅ : Dict Nat Datapath) d).map placeOf = some p := hp
      rw [Dict.get_empty] at hp'
      cases hp'

theorem takes_receive {r : Received} (h : ViewInv D s) (hacc : Accepts env s r)
    (hfits : Inventory.Fits D r.lc (viewOf s r.lc) r.ev.msg) :
    ViewInv D (receive env s r) ∧ Takes D r.lc r.ev.msg s (receive env s r) := by
  obtain ⟨hreg, hids⟩ := registered_step r h.registered
  have hhomes := homesKnown_step h.registered h.homes hacc
  have hconn := connections_step r h.connections
  suffices htakes : Takes D r.lc r.ev.msg s (receive env s r) from ⟨⟨hreg, hhomes, hconn, htakes.tables⟩, htakes⟩
  -- what the handler leaves, the end of the connection leaves
  have hreceive : Always (dispatch_event env r.lc r.ev) s (Takes D r.lc r.ev.msg s) → Takes D r.lc r.ev.msg s (receive env s r) := by
    intro hd
    unfold Always wp at hd
    unfold receive at hhomes ⊢
    cases hx : dispatch_event env r.lc r.ev s with
    | ok a s' =>
      rw [hx] at hd
      exact hd
    | error e s' =>
      rw [hx] at hd hhomes
      have hsame : ∀ l, (s'.lcs l).id = ((s'.close r.lc).lcs l).id := fun l => (close_id r.lc l).symm
      refine hd.close (fun d dp hdp => ?_) r.lc
      obtain ⟨l, i, hl, hi⟩ := hhomes d dp hdp
      exact ⟨l, i, hl, (hsame l).trans hi⟩
  cases hmsg : r.ev.msg with
  | DPConnected dpid w =>
    rw [hmsg] at hfits hreceive
    refine hreceive ?_
    unfold dispatch_event
    rw [hmsg]
    exact view_connected h.tables w hfits.1 hfits.2
  | DatapathLeave dpid =>
    rw [hmsg] at hfits hreceive
    refine hreceive ?_
    unfold dispatch_event
    rw [hmsg]
    exact view_leave h.tables h.connections hfits
  | HostConnected dpid mac =>
    rw [hmsg] at hfits hreceive
    refine hreceive ?_
    unfold dispatch_event
    rw [hmsg]
    exact view_host_connected h.tables hfits.1 hfits.2.1 hfits.2.2
  | HostLeave dpid mac =>
    rw [hmsg] at hfits hreceive
    refine hreceive ?_
    unfold dispatch_event
    rw [hmsg]
    exact view_host_leave h.tables hfits
  | HelloUp | GidRequest | PacketIn | LoadReport | EchoReply | GraphInfo | RoleNotify | Error | BarrierReply =>
    have hu := unmoved_dispatch r.lc r.ev s (fun _ _ h => by rw [hmsg] at h; cases h)
      (fun _ h => by rw [hmsg] at h; cases h) (fun _ _ h => by rw [hmsg] at h; cases h)
      fun _ _ h => by rw [hmsg] at h; cases h
    have hrec : Unmoved s (receive env s r) :=
      receive_of_always _ (fun s' hs' => hs'.trans (unmoved_close s' r.lc)) hu
    obtain ⟨htables, hview⟩ := h.tables.unmoved h.homes hrec hids
    refine ⟨⟨htables, fun l _ => congrFun hview l⟩, ?_⟩
    rw [hview]
    rfl

end

end AppManager

/-! ## The network -/

namespace Network

open Layer2Switch AppManager

variable {cenv : Env} {env : Nat → LocalEnv} {D : Domains}

/-- What controller `lc` has sent and the central controller has not handled yet. -/
def onTheWay (a : Network cenv env) (lc : Nat) : List MsgUp := (a.up.filter fun u => u.lc = lc).map fun u => u.buf.msg

/-- Each controller has switches and hosts of its own, and its messages are
handled in order, as long as its connection is open. -/
def Orderly (D : Domains) (a : Network cenv env) : NetTurn → Prop
  | .app lc e => Lawful (env lc) (a.locals lc) e ∧ Sized e ∧ Belongs D lc (a.locals lc) e
  | .central i => ∀ u ∈ a.up[i]?, (∀ u' ∈ a.up.take i, u'.lc ≠ u.lc) ∧
      Accepts cenv a.central ⟨u.lc, u.buf.event (env u.lc).host⟩
  | .deliver .. => True

instance (a : Network cenv env) : ∀ t, Decidable (Orderly D a t)
  | .app .. => inferInstanceAs (Decidable (_ ∧ _ ∧ _))
  | .central i => inferInstanceAs (Decidable (∀ u ∈ a.up[i]?, (∀ u' ∈ a.up.take i, u'.lc ≠ u.lc) ∧ _))
  | .deliver .. => isTrue trivial

structure Followed (D : Domains) (a : Network cenv env) : Prop where
  central : ViewInv D a.central
  local_inv : ∀ lc, Layer2Switch.HostInv (a.locals lc) ∧ ∀ d ∈ (a.locals lc).datapaths, d < 2 ^ 64
  fits : ∀ lc, Allowed Inventory.after (Inventory.Fits D lc) (viewOf a.central lc) (onTheWay a lc)
  view : ∀ lc, (onTheWay a lc).foldl Inventory.after (viewOf a.central lc) = inventoryOf (a.locals lc)

variable {a : Network cenv env}

/-! ### A local controller goes on -/

theorem map_fresh {Γ : Type} (lc : Nat) {s s' : Layer2Switch Γ} {new : List SentUp} (h : s'.sent = s.sent ++ new) :
    (fresh lc s s').map (fun u => u.buf.msg) = new.map SentUp.msg ∧ ∀ u ∈ fresh lc s s', u.lc = lc := by
  refine ⟨?_, fun u hu => (sent_of_mem_fresh hu).1⟩
  have hzip : (s'.sent.zipIdx.drop s.sent.length).map Prod.fst = new := by
    rw [List.map_drop, List.zipIdx_map_fst, h, List.drop_left]
  unfold fresh
  rw [List.map_map, ← hzip, List.map_map]
  rfl

theorem onTheWay_settle (a : Network cenv env) (lc : Nat) {s' : Layer2Switch (env lc).nx.Graph} {new : List SentUp}
    (h : s'.sent = (a.locals lc).sent ++ new) (l : Nat) :
    onTheWay (a.settle lc s') l = onTheWay a l ++ if l = lc then new.map SentUp.msg else [] := by
  obtain ⟨hmap, hlc⟩ := map_fresh lc h
  unfold onTheWay settle
  rw [List.filter_append, List.map_append]
  congr 1
  by_cases hl : l = lc
  · rw [if_pos hl, ← hmap, List.filter_eq_self.mpr]
    intro u hu
    rw [hlc u hu, hl]
    exact decide_eq_true rfl
  · rw [if_neg hl, List.filter_eq_nil_iff.mpr]
    · rfl
    · intro u hu
      rw [hlc u hu, decide_eq_true_eq]
      exact fun he => hl he.symm

theorem followed_settle (h : Followed D a) {lc : Nat} {s' : Layer2Switch (env lc).nx.Graph}
    (htold : Told D lc (a.locals lc) s') (hinv : Layer2Switch.HostInv s') (hsize : ∀ d ∈ s'.datapaths, d < 2 ^ 64) :
    Followed D (a.settle lc s') := by
  obtain ⟨new, hsent, hfits, hafter⟩ := htold
  have hway := onTheWay_settle a lc hsent
  refine ⟨h.central, fun l => ?_, fun l => ?_, fun l => ?_⟩
  · by_cases hl : l = lc
    · subst hl
      have hself : (a.settle l s').locals l = s' := Function.update_self ..
      rw [hself]
      exact ⟨hinv, hsize⟩
    · have hother : (a.settle lc s').locals l = a.locals l := Function.update_of_ne hl ..
      rw [hother]
      exact h.local_inv l
  · rw [hway]
    refine allowed_append.mpr ⟨h.fits l, ?_⟩
    by_cases hl : l = lc
    · subst hl
      rw [if_pos rfl]
      rw [← h.view] at hfits
      exact hfits
    · rw [if_neg hl]
      trivial
  · rw [hway, List.foldl_append]
    refine (congrArg (fun i => List.foldl Inventory.after i _) (h.view l)).trans ?_
    by_cases hl : l = lc
    · subst hl
      have hself : (a.settle l s').locals l = s' := Function.update_self ..
      rw [if_pos rfl, hself]
      exact hafter
    · have hother : (a.settle lc s').locals l = a.locals l := Function.update_of_ne hl ..
      rw [if_neg hl, hother]
      rfl

/-! ### The central controller goes on -/

theorem onTheWay_taken {i : Nat} {u : Uplink} (hu : a.up[i]? = some u) (hfirst : ∀ u' ∈ a.up.take i, u'.lc ≠ u.lc) {up : List Uplink}
    (hup : up = a.up.eraseIdx i) (l : Nat) :
    onTheWay a l = (if l = u.lc then [u.buf.msg] else []) ++ (up.filter fun u => u.lc = l).map fun u => u.buf.msg := by
  obtain ⟨hlt, hat⟩ := List.getElem?_eq_some_iff.mp hu
  have hsplit : a.up = a.up.take i ++ u :: a.up.drop (i + 1) := by
    rw [← hat, ← List.drop_eq_getElem_cons hlt, List.take_append_drop]
  unfold onTheWay
  rw [hup, List.eraseIdx_eq_take_drop_succ]
  conv_lhs => rw [hsplit]
  rw [List.filter_append, List.filter_append, List.filter_cons]
  by_cases hl : l = u.lc
  · have hnone : (a.up.take i).filter (fun u => u.lc = l) = [] := by
      rw [List.filter_eq_nil_iff]
      intro u' hu'
      rw [decide_eq_true_eq, hl]
      exact hfirst u' hu'
    rw [hnone, if_pos hl, if_pos (decide_eq_true hl.symm)]
    rfl
  · rw [if_neg hl, if_neg (by rw [decide_eq_true_eq]; exact fun he => hl he.symm)]
    rfl

theorem followed_central (h : Followed D a) {i : Nat} (hok : Orderly D a (.central i)) : Followed D (a.turn (.central i)) := by
  unfold turn
  simp only
  cases hu : a.up[i]? with
  | none => exact h
  | some u =>
    obtain ⟨hfirst, hacc⟩ := hok u hu
    have hway := onTheWay_taken hu hfirst rfl
    have hmine := hway u.lc
    rw [if_pos rfl, List.singleton_append] at hmine
    have hfits := h.fits u.lc
    rw [hmine] at hfits
    obtain ⟨hinv, htakes⟩ := takes_receive h.central hacc hfits.1
    refine ⟨hinv, h.local_inv, fun l => ?_, fun l => ?_⟩
    · by_cases hl : l = u.lc
      · subst hl
        show Allowed Inventory.after (Inventory.Fits D u.lc) (viewOf _ u.lc) _
        rw [htakes.own]
        exact hfits.2
      · show Allowed Inventory.after (Inventory.Fits D l) (viewOf _ l) _
        rw [htakes.others l hl]
        have hrest := h.fits l
        rw [hway, if_neg hl, List.nil_append] at hrest
        exact hrest
    · have hview := h.view l
      rw [hway] at hview
      by_cases hl : l = u.lc
      · subst hl
        rw [if_pos rfl, List.singleton_append, List.foldl_cons] at hview
        show List.foldl Inventory.after (viewOf _ u.lc) _ = _
        rw [htakes.own]
        exact hview
      · rw [if_neg hl, List.nil_append] at hview
        show List.foldl Inventory.after (viewOf _ l) _ = _
        rw [htakes.others l hl]
        exact hview

theorem followed_turn (h : Followed D a) {t : NetTurn} (hok : Orderly D a t) : Followed D (a.turn t) := by
  cases t with
  | app lc e =>
    obtain ⟨hlawful, hsized, hbelongs⟩ := hok
    obtain ⟨hinv, hsize⟩ := h.local_inv lc
    have htold : Told D lc (a.locals lc) (happen (env lc) (a.locals lc) e) := by
      refine happen_of_greet ?_ e (told_step hinv hsize hsized hbelongs)
      exact .bind (.modify fun _ => told_of_same rfl rfl) fun _ => moves_send_msg told_xid told_sent _ fun _ _ _ => ⟨rfl, trivial⟩
    have hinv' : Layer2Switch.HostInv (happen (env lc) (a.locals lc) e) := by
      refine happen_of_greet (R := Keeps Layer2Switch.HostInv) ?_ e (fun _ => Layer2Switch.hostInv_step hinv hlawful) hinv
      exact hostInv_of_quiet (.bind (.modify fun _ => ⟨rfl, rfl, rfl, fun _ => .rfl, fun _ => .rfl⟩) fun _ =>
        moves_send_msg quiet_xid quiet_sent none trivial)
    have hsize' : ∀ d ∈ (happen (env lc) (a.locals lc) e).datapaths, d < 2 ^ 64 := by
      refine happen_of_greet (R := Keeps fun s => ∀ d ∈ s.datapaths, d < 2 ^ 64) ?_ e (fun _ => sized_step hsize hsized) hsize
      exact .bind (.modify fun _ h => h) fun _ => 
        moves_send_msg (P := fun _ => True) (fun _ _ h => h) (fun _ _ _ _ h => h) none trivial
    exact followed_settle h htold hinv' hsize'
  | central i => exact followed_central h hok
  | deliver i now =>
    unfold turn
    simp only
    cases a.down[i]? with
    | none => exact h
    | some d =>
      obtain ⟨hinv, hsize⟩ := h.local_inv d.buf.lc
      have hsettled := followed_settle h (told_step hinv hsize (e := .Downlink now (d.buf.event cenv.host)) trivial trivial)
        (Layer2Switch.hostInv_step hinv trivial) (sized_step hsize trivial)
      exact ⟨hsettled.central, hsettled.local_inv, hsettled.fits, hsettled.view⟩

/-- Switches below 10 are at controller 0, hosts with an even last octet too. -/
def sampleDomains : Domains where
  home dpid := if dpid < 10 then 0 else 1
  owner mac := if mac.getLast? = some 48 ∨ mac.getLast? = some 50 then 0 else 1

/-- Both say hello and learn a host each; the second one is about to report a
host that took the place of the first. -/
def twoDomains : List NetTurn :=
  [.app 0 .Connected, .app 1 .Connected, .central 1, .app 0 (.SwitchFeatures ⟨1, "10.0.0.1"⟩), .central 0,
    .app 1 (.SwitchFeatures ⟨11, "10.0.0.2"⟩), .central 1, .central 0,
    .app 0 (Layer2Switch.samplePacket 1 2 (asciiText "00:00:00:00:00:02") BROADCAST_STR),
    .app 1 (Layer2Switch.samplePacket 11 2 (asciiText "00:00:00:00:00:01") BROADCAST_STR), .deliver 1 5,
    .app 1 (Layer2Switch.samplePacket 11 2 (asciiText "00:00:00:00:00:03") BROADCAST_STR), .central 1, .central 0]

end Network

end VnfDockerNet
