import VnfDockerNet.RoleSound

/-!
# The controllers that have said hello

Ids are handed out once for each address and never taken back. From this, in
every state of a run: a listed datapath has a home with an id, an id that is
known has a node in the controller graph and a connection, and no id changes.
-/

namespace VnfDockerNet

open Python Networkx Runs

namespace AppManager

section
variable {env : Env}

/-- The tables of ids are the same, and no node is lost. -/
structure SameCtrls (s s' : AppManager env.nx.Graph) : Prop where
  id : ∀ l, (s'.lcs l).id = (s.lcs l).id
  address : ∀ l, (s'.lcs l).address = (s.lcs l).address
  numbering : s'.lcip_to_lcid = s.lcip_to_lcid
  counter : s'.glcid = s.glcid
  ctrls : s'.local_ctrl_list = s.local_ctrl_list
  node : ∀ u, (env.nx.node s.LC_LEVEL_TOPO u).isSome → (env.nx.node s'.LC_LEVEL_TOPO u).isSome

theorem SameCtrls.refl (s : AppManager env.nx.Graph) : SameCtrls s s :=
  ⟨fun _ => rfl, fun _ => rfl, rfl, rfl, rfl, fun _ h => h⟩

theorem SameCtrls.trans {s s' s'' : AppManager env.nx.Graph} (h : SameCtrls s s') (h' : SameCtrls s' s'') :
    SameCtrls s s'' where
  id l := (h'.id l).trans (h.id l)
  address l := (h'.address l).trans (h.address l)
  numbering := h'.numbering.trans h.numbering
  counter := h'.counter.trans h.counter
  ctrls := h'.ctrls.trans h.ctrls
  node u hu := h'.node u (h.node u hu)

theorem sameCtrls_sends (s : AppManager env.nx.Graph) (lc x : Nat) (msgs : List Sent) :
    SameCtrls s (sends s lc x msgs) :=
  ⟨sends_id lc x msgs, sends_address lc x msgs, rfl, rfl, rfl, fun _ h => h⟩

theorem sameCtrls_close (s : AppManager env.nx.Graph) (lc : Nat) : SameCtrls s (s.close lc) :=
  ⟨close_id lc, close_address lc, rfl, rfl, rfl, fun _ h => h⟩

theorem sameCtrls_hosts (s : AppManager env.nx.Graph) (hosts : Dict Bytes Lcid) (dps : Dict Nat Datapath) :
    SameCtrls s { s with host_to_lcid := hosts, datapath_list := dps } :=
  ⟨fun _ => rfl, fun _ => rfl, rfl, rfl, rfl, fun _ h => h⟩

/-- **Only HELLO_UP touches the tables of ids.** -/
theorem sameCtrls_dispatch (lc : Nat) (ev : Event MsgUp) (s : AppManager env.nx.Graph) (hh : ev.msg ≠ .HelloUp) :
    Always (dispatch_event env lc ev) s (SameCtrls s) := by
  refine Always.mono (outcome_dispatch lc ev s) ?_
  intro s' hout
  cases hout with
  | hello lcid x msgs hmsg => exact absurd hmsg hh
  | connect dpid w hosts dps dp x msgs =>
    refine SameCtrls.trans ?_ (sameCtrls_sends _ lc x msgs)
    exact ⟨homed_id lc dpid dp, homed_address lc dpid dp, rfl, rfl, rfl, fun _ h => h⟩
  | hosts hosts dps => exact sameCtrls_hosts s hosts dps
  | gid dpid dp x msgs => exact (sameCtrls_hosts s s.host_to_lcid _).trans (sameCtrls_sends _ lc x msgs)
  | load dpid pkt_in_cnt dp =>
    exact ⟨update_proj LocalController.id (by rfl), update_proj LocalController.address (by rfl), rfl, rfl, rfl,
      fun _ h => h⟩
  | leave dpid hosts dps dps' role load win g _ _ _ _ _ hg =>
    refine ⟨update_proj LocalController.id (by rfl), update_proj LocalController.address (by rfl), rfl, rfl, rfl,
      fun u hu => ?_⟩
    show (env.nx.node g u).isSome
    rw [hg.1]
    exact hu
  | graph ws g hmsg hg => exact ⟨fun _ => rfl, fun _ => rfl, rfl, rfl, rfl, hg⟩
  | packetIn | echo => exact ⟨fun _ => rfl, fun _ => rfl, rfl, rfl, rfl, fun _ h => h⟩
  | same => exact .refl s

/-- The ids that are in use, as the tables of ids have them. -/
structure Registered (s : AppManager env.nx.Graph) : Prop where
  numbered : ∀ l i, (s.lcs l).id = some i → s.lcip_to_lcid.get (s.lcs l).address = some i
  known : ∀ a i, s.lcip_to_lcid.get a = some i →
    i ≤ MAX_LC_ID ∧ (env.nx.node s.LC_LEVEL_TOPO (some i)).isSome ∧ some i ∈ s.local_ctrl_list
  ctrl : ∀ u l, s.local_ctrl_list.get u = some l → (s.lcs l).id = u ∧ u ≠ none
  counter : s.glcid ≤ MAX_LC_ID

theorem registered_init (address : Nat → String × Nat) (xid : Nat → Nat) : Registered (init env address xid) where
  numbered l i h := by cases h
  known a i h := by
    have h' : (∅ : Dict (String × Nat) Nat).get a = some i := h
    rw [Dict.get_empty] at h'; cases h'
  ctrl u l h := by
    have h' : (∅ : Dict Lcid Nat).get u = some l := h
    rw [Dict.get_empty] at h'; cases h'
  counter := by
    show 1 ≤ MAX_LC_ID
    decide

theorem Registered.same {s s' : AppManager env.nx.Graph} (h : Registered s) (hs : SameCtrls s s') : Registered s' where
  numbered l i hi := by
    rw [hs.numbering, hs.address]
    exact h.numbered l i (hs.id l ▸ hi)
  known a i ha := by
    rw [hs.numbering] at ha
    obtain ⟨hle, hn, hc⟩ := h.known a i ha
    exact ⟨hle, hs.node _ hn, hs.ctrls ▸ hc⟩
  ctrl u l hu := by
    rw [hs.id]
    exact h.ctrl u l (hs.ctrls ▸ hu)
  counter := hs.counter ▸ h.counter

theorem Registered.hello {s : AppManager env.nx.Graph} (h : Registered s) {l i : Nat} (hi : (s.lcs l).id = some i) :
    (s.lcip_to_lcid.get (s.lcs l).address).getD s.glcid = i := by
  rw [h.numbered l i hi]; rfl

theorem Registered.helloed_id {s : AppManager env.nx.Graph} (h : Registered s) {lc lcid l i : Nat}
    (hid : lcid = (s.lcip_to_lcid.get (s.lcs lc).address).getD s.glcid) (hi : (s.lcs l).id = some i) :
    ((helloed s lc lcid).lcs l).id = some i := by
  rw [AppManager.helloed_id]
  split
  · rename_i hl
    subst hl
    rw [hid, h.hello hi]
  · exact hi

theorem node_helloed {s : AppManager env.nx.Graph} {lc lcid : Nat} {u : Lcid}
    (hu : (env.nx.node s.LC_LEVEL_TOPO u).isSome) : (env.nx.node (helloed s lc lcid).LC_LEVEL_TOPO u).isSome := by
  unfold helloed
  simp only
  split
  · exact hu
  · rw [env.nx.node_add_node]
    split
    · rfl
    · exact hu

theorem numbering_helloed {s : AppManager env.nx.Graph} {lc lcid : Nat}
    (hid : lcid = (s.lcip_to_lcid.get (s.lcs lc).address).getD s.glcid) (a : String × Nat) :
    (helloed s lc lcid).lcip_to_lcid.get a = if a = (s.lcs lc).address then some lcid else s.lcip_to_lcid.get a := by
  unfold AppManager.helloed
  simp only
  split
  · rename_i hin
    obtain ⟨i, hi⟩ := Dict.mem_iff_get.mp hin
    rw [hi] at hid
    split
    · rename_i ha
      rw [ha, hi, hid]; rfl
    · rfl
  · rename_i hout
    rw [Dict.get_eq_none.mpr hout] at hid
    rw [Dict.get_insert, hid]; rfl

theorem Registered.helloed {s : AppManager env.nx.Graph} (h : Registered s) {lc lcid : Nat}
    (hid : lcid = (s.lcip_to_lcid.get (s.lcs lc).address).getD s.glcid) : Registered (helloed s lc lcid) := by
  have hctrls : ∀ u, Dict.get (AppManager.helloed s lc lcid).local_ctrl_list u =
      if u = some lcid then some lc else s.local_ctrl_list.get u := fun u => Dict.get_insert ..
  have hmem : ∀ u, u ∈ s.local_ctrl_list → u ∈ (AppManager.helloed s lc lcid).local_ctrl_list := fun u hu => by
    obtain ⟨l, hl⟩ := Dict.mem_iff_get.mp hu
    rw [Dict.mem_iff_get, hctrls]
    split
    · exact ⟨lc, rfl⟩
    · exact ⟨l, hl⟩
  have hnum := numbering_helloed hid
  refine ⟨fun l i hi => ?_, fun a i ha => ?_, fun u l hu => ?_, ?_⟩
  · rw [helloed_address, hnum]
    rw [AppManager.helloed_id] at hi
    split at hi
    · rename_i hl
      rw [hl, if_pos rfl]; exact hi
    · rw [h.numbered l i hi]
      split
      · rename_i ha
        have := h.numbered l i hi
        rw [ha] at this
        rw [hid, this]; rfl
      · rfl
  · rw [hnum] at ha
    split at ha
    · cases ha
      refine ⟨?_, ?_, Dict.mem_iff_get.mpr ⟨lc, by rw [hctrls, if_pos rfl]⟩⟩
      · cases hget : s.lcip_to_lcid.get (s.lcs lc).address with
        | none => rw [hid, hget]; exact h.counter
        | some i => rw [hid, hget]; exact (h.known _ i hget).1
      · cases hget : s.lcip_to_lcid.get (s.lcs lc).address with
        | none =>
          unfold AppManager.helloed
          simp only [if_neg (Dict.get_eq_none.mp hget)]
          rw [hid, hget, env.nx.node_add_node]
          simp
        | some i =>
          rw [hid, hget]
          exact node_helloed (h.known _ i hget).2.1
    · obtain ⟨hle, hn, hc⟩ := h.known a i ha
      exact ⟨hle, node_helloed hn, hmem _ hc⟩
  · rw [hctrls] at hu
    split at hu
    · rename_i hu'
      cases hu
      exact ⟨by rw [AppManager.helloed_id, if_pos rfl, hu'], by rw [hu']; exact Option.some_ne_none _⟩
    · obtain ⟨hl, hne⟩ := h.ctrl u l hu
      obtain ⟨i, rfl⟩ := Option.ne_none_iff_exists'.mp hne
      exact ⟨h.helloed_id hid hl, hne⟩
  · unfold AppManager.helloed
    simp only
    split
    · exact h.counter
    · split
      · decide
      · omega

theorem registered_step {s : AppManager env.nx.Graph} (r : Received) (h : Registered s) :
    Registered (receive env s r) ∧ ∀ l i, (s.lcs l).id = some i → ((receive env s r).lcs l).id = some i := by
  refine receive_of_always (fun s' => Registered s' ∧ ∀ l i, (s.lcs l).id = some i → (s'.lcs l).id = some i)
    (fun s' hs' => ?_) ?_
  · exact ⟨hs'.1.same (sameCtrls_close s' r.lc), fun l i hi => by rw [close_id]; exact hs'.2 l i hi⟩
  · by_cases hh : r.ev.msg = .HelloUp
    · unfold dispatch_event
      rw [hh]
      refine Always.mono (always_hello_up r.lc s) ?_
      intro _ hpost
      obtain ⟨lcid, x, msgs, hid, rfl, _⟩ := hpost
      exact ⟨(h.helloed hid).same (sameCtrls_sends _ r.lc x msgs), fun l i hi => by
        rw [sends_id]; exact h.helloed_id hid hi⟩
    · refine Always.mono (sameCtrls_dispatch r.lc r.ev s hh) ?_
      intro _ hs
      exact ⟨h.same hs, fun l i hi => by rw [hs.id]; exact hi⟩

/-! ## Homes and connections -/

/-- Every listed datapath has a home that has said hello. -/
def HomesKnown (s : AppManager env.nx.Graph) : Prop :=
  ∀ d dp, s.datapath_list.get d = some dp → ∃ l i, dp.lc_home = some l ∧ (s.lcs l).id = some i

theorem homesKnown_init (address : Nat → String × Nat) (xid : Nat → Nat) : HomesKnown (init env address xid) := by
  intro d dp hdp
  have hdp' : (∅ : Dict Nat Datapath).get d = some dp := hdp
  rw [Dict.get_empty] at hdp'
  cases hdp'

theorem HomesKnown.homeOf {s : AppManager env.nx.Graph} (h : HomesKnown s) {d : Nat} (hd : d ∈ s.datapath_list) :
    ∃ i, homeOf s d = some (some i) := by
  obtain ⟨dp, hdp⟩ := Dict.mem_iff_get.mp hd
  obtain ⟨l, i, hl, hi⟩ := h d dp hdp
  exact ⟨i, by unfold AppManager.homeOf; rw [hdp]; simp [hl, hi]⟩

/-- A home after a message was a home before, or the switch just connected to it. -/
def HomesFrom {Γ : Type} (s : AppManager Γ) (r : Received) (s' : AppManager Γ) : Prop :=
  ∀ d dp', s'.datapath_list.get d = some dp' →
    (∃ dpid w, r.ev.msg = .DPConnected dpid w) ∧ dp'.lc_home = some r.lc ∨
      ∃ dp, s.datapath_list.get d = some dp ∧ dp.lc_home = dp'.lc_home

theorem homes_dispatch (r : Received) (s : AppManager env.nx.Graph) :
    Always (dispatch_event env r.lc r.ev) s (HomesFrom s r) := by
  refine Always.mono (outcome_dispatch r.lc r.ev s) ?_
  intro s' hout d dp' hdp'
  -- a datapath that was put back under its home
  have hinsert : ∀ dpid dp dp₁, s.datapath_list.get dpid = some dp →
      Dict.get (s.datapath_list.insert dpid dp₁) d = some dp' → dp₁.lc_home = dp.lc_home →
      ∃ dp, s.datapath_list.get d = some dp ∧ dp.lc_home = dp'.lc_home := by
    intro dpid dp dp₁ hdp hget hhome
    rcases Dict.get_insert_some.mp hget with ⟨rfl, rfl⟩ | ⟨_, hget⟩
    · exact ⟨dp, hdp, hhome.symm⟩
    · exact ⟨dp', hget, rfl⟩
  cases hout with
  | connect dpid w hosts dps dp x msgs hmsg hdps =>
    rcases Dict.get_insert_some.mp hdp' with ⟨rfl, rfl⟩ | ⟨hd, hdp'⟩
    · exact Or.inl ⟨⟨d, w, hmsg⟩, rfl⟩
    · rcases hdps with hsame | ⟨_, rfl⟩
      · obtain ⟨dp₀, hdp₀, hhome, _⟩ := hsame.listed hdp'
        exact Or.inr ⟨dp₀, hdp₀, hhome⟩
      · rw [Dict.get_insert, if_neg hd] at hdp'
        exact Or.inr ⟨dp', hdp', rfl⟩
  | hosts hosts dps _ hdps =>
    obtain ⟨dp, hdp, hhome, _⟩ := hdps.listed hdp'
    exact Or.inr ⟨dp, hdp, hhome⟩
  | gid dpid dp x msgs _ hdp => exact Or.inr (hinsert dpid dp _ hdp hdp' rfl)
  | load dpid pkt_in_cnt dp hdp => exact Or.inr (hinsert dpid dp _ hdp hdp' rfl)
  | leave dpid hosts dps dps' role load win g _ hdps hdrop hrole =>
    obtain ⟨dp, hdp, hhome, _⟩ := (quiet_leave s hosts load win g hdps hdrop hrole).listed d dp' hdp'
    exact Or.inr ⟨dp, hdp, hhome⟩
  | hello | packetIn | echo | graph | same => exact Or.inr ⟨dp', hdp', rfl⟩

theorem homesKnown_step {s : AppManager env.nx.Graph} {r : Received} (hreg : Registered s) (h : HomesKnown s)
    (ha : Accepts env s r) : HomesKnown (receive env s r) := by
  have hids := (registered_step r hreg).2
  have hhomes : HomesFrom s r (receive env s r) := receive_of_always _ (fun _ hs => hs) (homes_dispatch r s)
  intro d dp' hdp'
  rcases hhomes d dp' hdp' with ⟨⟨dpid, w, hmsg⟩, hhome⟩ | ⟨dp, hdp, hhome⟩
  · have hne : (s.lcs r.lc).id ≠ none := ha.2.resolve_right fun hm => by rw [hmsg] at hm; cases hm
    obtain ⟨i, hi⟩ := Option.ne_none_iff_exists'.mp hne
    exact ⟨r.lc, i, hhome, hids r.lc i hi⟩
  · obtain ⟨l, i, hl, hi⟩ := h d dp hdp
    exact ⟨l, i, hhome ▸ hl, hids l i hi⟩

def Knows {Γ : Type} (s : AppManager Γ) (l d : Nat) : Prop :=
  d ∈ (s.lcs l).dpid_to_role ∧ d ∈ (s.lcs l).dpid_to_load

/-- Every connection of a listed datapath is in the tables of its controller. -/
def Connections {Γ : Type} (s : AppManager Γ) : Prop :=
  ∀ d dp, s.datapath_list.get d = some dp → dp.lc_connected.Nodup ∧ ∀ l ∈ dp.lc_connected, Knows s l d

/-- What a datapath is besides its counters. -/
def placeOf (dp : Datapath) : List Bytes × Option Nat × List Nat := (dp.mac, dp.lc_home, dp.lc_connected)

/-- No host and no connection has changed. -/
structure Unmoved {Γ : Type} (s s' : AppManager Γ) : Prop where
  hosts : s'.host_to_lcid = s.host_to_lcid
  listed : ∀ d, (s'.datapath_list.get d).map placeOf = (s.datapath_list.get d).map placeOf
  knows : ∀ l d, Knows s l d → Knows s' l d

theorem Unmoved.refl {Γ : Type} (s : AppManager Γ) : Unmoved s s := ⟨rfl, fun _ => rfl, fun _ _ h => h⟩

theorem Unmoved.trans {Γ : Type} {s s' s'' : AppManager Γ} (h : Unmoved s s') (h' : Unmoved s' s'') : Unmoved s s'' :=
  ⟨h'.hosts.trans h.hosts, fun d => (h'.listed d).trans (h.listed d), fun l d hk => h'.knows l d (h.knows l d hk)⟩

theorem knows_sends {s : AppManager env.nx.Graph} {lc x l d : Nat} {msgs : List Sent} :
    Knows (sends s lc x msgs) l d ↔ Knows s l d := by
  have hload : ((sends s lc x msgs).lcs l).dpid_to_load = (s.lcs l).dpid_to_load :=
    update_proj LocalController.dpid_to_load (by rfl) l
  unfold Knows
  rw [sends_role, hload]

theorem knows_close {s : AppManager env.nx.Graph} {lc l d : Nat} : Knows (s.close lc) l d ↔ Knows s l d := by
  have hload : ((s.close lc).lcs l).dpid_to_load = (s.lcs l).dpid_to_load :=
    update_proj LocalController.dpid_to_load (by rfl) l
  unfold Knows
  rw [close_role, hload]

theorem unmoved_sends (s : AppManager env.nx.Graph) (lc x : Nat) (msgs : List Sent) : Unmoved s (sends s lc x msgs) :=
  ⟨rfl, fun _ => rfl, fun _ _ h => knows_sends.mpr h⟩

theorem unmoved_close (s : AppManager env.nx.Graph) (lc : Nat) : Unmoved s (s.close lc) :=
  ⟨rfl, fun _ => rfl, fun _ _ h => knows_close.mpr h⟩

theorem map_placeOf_insert {dps : Dict Nat Datapath} {dpid : Nat} {dp dp' : Datapath} (hdp : dps.get dpid = some dp)
    (h : placeOf dp' = placeOf dp) (d : Nat) :
    (Dict.get (dps.insert dpid dp') d).map placeOf = (dps.get d).map placeOf := by
  rw [Dict.get_insert]
  split
  · rename_i hd
    rw [hd, hdp, Option.map_some, Option.map_some, h]
  · rfl

/-- **Only four messages move hosts or connections.** -/
theorem unmoved_dispatch (lc : Nat) (ev : Event MsgUp) (s : AppManager env.nx.Graph)
    (hc : ∀ dpid w, ev.msg ≠ .DPConnected dpid w) (hl : ∀ dpid, ev.msg ≠ .DatapathLeave dpid)
    (hhc : ∀ dpid mac, ev.msg ≠ .HostConnected dpid mac) (hhl : ∀ dpid mac, ev.msg ≠ .HostLeave dpid mac) :
    Always (dispatch_event env lc ev) s (Unmoved s) := by
  refine Always.mono (outcome_dispatch lc ev s) ?_
  intro s' hout
  cases hout with
  | connect dpid w hosts dps dp x msgs hmsg => exact absurd hmsg (hc dpid w)
  | leave dpid hosts dps dps' role load win g hmsg => exact absurd hmsg (hl dpid)
  | hosts hosts dps hmsg =>
    rcases hmsg with ⟨dpid, w, hmsg⟩ | ⟨dpid, mac, hmsg | hmsg⟩
    · exact absurd hmsg (hc dpid w)
    · exact absurd hmsg (hhc dpid mac)
    · exact absurd hmsg (hhl dpid mac)
  | hello lcid x msgs =>
    refine Unmoved.trans ?_ (unmoved_sends _ lc x msgs)
    refine ⟨rfl, fun _ => rfl, fun l d hk => ?_⟩
    have hload : ((helloed s lc lcid).lcs l).dpid_to_load = (s.lcs l).dpid_to_load :=
      update_proj LocalController.dpid_to_load (by rfl) l
    unfold Knows
    rw [helloed_role, hload]
    exact hk
  | gid dpid dp x msgs hmsg hdp =>
    refine Unmoved.trans ?_ (unmoved_sends _ lc x msgs)
    exact ⟨rfl, map_placeOf_insert hdp (by rfl), fun _ _ h => h⟩
  | load dpid pkt_in_cnt dp hdp =>
    refine ⟨rfl, map_placeOf_insert hdp (by rfl), fun l d hk => ?_⟩
    by_cases hl : l = lc
    · subst hl
      unfold Knows at hk ⊢
      simp only [Function.update_self, AList.mem_insert]
      exact ⟨hk.1, Or.inr hk.2⟩
    · unfold Knows
      simp only [Function.update_of_ne hl]
      exact hk
  | packetIn | echo | graph => exact ⟨rfl, fun _ => rfl, fun _ _ h => h⟩
  | same => exact .refl s

theorem Connections.unmoved {Γ : Type} {s s' : AppManager Γ} (h : Connections s) (hu : Unmoved s s') :
    Connections s' := by
  intro d dp' hdp'
  have hd := hu.listed d
  rw [hdp', Option.map_some, eq_comm, Option.map_eq_some_iff] at hd
  obtain ⟨dp, hdp, hplace⟩ := hd
  have hconn : dp'.lc_connected = dp.lc_connected := by
    have := congrArg (fun p => p.2.2) hplace
    exact this.symm
  rw [hconn]
  exact ⟨(h d dp hdp).1, fun l hl => hu.knows l d ((h d dp hdp).2 l hl)⟩

theorem Connections.hosts {s : AppManager env.nx.Graph} (h : Connections s) (hosts : Dict Bytes Lcid)
    {dps : Dict Nat Datapath} (hsame : SameButMacs s.datapath_list dps) :
    Connections { s with host_to_lcid := hosts, datapath_list := dps } := by
  intro d dp' hdp'
  obtain ⟨dp, hdp, _, _, hconn⟩ := hsame.listed hdp'
  rw [← hconn]
  exact h d dp hdp

theorem knows_homed {s : AppManager env.nx.Graph} {lc dpid l d : Nat} {dp : Datapath} :
    Knows (homed s lc dpid dp) l d ↔ (l = lc ∧ d = dpid) ∨ Knows s l d := by
  unfold Knows homed
  by_cases hl : l = lc
  · subst hl
    simp only [Function.update_self, AList.mem_insert, true_and]
    constructor
    · intro h
      obtain ⟨rfl | h₁, h₂⟩ := h
      · exact Or.inl rfl
      · exact h₂.imp id fun h₂ => ⟨h₁, h₂⟩
    · intro h
      rcases h with rfl | ⟨h₁, h₂⟩
      · exact ⟨Or.inl rfl, Or.inl rfl⟩
      · exact ⟨Or.inr h₁, Or.inr h₂⟩
  · simp [hl]

theorem Connections.homed {s : AppManager env.nx.Graph} (h : Connections s) {lc dpid : Nat} {dp : Datapath}
    (hdp : s.datapath_list.get dpid = some dp) : Connections (homed s lc dpid dp) := by
  intro d dp' hdp'
  rcases Dict.get_insert_some.mp hdp' with ⟨rfl, rfl⟩ | ⟨_, hdp'⟩
  · obtain ⟨hnd, hk⟩ := h d dp hdp
    by_cases hin : lc ∈ dp.lc_connected
    · have hadd : dp.add_lc lc = dp := if_pos hin
      simp only [hadd, Datapath.set_home_lc]
      exact ⟨hnd, fun l hl => knows_homed.mpr (Or.inr (hk l hl))⟩
    · have hadd : dp.add_lc lc = { dp with lc_connected := dp.lc_connected ++ [lc] } := if_neg hin
      simp only [hadd, Datapath.set_home_lc]
      refine ⟨hnd.append (List.nodup_singleton lc) (by simpa using hin), fun l hl => knows_homed.mpr ?_⟩
      rcases List.mem_append.mp hl with hl | hl
      · exact Or.inr (hk l hl)
      · exact Or.inl ⟨List.mem_singleton.mp hl, rfl⟩
  · exact ⟨(h d dp' hdp').1, fun l hl => knows_homed.mpr (Or.inr ((h d dp' hdp').2 l hl))⟩

theorem connections_connected (lc dpid : Nat) {s : AppManager env.nx.Graph} (h : Connections s) :
    Always (_tflcp_datapath_connected_handler env lc dpid) s Connections := by
  refine Always.mono (always_datapath_connected lc dpid s) ?_
  intro _ hpost
  rcases hpost with ⟨hosts, dps, rfl, hsame⟩ | ⟨hosts, dps, dp, x, msgs, hdps, hdp, rfl, _⟩
  · exact h.hosts hosts hsame
  · have hbefore : Connections { s with host_to_lcid := hosts, datapath_list := dps } := by
      rcases hdps with hsame | ⟨_, rfl⟩
      · exact h.hosts hosts hsame
      · intro d dp' hdp'
        rcases Dict.get_insert_some.mp hdp' with ⟨rfl, rfl⟩ | ⟨_, hdp'⟩
        · exact ⟨List.nodup_nil, fun l hl => by cases hl⟩
        · exact h d dp' hdp'
    exact (hbefore.homed hdp).unmoved (unmoved_sends _ lc x msgs)

theorem Connections.leave {s : AppManager env.nx.Graph} (h : Connections s) {lc dpid : Nat} {dps : Dict Nat Datapath}
    {role load win : Dict Nat Nat}
    (hdps : ∀ d dp', dps.get d = some dp' → ∃ dp, s.datapath_list.get d = some dp ∧
      dp'.lc_connected.Sublist dp.lc_connected ∧ (d = dpid → lc ∉ dp'.lc_connected))
    (hrole : role = (s.lcs lc).dpid_to_role ∨ role = (s.lcs lc).dpid_to_role.erase dpid)
    (hload : load = (s.lcs lc).dpid_to_load ∨ load = (s.lcs lc).dpid_to_load.erase dpid) :
    Connections { s with
      datapath_list := dps
      lcs := Function.update s.lcs lc { s.lcs lc with dpid_to_role := role, dpid_to_load := load, dp_win := win } } := by
  intro d dp' hdp'
  obtain ⟨dp, hdp, hsub, hout⟩ := hdps d dp' hdp'
  obtain ⟨hnd, hk⟩ := h d dp hdp
  refine ⟨hnd.sublist hsub, fun l hl => ?_⟩
  have hkl := hk l (hsub.subset hl)
  by_cases hlc : l = lc
  · subst hlc
    have hd : d ≠ dpid := fun hd => hout hd hl
    unfold Knows at hkl ⊢
    simp only [Function.update_self]
    refine ⟨?_, ?_⟩
    · rcases hrole with rfl | rfl
      · exact hkl.1
      · exact AList.mem_erase.mpr ⟨hd, hkl.1⟩
    · rcases hload with rfl | rfl
      · exact hkl.2
      · exact AList.mem_erase.mpr ⟨hd, hkl.2⟩
  · unfold Knows
    simp only [Function.update_of_ne hlc]
    exact hkl

theorem connections_dropDatapath (lc dpid : Nat) {s : AppManager env.nx.Graph} (h : Connections s) :
    Always (dropDatapath env lc dpid) s Connections := by
  cases hget : s.datapath_list.get dpid with
  | none =>
    unfold dropDatapath
    simp only [wp_bind, wp_get, wp_item]
    refine ⟨fun dp hdp => ?_, fun _ => h⟩
    rw [hget] at hdp
    cases hdp
  | some dp =>
    -- without the datapath, or with one connection less
    have herase : ∀ (lcs : List Nat), lc ∉ lcs → lcs.Sublist dp.lc_connected → ∀ d dp',
        Dict.get (s.datapath_list.insert dpid { dp with lc_connected := lcs }) d = some dp' →
        ∃ dp, s.datapath_list.get d = some dp ∧ dp'.lc_connected.Sublist dp.lc_connected ∧
          (d = dpid → lc ∉ dp'.lc_connected) := by
      intro lcs hout hsub d dp' hdp'
      rcases Dict.get_insert_some.mp hdp' with ⟨rfl, rfl⟩ | ⟨hd, hdp'⟩
      · exact ⟨dp, hget, hsub, fun _ => hout⟩
      · exact ⟨dp', hdp', .refl _, fun h => absurd h hd⟩
    have hdrop : ∀ d dp', Dict.get (s.datapath_list.erase dpid) d = some dp' →
        ∃ dp, s.datapath_list.get d = some dp ∧ dp'.lc_connected.Sublist dp.lc_connected ∧
          (d = dpid → lc ∉ dp'.lc_connected) := by
      intro d dp' hdp'
      obtain ⟨hd, hdp'⟩ := Dict.get_erase_some.mp hdp'
      exact ⟨dp', hdp', .refl _, fun h => absurd h hd⟩
    by_cases hin : lc ∈ dp.lc_connected
    · obtain ⟨hrole, hload⟩ := (h dpid dp hget).2 lc hin
      refine wp_dropDatapath hget hin hrole hload ?_
      unfold dropped
      refine h.leave ?_ (Or.inr rfl) (Or.inr rfl)
      split
      · exact hdrop
      · exact herase _ (fun hin' => ((h dpid dp hget).1.mem_erase_iff.mp hin').1 rfl) List.erase_sublist
    · refine Always.mono (always_dropDatapath lc dpid s) ?_
      intro _ hpost
      obtain ⟨dps, role, load, win, rfl, hrole, hload, hdps⟩ := hpost
      refine h.leave ?_ hrole hload
      rcases hdps with rfl | ⟨dp', hdp', ⟨_, rfl⟩ | ⟨_, rfl⟩⟩
      · intro d dp' hdp'
        refine ⟨dp', hdp', .refl _, fun hd => ?_⟩
        rw [hd, hget] at hdp'
        cases hdp'
        exact hin
      · exact hdrop
      · rw [hget] at hdp'
        cases hdp'
        exact herase _ (fun hin' => hin (List.mem_of_mem_erase hin')) List.erase_sublist

theorem connections_leave (lc dpid : Nat) {s : AppManager env.nx.Graph} (h : Connections s) :
    Always (_tflcp_datapath_leave_handler env lc dpid) s Connections := by
  refine wp_datapath_leave (fun _ => h) fun dp _ => ?_
  refine wp_mono (always_purgeMacs dpid _ 0 s) ?_ ?_
  · intro _ _ hpost
    obtain ⟨hosts, dps, rfl, hsame⟩ := hpost
    refine wp_mono (connections_dropDatapath lc dpid (h.hosts hosts hsame)) ?_ fun _ _ h => h
    intro _ s' hs'
    refine Always.mono (always_removeWindowEdges dpid _ s') ?_
    intro _ hpost
    obtain ⟨g, rfl, _⟩ := hpost
    exact hs'
  · intro _ _ hpost
    obtain ⟨hosts, dps, rfl, hsame⟩ := hpost
    exact h.hosts hosts hsame

theorem connections_step {s : AppManager env.nx.Graph} (r : Received) (h : Connections s) :
    Connections (receive env s r) := by
  refine receive_of_always _ (fun s hs => hs.unmoved (unmoved_close s r.lc)) ?_
  cases hmsg : r.ev.msg with
  | DPConnected dpid w =>
    unfold dispatch_event
    rw [hmsg]
    exact connections_connected r.lc dpid h
  | DatapathLeave dpid =>
    unfold dispatch_event
    rw [hmsg]
    exact connections_leave r.lc dpid h
  | HostConnected dpid mac =>
    unfold dispatch_event
    rw [hmsg]
    refine Always.mono (always_host_connected r.lc dpid mac s) ?_
    intro _ hpost
    obtain ⟨hosts, dps, rfl, hsame⟩ := hpost
    exact h.hosts hosts hsame
  | HostLeave dpid mac =>
    unfold dispatch_event
    rw [hmsg]
    refine Always.mono (always_host_leave dpid mac s) ?_
    intro _ hpost
    obtain ⟨hosts, dps, rfl, hsame⟩ := hpost
    exact h.hosts hosts hsame
  | HelloUp | GidRequest | PacketIn | LoadReport | EchoReply | GraphInfo | RoleNotify | Error | BarrierReply =>
    have hu := unmoved_dispatch r.lc r.ev s (fun _ _ h => by rw [hmsg] at h; cases h)
      (fun _ h => by rw [hmsg] at h; cases h) (fun _ _ h => by rw [hmsg] at h; cases h)
      fun _ _ h => by rw [hmsg] at h; cases h
    exact wp_mono hu (fun _ _ hu => h.unmoved hu) fun _ _ hu => h.unmoved hu

end

end AppManager

end VnfDockerNet
