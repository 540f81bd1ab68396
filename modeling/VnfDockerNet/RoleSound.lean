import VnfDockerNet.CentralSpec
import VnfDockerNet.Lib.Runs

/-!
# Masters and generation ids

Only DATAPATH_CONNECTED makes a master, and only it and GID_REQUEST hand out
generation ids; every other message is `Quiet`. A second master appears when a
switch connects to a new controller before the old one has reported the leave:
nothing takes the role away from the old one. A generation id comes back when
the switch is connected again after its `Datapath` object was dropped.
-/

namespace VnfDockerNet

open Python Networkx Runs

/-- The dpid and the generation id that a message carries. -/
def MsgDown.gid : MsgDown → Option (Nat × Nat)
  | .RoleAssign dpid _ _ gid => some (dpid, gid)
  | .GidReply dpid gid => some (dpid, gid)
  | _ => none

namespace AppManager

section
variable {Γ : Type}

structure Quiet (s s' : AppManager Γ) : Prop where
  role : ∀ lc d r, (s'.lcs lc).dpid_to_role.get d = some r → (s.lcs lc).dpid_to_role.get d = some r
  listed : ∀ d dp', s'.datapath_list.get d = some dp' → ∃ dp, s.datapath_list.get d = some dp ∧
    dp.lc_home = dp'.lc_home ∧ dp._generation_id = dp'._generation_id
  sent : ∃ msgs, s'.sent = s.sent ++ msgs ∧ ∀ m ∈ msgs, m.msg.gid = none

theorem Quiet.refl (s : AppManager Γ) : Quiet s s :=
  ⟨fun _ _ _ h => h, fun _ dp h => ⟨dp, h, rfl, rfl⟩, [], by simp, by simp⟩

theorem Quiet.trans {s s' s'' : AppManager Γ} (h : Quiet s s') (h' : Quiet s' s'') : Quiet s s'' := by
  refine ⟨fun lc d r hr => h.role lc d r (h'.role lc d r hr), fun d dp'' hdp'' => ?_, ?_⟩
  · obtain ⟨dp', hdp', hhome', hgen'⟩ := h'.listed d dp'' hdp''
    obtain ⟨dp, hdp, hhome, hgen⟩ := h.listed d dp' hdp'
    exact ⟨dp, hdp, hhome.trans hhome', hgen.trans hgen'⟩
  · obtain ⟨msgs, hs, hm⟩ := h.sent
    obtain ⟨msgs', hs', hm'⟩ := h'.sent
    refine ⟨msgs ++ msgs', by rw [hs', hs, List.append_assoc], fun m hmem => ?_⟩
    exact (List.mem_append.mp hmem).elim (hm m) (hm' m)

theorem SameButMacs.listed {dps dps' : Dict Nat Datapath} (h : SameButMacs dps dps') {d : Nat} {dp' : Datapath}
    (hdp' : dps'.get d = some dp') : ∃ dp, dps.get d = some dp ∧ dp.lc_home = dp'.lc_home ∧
      dp._generation_id = dp'._generation_id ∧ dp.lc_connected = dp'.lc_connected := by
  obtain ⟨mac, h⟩ := h
  rw [h, Option.map_eq_some_iff] at hdp'
  obtain ⟨dp, hdp, rfl⟩ := hdp'
  exact ⟨dp, hdp, rfl, rfl, rfl⟩

end

section
variable {env : Env}

theorem quiet_close (s : AppManager env.nx.Graph) (lc : Nat) : Quiet s (s.close lc) :=
  ⟨fun l d r hr => by rwa [close_role] at hr, fun _ dp h => ⟨dp, h, rfl, rfl⟩, [], by simp [close], by simp⟩

theorem quiet_sends (s : AppManager env.nx.Graph) (lc x : Nat) {msgs : List Sent} (hm : ∀ m ∈ msgs, m.msg.gid = none) :
    Quiet s (sends s lc x msgs) :=
  ⟨fun l d r hr => by rwa [sends_role] at hr, fun _ dp h => ⟨dp, h, rfl, rfl⟩, msgs, rfl, hm⟩

theorem quiet_hosts (s : AppManager env.nx.Graph) (hosts : Dict Bytes Lcid) {dps : Dict Nat Datapath}
    (h : SameButMacs s.datapath_list dps) : Quiet s { s with host_to_lcid := hosts, datapath_list := dps } := by
  refine ⟨fun _ _ _ hr => hr, fun d dp' hdp' => ?_, [], by simp, by simp⟩
  obtain ⟨dp, hdp, hhome, hgen, _⟩ := h.listed hdp'
  exact ⟨dp, hdp, hhome, hgen⟩

theorem quiet_leave (s : AppManager env.nx.Graph) {lc dpid : Nat} (hosts : Dict Bytes Lcid) {dps dps' : Dict Nat Datapath}
    {role : Dict Nat Nat} (load win : Dict Nat Nat) (g : env.nx.Graph) (hsame : SameButMacs s.datapath_list dps)
    (hdrop : dps' = dps ∨ Dropped lc dpid dps dps')
    (hrole : role = (s.lcs lc).dpid_to_role ∨ role = (s.lcs lc).dpid_to_role.erase dpid) :
    Quiet s { s with
      host_to_lcid := hosts
      datapath_list := dps'
      LC_LEVEL_TOPO := g
      lcs := Function.update s.lcs lc { s.lcs lc with dpid_to_role := role, dpid_to_load := load, dp_win := win } } := by
  refine ⟨fun l d r hr => ?_, fun d dp' hdp' => ?_, [], by simp, by simp⟩
  · by_cases hl : l = lc
    · subst hl
      have hr' : role.get d = some r := by
        have := hr
        simp only [Function.update_self] at this
        exact this
      rcases hrole with rfl | rfl
      · exact hr'
      · exact (Dict.get_erase_some.mp hr').2
    · simp only [Function.update_of_ne hl] at hr
      exact hr
  · have hlisted : ∃ dp, dps.get d = some dp ∧ dp.lc_home = dp'.lc_home ∧ dp._generation_id = dp'._generation_id := by
      rcases hdrop with rfl | ⟨dp, hdp, ⟨_, rfl⟩ | ⟨_, rfl⟩⟩
      · exact ⟨dp', hdp', rfl, rfl⟩
      · exact ⟨dp', (Dict.get_erase_some.mp hdp').2, rfl, rfl⟩
      · rcases Dict.get_insert_some.mp hdp' with ⟨rfl, rfl⟩ | ⟨_, hdp'⟩
        · exact ⟨dp, hdp, rfl, rfl⟩
        · exact ⟨dp', hdp', rfl, rfl⟩
    obtain ⟨dp, hdp, hhome, hgen⟩ := hlisted
    obtain ⟨dp₀, hdp₀, hhome₀, hgen₀, _⟩ := hsame.listed hdp
    exact ⟨dp₀, hdp₀, hhome₀.trans hhome, hgen₀.trans hgen⟩

/-- **Every message but DATAPATH_CONNECTED and GID_REQUEST is quiet.** -/
theorem quiet_dispatch (lc : Nat) (ev : Event MsgUp) (s : AppManager env.nx.Graph)
    (hc : ∀ dpid w, ev.msg ≠ .DPConnected dpid w) (hg : ∀ dpid, ev.msg ≠ .GidRequest dpid) :
    Always (dispatch_event env lc ev) s (Quiet s) := by
  refine Always.mono (outcome_dispatch lc ev s) ?_
  intro s' hout
  cases hout with
  | connect dpid w hosts dps dp x msgs hmsg => exact absurd hmsg (hc dpid w)
  | gid dpid dp x msgs hmsg => exact absurd hmsg (hg dpid)
  | hello lcid x msgs _ _ hmsgs =>
    have hq : Quiet s (helloed s lc lcid) :=
      ⟨fun l d r hr => by rwa [helloed_role] at hr, fun _ dp h => ⟨dp, h, rfl, rfl⟩, [], by simp [helloed], by simp⟩
    exact hq.trans (quiet_sends _ lc x fun m h => by rw [hmsgs.2 m h]; rfl)
  | hosts hosts dps _ hdps => exact quiet_hosts s hosts hdps
  | packetIn dst_mac msgs _ hmsgs =>
    refine ⟨fun _ _ _ hr => hr, fun _ dp h => ⟨dp, h, rfl, rfl⟩, msgs, rfl, fun m h => ?_⟩
    obtain ⟨⟨_, _, _, _, _, hm⟩, _⟩ := hmsgs m h
    rw [hm]
    rfl
  | load dpid pkt_in_cnt dp hdp =>
    refine ⟨fun l d r hr => ?_, fun d dp' hdp' => ?_, [], by simp, by simp⟩
    · have hr' : (Function.update s.lcs lc _ l).dpid_to_role.get d = some r := hr
      rwa [update_proj LocalController.dpid_to_role (by rfl)] at hr'
    · rcases Dict.get_insert_some.mp hdp' with ⟨rfl, rfl⟩ | ⟨_, hdp'⟩
      · exact ⟨dp, hdp, rfl, rfl⟩
      · exact ⟨dp', hdp', rfl, rfl⟩
  | leave dpid hosts dps dps' role load win g _ hdps hdrop hrole =>
    exact quiet_leave s hosts load win g hdps hdrop hrole
  | echo | graph => exact ⟨fun _ _ _ hr => hr, fun _ dp h => ⟨dp, h, rfl, rfl⟩, [], by simp, by simp⟩
  | same => exact .refl s

theorem keeps_of_quiet (P : AppManager env.nx.Graph → Prop) {s : AppManager env.nx.Graph} {r : Received}
    (hquiet : ∀ {s s'}, P s → Quiet s s' → P s')
    (hc : ∀ dpid w, r.ev.msg = .DPConnected dpid w → Always (_tflcp_datapath_connected_handler env r.lc dpid) s P)
    (hg : ∀ dpid, r.ev.msg = .GidRequest dpid → Always (_tflcp_gid_request_handler env r.lc dpid) s P) (h : P s) :
    P (receive env s r) := by
  refine receive_of_always _ (fun s hs => hquiet hs (quiet_close s r.lc)) ?_
  by_cases hconn : ∃ dpid w, r.ev.msg = .DPConnected dpid w
  · obtain ⟨dpid, w, hmsg⟩ := hconn
    have hx := hc dpid w hmsg
    unfold dispatch_event
    rw [hmsg]
    exact hx
  · by_cases hgid : ∃ dpid, r.ev.msg = .GidRequest dpid
    · obtain ⟨dpid, hmsg⟩ := hgid
      have hx := hg dpid hmsg
      unfold dispatch_event
      rw [hmsg]
      exact hx
    · have hq := quiet_dispatch r.lc r.ev s (fun dpid w hm => hconn ⟨dpid, w, hm⟩) fun dpid hm => hgid ⟨dpid, hm⟩
      exact Always.mono hq fun _ hq => hquiet h hq

/-! ## One master -/

def IsMaster {Γ : Type} (s : AppManager Γ) (lc dpid : Nat) : Prop :=
  (s.lcs lc).dpid_to_role.get dpid = some OFPCR_ROLE_MASTER

def SingleMaster {Γ : Type} (s : AppManager Γ) : Prop :=
  ∀ dpid lc, IsMaster s lc dpid → (∀ lc', IsMaster s lc' dpid → lc' = lc) ∧
    ∀ dp, s.datapath_list.get dpid = some dp → dp.lc_home = some lc

/-- No other controller is still the master of the switch that connects. -/
def Uncontested {Γ : Type} (s : AppManager Γ) (r : Received) : Prop :=
  ∀ dpid w, r.ev.msg = .DPConnected dpid w → ∀ lc, IsMaster s lc dpid → lc = r.lc

theorem SingleMaster.mono {Γ : Type} {s s' : AppManager Γ} (h : SingleMaster s)
    (hrole : ∀ lc d, IsMaster s' lc d → IsMaster s lc d)
    (hhome : ∀ d dp', s'.datapath_list.get d = some dp' → ∃ dp, s.datapath_list.get d = some dp ∧
      dp.lc_home = dp'.lc_home) : SingleMaster s' := by
  intro d lc hm
  obtain ⟨huniq, hh⟩ := h d lc (hrole lc d hm)
  refine ⟨fun lc' hm' => huniq lc' (hrole lc' d hm'), fun dp' hdp' => ?_⟩
  obtain ⟨dp, hdp, heq⟩ := hhome d dp' hdp'
  rw [← heq]
  exact hh dp hdp

theorem SingleMaster.quiet {Γ : Type} {s s' : AppManager Γ} (h : SingleMaster s) (hq : Quiet s s') : SingleMaster s' :=
  h.mono (fun lc d hm => hq.role lc d _ hm) fun d dp' hdp' => by
    obtain ⟨dp, hdp, hhome, _⟩ := hq.listed d dp' hdp'
    exact ⟨dp, hdp, hhome⟩

theorem singleMaster_connected {lc dpid : Nat} {s : AppManager env.nx.Graph} (h : SingleMaster s)
    (hu : ∀ lc', IsMaster s lc' dpid → lc' = lc) :
    Always (_tflcp_datapath_connected_handler env lc dpid) s SingleMaster := by
  refine Always.mono (always_datapath_connected lc dpid s) ?_
  intro _ hpost
  rcases hpost with ⟨hosts, dps, rfl, hsame⟩ | ⟨hosts, dps, dp, x, msgs, hdps, hdp, rfl, hm⟩
  · exact h.quiet (quiet_hosts s hosts hsame)
  · have hmaster : ∀ l d, IsMaster (sends (homed { s with host_to_lcid := hosts, datapath_list := dps } lc dpid dp)
        lc x msgs) l d → (l = lc ∧ d = dpid) ∨ IsMaster s l d := fun l d hl => by
      unfold IsMaster at hl
      rw [sends_role, homed_role] at hl
      split at hl
      · exact Or.inl (by assumption)
      · exact Or.inr hl
    intro d l hl
    by_cases hd : d = dpid
    · -- the switch itself: its only master is its home
      subst hd
      have honly : ∀ l', IsMaster (sends (homed { s with host_to_lcid := hosts, datapath_list := dps } lc d dp)
          lc x msgs) l' d → l' = lc := fun l' hl' => (hmaster l' d hl').elim And.left (hu l')
      have hl' := honly l hl
      subst hl'
      refine ⟨fun l' => honly l', fun dp' hdp' => ?_⟩
      have hdp'' : Dict.get (dps.insert d _) d = some dp' := hdp'
      rw [Dict.get_insert, if_pos rfl] at hdp''
      cases hdp''
      rfl
    · have hold : ∀ l', IsMaster (sends (homed { s with host_to_lcid := hosts, datapath_list := dps } lc dpid dp)
          lc x msgs) l' d → IsMaster s l' d := fun l' hl' => (hmaster l' d hl').elim (fun h => absurd h.2 hd) id
      obtain ⟨huniq, hhome⟩ := h d l (hold l hl)
      refine ⟨fun l' hl' => huniq l' (hold l' hl'), fun dp' hdp' => ?_⟩
      have hdp'' : Dict.get (dps.insert dpid _) d = some dp' := hdp'
      rw [Dict.get_insert, if_neg hd] at hdp''
      rcases hdps with hsame | ⟨_, rfl⟩
      · obtain ⟨dp₀, hdp₀, hh, _⟩ := hsame.listed hdp''
        rw [← hh]
        exact hhome dp₀ hdp₀
      · rw [Dict.get_insert, if_neg hd] at hdp''
        exact hhome dp' hdp''

theorem singleMaster_gid_request {lc dpid : Nat} {s : AppManager env.nx.Graph} (h : SingleMaster s) :
    Always (_tflcp_gid_request_handler env lc dpid) s SingleMaster := by
  refine Always.mono (always_gid_request lc dpid s) ?_
  intro _ hpost
  rcases hpost with rfl | ⟨dp, x, msgs, hdp, rfl, _⟩
  · exact h
  · refine h.mono (fun l d hl => by unfold IsMaster at hl; rwa [sends_role] at hl) fun d dp' hdp' => ?_
    rcases Dict.get_insert_some.mp hdp' with ⟨rfl, rfl⟩ | ⟨_, hdp'⟩
    · exact ⟨dp, hdp, rfl⟩
    · exact ⟨dp', hdp', rfl⟩

theorem singleMaster_step {s : AppManager env.nx.Graph} {r : Received} (h : SingleMaster s) (hu : Uncontested s r) :
    SingleMaster (receive env s r) :=
  keeps_of_quiet SingleMaster SingleMaster.quiet (fun dpid w hmsg => singleMaster_connected h (hu dpid w hmsg))
    (fun _ _ => singleMaster_gid_request h) h

/-- **One master**, and it is the home, as long as no switch connects to a new
controller while another one is still its master. -/
theorem single_master (env : Env) (address : Nat → String × Nat) (xid : Nat → Nat) (rs : List Received)
    (h : Allowed (receive env) (fun s r => Accepts env s r ∧ Uncontested s r) (init env address xid) rs) :
    SingleMaster (rs.foldl (receive env) (init env address xid)) := by
  have hinit : SingleMaster (init env address xid) := fun dpid lc hm => by
    have : (∅ : Dict Nat Nat).get dpid = some OFPCR_ROLE_MASTER := hm
    rw [Dict.get_empty] at this
    cases this
  exact Allowed.invariant _ (fun s r hs hr => singleMaster_step hs hr.2) hinit h

theorem receive_quiet {s : AppManager env.nx.Graph} {r : Received} (hc : ∀ dpid w, r.ev.msg ≠ .DPConnected dpid w)
    (hg : ∀ dpid, r.ev.msg ≠ .GidRequest dpid) : Quiet s (receive env s r) :=
  receive_of_always _ (fun s' hq => hq.trans (quiet_close s' r.lc)) (quiet_dispatch r.lc r.ev s hc hg)

theorem single_master_first_connection :
    SingleMaster ([received 0 1 .HelloUp, received 0 2 (.DPConnected 7 false)].foldl
      (receive (sampleEnv [])) (sampleInit [])) := by
  refine single_master (sampleEnv []) _ _ _ ⟨⟨by decide, ?_⟩, ⟨by decide, ?_⟩, trivial⟩
  · intro dpid w h
    cases h
  · intro dpid w _ lc hm
    have hq : Quiet (sampleInit []) (receive (sampleEnv []) (sampleInit []) (received 0 1 .HelloUp)) :=
      receive_quiet (fun _ _ h => by cases h) fun _ h => by cases h
    have hnone : (∅ : Dict Nat Nat).get dpid = some OFPCR_ROLE_MASTER := hq.role lc dpid _ hm
    rw [Dict.get_empty] at hnone
    cases hnone

/-- The switch connects to its new controller before the old one reports the leave. -/
theorem single_master_overlap :
    Allowed (receive (sampleEnv [])) (Accepts (sampleEnv [])) (sampleInit [])
      [received 0 1 .HelloUp, received 1 1 .HelloUp, received 0 2 (.DPConnected 7 false),
        received 1 2 (.DPConnected 7 false)] ∧
    ¬ SingleMaster ([received 0 1 .HelloUp, received 1 1 .HelloUp, received 0 2 (.DPConnected 7 false),
        received 1 2 (.DPConnected 7 false)].foldl (receive (sampleEnv [])) (sampleInit [])) := by
  refine ⟨by decide, fun h => ?_⟩
  have := (h 7 0 (by unfold IsMaster; decide)).1 1 (by unfold IsMaster; decide)
  cases this

/-! ## Generation ids -/

def gidsFor {Γ : Type} (s : AppManager Γ) (dpid : Nat) : List Nat :=
  s.sent.filterMap fun m => m.msg.gid.bind fun g => if g.1 = dpid then some g.2 else none

def GidsRise {Γ : Type} (s : AppManager Γ) : Prop := ∀ dpid, (gidsFor s dpid).Pairwise (· < ·)

/-- The switch that connects is listed, or never got a generation id. -/
def NotRevived {Γ : Type} (s : AppManager Γ) (r : Received) : Prop :=
  match r.ev.msg with
  | .DPConnected dpid _ => dpid ∈ s.datapath_list ∨ gidsFor s dpid = []
  | _ => True

instance {Γ : Type} (s : AppManager Γ) (r : Received) : Decidable (NotRevived s r) := by
  unfold NotRevived
  split <;> infer_instance

/-- The sent ids rise, and stay below the counter of a listed datapath. -/
def GidsBelow {Γ : Type} (s : AppManager Γ) : Prop :=
  GidsRise s ∧ ∀ dpid dp, s.datapath_list.get dpid = some dp → ∀ g ∈ gidsFor s dpid, g < dp._generation_id

theorem gidsFor_append {Γ : Type} {s s' : AppManager Γ} {msgs : List Sent} (h : s'.sent = s.sent ++ msgs) (dpid : Nat) :
    gidsFor s' dpid = gidsFor s dpid ++
      msgs.filterMap fun m => m.msg.gid.bind fun g => if g.1 = dpid then some g.2 else none := by
  unfold gidsFor
  rw [h, List.filterMap_append]

theorem Quiet.gidsFor {Γ : Type} {s s' : AppManager Γ} (hq : Quiet s s') (dpid : Nat) :
    gidsFor s' dpid = AppManager.gidsFor s dpid := by
  obtain ⟨msgs, hs, hm⟩ := hq.sent
  rw [gidsFor_append hs, List.filterMap_eq_nil_iff.mpr fun m h => by rw [hm m h]; rfl, List.append_nil]

theorem GidsBelow.quiet {Γ : Type} {s s' : AppManager Γ} (h : GidsBelow s) (hq : Quiet s s') : GidsBelow s' := by
  refine ⟨fun dpid => by rw [hq.gidsFor]; exact h.1 dpid, fun dpid dp' hdp' g hg => ?_⟩
  obtain ⟨dp, hdp, _, hgen⟩ := hq.listed dpid dp' hdp'
  rw [hq.gidsFor] at hg
  rw [← hgen]
  exact h.2 dpid dp hdp g hg

theorem GidsBelow.hand_out {Γ : Type} {s s' : AppManager Γ} (dpid gid : Nat) {msgs : List Sent} (h : GidsBelow s)
    (hs : s'.sent = s.sent ++ msgs) (hm : ∀ m ∈ msgs, m.msg.gid = some (dpid, gid)) (hone : msgs.length ≤ 1)
    (hbelow : ∀ g ∈ gidsFor s dpid, g < gid)
    (hget : ∀ d dp', s'.datapath_list.get d = some dp' → if d = dpid then dp'._generation_id = gid + 1
      else ∃ dp, s.datapath_list.get d = some dp ∧ dp._generation_id = dp'._generation_id) : GidsBelow s' := by
  have hgids : ∀ d, gidsFor s' d = gidsFor s d ∨ d = dpid ∧ gidsFor s' d = gidsFor s d ++ [gid] := fun d => by
    rw [gidsFor_append hs]
    match msgs, hm, hone with
    | [], _, _ => exact Or.inl (List.append_nil _)
    | [m], hm, _ =>
      have hg := hm m (List.mem_singleton_self m)
      by_cases hd : d = dpid
      · subst hd
        exact Or.inr ⟨rfl, by simp [hg]⟩
      · exact Or.inl (by simp [hg, Ne.symm hd])
  refine ⟨fun d => ?_, fun d dp' hdp' g hg => ?_⟩
  · rcases hgids d with heq | ⟨rfl, heq⟩
    · rw [heq]; exact h.1 d
    · rw [heq, List.pairwise_append]
      refine ⟨h.1 d, List.pairwise_singleton _ _, fun a ha b hb => ?_⟩
      rw [List.mem_singleton.mp hb]
      exact hbelow a ha
  · have hd' := hget d dp' hdp'
    by_cases hd : d = dpid
    · rw [if_pos hd] at hd'
      rcases hgids d with heq | ⟨_, heq⟩
      · rw [heq, hd] at hg
        have := hbelow g hg
        omega
      · rw [heq, List.mem_append, List.mem_singleton] at hg
        rcases hg with hg | rfl
        · rw [hd] at hg
          have := hbelow g hg
          omega
        · omega
    · rw [if_neg hd] at hd'
      obtain ⟨dp, hdp, hgen⟩ := hd'
      rcases hgids d with heq | ⟨hd'', _⟩
      · rw [heq] at hg
        rw [← hgen]
        exact h.2 d dp hdp g hg
      · exact absurd hd'' hd

theorem gidsBelow_connected {lc dpid : Nat} {s : AppManager env.nx.Graph} (h : GidsBelow s)
    (hnew : dpid ∈ s.datapath_list ∨ gidsFor s dpid = []) :
    Always (_tflcp_datapath_connected_handler env lc dpid) s GidsBelow := by
  refine Always.mono (always_datapath_connected lc dpid s) ?_
  intro _ hpost
  rcases hpost with ⟨hosts, dps, rfl, hsame⟩ | ⟨hosts, dps, dp, x, msgs, hdps, hdp, rfl, hlen, hm⟩
  · exact h.quiet (quiet_hosts s hosts hsame)
  · refine h.hand_out dpid dp._generation_id rfl (fun m hmem => by rw [hm m hmem]; rfl) hlen ?_ ?_
    · intro g hg
      rcases hdps with hsame | ⟨hnone, rfl⟩
      · obtain ⟨dp₀, hdp₀, _, hgen, _⟩ := hsame.listed hdp
        rw [← hgen]
        exact h.2 dpid dp₀ hdp₀ g hg
      · -- a new object counts from 1 again
        rcases hnew with hin | hempty
        · exact absurd hin (Dict.get_eq_none.mp hnone)
        · rw [hempty] at hg; cases hg
    · intro d dp' hdp'
      rcases Dict.get_insert_some.mp hdp' with ⟨hd, rfl⟩ | ⟨hd, hdp'⟩
      · rw [if_pos hd]
      · rw [if_neg hd]
        rcases hdps with hsame | ⟨_, rfl⟩
        · obtain ⟨dp₀, hdp₀, _, hgen, _⟩ := hsame.listed hdp'
          exact ⟨dp₀, hdp₀, hgen⟩
        · rw [Dict.get_insert, if_neg hd] at hdp'
          exact ⟨dp', hdp', rfl⟩

theorem gidsBelow_gid_request {lc dpid : Nat} {s : AppManager env.nx.Graph} (h : GidsBelow s) :
    Always (_tflcp_gid_request_handler env lc dpid) s GidsBelow := by
  refine Always.mono (always_gid_request lc dpid s) ?_
  intro _ hpost
  rcases hpost with rfl | ⟨dp, x, msgs, hdp, rfl, hlen, hm⟩
  · exact h
  · refine h.hand_out dpid dp._generation_id rfl (fun m hmem => by rw [hm m hmem]; rfl) hlen
      (h.2 dpid dp hdp) ?_
    intro d dp' hdp'
    rcases Dict.get_insert_some.mp hdp' with ⟨hd, rfl⟩ | ⟨hd, hdp'⟩
    · rw [if_pos hd]
    · rw [if_neg hd]
      exact ⟨dp', hdp', rfl⟩

theorem gidsBelow_step {s : AppManager env.nx.Graph} {r : Received} (h : GidsBelow s) (hr : NotRevived s r) :
    GidsBelow (receive env s r) := by
  refine keeps_of_quiet GidsBelow GidsBelow.quiet (fun dpid w hmsg => ?_) (fun _ _ => gidsBelow_gid_request h) h
  unfold NotRevived at hr
  rw [hmsg] at hr
  exact gidsBelow_connected h hr

/-- **Generation ids rise** for every switch, as long as none is connected again
after its datapath object was dropped. -/
theorem generation_ids_rise (env : Env) (address : Nat → String × Nat) (xid : Nat → Nat) (rs : List Received)
    (h : Allowed (receive env) (fun s r => Accepts env s r ∧ NotRevived s r) (init env address xid) rs) :
    GidsRise (rs.foldl (receive env) (init env address xid)) := by
  have hinit : GidsBelow (init env address xid) := by
    refine ⟨fun dpid => .nil, fun dpid dp hdp => ?_⟩
    have : (∅ : Dict Nat Datapath).get dpid = some dp := hdp
    rw [Dict.get_empty] at this
    cases this
  have hinv : GidsBelow (rs.foldl (receive env) (init env address xid)) :=
    Allowed.invariant _ (fun s r hs hr => gidsBelow_step hs hr.2) hinit h
  exact hinv.1

theorem generation_ids_rise_handover :
    GidsRise ([received 0 1 .HelloUp, received 1 1 .HelloUp, received 0 2 (.DPConnected 7 false),
        received 1 2 (.DPConnected 7 false), received 0 3 (.DatapathLeave 7), received 1 3 (.GidRequest 7)].foldl
      (receive (sampleEnv [])) (sampleInit [])) :=
  generation_ids_rise (sampleEnv []) _ _ _ (by decide)

/-- The switch leaves its only controller and comes back. -/
theorem generation_ids_rise_reconnect :
    Allowed (receive (sampleEnv [])) (Accepts (sampleEnv [])) (sampleInit [])
      [received 0 1 .HelloUp, received 0 2 (.DPConnected 7 false), received 0 3 (.DatapathLeave 7),
        received 0 4 (.DPConnected 7 false)] ∧
    ¬ GidsRise ([received 0 1 .HelloUp, received 0 2 (.DPConnected 7 false), received 0 3 (.DatapathLeave 7),
        received 0 4 (.DPConnected 7 false)].foldl (receive (sampleEnv [])) (sampleInit [])) := by
  refine ⟨by decide, fun h => ?_⟩
  have hids : gidsFor ([received 0 1 .HelloUp, received 0 2 (.DPConnected 7 false), received 0 3 (.DatapathLeave 7),
      received 0 4 (.DPConnected 7 false)].foldl (receive (sampleEnv [])) (sampleInit [])) 7 = [1, 1] := by decide
  have := h 7
  rw [hids] at this
  exact absurd this (by decide)

end

end AppManager

end VnfDockerNet
