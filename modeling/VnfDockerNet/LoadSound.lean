import VnfDockerNet.HelloSound

/-!
# Load reports and switches that leave

`_load_report` goes through a list of the switches that it took before its last
wait. The reports and the counters are those of connected switches exactly in
the runs in which no switch leaves between the list and its turn in the loop.
-/

namespace VnfDockerNet

open Python Networkx Runs

/-! ## Withdrawn switches -/

/-- The switch was reported to leave, and not to be connected since. -/
def Withdrawn (msgs : List MsgUp) (dpid : Nat) : Prop :=
  ∃ before after, msgs = before ++ .DatapathLeave dpid :: after ∧ ∀ is_window, .DPConnected dpid is_window ∉ after

/-- No load is reported for a withdrawn switch. -/
def ReportsListed (msgs : List MsgUp) : Prop :=
  ∀ before dpid pkt_in_cnt after, msgs = before ++ .LoadReport dpid pkt_in_cnt :: after → ¬ Withdrawn before dpid

theorem withdrawn_snoc {msgs : List MsgUp} {msg : MsgUp} {dpid : Nat} :
    Withdrawn (msgs ++ [msg]) dpid ↔
      msg = .DatapathLeave dpid ∨ Withdrawn msgs dpid ∧ ∀ is_window, msg ≠ .DPConnected dpid is_window := by
  constructor
  · intro h
    obtain ⟨before, after, hmsgs, hafter⟩ := h
    rcases snoc_split hmsgs with ⟨_, hmsg, _⟩ | ⟨after', rfl, hold⟩
    · exact Or.inl hmsg
    · refine Or.inr ⟨⟨before, after', hold, fun w hw => hafter w (List.mem_append_left _ hw)⟩, fun w hw => ?_⟩
      apply hafter w
      rw [hw]
      exact List.mem_append_right _ List.mem_cons_self
  · intro h
    rcases h with rfl | ⟨⟨before, after, rfl, hafter⟩, hmsg⟩
    · exact ⟨msgs, [], rfl, fun _ h => absurd h List.not_mem_nil⟩
    · refine ⟨before, after ++ [msg], by simp, fun w hw => ?_⟩
      rcases List.mem_append.mp hw with hw | hw
      · exact hafter w hw
      · exact hmsg w (List.mem_singleton.mp hw).symm

theorem reportsListed_snoc {msgs : List MsgUp} {msg : MsgUp} (h : ReportsListed msgs)
    (hmsg : ∀ dpid pkt_in_cnt, msg = .LoadReport dpid pkt_in_cnt → ¬ Withdrawn msgs dpid) :
    ReportsListed (msgs ++ [msg]) := by
  intro before dpid n after hmsgs
  rcases snoc_split hmsgs with ⟨rfl, rfl, _⟩ | ⟨after', _, hmsgs⟩
  · exact hmsg dpid n rfl
  · exact h before dpid n after' hmsgs

namespace Layer2Switch

variable {env : LocalEnv} {s : Layer2Switch env.nx.Graph}

/-! ## The invariant -/

def msgs {Γ : Type} (s : Layer2Switch Γ) : List MsgUp := s.sent.map SentUp.msg

/-- The loads reported and counted are those of switches not withdrawn. In any
order of arrival that keeps this controller's own, the central controller looks
up no withdrawn switch for a load report. -/
structure LoadsCurrent {Γ : Type} (s : Layer2Switch Γ) : Prop where
  reports : ReportsListed s.msgs
  counters : ∀ dpid, dpid ∈ s.dpid_to_load → dpid ∈ s.datapaths
  central : ∀ lc rs r dpid pkt_in_cnt, LocalSystem.Carries lc s.msgs (rs ++ [r]) → r.lc = lc →
    r.ev.msg = .LoadReport dpid pkt_in_cnt → ¬ Withdrawn ((rs.filter fun r => r.lc = lc).map fun r => r.ev.msg) dpid

structure LoadInv {Γ : Type} (s : Layer2Switch Γ) : Prop where
  sized : ∀ dpid ∈ s.datapaths, dpid < 2 ^ 64
  counters : ∀ dpid, dpid ∈ s.dpid_to_load → dpid ∈ s.datapaths
  connected : ∀ dpid ∈ s.datapaths, ¬ Withdrawn s.msgs dpid
  reports : ReportsListed s.msgs

theorem LoadInv.current (h : LoadInv s) : LoadsCurrent s where
  reports := h.reports
  counters := h.counters
  central lc rs r dpid n hcarries hlc hmsg := by
    obtain ⟨rest, hrest⟩ := hcarries
    have hr : [r].filter (fun r => r.lc = lc) = [r] := by simp [hlc]
    rw [List.filter_append, List.map_append, hr] at hrest
    apply h.reports _ dpid n rest
    rw [← hrest, List.append_assoc, ← hmsg]
    rfl

theorem LoadInv.same {s s' : Layer2Switch env.nx.Graph} (h : LoadInv s) (hdatapaths : s'.datapaths = s.datapaths)
    (hload : ∀ d, d ∈ s'.dpid_to_load → d ∈ s.dpid_to_load) (hsent : s'.sent = s.sent) : LoadInv s' := by
  have hmsgs : s'.msgs = s.msgs := congrArg (List.map SentUp.msg) hsent
  constructor
  · rw [hdatapaths]
    exact h.sized
  · rw [hdatapaths]
    exact fun d hd => h.counters d (hload d hd)
  · rw [hdatapaths, hmsgs]
    exact h.connected
  · rw [hmsgs]
    exact h.reports

theorem msgs_snoc (s : Layer2Switch env.nx.Graph) (xid : Nat) (msg : MsgUp) :
    msgs { s with sent := s.sent ++ [⟨xid, msg⟩] } = s.msgs ++ [msg] := List.map_append

theorem LoadInv.snoc (h : LoadInv s) (xid : Nat) (msg : MsgUp) (hleave : ∀ d ∈ s.datapaths, msg ≠ .DatapathLeave d)
    (hreport : ∀ d n, msg = .LoadReport d n → d ∈ s.datapaths) :
    LoadInv { s with sent := s.sent ++ [⟨xid, msg⟩] } := by
  refine ⟨h.sized, h.counters, fun d hd hw => ?_, ?_⟩
  · rw [msgs_snoc] at hw
    rcases withdrawn_snoc.mp hw with hmsg | ⟨hw, _⟩
    · exact hleave d hd hmsg
    · exact h.connected d hd hw
  · rw [msgs_snoc]
    exact reportsListed_snoc h.reports fun d n hmsg => h.connected d (hreport d n hmsg)

def Neutral : MsgUp → Prop
  | .DPConnected .. | .DatapathLeave _ | .LoadReport .. => False
  | _ => True

theorem LoadInv.neutral (h : LoadInv s) (xid : Nat) {msg : MsgUp} (hmsg : Neutral msg) :
    LoadInv { s with sent := s.sent ++ [⟨xid, msg⟩] } := by
  apply h.snoc xid msg
  · rintro d _ rfl
    exact hmsg
  · rintro d n rfl
    exact hmsg.elim

theorem loadInv_send_msg (own_xid : Option Nat) {msg : MsgUp} (hmsg : Neutral msg) :
    Moves (Keeps LoadInv) (send_msg env own_xid msg) := by
  apply moves_send_msg (P := Neutral)
  · exact fun s x h => h.same rfl (fun _ hd => hd) rfl
  · exact fun s x msg hmsg h => h.neutral x hmsg
  · exact hmsg

/-! ## Steps -/

theorem loadInv_quiet {e : LocalEvent} (hjoin : ∀ datapath, e ≠ .SwitchFeatures datapath)
    (hleave : ∀ dpid, e ≠ .SwitchLeave dpid) (hround : e ≠ .LoadRound) : Moves (Keeps LoadInv) (handle env e) := by
  apply moves_handle e
  · exact fun s s' hd hl hs _ h => h.same hd (fun d => (hl d).mp) hs
  · intro s xid msg hmsg h
    apply h.neutral xid
    cases e with
    | SwitchFeatures datapath => exact absurd rfl (hjoin datapath)
    | SwitchLeave dpid => exact absurd rfl (hleave dpid)
    | LoadRound => exact absurd rfl hround
    | _ => cases msg <;> first | exact hmsg.elim | trivial
  · exact fun s _ h => h.same rfl (fun _ hd => hd) rfl
  · exact fun s _ _ _ _ h => h.same rfl (fun _ hd => hd) rfl
  · exact fun s datapath he => absurd he (hjoin datapath)
  · exact fun s dpid he => absurd he (hleave dpid)
  · exact fun s dpid he => absurd he (hleave dpid)
  · exact fun s _ _ he => absurd he hround

theorem loadInv_switchFeatures {datapath : OfDatapath} (h : LoadInv s) (hsize : datapath.id < 2 ^ 64) :
    wp (handle env (.SwitchFeatures datapath)) s (fun _ => LoadInv) fun _ => LoadInv := by
  apply wp_ofp_switch_features_handler hsize
  intro x y is_window out
  have hmsgs : ∀ dps load macs ports, msgs { s with
      datapaths := dps, dpid_to_load := load, mac_to_port := macs, dpid_to_inter_connection_port := ports, xid := x
      sent := s.sent ++ [⟨y, .DPConnected datapath.id is_window⟩], switch_out := out } =
      s.msgs ++ [.DPConnected datapath.id is_window] := fun _ _ _ _ => List.map_append
  refine ⟨fun d hd => ?_, fun d hd => ?_, fun d hd hw => ?_, ?_⟩
  · rcases (AList.mem_insert _).mp hd with rfl | hd
    · exact hsize
    · exact h.sized d hd
  · rw [AList.mem_insert]
    rcases (AList.mem_insert _).mp hd with rfl | hd
    · exact Or.inl rfl
    · exact Or.inr (h.counters d hd)
  · rw [hmsgs] at hw
    rcases withdrawn_snoc.mp hw with hmsg | ⟨hw, hne⟩
    · cases hmsg
    · rcases (AList.mem_insert _).mp hd with rfl | hd
      · exact hne is_window rfl
      · exact h.connected d hd hw
  · rw [hmsgs]
    apply reportsListed_snoc h.reports
    intro d n hmsg
    cases hmsg

def Parted {Γ : Type} (dpid : Nat) (s : Layer2Switch Γ) : Prop := LoadInv s ∧ dpid ∉ s.datapaths

theorem parted_removeMacs (dpid : Nat) : ∀ macs, Moves (Keeps (Parted dpid)) (removeMacs env macs)
  | [] => .pure _
  | _ :: macs => .bind (.modify fun _ h => ⟨h.1.same rfl (fun _ hd => hd) rfl, h.2⟩) fun _ => parted_removeMacs dpid macs

theorem loadInv_switchLeave (h : LoadInv s) (dpid : Nat) :
    wp (handle env (.SwitchLeave dpid)) s (fun _ => LoadInv) fun _ => LoadInv := by
  have hkeep : ∀ net ports, LoadInv { s with net, dpid_to_inter_connection_port := ports } :=
    fun _ _ => h.same rfl (fun _ hd => hd) rfl
  have hsub : ∀ d, d ∈ s.datapaths.erase dpid → d ∈ s.datapaths := fun d hd => (AList.mem_erase.mp hd).2
  have herase : ∀ (net : env.nx.Graph) load ports, (∀ d, d ∈ load → d ∈ s.datapaths.erase dpid) → Parted dpid { s with
      net, datapaths := s.datapaths.erase dpid, dpid_to_load := load, dpid_to_inter_connection_port := ports } := by
    intro net load ports hload
    refine ⟨⟨fun d hd => h.sized d (hsub d hd), hload, fun d hd => h.connected d (hsub d hd), h.reports⟩, fun hd => ?_⟩
    exact (AList.mem_erase.mp hd).1 rfl
  have hleft : ∀ d, d ∈ s.dpid_to_load.erase dpid → d ∈ s.datapaths.erase dpid := fun d hd =>
    AList.mem_erase.mpr ⟨(AList.mem_erase.mp hd).1, h.counters d (AList.mem_erase.mp hd).2⟩
  show wp (switch_leave_handler env dpid) s _ _
  unfold switch_leave_handler removeNode
  simp only [wp_bind, wp_get, wp_orRaise, wp_modify, wp_item]
  refine ⟨fun g _ => ⟨fun _ _ => ⟨fun _ _ => ⟨fun _ _ => ⟨fun macs _ => ?_, fun _ => ?_⟩, fun _ => ?_⟩, fun hnone => ?_⟩,
    fun _ => hkeep g s.dpid_to_inter_connection_port⟩, fun _ _ => h⟩
  · refine wp_mono (parted_removeMacs dpid _ _) (fun _ s₁ hk => ?_) fun _ _ hk => (hk (herase _ _ _ hleft)).1
    have h₁ : Parted dpid s₁ := hk (herase _ _ _ hleft)
    apply wp_send_msg
    · intro x y
      have hsnoc := h₁.1.snoc y (.DatapathLeave dpid) (fun d hd he => ?_) fun d n he => by cases he
      · exact hsnoc.same rfl (fun _ hd => hd) rfl
      · cases he
        exact h₁.2 hd
    · exact fun x y _ _ => h₁.1.same rfl (fun _ hd => hd) rfl
  · exact (herase _ _ _ hleft).1
  · exact (herase _ _ _ hleft).1
  · -- the switch had no counter
    refine (herase _ _ _ fun d hd => AList.mem_erase.mpr ⟨fun hd' => ?_, h.counters d hd⟩).1
    rw [hd'] at hd
    exact Dict.get_eq_none.mp hnone hd

theorem loadInv_step (h : LoadInv s) {e : LocalEvent} (hsize : Sized e) (hround : e ≠ .LoadRound) :
    LoadInv (step env s e) := by
  apply step_of_wp
  · exact fun s h => h.same rfl (fun _ hd => hd) rfl
  · by_cases hjoin : ∃ datapath, e = .SwitchFeatures datapath
    · obtain ⟨datapath, rfl⟩ := hjoin
      exact loadInv_switchFeatures h hsize
    · by_cases hleave : ∃ dpid, e = .SwitchLeave dpid
      · obtain ⟨dpid, rfl⟩ := hleave
        exact loadInv_switchLeave h dpid
      · have hquiet : Moves (Keeps LoadInv) (handle env e) :=
          loadInv_quiet (fun d hd => hjoin ⟨d, hd⟩) (fun d hd => hleave ⟨d, hd⟩) hround
        exact hquiet.kept h

/-! ## The report loop -/

theorem wp_report (dpid : Nat) {Q : Unit → Layer2Switch env.nx.Graph → Prop}
    {E : Exn → Layer2Switch env.nx.Graph → Prop}
    (hQ : ∀ x y pkt_in_cnt, Q () { s with
      dpid_to_load := s.dpid_to_load.insert dpid 0, xid := x, sent := s.sent ++ [⟨y, .LoadReport dpid pkt_in_cnt⟩] })
    (hE : ∀ x, E .StructError { s with dpid_to_load := s.dpid_to_load.insert dpid 0, xid := x }) :
    wp (reportLoads env [dpid]) s Q E := by
  unfold reportLoads reportLoads
  simp only [wp_bind, wp_get, wp_modify, wp_pure]
  apply wp_send_msg
  · exact fun x y => hQ x y _
  · exact fun x y _ _ => hE x

theorem loadInv_report (h : LoadInv s) {dpid : Nat} (hd : dpid ∈ s.datapaths) :
    wp (reportLoads env [dpid]) s (fun _ s' => LoadInv s' ∧ s'.datapaths = s.datapaths) fun _ => LoadInv := by
  have hcount : LoadInv { s with dpid_to_load := s.dpid_to_load.insert dpid 0 } := by
    refine ⟨h.sized, fun d hd' => ?_, h.connected, h.reports⟩
    rcases (AList.mem_insert _).mp hd' with rfl | hd'
    · exact hd
    · exact h.counters d hd'
  apply wp_report
  · intro x y n
    refine ⟨?_, rfl⟩
    have hsnoc := hcount.snoc y (.LoadReport dpid n) (fun _ _ he => by cases he) fun d n he => ?_
    · exact hsnoc.same rfl (fun _ hd => hd) rfl
    · cases he
      exact hd
  · exact fun x => hcount.same rfl (fun _ hd => hd) rfl

def Stray {Γ : Type} (s : Layer2Switch Γ) : Prop := ∃ dpid ∈ s.dpid_to_load, dpid ∉ s.datapaths

theorem stray_report {dpid : Nat} (h : Stray s ∨ dpid ∉ s.datapaths) :
    wp (reportLoads env [dpid]) s (fun _ => Stray) fun _ => Stray := by
  have hstray : ∃ d ∈ s.dpid_to_load.insert dpid 0, d ∉ s.datapaths := by
    rcases h with ⟨d, hd, hnot⟩ | hnot
    · exact ⟨d, (AList.mem_insert _).mpr (Or.inr hd), hnot⟩
    · exact ⟨dpid, (AList.mem_insert _).mpr (Or.inl rfl), hnot⟩
  apply wp_report
  · exact fun _ _ _ => hstray
  · exact fun _ => hstray

end Layer2Switch

namespace LocalSystem

open Layer2Switch

variable {env : LocalEnv} {a : LocalSystem env.nx.Graph}

/-! ## Turns -/

/-- The switches that the report loop gets to before it waits are connected. -/
def ReportsConnected (env : LocalEnv) (a : LocalSystem env.nx.Graph) : List Nat → Prop
  | [] => True
  | dpid :: dpids => dpid ∈ a.app.datapaths ∧
    match reportLoads env [dpid] a.app with
    | .ok _ app =>
      (a.sendNew .load_report app).Waits .load_report ∨ ReportsConnected env (a.sendNew .load_report app) dpids
    | .error _ _ => True

instance ReportsConnected.decidable (env : LocalEnv) :
    ∀ (a : LocalSystem env.nx.Graph) dpids, Decidable (ReportsConnected env a dpids)
  | _, [] => isTrue trivial
  | a, dpid :: dpids => by
    unfold ReportsConnected
    have hrest : ∀ a', Decidable (ReportsConnected env a' dpids) := fun a' => ReportsConnected.decidable env a' dpids
    cases reportLoads env [dpid] a.app with
    | ok _ app => exact instDecidableAnd
    | error _ _ => exact instDecidableAnd

/-- A report loop that goes on finds every switch of its list connected. -/
def StillConnected (env : LocalEnv) (a : LocalSystem env.nx.Graph) : Turn → Prop
  | .event .LoadRound => a.Waits .load_report ∨ ReportsConnected env a (a.load_report.getD [])
  | _ => True

theorem reportsConnected_cons {dpid : Nat} {dpids : List Nat} : ReportsConnected env a (dpid :: dpids) ↔
    dpid ∈ a.app.datapaths ∧ wp (reportLoads env [dpid]) a.app (fun _ app =>
      (a.sendNew .load_report app).Waits .load_report ∨ ReportsConnected env (a.sendNew .load_report app) dpids)
      fun _ _ => True := by
  unfold wp
  show _ ∧ _ ↔ _
  cases reportLoads env [dpid] a.app with
  | ok _ app => exact Iff.rfl
  | error _ _ => exact Iff.rfl

instance (env : LocalEnv) (a : LocalSystem env.nx.Graph) : ∀ t, Decidable (StillConnected env a t)
  | .event .LoadRound => inferInstanceAs (Decidable (_ ∨ _))
  | .event (.SwitchFeatures _) | .event (.RoleReply ..) | .event (.PacketIn ..) | .event (.TopologyChange _)
  | .event (.SwitchLeave _) | .event .Connected | .event (.Downlink ..) | .event (.GraphInfoRound _)
  | .event (.TimeoutRound _) | .connectFailed | .sendLoop | .unblock _ | .dropped => isTrue trivial

theorem wp_reportFrom {I : Layer2Switch env.nx.Graph → Prop} {dpid : Nat} {dpids : List Nat}
    (h : wp (reportLoads env [dpid]) a.app
      (fun _ app => ((a.sendNew .load_report app).Waits .load_report → I app) ∧
        (¬ (a.sendNew .load_report app).Waits .load_report → I (reportFrom env (a.sendNew .load_report app) dpids).app))
      fun _ => I) : I (reportFrom env a (dpid :: dpids)).app := by
  unfold wp at h
  unfold reportFrom
  cases hx : reportLoads env [dpid] a.app with
  | error _ app =>
    rw [hx] at h
    show I (a.sendNew .load_report app).app
    rw [sendNew_app]
    exact h
  | ok _ app =>
    rw [hx] at h
    show I (if (a.sendNew .load_report app).Waits .load_report then _ else _ : LocalSystem env.nx.Graph).app
    split
    · rename_i hwaits
      show I (a.sendNew .load_report app).app
      rw [sendNew_app]
      exact h.1 hwaits
    · rename_i hwaits
      exact h.2 hwaits

theorem loadInv_reportFrom : ∀ (dpids : List Nat) {a : LocalSystem env.nx.Graph}, LoadInv a.app →
    ReportsConnected env a dpids → LoadInv (reportFrom env a dpids).app
  | [], _, h, _ => h
  | dpid :: dpids, a, h, hok => by
    obtain ⟨hd, hrest⟩ := reportsConnected_cons.mp hok
    apply wp_reportFrom
    refine wp_mono (wp_and (loadInv_report h hd) hrest) (fun _ app hpost => ?_) fun _ _ hpost => hpost.1
    obtain ⟨⟨happ, _⟩, hrest⟩ := hpost
    refine ⟨fun _ => happ, fun hwaits => ?_⟩
    apply loadInv_reportFrom dpids
    · rw [sendNew_app]
      exact happ
    · exact hrest.resolve_left hwaits

theorem reportsConnected_of_mem : ∀ (dpids : List Nat) {a : LocalSystem env.nx.Graph}, LoadInv a.app →
    (∀ d ∈ dpids, d ∈ a.app.datapaths) → ReportsConnected env a dpids
  | [], _, _, _ => trivial
  | dpid :: dpids, a, h, hmem => by
    have hd := hmem dpid List.mem_cons_self
    refine reportsConnected_cons.mpr ⟨hd, ?_⟩
    refine wp_mono (loadInv_report h hd) (fun _ app hpost => ?_) fun _ _ _ => trivial
    obtain ⟨happ, hsame⟩ := hpost
    right
    apply reportsConnected_of_mem dpids
    · rw [sendNew_app]
      exact happ
    · rw [sendNew_app, hsame]
      exact fun d hd => hmem d (List.mem_cons_of_mem dpid hd)

theorem stray_reportFrom : ∀ (dpids : List Nat) {a : LocalSystem env.nx.Graph},
    Stray a.app ∨ ¬ ReportsConnected env a dpids → Stray (reportFrom env a dpids).app
  | [], _, h => h.resolve_right fun hn => hn trivial
  | dpid :: dpids, a, h => by
    apply wp_reportFrom
    by_cases hbad : Stray a.app ∨ dpid ∉ a.app.datapaths
    · refine wp_mono (stray_report hbad) (fun _ app happ => ⟨fun _ => happ, fun _ => ?_⟩) fun _ _ happ => happ
      apply stray_reportFrom dpids
      left
      rw [sendNew_app]
      exact happ
    · obtain ⟨hnot, hd⟩ := not_or.mp hbad
      have hd := not_not.mp hd
      have hrest : ¬ wp (reportLoads env [dpid]) a.app (fun _ app => (a.sendNew .load_report app).Waits .load_report ∨
          ReportsConnected env (a.sendNew .load_report app) dpids) fun _ _ => True :=
        fun hrest => h.resolve_left hnot (reportsConnected_cons.mpr ⟨hd, hrest⟩)
      unfold wp at hrest ⊢
      cases hx : reportLoads env [dpid] a.app with
      | error _ app =>
        rw [hx] at hrest
        exact absurd trivial hrest
      | ok _ app =>
        rw [hx] at hrest
        obtain ⟨hwaits, hrest⟩ := not_or.mp hrest
        exact ⟨fun hw => absurd hw hwaits, fun _ => stray_reportFrom dpids (Or.inr hrest)⟩

theorem loadInv_load_report (h : LoadInv a.app) (hok : ReportsConnected env a (a.load_report.getD [])) :
    LoadInv (_load_report env a).app := by
  unfold _load_report
  cases hl : a.load_report with
  | none => exact h
  | some dpids =>
    rw [hl] at hok
    cases dpids with
    | nil =>
      show LoadInv (if _ then _ else _ : LocalSystem env.nx.Graph).app
      split
      · apply loadInv_reportFrom _ h
        exact reportsConnected_of_mem _ h fun d hd => mem_order.mp hd
      · exact h
    | cons dpid dpids => exact loadInv_reportFrom (dpid :: dpids) h hok

theorem loadInv_turn (h : LoadInv a.app) {t : Turn} (hsize : ∀ e, t = .event e → Sized e) (hok : StillConnected env a t) :
    LoadInv (turn env a t).app := by
  by_cases hround : t = .event .LoadRound
  · subst hround
    show LoadInv (if _ then _ else _ : LocalSystem env.nx.Graph).app
    split
    · exact h
    · rename_i hwaits
      exact loadInv_load_report h (hok.resolve_left hwaits)
  · have hgreet : Moves (Keeps LoadInv) (greet env) :=
      .bind (.modify fun _ h => h.same rfl (fun _ hd => hd) rfl) fun _ => loadInv_send_msg none trivial
    refine app_turn hgreet (fun _ h => h.same rfl (fun _ hd => hd) rfl) hround (fun e he _ h => ?_) h
    subst he
    exact loadInv_step h (hsize e rfl) fun hl => hround (by rw [hl])

theorem stray_turn {t : Turn} (hbad : ¬ StillConnected env a t) : Stray (turn env a t).app := by
  cases t with
  | connectFailed => exact absurd trivial hbad
  | sendLoop => exact absurd trivial hbad
  | unblock i => exact absurd trivial hbad
  | dropped => exact absurd trivial hbad
  | event e =>
    cases e with
    | LoadRound =>
      obtain ⟨hwaits, hrest⟩ := not_or.mp hbad
      have hturn : turn env a (.event .LoadRound) = _load_report env a := if_neg hwaits
      rw [hturn]
      unfold _load_report
      cases hl : a.load_report with
      | none =>
        rw [hl] at hrest
        exact absurd trivial hrest
      | some dpids =>
        rw [hl] at hrest
        cases dpids with
        | nil => exact absurd trivial hrest
        | cons dpid dpids => exact stray_reportFrom (dpid :: dpids) (Or.inr hrest)
    | _ => exact absurd trivial hbad

theorem current_iff_of_loadInv : ∀ (ts : List Turn) {a : LocalSystem env.nx.Graph}, LoadInv a.app →
    (∀ e, .event e ∈ ts → Sized e) →
    ((∀ before, before <+: ts → LoadsCurrent (before.foldl (turn env) a).app) ↔
      Allowed (turn env) (StillConnected env) a ts)
  | [], a, h, _ => by
    refine ⟨fun _ => trivial, fun _ before hb => ?_⟩
    rw [List.prefix_nil.mp hb]
    exact h.current
  | t :: ts, a, h, hsized => by
    have hsize : ∀ e, t = .event e → Sized e := fun e he => hsized e (by rw [he]; exact List.mem_cons_self)
    have hrest := fun hok => current_iff_of_loadInv ts (loadInv_turn h hsize hok)
      fun e he => hsized e (List.mem_cons_of_mem t he)
    constructor
    · intro hall
      have hok : StillConnected env a t := by
        by_contra hbad
        obtain ⟨d, hd, hnot⟩ := stray_turn hbad
        have hone : LoadsCurrent (turn env a t).app := hall [t] ⟨ts, rfl⟩
        exact hnot (hone.counters d hd)
      refine ⟨hok, (hrest hok).mp fun before hb => ?_⟩
      obtain ⟨after, rfl⟩ := hb
      exact hall (t :: before) ⟨after, rfl⟩
    · intro hallowed before hb
      obtain ⟨hok, hallowed⟩ := hallowed
      cases before with
      | nil => exact h.current
      | cons t' before =>
        obtain ⟨rfl, hbefore⟩ := List.cons_prefix_cons.mp hb
        exact (hrest hok).mpr hallowed before hbefore

theorem loadInv_start (xid : Nat) : LoadInv (start env xid).app where
  sized d hd := absurd hd (AList.notMem_empty d)
  counters d hd := absurd hd (AList.notMem_empty d)
  connected d hd := absurd hd (AList.notMem_empty d)
  reports before d n after hmsgs := by
    have := congrArg List.length hmsgs
    simp [msgs, start, Layer2Switch.init] at this

/-- **Loads are those of connected switches just when no switch leaves before its
turn in a report loop that waits.** -/
theorem loads_current_iff (env : LocalEnv) (xid : Nat) (ts : List Turn) (hsized : ∀ e, .event e ∈ ts → Sized e) :
    (∀ before, before <+: ts → LoadsCurrent (run env xid before).app) ↔
      Allowed (turn env) (StillConnected env) (start env xid) ts :=
  current_iff_of_loadInv ts (loadInv_start xid) hsized

/-- Fourteen switches have come, `send_q` is full, and the report loop waits
with its first report, for switch 14. -/
def waitingReport : List Turn :=
  .event .Connected :: (List.range 14).map (fun d => .event (.SwitchFeatures ⟨d + 1, "10.0.0.1"⟩)) ++
    [.event (.TopologyChange ⟨(List.range 14).map (· + 1), [], []⟩), .event .LoadRound]

def leftBehind : List Turn :=
  waitingReport ++ [.event (.SwitchLeave 14), .sendLoop, .unblock 0, .event .LoadRound]

theorem loads_current_iff_left_behind :
    Allowed (turn sampleLocalEnv) (StillConnected sampleLocalEnv) (start sampleLocalEnv 0) leftBehind ∧
      ∀ before, before <+: leftBehind → LoadsCurrent (run sampleLocalEnv 0 before).app := by
  have hallowed : Allowed (turn sampleLocalEnv) (StillConnected sampleLocalEnv) (start sampleLocalEnv 0) leftBehind := by
    decide +kernel
  exact ⟨hallowed, (loads_current_iff sampleLocalEnv 0 leftBehind
    (by simp [leftBehind, waitingReport, Sized, List.range_succ])).mpr hallowed⟩

def leftWhileWaiting : List Turn :=
  waitingReport ++ [.event (.SwitchLeave 13), .sendLoop, .unblock 0, .event .LoadRound]

/-- The next switch in the list leaves while the loop waits. -/
theorem load_reported_after_leave :
    let s := (run sampleLocalEnv 0 leftWhileWaiting).app
    ¬ ReportsListed s.msgs ∧ 13 ∈ s.dpid_to_load ∧ 13 ∉ s.datapaths := by
  have hlast : (run sampleLocalEnv 0 leftWhileWaiting).app.msgs.drop 17 = [.DatapathLeave 13, .LoadReport 13 0] := by
    decide +kernel
  refine ⟨fun h => ?_, by decide +kernel, by decide +kernel⟩
  have hsplit := List.take_append_drop 17 (run sampleLocalEnv 0 leftWhileWaiting).app.msgs
  generalize (run sampleLocalEnv 0 leftWhileWaiting).app.msgs.take 17 = before at hsplit
  rw [hlast] at hsplit
  rw [← hsplit] at h
  apply h (before ++ [.DatapathLeave 13]) 13 0 []
  · simp
  · exact ⟨before, [], rfl, fun _ hw => absurd hw List.not_mem_nil⟩

end LocalSystem

end VnfDockerNet
