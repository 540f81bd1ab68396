import VnfDockerNet.LoadSound

/-!
# Counted packets

The counter of a switch is read and set to 0 before its report is handed over,
so a report loop that waits there leaves nothing to be lost or counted twice.
-/

namespace VnfDockerNet

open Python Networkx Runs

def PacketIn.counts (msg : PacketIn) : Bool :=
  match msg.pkt.eth with
  | none => false
  | some eth => eth.dst ≠ LLDP_MAC_NEAREST_BRIDGE

namespace Layer2Switch

variable {env : LocalEnv} {s : Layer2Switch env.nx.Graph} {d n : Nat}

/-! ## One handler -/

def SameLoad {Γ : Type} (d : Nat) (s s' : Layer2Switch Γ) : Prop := s'.dpid_to_load.get d = s.dpid_to_load.get d

instance {Γ : Type} (d : Nat) : IsPreorder (Layer2Switch Γ) (SameLoad d) where
  refl _ := rfl
  trans _ _ _ h h' := h'.trans h

theorem sameLoad_of_eq {s' : Layer2Switch env.nx.Graph} (d : Nat) (h : s'.dpid_to_load = s.dpid_to_load) : SameLoad d s s' := by
  unfold SameLoad
  rw [h]

theorem sameLoad_insert {dpid : Nat} (h : dpid ≠ d) (load : Nat) :
    Dict.get (s.dpid_to_load.insert dpid load) d = s.dpid_to_load.get d := by
  rw [Dict.get_insert, if_neg (Ne.symm h)]

theorem sameLoad_handle {e : LocalEvent} (hpacket : ∀ now msg, e ≠ .PacketIn now msg) (hround : e ≠ .LoadRound)
    (hjoin : ∀ datapath, e = .SwitchFeatures datapath → datapath.id ≠ d) (hleave : ∀ dpid, e = .SwitchLeave dpid → dpid ≠ d) :
    Moves (SameLoad d) (handle env e) := by
  apply moves_handle_loads e
  · exact fun s s' _ h _ _ => sameLoad_of_eq d h
  · exact fun s dpid load now msg he => absurd he (hpacket now msg)
  · exact fun s _ _ _ => sameLoad_of_eq d rfl
  · exact fun s _ => sameLoad_of_eq d rfl
  · exact fun s _ _ _ _ => sameLoad_of_eq d rfl
  · exact fun s datapath he => sameLoad_insert (hjoin datapath he) 0
  · exact fun s _ _ => sameLoad_of_eq d rfl
  · intro s dpid he
    show Dict.get (s.dpid_to_load.erase dpid) d = _
    rw [Dict.get_erase, if_neg (Ne.symm (hleave dpid he))]
  · exact fun s _ _ he => absurd he hround

def Loaded {Γ : Type} (d n : Nat) (s : Layer2Switch Γ) : Prop := s.dpid_to_load.get d = some n

theorem loaded_of_moves {x : App env Unit} (hx : Moves (SameLoad d) x) (hn : Loaded d n s) :
    wp x s (fun _ => Loaded d n) fun _ => Loaded d n :=
  wp_mono (hx s) (fun _ _ hs' => hs'.trans hn) fun _ _ hs' => hs'.trans hn

theorem sameLoad_learnHost (dpid in_port : Nat) (src : Bytes) : Moves (SameLoad d) (learnHost env dpid in_port src) := by
  apply moves_learnHost (P := fun _ => True)
  · exact fun s _ => sameLoad_of_eq d rfl
  · exact fun s _ _ _ => sameLoad_of_eq d rfl
  · exact fun s _ => sameLoad_of_eq d rfl
  · exact fun s _ _ _ => sameLoad_of_eq d rfl
  · exact fun _ _ => trivial
  · exact fun s _ => sameLoad_of_eq d rfl
  · exact fun s _ _ _ => sameLoad_of_eq d rfl
  · exact fun s _ _ _ => sameLoad_of_eq d rfl
  · exact fun _ _ => trivial

theorem sameLoad_forward (now : Nat) (msg : PacketIn) (eth : Ethernet) : Moves (SameLoad d) (forward env now msg eth) := by
  apply moves_forward (P := fun _ => True)
  · exact fun s _ => sameLoad_of_eq d rfl
  · exact fun s _ _ _ => sameLoad_of_eq d rfl
  · exact fun s _ => sameLoad_of_eq d rfl
  · exact fun s _ _ _ => sameLoad_of_eq d rfl
  · exact fun _ _ _ _ _ _ _ => trivial

theorem loaded_packet (now : Nat) (msg : PacketIn) (hn : Loaded d n s) :
    wp (handle env (.PacketIn now msg)) s (fun _ => Loaded d (n + if msg.datapath.id = d ∧ msg.counts then 1 else 0))
      fun _ => Loaded d (n + if msg.datapath.id = d ∧ msg.counts then 1 else 0) := by
  show wp (ofp_packet_in_handler env now msg) s _ _
  unfold ofp_packet_in_handler PacketIn.counts
  cases heth : msg.pkt.eth with
  | none => simpa using hn
  | some eth =>
    by_cases hlldp : eth.dst = LLDP_MAC_NEAREST_BRIDGE
    · simp only [hlldp, if_true]
      refine loaded_of_moves (moves_markPort (fun s _ _ _ => sameLoad_of_eq d rfl) _ _) ?_
      simpa using hn
    · simp only [hlldp, if_false]
      have hrest : Moves (SameLoad d) (do learnHost env msg.datapath.id msg.in_port eth.src; forward env now msg eth) :=
        .bind (sameLoad_learnHost _ _ _) fun _ => sameLoad_forward now msg eth
      rw [wp_bind]
      unfold countPacket
      simp only [wp_bind, wp_get, wp_item, wp_modify]
      by_cases hd : msg.datapath.id = d
      · refine ⟨fun load hload => (wp_bind _ _).mp (loaded_of_moves hrest ?_), fun hnone => ?_⟩
        · rw [hd] at hload
          unfold Loaded at hn
          rw [hn] at hload
          cases hload
          show Dict.get (s.dpid_to_load.insert _ _) d = _
          rw [Dict.get_insert, if_pos hd.symm]
          simp [hd, hlldp]
        · unfold Loaded at hn
          rw [hd, hn] at hnone
          cases hnone
      · refine ⟨fun load _ => (wp_bind _ _).mp (loaded_of_moves hrest ?_), fun _ => ?_⟩
        · show Dict.get (s.dpid_to_load.insert _ _) d = _
          unfold Loaded at hn
          rw [sameLoad_insert hd, hn]
          simp [hd]
        · simpa [hd] using hn

theorem wp_report_load (dpid : Nat) : wp (reportLoads env [dpid]) s
    (fun _ s' => s'.dpid_to_load = s.dpid_to_load.insert dpid 0) fun _ s' => s'.dpid_to_load = s.dpid_to_load.insert dpid 0 := by
  apply wp_report
  · exact fun _ _ _ => rfl
  · exact fun _ => rfl

end Layer2Switch

namespace LocalSystem

open Layer2Switch

/-! ## What a run reports and counts -/

section
variable (env : LocalEnv)

/-- The switches and counts of the reports that the loop builds before it waits. -/
def builtFrom (a : LocalSystem env.nx.Graph) : List Nat → List (Nat × Nat)
  | [] => []
  | dpid :: dpids =>
    (dpid, (a.app.dpid_to_load.get dpid).getD 0) ::
      match reportLoads env [dpid] a.app with
      | .error _ _ => []
      | .ok _ app =>
        let a' := a.sendNew .load_report app
        if a'.Waits .load_report then [] else builtFrom a' dpids

def builtBy (a : LocalSystem env.nx.Graph) : Turn → List (Nat × Nat)
  | .event .LoadRound =>
    if a.Waits .load_report then []
    else
      match a.load_report with
      | none => []
      | some [] => if a.app.is_live then builtFrom env a (env.order a.app.datapaths) else []
      | some (dpid :: dpids) => builtFrom env a (dpid :: dpids)
  | _ => []

def builtIn : LocalSystem env.nx.Graph → List Turn → List (Nat × Nat)
  | _, [] => []
  | a, t :: ts => builtBy env a t ++ builtIn (turn env a t) ts

/-- 1 if the turn handles a packet-in of switch `d` that is not LLDP. -/
def counted (d : Nat) (a : LocalSystem env.nx.Graph) : Turn → Nat
  | .event (.PacketIn _ msg) => if ¬ a.Waits .ryu ∧ msg.datapath.id = d ∧ msg.counts then 1 else 0
  | _ => 0

def countedIn (d : Nat) : LocalSystem env.nx.Graph → List Turn → Nat
  | _, [] => 0
  | a, t :: ts => counted env d a t + countedIn d (turn env a t) ts

/-- No turn handles a SwitchFeatures or a SwitchLeave of switch `d`. -/
def SamePeriod (d : Nat) (a : LocalSystem env.nx.Graph) : Turn → Prop
  | .event (.SwitchFeatures datapath) => a.Waits .ryu ∨ datapath.id ≠ d
  | .event (.SwitchLeave dpid) => a.Waits .ryu ∨ dpid ≠ d
  | _ => True

instance (d : Nat) (a : LocalSystem env.nx.Graph) : ∀ t, Decidable (SamePeriod env d a t)
  | .event (.SwitchFeatures _) | .event (.SwitchLeave _) => inferInstanceAs (Decidable (_ ∨ _))
  | .event (.RoleReply ..) | .event (.PacketIn ..) | .event (.TopologyChange _) | .event .LoadRound
  | .event .Connected | .event (.Downlink ..) | .event (.GraphInfoRound _) | .event (.TimeoutRound _)
  | .connectFailed | .sendLoop | .unblock _ | .dropped => isTrue trivial

end

def reported (d : Nat) (reports : List (Nat × Nat)) : Nat := ((reports.filter fun r => r.1 = d).map Prod.snd).sum

theorem reported_cons (d : Nat) (r : Nat × Nat) (rs : List (Nat × Nat)) :
    reported d (r :: rs) = (if r.1 = d then r.2 else 0) + reported d rs := by
  unfold reported
  by_cases h : r.1 = d
  · simp [h]
  · simp [h]

theorem reported_append (d : Nat) (rs rs' : List (Nat × Nat)) : reported d (rs ++ rs') = reported d rs + reported d rs' := by
  simp [reported]

variable {env : LocalEnv} {a : LocalSystem env.nx.Graph} {d n : Nat}

def Balanced {Γ : Type} (d n : Nat) (rs : List (Nat × Nat)) (s : Layer2Switch Γ) : Prop :=
  ∃ m, s.dpid_to_load.get d = some m ∧ m + reported d rs = n

theorem balanced_nil {Γ : Type} {s : Layer2Switch Γ} : Balanced d n [] s ↔ s.dpid_to_load.get d = some n := by
  unfold Balanced reported
  constructor
  · rintro ⟨m, hm, rfl⟩
    exact hm
  · intro h
    exact ⟨n, h, rfl⟩

theorem balanced_report {s s' : Layer2Switch env.nx.Graph} {dpid : Nat} (hn : s.dpid_to_load.get d = some n)
    (hs' : s'.dpid_to_load = s.dpid_to_load.insert dpid 0) : Balanced d n [(dpid, (s.dpid_to_load.get dpid).getD 0)] s' := by
  unfold Balanced
  rw [hs', Dict.get_insert]
  by_cases h : d = dpid
  · subst h
    refine ⟨0, if_pos rfl, ?_⟩
    simp [hn, reported]
  · refine ⟨n, by rw [if_neg h, hn], ?_⟩
    simp [Ne.symm h, reported]

theorem balanced_cons {Γ : Type} {s : Layer2Switch Γ} {r : Nat × Nat} {rs : List (Nat × Nat)} {m : Nat}
    (h : Balanced d m rs s) (hm : m + reported d [r] = n) : Balanced d n (r :: rs) s := by
  obtain ⟨m', hm', hsum⟩ := h
  refine ⟨m', hm', ?_⟩
  rw [reported_cons] at hm ⊢
  unfold reported at *
  simp only [List.filter_nil, List.map_nil, List.sum_nil] at hm
  omega

theorem balanced_reportFrom : ∀ (dpids : List Nat) {a : LocalSystem env.nx.Graph} {n : Nat},
    a.app.dpid_to_load.get d = some n → Balanced d n (builtFrom env a dpids) (reportFrom env a dpids).app
  | [], _, _, hn => balanced_nil.mpr hn
  | dpid :: dpids, a, n, hn => by
    have hreport : wp (reportLoads env [dpid]) a.app _ _ := wp_report_load dpid
    unfold wp at hreport
    unfold reportFrom builtFrom
    cases hx : reportLoads env [dpid] a.app with
    | error _ app =>
      rw [hx] at hreport
      show Balanced d n [_] (a.sendNew .load_report app).app
      rw [sendNew_app]
      exact balanced_report hn hreport
    | ok _ app =>
      rw [hx] at hreport
      have hone := balanced_report hn hreport
      show Balanced d n (_ :: if (a.sendNew .load_report app).Waits .load_report then _ else _)
        (if (a.sendNew .load_report app).Waits .load_report then _ else _ : LocalSystem env.nx.Graph).app
      by_cases hwaits : (a.sendNew .load_report app).Waits .load_report
      · rw [if_pos hwaits, if_pos hwaits]
        show Balanced d n [_] (a.sendNew .load_report app).app
        rw [sendNew_app]
        exact hone
      · rw [if_neg hwaits, if_neg hwaits]
        obtain ⟨m, hm, hsum⟩ := hone
        have hm' : (a.sendNew .load_report app).app.dpid_to_load.get d = some m := by rw [sendNew_app]; exact hm
        exact balanced_cons (balanced_reportFrom dpids hm') hsum

theorem round_turn (a : LocalSystem env.nx.Graph) :
    (turn env a (.event .LoadRound) = a ∧ builtBy env a (.event .LoadRound) = []) ∨
      ∃ dpids, turn env a (.event .LoadRound) = reportFrom env a dpids ∧
        builtBy env a (.event .LoadRound) = builtFrom env a dpids := by
  by_cases hwaits : a.Waits .load_report
  · exact Or.inl ⟨if_pos hwaits, if_pos hwaits⟩
  · have hturn : turn env a (.event .LoadRound) = _load_report env a := if_neg hwaits
    rw [hturn]
    unfold builtBy _load_report
    simp only [hwaits, if_false]
    cases a.load_report with
    | none => exact Or.inl ⟨rfl, rfl⟩
    | some dpids =>
      cases dpids with
      | nil =>
        by_cases hlive : a.app.is_live = true
        · exact Or.inr ⟨env.order a.app.datapaths, if_pos hlive, if_pos hlive⟩
        · exact Or.inl ⟨if_neg hlive, if_neg hlive⟩
      | cons dpid dpids => exact Or.inr ⟨dpid :: dpids, rfl, rfl⟩

theorem builtBy_of_ne {t : Turn} (h : t ≠ .event .LoadRound) : builtBy env a t = [] := by
  cases t with
  | event e =>
    cases e with
    | LoadRound => exact absurd rfl h
    | _ => rfl
  | _ => rfl

theorem sameLoad_turn {t : Turn} (ht : SamePeriod env d a t) (hround : t ≠ .event .LoadRound)
    (hpacket : ¬ ∃ now msg, t = .event (.PacketIn now msg)) : SameLoad d a.app (turn env a t).app := by
  have hgreet : Moves (SameLoad d) (greet env) := by
    refine .bind (.modify fun s => sameLoad_of_eq d rfl) fun _ => ?_
    apply moves_send_msg (P := fun _ => True)
    · exact fun s _ => sameLoad_of_eq d rfl
    · exact fun s _ _ _ => sameLoad_of_eq d rfl
    · trivial
  refine app_turn hgreet (fun s => sameLoad_of_eq d rfl) hround fun e he hwaits => ?_
  subst he
  have hmoves : Moves (SameLoad d) (handle env e) := by
    apply sameLoad_handle
    · rintro now msg rfl
      exact hpacket ⟨now, msg, rfl⟩
    · rintro rfl
      exact hround rfl
    · rintro datapath rfl
      exact ht.resolve_left hwaits
    · rintro dpid rfl
      exact ht.resolve_left hwaits
  exact step_of_wp (I := SameLoad d a.app) (fun _ h => h) (hmoves a.app)

/-- **One turn**: what is reported and left is what was there and is counted. -/
theorem balanced_turn (hn : a.app.dpid_to_load.get d = some n) {t : Turn} (ht : SamePeriod env d a t) :
    Balanced d (n + counted env d a t) (builtBy env a t) (turn env a t).app := by
  by_cases hround : t = .event .LoadRound
  · subst hround
    show Balanced d n _ _
    rcases round_turn a with ⟨hturn, hbuilt⟩ | ⟨dpids, hturn, hbuilt⟩
    · rw [hturn, hbuilt]
      exact balanced_nil.mpr hn
    · rw [hturn, hbuilt]
      exact balanced_reportFrom dpids hn
  · rw [builtBy_of_ne hround, balanced_nil]
    by_cases hpacket : ∃ now msg, t = .event (.PacketIn now msg)
    · obtain ⟨now, msg, rfl⟩ := hpacket
      by_cases hwaits : a.Waits .ryu
      · have hturn : turn env a (.event (.PacketIn now msg)) = a := if_pos hwaits
        rw [hturn, hn]
        simp [counted, hwaits]
      · have hturn : turn env a (.event (.PacketIn now msg)) = a.sendNew .ryu (step env a.app (.PacketIn now msg)) :=
          if_neg hwaits
        rw [hturn, sendNew_app]
        have hload : Loaded d _ _ := step_of_wp (fun _ h => h) (loaded_packet now msg hn)
        unfold Loaded at hload
        simpa [counted, hwaits] using hload
    · have hcount : counted env d a t = 0 := by
        cases t with
        | event e =>
          cases e with
          | PacketIn now msg => exact absurd ⟨now, msg, rfl⟩ hpacket
          | _ => rfl
        | _ => rfl
      have hsame : SameLoad d a.app (turn env a t).app := sameLoad_turn ht hround hpacket
      rw [hcount, hsame, hn, Nat.add_zero]

theorem balanced_run : ∀ (ts : List Turn) {a : LocalSystem env.nx.Graph} {n : Nat}, a.app.dpid_to_load.get d = some n →
    Allowed (turn env) (SamePeriod env d) a ts →
    Balanced d (n + countedIn env d a ts) (builtIn env a ts) (ts.foldl (turn env) a).app
  | [], _, _, hn, _ => balanced_nil.mpr hn
  | t :: ts, a, n, hn, h => by
    obtain ⟨m, hm, hsum⟩ := balanced_turn hn h.1
    obtain ⟨m', hm', hsum'⟩ := balanced_run ts hm h.2
    refine ⟨m', hm', ?_⟩
    unfold builtIn countedIn
    rw [reported_append]
    omega

/-! ## The reports and the messages -/

def reportsOf {Γ : Type} (s : Layer2Switch Γ) : List (Nat × Nat) :=
  s.sent.filterMap fun m => match m.msg with
    | .LoadReport dpid pkt_in_cnt => some (dpid, pkt_in_cnt)
    | _ => none

/-- Some field of the report does not fit its place in the frame. -/
def Unsendable (r : Nat × Nat) : Prop := (MsgUp.LoadReport r.1 r.2).fits = false

def SameReports {Γ : Type} (s s' : Layer2Switch Γ) : Prop := reportsOf s' = reportsOf s

instance {Γ : Type} : IsPreorder (Layer2Switch Γ) SameReports where
  refl _ := rfl
  trans _ _ _ h h' := h'.trans h

theorem sameReports_of_sent {s s' : Layer2Switch env.nx.Graph} (h : s'.sent = s.sent) : SameReports s s' := by
  unfold SameReports reportsOf
  rw [h]

theorem sameReports_snoc (s : Layer2Switch env.nx.Graph) (xid : Nat) {msg : MsgUp}
    (hmsg : ∀ dpid pkt_in_cnt, msg ≠ .LoadReport dpid pkt_in_cnt) :
    SameReports s { s with sent := s.sent ++ [⟨xid, msg⟩] } := by
  unfold SameReports reportsOf
  rw [List.filterMap_append]
  cases msg with
  | LoadReport dpid n => exact absurd rfl (hmsg dpid n)
  | _ => exact List.append_nil _

theorem sameReports_handle {e : LocalEvent} (hround : e ≠ .LoadRound) : Moves SameReports (handle env e) := by
  apply moves_handle e
  · exact fun s s' _ _ h _ => sameReports_of_sent h
  · intro s xid msg hmsg
    apply sameReports_snoc
    rintro dpid n rfl
    cases e <;> first | exact hmsg.elim | exact hround rfl
  · exact fun s _ => sameReports_of_sent rfl
  · exact fun s _ _ _ _ => sameReports_of_sent rfl
  · exact fun s _ _ => sameReports_of_sent rfl
  · exact fun s _ _ => sameReports_of_sent rfl
  · exact fun s _ _ => sameReports_of_sent rfl
  · exact fun s _ _ _ => sameReports_of_sent rfl

theorem wp_report_sent {s : Layer2Switch env.nx.Graph} (dpid : Nat) : wp (reportLoads env [dpid]) s
    (fun _ s' => reportsOf s' = reportsOf s ++ [(dpid, (s.dpid_to_load.get dpid).getD 0)])
    fun _ s' => reportsOf s' = reportsOf s ∧ Unsendable (dpid, (s.dpid_to_load.get dpid).getD 0) := by
  unfold reportLoads reportLoads
  simp only [wp_bind, wp_get, wp_modify, wp_pure]
  apply wp_send_msg
  · exact fun x y => List.filterMap_append
  · intro x y hy hser
    refine ⟨rfl, ?_⟩
    by_contra hsendable
    unfold Unsendable at hsendable
    have hfits : (MsgUp.LoadReport dpid ((s.dpid_to_load.get dpid).getD 0)).fits = true := by simpa using hsendable
    have hxid : y < 2 ^ 32 := Nat.lt_succ_of_le (hy rfl)
    obtain ⟨frame, hframe, _⟩ := uplink_delivers env.host hxid _ rfl hfits
    rw [hser] at hframe
    cases hframe

theorem sent_reportFrom : ∀ (dpids : List Nat) (a : LocalSystem env.nx.Graph), ∃ lost, (∀ r ∈ lost, Unsendable r) ∧
    reportsOf a.app ++ builtFrom env a dpids = reportsOf (reportFrom env a dpids).app ++ lost
  | [], a => ⟨[], by simp, rfl⟩
  | dpid :: dpids, a => by
    have hsent : wp (reportLoads env [dpid]) a.app _ _ := wp_report_sent dpid
    unfold wp at hsent
    unfold reportFrom builtFrom
    cases hx : reportLoads env [dpid] a.app with
    | error _ app =>
      rw [hx] at hsent
      refine ⟨[(dpid, (a.app.dpid_to_load.get dpid).getD 0)], by simpa using hsent.2, ?_⟩
      show _ = reportsOf (a.sendNew .load_report app).app ++ _
      rw [sendNew_app, hsent.1]
    | ok _ app =>
      rw [hx] at hsent
      show ∃ lost, (∀ r ∈ lost, Unsendable r) ∧
        reportsOf a.app ++ (_ :: if (a.sendNew .load_report app).Waits .load_report then _ else _) =
          reportsOf (if (a.sendNew .load_report app).Waits .load_report then _ else _ : LocalSystem env.nx.Graph).app ++ lost
      by_cases hwaits : (a.sendNew .load_report app).Waits .load_report
      · rw [if_pos hwaits, if_pos hwaits]
        refine ⟨[], by simp, ?_⟩
        show _ = reportsOf (a.sendNew .load_report app).app ++ []
        rw [sendNew_app, hsent, List.append_nil]
      · rw [if_neg hwaits, if_neg hwaits]
        obtain ⟨lost, hlost, hrest⟩ := sent_reportFrom dpids (a.sendNew .load_report app)
        refine ⟨lost, hlost, ?_⟩
        rw [← hrest, sendNew_app, hsent, List.append_assoc]
        rfl

/-- **The reports of a turn** are the LOAD_REPORTs it adds to the messages, but for those that no frame can hold. -/
theorem reportsOf_turn (a : LocalSystem env.nx.Graph) (t : Turn) : ∃ lost, (∀ r ∈ lost, Unsendable r) ∧
    reportsOf a.app ++ builtBy env a t = reportsOf (turn env a t).app ++ lost := by
  by_cases hround : t = .event .LoadRound
  · subst hround
    rcases round_turn a with ⟨hturn, hbuilt⟩ | ⟨dpids, hturn, hbuilt⟩
    · exact ⟨[], by simp, by rw [hturn, hbuilt]⟩
    · rw [hturn, hbuilt]
      exact sent_reportFrom dpids a
  · have hgreet : Moves SameReports (greet env) := by
      refine .bind (.modify fun s => sameReports_of_sent rfl) fun _ => ?_
      apply moves_send_msg (P := fun msg => msg = .HelloUp)
      · exact fun s _ => sameReports_of_sent rfl
      · rintro s xid msg rfl
        exact sameReports_snoc s xid fun _ _ h => by cases h
      · rfl
    have hsame : SameReports a.app (turn env a t).app := by
      refine app_turn hgreet (fun s => sameReports_of_sent rfl) hround fun e he _ => ?_
      refine step_of_wp (I := SameReports a.app) (fun _ h => h) (sameReports_handle (fun h => ?_) a.app)
      exact hround (by rw [he, h])
    refine ⟨[], by simp, ?_⟩
    rw [builtBy_of_ne hround, hsame]

theorem reported_run : ∀ (ts : List Turn) (a : LocalSystem env.nx.Graph), ∃ lost, (∀ r ∈ lost, Unsendable r) ∧
    ∀ d, reported d (reportsOf a.app) + reported d (builtIn env a ts) =
      reported d (reportsOf (ts.foldl (turn env) a).app) + reported d lost
  | [], a => ⟨[], by simp, fun _ => rfl⟩
  | t :: ts, a => by
    obtain ⟨lost, hlost, hturn⟩ := reportsOf_turn a t
    obtain ⟨lost', hlost', hrun⟩ := reported_run ts (turn env a t)
    refine ⟨lost ++ lost', fun r hr => ?_, fun d => ?_⟩
    · rcases List.mem_append.mp hr with hr | hr
      · exact hlost r hr
      · exact hlost' r hr
    · have hfirst := congrArg (reported d) hturn
      have hrest := hrun d
      unfold builtIn
      simp only [reported_append, List.foldl_cons] at hfirst hrest ⊢
      omega

/-! ## Periods -/

theorem loaded_switchFeatures {s : Layer2Switch env.nx.Graph} (datapath : OfDatapath) :
    Loaded datapath.id 0 (step env s (.SwitchFeatures datapath)) := by
  apply step_of_wp
  · exact fun _ h => h
  · show wp (ofp_switch_features_handler env datapath) s _ _
    unfold ofp_switch_features_handler
    rw [wp_bind, wp_modify]
    have hrest : ∀ w, Moves (SameLoad datapath.id) (do
        send_msg env none (.DPConnected datapath.id w)
        add_flow env datapath 0 [] [⟨OFPP_CONTROLLER, OFPCML_NO_BUFFER⟩] none) := fun w => by
      refine .bind ?_ fun _ => moves_add_flow (fun s _ => sameLoad_of_eq _ rfl) _ _ _ _ _
      apply moves_send_msg (P := fun _ => True)
      · exact fun s _ => sameLoad_of_eq _ rfl
      · exact fun s _ _ _ => sameLoad_of_eq _ rfl
      · trivial
    rw [wp_bind, wp_get]
    refine loaded_of_moves (hrest _) ?_
    show Dict.get (s.dpid_to_load.insert datapath.id 0) datapath.id = some 0
    rw [Dict.get_insert, if_pos rfl]

/-- **No packet is lost or counted twice.** From a SwitchFeatures on, as long as
the switch neither connects again nor leaves, its reports and its counter add up
to the packets handled for it; and the reports are the LOAD_REPORTs that come to
the messages in that time, but for those that no frame can hold. -/
theorem packets_conserved (env : LocalEnv) (xid : Nat) (before ts : List Turn) (datapath : OfDatapath)
    (hfree : ¬ (run env xid before).Waits .ryu)
    (h : Allowed (turn env) (SamePeriod env datapath.id) (turn env (run env xid before) (.event (.SwitchFeatures datapath))) ts) :
    let a := turn env (run env xid before) (.event (.SwitchFeatures datapath))
    let a' := ts.foldl (turn env) a
    ∃ load lost, a'.app.dpid_to_load.get datapath.id = some load ∧ (∀ r ∈ lost, Unsendable r) ∧
      reported datapath.id (builtIn env a ts) + load = countedIn env datapath.id a ts ∧
      reported datapath.id (reportsOf a.app) + reported datapath.id (builtIn env a ts) =
        reported datapath.id (reportsOf a'.app) + reported datapath.id lost := by
  have hstart : Loaded datapath.id 0 (turn env (run env xid before) (.event (.SwitchFeatures datapath))).app := by
    have hturn : turn env (run env xid before) (.event (.SwitchFeatures datapath)) =
        (run env xid before).sendNew .ryu (step env (run env xid before).app (.SwitchFeatures datapath)) := if_neg hfree
    rw [hturn, sendNew_app]
    exact loaded_switchFeatures datapath
  obtain ⟨load, hload, hsum⟩ := balanced_run ts hstart h
  obtain ⟨lost, hlost, hsent⟩ := reported_run ts (turn env (run env xid before) (.event (.SwitchFeatures datapath)))
  refine ⟨load, lost, hload, hlost, ?_, hsent _⟩
  omega

/-- A packet before the round, one while the loop waits with its report, and one of another switch. -/
def countedWhileWaiting : List Turn :=
  [.event (samplePacket 14 1 (asciiText "00:00:00:00:00:01") BROADCAST_STR), .event .LoadRound,
    .event (samplePacket 14 1 (asciiText "00:00:00:00:00:01") BROADCAST_STR),
    .event (samplePacket 13 1 (asciiText "00:00:00:00:00:01") BROADCAST_STR), .sendLoop, .unblock 0, .event .LoadRound]

theorem packets_conserved_waiting :
    let a := turn sampleLocalEnv (run sampleLocalEnv 0
      (.event .Connected :: (List.range 13).map fun d => .event (.SwitchFeatures ⟨d + 1, "10.0.0.1"⟩)))
      (.event (.SwitchFeatures ⟨14, "10.0.0.1"⟩))
    let a' := countedWhileWaiting.foldl (turn sampleLocalEnv) a
    ∃ load lost, a'.app.dpid_to_load.get 14 = some load ∧ (∀ r ∈ lost, Unsendable r) ∧
      reported 14 (builtIn sampleLocalEnv a countedWhileWaiting) + load = countedIn sampleLocalEnv 14 a countedWhileWaiting ∧
      reported 14 (reportsOf a.app) + reported 14 (builtIn sampleLocalEnv a countedWhileWaiting) =
        reported 14 (reportsOf a'.app) + reported 14 lost :=
  packets_conserved sampleLocalEnv 0 _ countedWhileWaiting ⟨14, "10.0.0.1"⟩ (by decide +kernel) (by decide +kernel)

end LocalSystem

end VnfDockerNet
