import VnfDockerNet.Agent
import VnfDockerNet.Registry
import VnfDockerNet.ReplaySound

/-!
# The first message on the connection

`send_q` takes messages before there is a connection, so HELLO_UP comes first
exactly in the runs that connect before a switch, or a topology without
windows, is reported.
-/

namespace VnfDockerNet

open Python Networkx

namespace Layer2Switch

variable {env : LocalEnv} {s : Layer2Switch env.nx.Graph}

/-! ## Before the connection -/

structure Unconnected {Γ : Type} (s : Layer2Switch Γ) : Prop where
  sent : s.sent = []
  is_live : s.is_live = false
  lcid : s.lcid = none
  datapaths : s.datapaths = ∅
  load : s.dpid_to_load = ∅
  ports : s.dpid_to_inter_connection_port = ∅

/-- The events that a connection does not have to precede. -/
def Silent : LocalEvent → Prop
  | .SwitchFeatures _ | .Connected | .Downlink .. => False
  | .TopologyChange api => api.window_switches ≠ []
  | _ => True

theorem unconnected_expirePackets (now : Nat) (xids : List Nat) :
    Moves (Keeps Unconnected) (expirePackets env now xids) := by
  have hkeep : ∀ (s : Layer2Switch env.nx.Graph) xid_to_packet xid_to_packet_timestamp xid_to_buffer_id,
      Keeps Unconnected s { s with xid_to_packet, xid_to_packet_timestamp, xid_to_buffer_id } :=
    fun s _ _ _ h => ⟨h.sent, h.is_live, h.lcid, h.datapaths, h.load, h.ports⟩
  apply moves_expirePackets
  · exact fun s _ _ => hkeep s _ _ _
  · exact fun s _ _ _ => hkeep s _ _ _

theorem wp_unsent {own_xid : Option Nat} {msg : MsgUp} (hser : ∀ y, msg.serialize env.host (some y) = none)
    {Q : Unit → Layer2Switch env.nx.Graph → Prop} {E : Exn → Layer2Switch env.nx.Graph → Prop}
    (hE : ∀ x, E .StructError { s with xid := x }) : wp (send_msg env own_xid msg) s Q E := by
  unfold send_msg transmit
  simp only [wp_bind, hser, wp_throw]
  cases own_xid with
  | some y => exact hE s.xid
  | none => exact hE _

theorem unconnected_handle (h : Unconnected s) {e : LocalEvent} (he : Silent e) :
    wp (handle env e) s (fun _ => Unconnected) fun _ => Unconnected := by
  have hports : ∀ d, s.dpid_to_inter_connection_port.get d = none := fun d => by rw [h.ports]; exact Dict.get_empty d
  have hload : ∀ d, s.dpid_to_load.get d = none := fun d => by rw [h.load]; exact Dict.get_empty d
  have hdatapaths : ∀ d, s.datapaths.get d = none := fun d => by rw [h.datapaths]; exact Dict.get_empty d
  cases e with
  | SwitchFeatures datapath => exact he.elim
  | Connected => exact he.elim
  | Downlink now ev => exact he.elim
  | RoleReply dpid role =>
    show wp (ofp_role_reply_handler env dpid role) s _ _
    unfold ofp_role_reply_handler
    simp only [wp_bind, wp_get, h.lcid]
    apply wp_unsent
    · exact fun y => roleNotify_unsent env.host (some y) dpid role
    · exact fun x => ⟨h.sent, h.is_live, h.lcid, h.datapaths, h.load, h.ports⟩
  | PacketIn now msg =>
    show wp (ofp_packet_in_handler env now msg) s _ _
    unfold ofp_packet_in_handler
    cases msg.pkt.eth with
    | none => exact h
    | some eth =>
      unfold markPort countPacket
      simp only [wp_bind, wp_get, wp_ite, wp_item, hports, hload]
      simpa using h
  | TopologyChange api =>
    show wp (get_topology_data env api) s _ _
    unfold get_topology_data
    cases hw : api.window_switches with
    | nil => exact absurd hw he
    | cons w ws =>
      simp only [joinWindows, wp_bind, wp_modify, wp_orRaise]
      refine ⟨fun _ hx => (by cases hx), fun _ _ => ?_⟩
      exact ⟨h.sent, h.is_live, h.lcid, h.datapaths, h.load, h.ports⟩
  | SwitchLeave dpid =>
    show wp (switch_leave_handler env dpid) s _ _
    unfold switch_leave_handler removeNode
    simp only [wp_bind, wp_get, wp_orRaise, wp_modify, wp_item, hdatapaths]
    refine ⟨fun g _ => ⟨fun _ hx => (by cases hx), fun _ => ?_⟩, fun _ _ => h⟩
    exact ⟨h.sent, h.is_live, h.lcid, h.datapaths, h.load, h.ports⟩
  | LoadRound =>
    show wp (_load_report env) s _ _
    unfold _load_report
    simp only [wp_bind, wp_get, wp_ite, wp_pure, h.is_live]
    exact ⟨fun hx => (by cases hx), fun _ => h⟩
  | GraphInfoRound window_switches =>
    show wp (_graph_info_thread env window_switches) s _ _
    unfold _graph_info_thread
    simp only [wp_bind, wp_get, wp_ite, wp_pure, h.is_live]
    exact ⟨fun hx => (by cases hx), fun _ => h⟩
  | TimeoutRound now =>
    show wp (_packet_timeout_handler env now) s _ _
    unfold _packet_timeout_handler
    simp only [wp_bind, wp_get]
    exact (unconnected_expirePackets now _).kept h

theorem unconnected_step (h : Unconnected s) {e : LocalEvent} (he : Silent e) : Unconnected (step env s e) := by
  apply step_of_wp
  · exact fun s h => ⟨h.sent, rfl, h.lcid, h.datapaths, h.load, h.ports⟩
  · exact unconnected_handle h he

def Adds {Γ : Type} (msg : MsgUp) (s s' : Layer2Switch Γ) : Prop := ∃ y, s'.sent = s.sent ++ [⟨y, msg⟩]

theorem adds_switchFeatures {datapath : OfDatapath} (hsize : datapath.id < 2 ^ 64) :
    ∃ is_window, Adds (.DPConnected datapath.id is_window) s (step env s (.SwitchFeatures datapath)) := by
  apply step_of_wp (I := fun s' => ∃ is_window, Adds (.DPConnected datapath.id is_window) s s')
  · exact fun s h => h
  · apply wp_ofp_switch_features_handler hsize
    exact fun x y is_window _ => ⟨is_window, y, rfl⟩

theorem adds_topologyChange (hjson : env.json_dumps [] = asciiText "[]") {api : Topology} (hw : api.window_switches = []) :
    Adds (.GraphInfo (asciiText "[]")) s (step env s (.TopologyChange api)) := by
  apply step_of_wp (I := Adds (.GraphInfo (asciiText "[]")) s)
  · exact fun s h => h
  · show wp (get_topology_data env api) s _ _
    unfold get_topology_data
    simp only [hw, hjson, recordWindows, wp_bind, wp_modify, wp_pure]
    have hjoin : joinWindows [] = .ok () := rfl
    rw [wp_orRaise_ok hjoin]
    apply wp_send_msg_fits rfl
    · decide
    · exact fun x y => ⟨y, rfl⟩

theorem adds_greet {E : Exn → Layer2Switch env.nx.Graph → Prop} :
    wp (LocalSystem.greet env) s (fun _ => Adds .HelloUp s) E := by
  unfold LocalSystem.greet handle
  simp only [wp_bind, wp_modify]
  apply wp_send_msg_fits rfl rfl
  exact fun x y => ⟨y, rfl⟩

end Layer2Switch

namespace LocalSystem

open Layer2Switch AppManager

variable {env : LocalEnv} {a : LocalSystem env.nx.Graph} {buf : SentUp}

/-! ## The first message -/

/-- If anything reaches the connection, `buf` does first. -/
structure Leads {Γ : Type} (buf : SentUp) (a : LocalSystem Γ) : Prop where
  queue : ∀ q, a.send_q = some q → (a.wire ++ q).head? = some buf
  wire : a.wire = [] ∨ a.wire.head? = some buf

theorem Leads.queued (h : Leads buf a) {q : List SentUp} (hq : a.send_q = some q) (buf' : SentUp) :
    (a.wire ++ (q ++ [buf'])).head? = some buf := by
  rw [← List.append_assoc, List.head?_append, h.queue q hq, Option.some_or]

theorem leads_send (t : Thread) (buf' : SentUp) (h : Leads buf a) : Leads buf (a.send t buf') := by
  unfold send
  split
  · exact h
  · rename_i q hq
    split
    · refine ⟨fun q' hq' => ?_, h.wire⟩
      cases hq'
      exact h.queued hq buf'
    · exact ⟨h.queue, h.wire⟩

theorem leads_drain (h : Leads buf a) : Leads buf a.drain := by
  refine ⟨fun q hq => ?_, h.wire⟩
  cases hq

theorem leads_sendLoop (h : Leads buf a) : Leads buf a._send_loop := by
  unfold _send_loop
  split
  · rename_i buf' q hq
    split
    · have hhead := h.queue _ hq
      constructor
      · intro q' hq'
        cases hq'
        show ((a.wire ++ [buf']) ++ q).head? = some buf
        rw [List.append_assoc]
        exact hhead
      · right
        show (a.wire ++ [buf']).head? = some buf
        cases hw : a.wire with
        | nil => rw [hw] at hhead; exact hhead
        | cons b w => rw [hw] at hhead; exact hhead
    · exact h
  · exact h

theorem leads_unblock (i : Nat) (h : Leads buf a) : Leads buf (a.unblock i) := by
  unfold unblock
  split
  · rename_i q t buf' hq hi
    split
    · refine ⟨fun q' hq' => ?_, h.wire⟩
      cases hq'
      exact h.queued hq buf'
    · exact h
  · exact h

theorem leads_turn (t : Turn) (h : Leads buf a) : Leads buf (turn env a t) := by
  unfold turn
  cases t with
  | event e =>
    show Leads buf (if _ then _ else _)
    split
    · exact h
    · apply event_of_send (I := Leads buf)
      · exact fun a app load h => ⟨h.queue, h.wire⟩
      · exact fun a t buf' h => leads_send t buf' h
      · exact fun a h => leads_drain h
      · exact h
  | connectFailed => exact h
  | sendLoop => exact leads_sendLoop h
  | unblock i => exact leads_unblock i h
  | dropped =>
    show Leads buf (if _ then _ else _)
    split
    · exact leads_drain h
    · exact h

theorem leads_run (h : Leads buf a) (ts : List Turn) : Leads buf (ts.foldl (turn env) a) :=
  List.foldlRecOn (motive := Leads buf) ts (turn env) h fun _ h t _ => leads_turn t h

/-! ## Up to the first message -/

structure Idle {Γ : Type} (a : LocalSystem Γ) : Prop where
  app : Unconnected a.app
  send_q : a.send_q = some []
  putters : a.putters = []
  wire : a.wire = []
  load_report : a.load_report = some []

theorem idle_start (xid : Nat) : Idle (start env xid) :=
  ⟨⟨rfl, rfl, rfl, rfl, rfl, rfl⟩, rfl, rfl, rfl, rfl⟩

theorem Idle.sendNew (h : Idle a) (t : Thread) {app : Layer2Switch env.nx.Graph} (happ : Unconnected app) :
    Idle (a.sendNew t app) := by
  have hsame : a.sendNew t app = { a with app } := by
    unfold LocalSystem.sendNew
    rw [happ.sent, List.drop_nil, List.foldl_nil]
  rw [hsame]
  exact ⟨happ, h.send_q, h.putters, h.wire, h.load_report⟩

theorem Idle.leads (h : Idle a) (t : Thread) {app : Layer2Switch env.nx.Graph} {msg : MsgUp}
    (hadds : Adds msg a.app app) : ∃ buf, buf.msg = msg ∧ Leads buf (a.sendNew t app) := by
  obtain ⟨y, hsent⟩ := hadds
  refine ⟨⟨y, msg⟩, rfl, ?_⟩
  unfold LocalSystem.sendNew
  rw [hsent, List.drop_left]
  unfold LocalSystem.send
  simp only [List.foldl_cons, List.foldl_nil, h.send_q]
  refine ⟨fun q hq => ?_, Or.inl h.wire⟩
  cases hq
  show (a.wire ++ [(⟨y, msg⟩ : SentUp)]).head? = _
  rw [h.wire]
  rfl

def ConnectsFirst : List Turn → Prop
  | [] => True
  | .event .Connected :: _ => True
  | .event (.SwitchFeatures _) :: _ => False
  | .event (.TopologyChange api) :: ts => api.window_switches ≠ [] ∧ ConnectsFirst ts
  | _ :: ts => ConnectsFirst ts

theorem Idle.turn_event (h : Idle a) (e : LocalEvent) : turn env a (.event e) = event env a e := by
  have hwaits : ¬ a.Waits e.thread := by
    unfold Waits
    rw [h.putters]
    exact List.not_mem_nil
  exact if_neg hwaits

theorem Idle.turn_silent (h : Idle a) {e : LocalEvent} (he : Silent e) : Idle (turn env a (.event e)) := by
  have hnew := h.sendNew e.thread (unconnected_step h.app he)
  rw [h.turn_event]
  cases e with
  | SwitchFeatures datapath => exact he.elim
  | Connected => exact he.elim
  | Downlink now ev => exact he.elim
  | LoadRound =>
    have hload : _load_report env a = a := by
      simp [_load_report, h.load_report, h.app.is_live]
    show Idle (_load_report env a)
    rw [hload]
    exact h
  | _ => exact hnew

theorem Idle.turn_connected (h : Idle a) : ∃ buf, buf.msg = .HelloUp ∧ Leads buf (turn env a (.event .Connected)) := by
  have hgreet := adds_greet (s := a.app) (E := fun _ _ => False)
  have hopen : a.send_q.isSome ∧ ¬ a.app.is_live := by
    simp [h.send_q, h.app.is_live]
  rw [h.turn_event]
  show ∃ buf, buf.msg = .HelloUp ∧ Leads buf (serve env a)
  unfold serve
  rw [if_pos hopen]
  unfold wp at hgreet
  cases hx : greet env a.app with
  | ok _ app =>
    rw [hx] at hgreet
    exact h.leads .serve hgreet
  | error _ app =>
    rw [hx] at hgreet
    exact hgreet.elim

theorem Idle.turn_other (h : Idle a) {t : Turn} (ht : ∀ e, t ≠ .event e) : turn env a t = a := by
  cases t with
  | event e => exact absurd rfl (ht e)
  | connectFailed => rfl
  | sendLoop =>
    show a._send_loop = a
    simp [_send_loop, h.send_q]
  | unblock i =>
    show a.unblock i = a
    simp [LocalSystem.unblock, h.putters]
  | dropped => exact if_neg (by simp [h.app.is_live])

theorem first_of_leads (h : Leads buf a) (ts : List Turn) (hwire : (ts.foldl (turn env) a).wire ≠ []) :
    (ts.foldl (turn env) a).wire.head? = some buf :=
  (leads_run h ts).wire.resolve_left hwire

theorem Idle.first_other (h : Idle a) {e : LocalEvent} {msg : MsgUp} {ts : List Turn}
    (hturn : turn env a (.event e) = a.sendNew .ryu (Layer2Switch.step env a.app e))
    (hadds : Adds msg a.app (Layer2Switch.step env a.app e)) (hmsg : msg ≠ .HelloUp)
    (hwire : (ts.foldl (turn env) (turn env a (.event e))).wire ≠ []) :
    ∃ buf, (ts.foldl (turn env) (turn env a (.event e))).wire.head? = some buf ∧ buf.msg ≠ .HelloUp := by
  obtain ⟨buf, rfl, hleads⟩ := h.leads .ryu hadds
  rw [hturn] at hwire ⊢
  exact ⟨buf, first_of_leads hleads ts hwire, hmsg⟩

theorem first_of_idle (hjson : env.json_dumps [] = asciiText "[]") :
    ∀ (ts : List Turn) {a : LocalSystem env.nx.Graph}, Idle a → (∀ e, .event e ∈ ts → Sized e) →
      (ts.foldl (turn env) a).wire ≠ [] →
      ∃ buf, (ts.foldl (turn env) a).wire.head? = some buf ∧ (buf.msg = .HelloUp ↔ ConnectsFirst ts)
  | [], a, h, _, hwire => absurd h.wire hwire
  | t :: ts, a, h, hsized, hwire => by
    have htail := fun e he => hsized e (List.mem_cons_of_mem t he)
    have hother : (∀ e, t ≠ .event e) → ∃ buf, (ts.foldl (turn env) (turn env a t)).wire.head? = some buf ∧
        (buf.msg = .HelloUp ↔ ConnectsFirst ts) := by
      intro ht
      rw [List.foldl_cons, h.turn_other ht] at hwire
      rw [h.turn_other ht]
      exact first_of_idle hjson ts h htail hwire
    cases t with
    | connectFailed => exact hother fun e => by simp
    | sendLoop => exact hother fun e => by simp
    | unblock i => exact hother fun e => by simp
    | dropped => exact hother fun e => by simp
    | event e =>
      have hsilent : Silent e → ∃ buf, (ts.foldl (turn env) (turn env a (.event e))).wire.head? = some buf ∧
          (buf.msg = .HelloUp ↔ ConnectsFirst ts) :=
        fun he => first_of_idle hjson ts (h.turn_silent he) htail hwire
      cases e with
      | Connected =>
        obtain ⟨buf, hmsg, hleads⟩ := h.turn_connected
        exact ⟨buf, first_of_leads hleads ts hwire, iff_of_true hmsg trivial⟩
      | SwitchFeatures datapath =>
        obtain ⟨is_window, hadds⟩ := adds_switchFeatures (s := a.app) (hsized _ List.mem_cons_self)
        obtain ⟨buf, hhead, hmsg⟩ := h.first_other (h.turn_event _) hadds MsgUp.noConfusion hwire
        exact ⟨buf, hhead, iff_of_false hmsg id⟩
      | TopologyChange api =>
        by_cases hw : api.window_switches = []
        · have hadds := adds_topologyChange (s := a.app) hjson hw
          obtain ⟨buf, hhead, hmsg⟩ := h.first_other (h.turn_event _) hadds MsgUp.noConfusion hwire
          exact ⟨buf, hhead, iff_of_false hmsg fun hc => hc.1 hw⟩
        · obtain ⟨buf, hhead, hiff⟩ := hsilent hw
          exact ⟨buf, hhead, hiff.trans ⟨fun hc => ⟨hw, hc⟩, And.right⟩⟩
      | Downlink now ev =>
        have hdead : turn env a (.event (.Downlink now ev)) = a := by
          rw [h.turn_event]
          exact if_neg (by simp [h.app.is_live])
        rw [List.foldl_cons, hdead] at hwire ⊢
        exact first_of_idle hjson ts h htail hwire
      | RoleReply dpid role => exact hsilent trivial
      | PacketIn now msg => exact hsilent trivial
      | SwitchLeave dpid => exact hsilent trivial
      | LoadRound => exact hsilent trivial
      | GraphInfoRound window_switches => exact hsilent trivial
      | TimeoutRound now => exact hsilent trivial

/-! ## At the central controller -/

def HelloFirst {Γ : Type} (a : LocalSystem Γ) : Prop := ∀ buf, a.wire.head? = some buf → buf.msg = .HelloUp

/-- The handlers that use the id of the controller. -/
def NeedsId : MsgUp → Prop
  | .DPConnected .. | .HostConnected .. | .GraphInfo _ => True
  | _ => False

/-- What was received from `lc` is a first part of `msgs`, in order. -/
def Carries (lc : Nat) (msgs : List MsgUp) (rs : List Received) : Prop :=
  ((rs.filter fun r => r.lc = lc).map fun r => r.ev.msg) <+: msgs

/-- No message that needs an id is handled before `lc` has one, whatever the
other controllers send meanwhile. -/
def KnownFirst (cenv : Env) (lc : Nat) {Γ : Type} (a : LocalSystem Γ) : Prop :=
  ∀ (s : AppManager cenv.nx.Graph) rs r, Carries lc (a.wire.map SentUp.msg) (rs ++ [r]) → r.lc = lc →
    NeedsId r.ev.msg → ((rs.foldl (receive cenv) s).lcs lc).id ≠ none

section
variable {cenv : Env} {lc : Nat}

theorem id_receive (s : AppManager cenv.nx.Graph) (r : Received)
    (h : (s.lcs lc).id ≠ none ∨ r.lc = lc ∧ r.ev.msg = .HelloUp) : ((receive cenv s r).lcs lc).id ≠ none := by
  apply receive_of_always (fun s' => (s'.lcs lc).id ≠ none)
  · intro s' h'
    rw [close_id]
    exact h'
  · by_cases hh : r.ev.msg = .HelloUp
    · unfold AppManager.dispatch_event
      rw [hh]
      refine Always.mono (always_hello_up r.lc s) ?_
      intro _ hpost
      obtain ⟨lcid, x, msgs, _, rfl, _⟩ := hpost
      rw [sends_id, helloed_id]
      split
      · exact Option.some_ne_none lcid
      · rename_i hne
        exact h.resolve_right fun hr => hne hr.1.symm
    · refine Always.mono (sameCtrls_dispatch r.lc r.ev s hh) ?_
      intro s' hs
      rw [hs.id]
      exact h.resolve_right fun hr => hh hr.2

theorem id_after_hello : ∀ (rs : List Received) (s : AppManager cenv.nx.Graph),
    ((s.lcs lc).id ≠ none ∨ ∃ r ∈ rs, r.lc = lc ∧ r.ev.msg = .HelloUp) →
      ((rs.foldl (receive cenv) s).lcs lc).id ≠ none
  | [], s, h => h.resolve_right fun hr => by simp at hr
  | r :: rs, s, h => by
    apply id_after_hello rs (receive cenv s r)
    rcases h with hid | ⟨r', hmem, hr'⟩
    · exact Or.inl (id_receive s r (Or.inl hid))
    · rcases List.mem_cons.mp hmem with rfl | hmem
      · exact Or.inl (id_receive s r' (Or.inr hr'))
      · exact Or.inr ⟨r', hmem, hr'⟩

theorem known_of_hello {Γ : Type} {a : LocalSystem Γ} (h : HelloFirst a) : KnownFirst cenv lc a := by
  intro s rs r hcarries hlc hneeds
  apply id_after_hello rs s
  right
  obtain ⟨rest, hrest⟩ := hcarries
  have hfirst : ∀ msg msgs, msg :: msgs = a.wire.map SentUp.msg → msg = .HelloUp := by
    intro msg msgs hmsgs
    cases hw : a.wire with
    | nil => rw [hw] at hmsgs; cases hmsgs
    | cons buf w =>
      rw [hw] at hmsgs
      have hbuf : buf.msg = .HelloUp := h buf (by rw [hw]; rfl)
      cases hmsgs
      exact hbuf
  rw [List.filter_append, List.map_append] at hrest
  cases hf : rs.filter fun r => r.lc = lc with
  | nil =>
    have hr : [r].filter (fun r => r.lc = lc) = [r] := by simp [hlc]
    rw [hf, hr] at hrest
    rw [hfirst r.ev.msg rest hrest] at hneeds
    exact hneeds.elim
  | cons r' rs' =>
    rw [hf] at hrest
    have hmem : r' ∈ rs.filter fun r => r.lc = lc := by rw [hf]; exact List.mem_cons_self
    obtain ⟨hmem, hlc'⟩ := List.mem_filter.mp hmem
    exact ⟨r', hmem, of_decide_eq_true hlc', hfirst r'.ev.msg _ hrest⟩

end

/-- **HELLO_UP is the first frame just in the runs that connect first**, and
then the central controller knows the id of a controller that reports. -/
theorem hello_comes_first (env : LocalEnv) (hjson : env.json_dumps [] = asciiText "[]") (cenv : Env) (xid lc : Nat)
    (ts : List Turn) (hsized : ∀ e, .event e ∈ ts → Sized e) (hwire : (run env xid ts).wire ≠ []) :
    HelloFirst (run env xid ts) ∧ KnownFirst cenv lc (run env xid ts) ↔ ConnectsFirst ts := by
  obtain ⟨buf, hhead, hiff⟩ := first_of_idle hjson ts (idle_start xid) hsized hwire
  constructor
  · intro h
    exact hiff.mp (h.1 buf hhead)
  · intro hc
    have hfirst : HelloFirst (run env xid ts) := by
      intro buf' hhead'
      have hsame : some buf' = some buf := hhead'.symm.trans hhead
      cases hsame
      exact hiff.mpr hc
    exact ⟨hfirst, known_of_hello hfirst⟩

/-- The connection fails once and then succeeds, a switch comes, and its report
follows the hello. -/
theorem hello_comes_first_connected :
    HelloFirst (run sampleLocalEnv 0 [.connectFailed, .event .Connected, .event (.SwitchFeatures ⟨1, "10.0.0.1"⟩),
      .sendLoop, .sendLoop]) ∧
    KnownFirst (sampleEnv []) 0 (run sampleLocalEnv 0 [.connectFailed, .event .Connected,
      .event (.SwitchFeatures ⟨1, "10.0.0.1"⟩), .sendLoop, .sendLoop]) :=
  (hello_comes_first sampleLocalEnv rfl (sampleEnv []) 0 0 [.connectFailed, .event .Connected,
    .event (.SwitchFeatures ⟨1, "10.0.0.1"⟩), .sendLoop, .sendLoop] (by simp [Sized]) (by decide +kernel)).mpr trivial

/-- The switch comes before the connection: its report is the first frame, and
the central controller handles it for a controller without an id. -/
theorem hello_overtaken :
    let a := run sampleLocalEnv 0 [.connectFailed, .event (.SwitchFeatures ⟨1, "10.0.0.1"⟩), .event .Connected, .sendLoop]
    ¬ HelloFirst a ∧ ¬ KnownFirst (sampleEnv []) 0 a := by
  have hwire : (run sampleLocalEnv 0 [.connectFailed, .event (.SwitchFeatures ⟨1, "10.0.0.1"⟩), .event .Connected,
      .sendLoop]).wire = [⟨1, .DPConnected 1 false⟩] := by decide +kernel
  constructor
  · intro h
    cases h _ (by rw [hwire]; rfl)
  · intro h
    refine h (sampleInit []) [] (received 0 1 (.DPConnected 1 false)) ?_ rfl trivial rfl
    rw [hwire]
    exact List.prefix_refl _

end LocalSystem

end VnfDockerNet
