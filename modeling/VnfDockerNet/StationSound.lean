import VnfDockerNet.LinkDiscoverySound
import VnfDockerNet.LinkSound

/-!
# Discovery and the local graph

A local controller's application hears from ryu's, which runs beside it, that a
switch came or left and that a link was found, and then asks for the links there
are at that time. Its graph lags behind; when it has heard everything it has
every link that was discovered between connected switches, and all it ever has
are wires.
-/

namespace VnfDockerNet

open Python Networkx

/-- ryu's application, the one beside it, and how many announcements that one has handled. -/
structure Station (lenv : LocalEnv) where
  ryu : Switches
  app : Layer2Switch lenv.nx.Graph
  read : Nat := 0

inductive StationTurn where
  | ryu (i : Switches.Input)
  /-- An event of the switches, the central controller or a timer. -/
  | app (e : LocalEvent)
  /-- The next announcement is handled, with these answers to the other two requests. -/
  | notice (switch_list : List Nat) (window_switches : List Window)

namespace Station

variable {env : RyuEnv} {lenv : LocalEnv}

/-- The handler of an announcement; `link_request_handler` gives the links there are now. -/
def handler (env : RyuEnv) (s : Switches) (switch_list : List Nat) (window_switches : List Window) : TopologyEvent → Option LocalEvent
  | .SwitchEnter .. | .LinkAdd _ => some (.TopologyChange ⟨switch_list, window_switches, env.order.order s.links.dict⟩)
  | .SwitchLeave dpid _ => some (.SwitchLeave dpid)
  | _ => none

def turn (env : RyuEnv) (a : Station lenv) : StationTurn → Station lenv
  | .ryu i => { a with ryu := Switches.step env a.ryu i }
  | .app e => { a with app := Layer2Switch.step lenv a.app e }
  | .notice switch_list window_switches =>
    match a.ryu.events[a.read]? with
    | none => a
    | some ev =>
      match handler env a.ryu switch_list window_switches ev with
      | none => { a with read := a.read + 1 }
      | some e => { a with app := Layer2Switch.step lenv a.app e, read := a.read + 1 }

def start (lenv : LocalEnv) (xid : Nat) : Station lenv := ⟨{}, Layer2Switch.init lenv xid, 0⟩

/-! ## What ryu's application announces -/

def IsLeave : TopologyEvent → Prop
  | .SwitchLeave .. => True
  | _ => False

def Refreshes : TopologyEvent → Prop
  | .SwitchEnter .. | .LinkAdd _ => True
  | _ => False

section
open Switches
variable {s s' : Switches}

structure Quiet (s s' : Switches) : Prop where
  told : ∃ es, s'.events = s.events ++ es ∧ ∀ e ∈ es, ¬ IsLeave e
  dps : ∀ d, d ∈ s'.dps ↔ d ∈ s.dps

instance : IsPreorder Switches Quiet where
  refl s := ⟨⟨[], (List.append_nil _).symm, fun _ he => absurd he List.not_mem_nil⟩, fun _ => Iff.rfl⟩
  trans _ _ _ h h' := by
    obtain ⟨es, hes, hno⟩ := h.told
    obtain ⟨es', hes', hno'⟩ := h'.told
    refine ⟨⟨es ++ es', by rw [hes', hes, List.append_assoc], fun e he => ?_⟩, fun d => (h'.dps d).trans (h.dps d)⟩
    exact (List.mem_append.mp he).elim (hno e) (hno' e)

theorem quiet_same (hevents : s'.events = s.events) (hdps : s'.dps = s.dps) : Quiet s s' :=
  ⟨⟨[], by rw [hevents, List.append_nil], fun _ he => absurd he List.not_mem_nil⟩, fun d => by rw [hdps]⟩

theorem quiet_send_event {e : TopologyEvent} (he : ¬ IsLeave e) : Moves Quiet (send_event_to_observers e) :=
  .modify fun _ => ⟨⟨[e], rfl, fun _ he' => List.mem_singleton.mp he' ▸ he⟩, fun _ => Iff.rfl⟩

theorem quiet_ports (s : Switches) (ports : PortDataState) : Quiet s { s with ports } := quiet_same rfl rfl

theorem quiet_link_down (port : LinkEnd) : Moves Quiet (_link_down port) := by
  have hdelete : Moves Quiet (port_deleted port) :=
    .bind .get fun _ => .bind (.item _ _) fun _ => .bind (.bind .get fun _ => .bind (moves_delItem _ _) fun _ =>
      .modify fun _ => quiet_same rfl rfl) fun _ => .bind (.bind .get fun _ => .bind (moves_delItem _ _) fun _ =>
        .modify fun _ => quiet_same rfl rfl) fun _ => .bind .get fun _ => .bind (.modify fun _ => quiet_same rfl rfl) fun _ =>
          .pure _
  refine .bind (moves_tryKey hdelete) fun r => ?_
  cases r with
  | none => exact .pure ()
  | some x =>
    obtain ⟨dst, rev⟩ := x
    refine .bind (quiet_send_event id) fun _ => .bind ?_ fun _ => ports_move_front quiet_ports dst
    cases rev with
    | none => exact .pure ()
    | some peer => exact quiet_send_event id

theorem quiet_port_status_handler (d : Nat) (p : OFPPort) (reason : Reason) : Moves Quiet (port_status_handler env d p reason) := by
  have hset : Moves Quiet (setPort d p) := .bind .get fun _ => .bind (.item _ _) fun _ => .modify fun _ => quiet_same rfl rfl
  have hremove : Moves Quiet (removePort d p.port_no) :=
    .bind .get fun _ => .bind (.item _ _) fun _ => .bind (moves_delItem _ _) fun _ => .modify fun _ => quiet_same rfl rfl
  cases reason with
  | ADD => exact .bind hset fun _ => .bind (quiet_send_event id) fun _ => moves_withPort d _ fun p => ports_port_added quiet_ports p
  | DELETE =>
    refine .bind (quiet_send_event id) fun _ => .bind (moves_withPort d _ fun p => ?_) fun _ => .ite hremove (.pure ())
    exact .bind (ports_del_port quiet_ports _) fun _ => quiet_link_down _
  | MODIFY =>
    refine .bind hset fun _ => .bind (quiet_send_event id) fun _ => moves_withPort d _ fun p => ?_
    exact .bind (ports_set_down quiet_ports _ _) fun _ => .ite (quiet_link_down _) (.pure ())

theorem quiet_learnLink (src dst : LinkEnd) : Moves Quiet (learnLink env src dst) := by
  have hdrop : Moves Quiet (dropOldLink src dst) := by
    refine .bind .get fun s => ?_
    cases s.links.map.get src with
    | none => exact .pure ()
    | some old =>
      exact .ite (.bind (.bind .get fun _ => .bind (moves_delItem _ _) fun _ => .modify fun _ => quiet_same rfl rfl) fun _ =>
        quiet_send_event id) (.pure ())
  have hhosts : Moves Quiet (removeInnerHosts env) := by
    refine .bind .get fun s => moves_forEach (fun mac => ?_) _
    exact .bind .get fun _ => .bind (moves_delItem _ _) fun _ => .modify fun _ => quiet_same rfl rfl
  refine .bind hdrop fun _ => .bind (.bind .get fun _ => .ite (.bind (quiet_send_event id) fun _ => hhosts) (.pure ())) fun _ => ?_
  refine .bind (.bind (.modify fun _ => quiet_same rfl rfl) fun _ => .bind .get fun _ => .pure _) fun _ => ?_
  exact .ite (ports_move_front quiet_ports dst) (.pure ())

theorem quiet_lldp_packet_in_handler (msg : RyuPacketIn) : Moves Quiet (lldp_packet_in_handler env msg) := by
  refine .ite ?_ (.pure ())
  split
  · exact .pure ()
  · exact .throw _
  · exact .throw _
  · refine .bind (lookups_get_port _ _) fun src => ?_
    cases src with
    | none => exact .pure ()
    | some src =>
      refine .ite (.pure ()) (.bind (moves_tryKey (ports_lldp_received quiet_ports _)) fun _ => .bind (lookups_get_port _ _) fun dst => ?_)
      cases dst with
      | none => exact .pure ()
      | some dst =>
        refine .bind (quiet_learnLink _ _) fun _ => .ite (.ite (.pure ()) ?_) (.pure ())
        exact .modify fun _ => quiet_same rfl rfl

theorem quiet_host_discovery (msg : RyuPacketIn) : Moves Quiet (host_discovery_packet_in_handler env msg) := by
  have hip : ∀ (mac : Bytes) (f : RyuHost → RyuHost), Moves Quiet (update_ip mac f) := fun _ _ => .modify fun _ => quiet_same rfl rfl
  have hlearn : ∀ mac port, Moves Quiet (learnHost mac port) := by
    intro mac port
    refine .bind .get fun s => ?_
    cases s.hosts.get mac with
    | none => exact .bind (.modify fun _ => quiet_same rfl rfl) fun _ => quiet_send_event id
    | some host => exact .ite (.bind (.modify fun _ => quiet_same rfl rfl) fun _ => quiet_send_event id) (.pure ())
  refine .bind (.orRaise _) fun fields => ?_
  split
  · refine .ite (.pure ()) (.bind (lookups_get_port _ _) fun port => ?_)
    cases port with
    | none => exact .pure ()
    | some port =>
      refine .bind .get fun s => .ite (.bind (hlearn _ _) fun _ => ?_) (.pure ())
      exact .ite (.bind (.orRaise _) fun _ => hip _ _) (.ite (.bind (.orRaise _) fun _ => hip _ _)
        (.ite (.bind (.orRaise _) fun _ => hip _ _) (.pure ())))
  · exact .throw _

theorem quiet_link_loop : Moves Quiet (link_loop env) := by
  refine .bind .get fun s => moves_forEach (fun link => ?_) _
  refine .bind (.bind (.bind .get fun _ => .bind (moves_delItem _ _) fun _ => .modify fun _ => quiet_same rfl rfl) fun _ =>
    .bind .get fun _ => .bind (moves_delItem _ _) fun _ => .modify fun _ => quiet_same rfl rfl) fun _ =>
      .bind (quiet_send_event id) fun _ => ?_
  exact .ite (.bind (.modify fun _ => quiet_same rfl rfl) fun _ => ports_move_front quiet_ports link.dst) (.pure ())

theorem quiet_send_lldp_packet (port : LinkEnd) : Moves Quiet (send_lldp_packet port) := by
  refine .bind (moves_tryKey (ports_lldp_sent quiet_ports port)) fun data => ?_
  cases data with
  | none => exact .pure ()
  | some data =>
    refine .ite (.pure ()) (.bind .get fun s => ?_)
    cases s.dps.get port.dpid with
    | none => exact .pure ()
    | some dp => exact .modify fun _ => quiet_same rfl rfl

/-- What is new, for a pair of switches that are both connected in the end. -/
def Announces (s s' : Switches) : Prop := ∃ es, s'.events = s.events ++ es ∧ ((∀ e ∈ es, ¬ IsLeave e) ∧ (∀ d, d ∈ s'.dps → d ∈ s.dps) ∨
  (∃ d ports es', es = .SwitchEnter d ports :: es' ∧ ∀ e ∈ es', ¬ IsLeave e) ∨
  ∃ d ports es', es = .SwitchLeave d ports :: es' ∧ (∀ e ∈ es', ¬ IsLeave e) ∧ ∀ d', d' ∈ s'.dps → d' ≠ d ∧ d' ∈ s.dps)

theorem Quiet.announces (h : Quiet s s') : Announces s s' := by
  obtain ⟨es, hes, hno⟩ := h.told
  exact ⟨es, hes, Or.inl ⟨hno, fun d hd => (h.dps d).mp hd⟩⟩

theorem wp_get_switch_dp (d : Nat) : wp (_get_switch env d) s
    (fun r s' => s' = s ∧ ∀ switch, r = some switch → s.dps.get d = some switch.dp) fun _ s' => s' = s := by
  unfold _get_switch
  simp only [wp_bind, wp_get]
  cases hdp : s.dps.get d with
  | none => exact ⟨rfl, fun _ h => by cases h⟩
  | some dp =>
    simp only [wp_bind, wp_item, wp_pure]
    refine ⟨fun state _ => ⟨trivial, fun switch h => ?_⟩, fun _ => trivial⟩
    cases h
    rfl

theorem announces_main_dispatcher (dp : RyuDatapath) : wp (main_dispatcher env dp) s (fun _ => Announces s) fun _ _ => True := by
  have hflow : Moves Quiet (installFlow env dp) := .ite (.modify fun _ => quiet_same rfl rfl) (.pure ())
  have hports : ∀ ports : List RyuPort, Moves Quiet (forEach (fun p => if p.is_reserved then pure () else _port_added env p) ports : Stmt Unit) :=
    fun ports => moves_forEach (fun p => .ite (.pure ()) (ports_port_added quiet_ports p)) ports
  have hafter : ∀ (new : Bool) (ports : List RyuPort), Moves Quiet (do
      if env.link_discovery then
        installFlow env dp
        if new then forEach (fun p => if p.is_reserved then pure () else _port_added env p) ports : Stmt Unit) :=
    fun new ports => .ite (.bind hflow fun _ => .ite (hports ports) (.pure ())) (.pure ())
  unfold main_dispatcher
  simp only [wp_bind, wp_get]
  cases hold : s.dps.get dp.id with
  | none =>
    simp only [closeOld, wp_pure, _register, wp_modify]
    refine wp_mono (wp_get_switch_dp dp.id) (fun r s₁ hs => ?_) fun _ _ _ => trivial
    obtain ⟨rfl, -⟩ := hs
    cases r with
    | none => exact trivial
    | some switch =>
      simp only [Option.isNone_none, if_true, send_event_to_observers, wp_bind, wp_modify]
      refine wp_mono (hafter true switch.ports _) (fun _ s₂ hs => ?_) fun _ _ _ => trivial
      obtain ⟨es, hes, hno⟩ := hs.told
      refine ⟨.SwitchEnter dp.id (switch.ports.map RyuPort.key) :: es, ?_, Or.inr (Or.inl ⟨_, _, es, rfl, hno⟩)⟩
      rw [hes, List.append_assoc]
      rfl
  | some old =>
    simp only [closeOld, send_msg, _register, wp_modify]
    refine wp_mono (wp_get_switch_dp dp.id) (fun r s₁ hs => ?_) fun _ _ _ => trivial
    obtain ⟨rfl, -⟩ := hs
    cases r with
    | none => exact trivial
    | some switch =>
      simp only [Option.isNone_some, Bool.false_eq_true, if_false, send_event_to_observers, wp_bind, wp_modify]
      refine wp_mono (hafter false switch.ports _) (fun _ s₂ hs => ?_) fun _ _ _ => trivial
      obtain ⟨es, hes, hno⟩ := hs.told
      refine ⟨.SwitchReconnected dp.id (switch.ports.map RyuPort.key) :: es, ?_, Or.inl ⟨fun e he => ?_, fun d hd => ?_⟩⟩
      · rw [hes, List.append_assoc]
        rfl
      · rcases List.mem_cons.mp he with rfl | he
        · exact id
        · exact hno e he
      · exact (Dict.mem_insert_of_mem (Dict.mem_iff_get.mpr ⟨old, hold⟩) dp d).mp ((hs.dps d).mp hd)

theorem announces_dead_dispatcher (dp : RyuDatapath) :
    wp (dead_dispatcher env dp) s (fun _ => Announces s) fun _ => Announces s := by
  have hstay : Announces s s := (refl_of Quiet s).announces
  have hports : ∀ ports : List RyuPort, Moves Quiet (forEach (fun p => if p.is_reserved then pure () else do
      del_port p.key
      _link_down p.key) ports : Stmt Unit) :=
    fun ports => moves_forEach (fun p => .ite (.pure ()) (.bind (ports_del_port quiet_ports _) fun _ => quiet_link_down _)) ports
  unfold dead_dispatcher
  rw [wp_bind]
  refine wp_mono (wp_get_switch_dp dp.id) (fun r s₁ hs => ?_) fun _ s₁ hs => hs ▸ hstay
  obtain ⟨rfl, hdp⟩ := hs
  cases r with
  | none => exact hstay
  | some switch =>
    show wp (if switch.dp.conn = dp.conn then _ else _) s₁ _ _
    rw [wp_ite]
    refine ⟨fun hconn => ?_, fun _ => hstay⟩
    simp only [_unregister, wp_bind, wp_get, hdp switch rfl, hconn, if_true, wp_modify, wp_delItem, send_event_to_observers]
    refine ⟨fun _ => ?_, fun _ => ?_⟩
    · have hend : ∀ s₂, Quiet { s₁ with dps := s₁.dps.erase dp.id, port_state := s₁.port_state.erase dp.id, events := s₁.events ++
            [.SwitchLeave dp.id (switch.ports.map RyuPort.key)] } s₂ → Announces s₁ s₂ := by
        intro s₂ hs
        obtain ⟨es, hes, hno⟩ := hs.told
        refine ⟨.SwitchLeave dp.id (switch.ports.map RyuPort.key) :: es, ?_, Or.inr (Or.inr ⟨_, _, es, rfl, hno, fun d hd => ?_⟩)⟩
        · rw [hes, List.append_assoc]
          rfl
        · exact AList.mem_erase.mp ((hs.dps d).mp hd)
      rw [wp_ite]
      exact ⟨fun _ => wp_mono (hports switch.ports _) (fun _ => hend) fun _ => hend, fun _ => hend _ (refl_of Quiet _)⟩
    · exact ⟨[], (List.append_nil _).symm, Or.inl ⟨fun _ he => absurd he List.not_mem_nil, fun d hd => (AList.mem_erase.mp hd).2⟩⟩

theorem announces_handle (hon : env.link_discovery = true) (hconv : Converts env) (h : Tables env s) {i : Input} (hi : Reports env s i) :
    wp (handle env i) s (fun _ => Announces s) fun _ => Announces s := by
  have hquiet : ∀ {x : Stmt Unit}, Moves Quiet x → wp x s (fun _ => Announces s) fun _ => Announces s :=
    fun hx => wp_mono (hx s) (fun _ _ hs => hs.announces) fun _ _ hs => hs.announces
  cases i with
  | Main dp =>
    exact wp_mono (wp_and (announces_main_dispatcher dp) (wp_main_dispatcher hon hconv h hi)) (fun _ _ hs => hs.1) fun _ _ hs => hs.2.elim
  | Dead dp =>
    cases dp with
    | none => exact (refl_of Quiet s).announces
    | some dp => exact announces_dead_dispatcher dp
  | PortStatus d p reason => exact hquiet (quiet_port_status_handler d p reason)
  | LldpPacketIn msg => exact hquiet (quiet_lldp_packet_in_handler msg)
  | HostPacketIn msg => exact hquiet (quiet_host_discovery msg)
  | SendLldp port => exact hquiet (quiet_send_lldp_packet port)
  | LinkRound => exact hquiet quiet_link_loop
  | Elapse time => exact (quiet_same rfl rfl).announces

theorem mem_linksTold_append {link : Link} {events : List TopologyEvent} : ∀ {es : List TopologyEvent},
    link ∈ linksTold (events ++ es) → link ∈ linksTold events ∨ .LinkAdd link ∈ es := by
  intro es
  induction es using List.reverseRecOn with
  | nil =>
    intro h
    rw [List.append_nil] at h
    exact Or.inl h
  | append_singleton es e ih =>
    intro h
    rw [← List.append_assoc, linksTold_snoc] at h
    have hold : link ∈ linksTold (events ++ es) → link ∈ linksTold events ∨ .LinkAdd link ∈ es ++ [e] :=
      fun h => (ih h).imp id fun h => List.mem_append_left _ h
    cases e with
    | LinkAdd link' =>
      rcases List.mem_cons.mp h with rfl | h
      · exact Or.inr (List.mem_append_right _ (List.mem_singleton.mpr rfl))
      · exact hold h
    | LinkDelete link' => exact hold (List.mem_of_mem_erase h)
    | _ => exact hold h

end

/-! ## What is still to be heard -/

section
variable {net : lenv.nx.Graph} {l : Link} {unread es : List TopologyEvent}

def LeavesEnd (l : Link) (e : TopologyEvent) : Prop := ∃ ports, e = .SwitchLeave l.src.dpid ports ∨ e = .SwitchLeave l.dst.dpid ports

def Joined (net : lenv.nx.Graph) (l : Link) : Prop :=
  (lenv.nx.edge net (.dpid l.src.dpid) (.dpid l.dst.dpid)).isSome = true ∧
    (lenv.nx.edge net (.dpid l.dst.dpid) (.dpid l.src.dpid)).isSome = true

/-- The link is in the graph and will stay there, or an announcement that is
still to be heard brings it. -/
def Covered (net : lenv.nx.Graph) (l : Link) (unread : List TopologyEvent) : Prop :=
  (Joined net l ∧ ∀ e ∈ unread, ¬ LeavesEnd l e) ∨
    ∃ before e after, unread = before ++ e :: after ∧ Refreshes e ∧ ∀ e' ∈ after, ¬ LeavesEnd l e'

theorem not_leavesEnd {e : TopologyEvent} (h : ¬ IsLeave e) : ¬ LeavesEnd l e := by
  rintro ⟨ports, rfl | rfl⟩
  · exact h trivial
  · exact h trivial

theorem covered_of_refreshes {e : TopologyEvent} (he : e ∈ es) (href : Refreshes e) (hno : ∀ e' ∈ es, ¬ LeavesEnd l e') :
    Covered net l (unread ++ es) := by
  obtain ⟨before, after, rfl⟩ := List.append_of_mem he
  refine Or.inr ⟨unread ++ before, e, after, by rw [List.append_assoc], href, fun e' he' => hno e' ?_⟩
  exact List.mem_append_right _ (List.mem_cons_of_mem e he')

theorem Covered.append (h : Covered net l unread) (hno : ∀ e ∈ es, ¬ LeavesEnd l e) : Covered net l (unread ++ es) := by
  rcases h with ⟨hjoined, hold⟩ | ⟨before, e, after, rfl, href, hold⟩
  · exact Or.inl ⟨hjoined, fun e he => (List.mem_append.mp he).elim (hold e) (hno e)⟩
  · refine Or.inr ⟨before, e, after ++ es, by rw [List.append_assoc, List.cons_append], href, fun e' he' => ?_⟩
    exact (List.mem_append.mp he').elim (hold e') (hno e')

theorem Covered.announced {s s' : Switches} (h : Announces s s')
    (hlinks : l ∈ s'.links.dict → l ∈ Switches.linksTold s'.events) (hold : l ∈ Switches.linksTold s.events → l ∈ s.links.dict)
    (hcov : l ∈ s.links.dict → l.src.dpid ∈ s.dps → l.dst.dpid ∈ s.dps → Covered net l unread)
    (hl : l ∈ s'.links.dict) (hsrc : l.src.dpid ∈ s'.dps) (hdst : l.dst.dpid ∈ s'.dps) :
    ∃ es, s'.events = s.events ++ es ∧ Covered net l (unread ++ es) := by
  obtain ⟨es, hes, h⟩ := h
  have hadd : (∀ e ∈ es, ¬ LeavesEnd l e) → l.src.dpid ∈ s.dps → l.dst.dpid ∈ s.dps → Covered net l (unread ++ es) := by
    intro hno hsrc hdst
    have htold := hlinks hl
    rw [hes] at htold
    rcases mem_linksTold_append htold with htold | hnew
    · exact (hcov (hold htold) hsrc hdst).append hno
    · exact covered_of_refreshes hnew trivial hno
  refine ⟨es, hes, ?_⟩
  rcases h with ⟨hno, hdps⟩ | ⟨d, ports, es', rfl, hno⟩ | ⟨d, ports, es', rfl, hno, hdps⟩
  · exact hadd (fun e he => not_leavesEnd (hno e he)) (hdps _ hsrc) (hdps _ hdst)
  · refine covered_of_refreshes (e := .SwitchEnter d ports) List.mem_cons_self trivial fun e he => not_leavesEnd ?_
    rcases List.mem_cons.mp he with rfl | he
    · exact id
    · exact hno e he
  · obtain ⟨hsrcd, hsrc⟩ := hdps _ hsrc
    obtain ⟨hdstd, hdst⟩ := hdps _ hdst
    refine hadd (fun e he => ?_) hsrc hdst
    rcases List.mem_cons.mp he with rfl | he
    · rintro ⟨ports', h | h⟩
      · cases h
        exact hsrcd rfl
      · cases h
        exact hdstd rfl
    · exact not_leavesEnd (hno e he)

theorem Covered.pop {net' : lenv.nx.Graph} {e : TopologyEvent} (h : Covered net l (e :: unread)) (hnot : ¬ Refreshes e)
    (hkeep : ¬ LeavesEnd l e → Joined net l → Joined net' l) : Covered net' l unread := by
  rcases h with ⟨hjoined, hno⟩ | ⟨before, e', after, heq, href, hno⟩
  · exact Or.inl ⟨hkeep (hno e List.mem_cons_self) hjoined, fun e' he' => hno e' (List.mem_cons_of_mem e he')⟩
  · cases before with
    | nil =>
      cases heq
      exact absurd href hnot
    | cons b before =>
      cases heq
      exact Or.inr ⟨before, e', after, rfl, href, hno⟩

theorem Covered.refreshed {net' : lenv.nx.Graph} {e : TopologyEvent} (h : Covered net l (e :: unread)) (hjoined : Joined net' l) :
    Covered net' l unread := by
  rcases h with ⟨-, hno⟩ | ⟨before, e', after, heq, href, hno⟩
  · exact Or.inl ⟨hjoined, fun e' he' => hno e' (List.mem_cons_of_mem e he')⟩
  · cases before with
    | nil =>
      cases heq
      exact Or.inl ⟨hjoined, hno⟩
    | cons b before =>
      cases heq
      exact Or.inr ⟨before, e', after, rfl, href, hno⟩

end

/-! ## Runs -/

variable {wire : LinkEnd → Option LinkEnd} {a : Station lenv}

/-- Every edge between switches is a wire, from the port that it shows. -/
def Wired (wire : LinkEnd → Option LinkEnd) (net : lenv.nx.Graph) : Prop :=
  ∀ d d' x, lenv.nx.edge net (.dpid d) (.dpid d') = some x → ∃ p n, x = some p ∧ wire ⟨d, p⟩ = some ⟨d', n⟩

structure Sound (env : RyuEnv) (wire : LinkEnd → Option LinkEnd) (a : Station lenv) : Prop where
  known : Switches.Known env wire a.ryu
  closed : Layer2Switch.Closed a.app.net
  wired : Wired wire a.app.net
  inside : a.read ≤ a.ryu.events.length
  covered : ∀ l ∈ a.ryu.links.dict, l.src.dpid ∈ a.ryu.dps → l.dst.dpid ∈ a.ryu.dps →
    Covered a.app.net l (a.ryu.events.drop a.read)

/-- ryu hears what fits the wires, the other events of the application are no
topology events, and no switch connects the domain to others. -/
def Fits (env : RyuEnv) (wire : LinkEnd → Option LinkEnd) (a : Station lenv) : StationTurn → Prop
  | .ryu i => Switches.Fits env wire a.ryu i
  | .app e => ¬ Layer2Switch.Relinks e
  | .notice _ window_switches => window_switches = []

theorem Wired.step {s s' : Layer2Switch lenv.nx.Graph} {e : LocalEvent} (h : Wired wire s.net) (hstep : Layer2Switch.LinkStep e s s')
    (hnamed : ∀ d d' x, Layer2Switch.Names d d' e x → ∃ p n, x = some p ∧ wire ⟨d, p⟩ = some ⟨d', n⟩) : Wired wire s'.net := by
  intro d d' x hx
  by_cases ht : Layer2Switch.Touches d d' e
  · exact hnamed d d' x (hstep.found d d' ht x hx)
  · rw [hstep.kept d d' ht] at hx
    exact h d d' x hx

theorem Joined.of_kept {l : Link} {s s' : Layer2Switch lenv.nx.Graph} (h : Joined s.net l)
    (hkept : ∀ d d', (d = l.src.dpid ∧ d' = l.dst.dpid) ∨ (d = l.dst.dpid ∧ d' = l.src.dpid) →
      lenv.nx.edge s'.net (.dpid d) (.dpid d') = lenv.nx.edge s.net (.dpid d) (.dpid d')) : Joined s'.net l := by
  refine ⟨?_, ?_⟩
  · rw [hkept _ _ (Or.inl ⟨rfl, rfl⟩)]
    exact h.1
  · rw [hkept _ _ (Or.inr ⟨rfl, rfl⟩)]
    exact h.2

theorem Sound.ryu (hon : env.link_discovery = true) (hconv : Switches.Converts env) (hsym : ∀ a b, wire a = some b → wire b = some a)
    (h : Sound env wire a) {i : Switches.Input} (hi : Switches.Fits env wire a.ryu i) : Sound env wire (turn env a (.ryu i)) := by
  have hknown := Switches.known_step hon hconv hsym h.known hi
  have hann : Announces a.ryu (Switches.step env a.ryu i) :=
    Switches.step_of_handle (announces_handle hon hconv h.known.tables hi.1)
  have hdrop : ∀ es : List TopologyEvent, (a.ryu.events ++ es).drop a.read = a.ryu.events.drop a.read ++ es :=
    fun es => List.drop_append_of_le_length h.inside
  refine ⟨hknown, h.closed, h.wired, ?_, fun l hl hsrc hdst => ?_⟩
  · obtain ⟨es, hes, -⟩ := hann
    show a.read ≤ (Switches.step env a.ryu i).events.length
    rw [hes, List.length_append]
    exact Nat.le_add_right_of_le h.inside
  · obtain ⟨es, hes, hcov⟩ := Covered.announced hann (hknown.links.told l).mpr (h.known.links.told l).mp (h.covered l)
      hl hsrc hdst
    show Covered a.app.net l ((Switches.step env a.ryu i).events.drop a.read)
    rw [hes, hdrop]
    exact hcov

theorem Sound.app (h : Sound env wire a) {e : LocalEvent} (he : ¬ Layer2Switch.Relinks e) : Sound env wire (turn env a (.app e)) := by
  have hkeeps : Layer2Switch.KeepsLinks a.app (Layer2Switch.step lenv a.app e) :=
    Layer2Switch.step_of_wp (fun _ h => ⟨h.closed, h.edges⟩) (Layer2Switch.keepsLinks_handle he a.app)
  refine ⟨h.known, hkeeps.closed h.closed, fun d d' x hx => ?_, h.inside, fun l hl hsrc hdst => ?_⟩
  · have hedge := hkeeps.edges d d'
    exact h.wired d d' x (hedge.symm.trans hx)
  · refine (h.covered l hl hsrc hdst).imp (fun hj => ⟨hj.1.of_kept fun d d' _ => hkeeps.edges d d', hj.2⟩) id

theorem Sound.refreshed (hsym : ∀ a b, wire a = some b → wire b = some a) (h : Sound env wire a) {ev : TopologyEvent}
    (hev : a.ryu.events[a.read]? = some ev) (switch_list : List Nat) :
    Sound env wire { a with
      app := Layer2Switch.step lenv a.app (.TopologyChange ⟨switch_list, [], env.order.order a.ryu.links.dict⟩), read := a.read + 1 } := by
  have hfree : Layer2Switch.WindowFree (.TopologyChange ⟨switch_list, [], env.order.order a.ryu.links.dict⟩) := rfl
  have hstep := Layer2Switch.linkStep_step h.closed hfree
  obtain ⟨hlt, rfl⟩ := List.getElem?_eq_some_iff.mp hev
  refine ⟨h.known, hstep.closed, h.wired.step hstep fun d d' x hn => ?_, hlt, fun l hl hsrc hdst => ?_⟩
  · obtain ⟨l, hl, p, rfl, htail⟩ := hn
    have hwire := h.known.links.wired l.src l.dst ((DictOrder.mem _).mp hl)
    rcases htail with ⟨hsrc, rfl⟩ | ⟨hdst, rfl⟩
    · exact ⟨p, l.dst.port_no, rfl, hsrc ▸ hwire⟩
    · exact ⟨p, l.src.port_no, rfl, hdst ▸ hsym _ _ hwire⟩
  · have hcov := h.covered l hl hsrc hdst
    rw [List.drop_eq_getElem_cons hlt] at hcov
    have hlisted : l ∈ env.order.order a.ryu.links.dict := (DictOrder.mem _).mpr hl
    refine hcov.refreshed ⟨hstep.named _ _ (some l.src.port_no) ⟨l, hlisted, _, rfl, Or.inl ⟨rfl, rfl⟩⟩, ?_⟩
    exact hstep.named _ _ (some l.dst.port_no) ⟨l, hlisted, _, rfl, Or.inr ⟨rfl, rfl⟩⟩

theorem Sound.left (h : Sound env wire a) {d : Nat} {ports : List LinkEnd} (hev : a.ryu.events[a.read]? = some (.SwitchLeave d ports)) :
    Sound env wire { a with app := Layer2Switch.step lenv a.app (.SwitchLeave d), read := a.read + 1 } := by
  have hstep : Layer2Switch.LinkStep (.SwitchLeave d) a.app _ := Layer2Switch.linkStep_step h.closed trivial
  obtain ⟨hlt, hev⟩ := List.getElem?_eq_some_iff.mp hev
  refine ⟨h.known, hstep.closed, h.wired.step hstep fun d d' x hn => hn.elim, hlt, fun l hl hsrc hdst => ?_⟩
  have hcov := h.covered l hl hsrc hdst
  rw [List.drop_eq_getElem_cons hlt, hev] at hcov
  refine hcov.pop id fun hno hj => hj.of_kept fun a b hab => hstep.kept a b ?_
  -- the switch that left is at neither end
  have hsrcd : d ≠ l.src.dpid := fun hd => hno ⟨ports, Or.inl (by rw [hd])⟩
  have hdstd : d ≠ l.dst.dpid := fun hd => hno ⟨ports, Or.inr (by rw [hd])⟩
  rintro (⟨x, hx⟩ | hx | hx)
  · exact hx
  · cases hx
    rcases hab with ⟨ha, -⟩ | ⟨ha, -⟩
    · exact hsrcd ha
    · exact hdstd ha
  · cases hx
    rcases hab with ⟨-, hb⟩ | ⟨-, hb⟩
    · exact hdstd hb
    · exact hsrcd hb

theorem Sound.skipped (h : Sound env wire a) {ev : TopologyEvent} (hev : a.ryu.events[a.read]? = some ev) (hnot : ¬ Refreshes ev) :
    Sound env wire { a with read := a.read + 1 } := by
  obtain ⟨hlt, rfl⟩ := List.getElem?_eq_some_iff.mp hev
  refine ⟨h.known, h.closed, h.wired, hlt, fun l hl hsrc hdst => ?_⟩
  have hcov := h.covered l hl hsrc hdst
  rw [List.drop_eq_getElem_cons hlt] at hcov
  exact hcov.pop hnot fun _ hj => hj

theorem Sound.notice (hsym : ∀ a b, wire a = some b → wire b = some a) (h : Sound env wire a) (switch_list : List Nat) :
    Sound env wire (turn env a (.notice switch_list [])) := by
  unfold turn
  cases hev : a.ryu.events[a.read]? with
  | none => exact h
  | some ev =>
    cases ev with
    | SwitchEnter d ports => exact h.refreshed hsym hev switch_list
    | LinkAdd l => exact h.refreshed hsym hev switch_list
    | SwitchLeave d ports => exact h.left hev
    | _ => exact h.skipped hev id

theorem Sound.turn (hon : env.link_discovery = true) (hconv : Switches.Converts env) (hsym : ∀ a b, wire a = some b → wire b = some a)
    (h : Sound env wire a) {t : StationTurn} (ht : Fits env wire a t) : Sound env wire (Station.turn env a t) := by
  cases t with
  | ryu i => exact h.ryu hon hconv hsym ht
  | app e => exact h.app ht
  | notice switch_list window_switches =>
    cases ht
    exact h.notice hsym switch_list

theorem sound_start (xid : Nat) : Sound env wire (start lenv xid) := by
  have hnone : ∀ u v, lenv.nx.edge (start lenv xid).app.net u v = none := fun u v => lenv.nx.edge_empty u v
  refine ⟨⟨Switches.tables_init, Switches.hostsOff_init, Switches.linkInv_init⟩, fun u v huv => ?_, fun d d' x hx => ?_, Nat.zero_le _, fun l hl => ?_⟩
  · rw [hnone] at huv
    cases huv
  · rw [hnone] at hx
    cases hx
  · exact absurd hl (AList.notMem_empty l)

theorem allowed_ryu : ∀ {is : List Switches.Input} {a : Station lenv}, Runs.Allowed (Switches.step env) (Switches.Fits env wire) a.ryu is →
    Runs.Allowed (turn env) (Fits env wire) a (is.map .ryu)
  | [], _, _ => trivial
  | _ :: _, _, h => ⟨h.1, allowed_ryu h.2⟩

theorem allowed_notices {switch_list : List Nat} : ∀ (n : Nat) {a : Station lenv},
    Runs.Allowed (turn env) (Fits env wire) a (List.replicate n (.notice switch_list []))
  | 0, _ => trivial
  | n + 1, _ => ⟨rfl, allowed_notices n⟩

def sampleTurns : List StationTurn := Switches.sampleRun.map .ryu ++ List.replicate 4 (.notice [1, 2] [])

def sampleStation : Station Layer2Switch.sampleLocalEnv := sampleTurns.foldl (turn Switches.sampleEnv) (start Layer2Switch.sampleLocalEnv 0)

def sampleLink : Link := ⟨⟨1, 1⟩, ⟨2, 1⟩⟩

theorem sampleTurns_fit :
    Runs.Allowed (turn Switches.sampleEnv) (Fits Switches.sampleEnv Switches.sampleWire) (start Layer2Switch.sampleLocalEnv 0) sampleTurns := by
  unfold sampleTurns
  rw [Runs.allowed_append]
  exact ⟨allowed_ryu Switches.sampleRun_fits, allowed_notices 4⟩

end Station

end VnfDockerNet
