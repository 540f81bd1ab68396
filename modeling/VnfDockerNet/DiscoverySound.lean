import VnfDockerNet.PortTableSound

/-!
# Hosts and the links they are off

A host is only recorded on a port at the edge. A link that has been seen one way
may still have a host on its ends, since the hosts are gone through before it is
recorded; a link seen both ways has none.
-/

namespace VnfDockerNet

open Python

namespace Switches

variable {env : RyuEnv} {s s' : Switches}

/-! ## Statements that only see the ports -/

section
variable {R : Switches → Switches → Prop} [IsPreorder Switches R]

theorem lookups_get_switch (dpid : Nat) : Moves R (_get_switch env dpid) := by
  refine .bind .get fun s => ?_
  cases s.dps.get dpid with
  | none => exact .pure _
  | some dp => exact .bind (.item _ _) fun state => .pure _

theorem lookups_get_port (dpid port_no : Nat) : Moves R (_get_port env dpid port_no) := by
  refine .bind (lookups_get_switch dpid) fun switch => ?_
  cases switch with
  | none => exact .pure _
  | some switch => exact .pure _

variable (hports : ∀ (s : Switches) (ports : PortDataState), R s { s with ports })

section
include hports

theorem ports_moveFrontKey (port : LinkEnd) : Moves R (moveFrontKey port) :=
  .bind .get fun _ => .bind (.orRaise _) fun _ => .modify fun s => hports s _

theorem ports_move_front (port : LinkEnd) : Moves R (move_front port) := by
  refine .bind .get fun s => ?_
  cases s.ports.dict.get port with
  | none => exact .pure ()
  | some data => exact .bind (.modify fun s => hports s _) fun _ => ports_moveFrontKey hports port

theorem ports_lldp_sent (port : LinkEnd) : Moves R (lldp_sent port) :=
  .bind .get fun _ => .bind (.item _ _) fun _ => .bind (.modify fun s => hports s _) fun _ => .bind (.orRaise _) fun _ =>
    .bind (.modify fun s => hports s _) fun _ => .pure _

theorem ports_lldp_received (port : LinkEnd) : Moves R (lldp_received port) :=
  .bind .get fun _ => .bind (.item _ _) fun _ => .modify fun s => hports s _

theorem ports_set_down (port : LinkEnd) (is_down : Bool) : Moves R (set_down port is_down) := by
  refine .bind .get fun _ => .bind (.item _ _) fun _ => .bind (.modify fun s => hports s _) fun _ => ?_
  exact .ite (.pure _) (.bind (ports_moveFrontKey hports port) fun _ => .pure _)

theorem ports_del_port (port : LinkEnd) : Moves R (del_port port) :=
  .bind .get fun _ => .bind (moves_delItem _ _) fun _ => .bind (.modify fun s => hports s _) fun _ => .bind .get fun _ =>
    .bind (.orRaise _) fun _ => .modify fun s => hports s _

theorem ports_port_added (p : RyuPort) : Moves R (_port_added env p) := by
  refine .bind (.orRaise _) fun frame => .bind .get fun s => ?_
  cases s.ports.dict.get p.key with
  | none => exact .bind (.modify fun s => hports s _) fun _ => .modify fun s => hports s _
  | some data => exact .modify fun s => hports s _

end

end

/-! ## Hosts -/

theorem isEdgePort_iff {port : LinkEnd} : _is_edge_port env s port = true ↔ ∀ link ∈ s.links.dict, port ≠ link.src ∧ port ≠ link.dst := by
  unfold _is_edge_port
  simp [env.order.mem]

structure Shrinks (s s' : Switches) : Prop where
  links : ∀ link, link ∈ s'.links.dict → link ∈ s.links.dict
  hosts : ∀ m h', s'.hosts.get m = some h' → ∃ h, s.hosts.get m = some h ∧ h'.mac = h.mac ∧ h'.port = h.port

instance : IsPreorder Switches Shrinks where
  refl _ := ⟨fun _ h => h, fun _ h' hm => ⟨h', hm, rfl, rfl⟩⟩
  trans _ _ _ h h' := by
    refine ⟨fun link hl => h.links link (h'.links link hl), fun m host hm => ?_⟩
    obtain ⟨host', hm', hmac', hport'⟩ := h'.hosts m host hm
    obtain ⟨host'', hm'', hmac'', hport''⟩ := h.hosts m host' hm'
    exact ⟨host'', hm'', hmac'.trans hmac'', hport'.trans hport''⟩

structure HostsOff (s : Switches) : Prop where
  mac : ∀ m h, s.hosts.get m = some h → h.mac = m
  off : ∀ a b, ⟨a, b⟩ ∈ s.links.dict → ⟨b, a⟩ ∈ s.links.dict → ∀ m h, s.hosts.get m = some h → h.port ≠ a

theorem hostsOff_init : HostsOff {} := by
  refine ⟨fun m h hm => ?_, fun a b ha => ?_⟩
  · cases hm
  · exact absurd ha (AList.notMem_empty _)

theorem HostsOff.shrinks (h : HostsOff s) (hs : Shrinks s s') : HostsOff s' := by
  refine ⟨fun m host hm => ?_, fun a b ha hb m host hm => ?_⟩
  · obtain ⟨host', hm', hmac, -⟩ := hs.hosts m host hm
    exact hmac.trans (h.mac m host' hm')
  · obtain ⟨host', hm', -, hport⟩ := hs.hosts m host hm
    rw [hport]
    exact h.off a b (hs.links _ ha) (hs.links _ hb) m host' hm'

theorem shrinks_same (hlinks : s'.links = s.links) (hhosts : s'.hosts = s.hosts) : Shrinks s s' := by
  refine ⟨fun link hl => hlinks ▸ hl, fun m host hm => ⟨host, hhosts ▸ hm, rfl, rfl⟩⟩

theorem shrinks_ports (s : Switches) (ports : PortDataState) : Shrinks s { s with ports } := shrinks_same rfl rfl

theorem shrinks_send_event (e : TopologyEvent) : Moves Shrinks (send_event_to_observers e) := .modify fun _ => shrinks_same rfl rfl

theorem shrinks_send_msg (msg : DatapathOut) : Moves Shrinks (send_msg msg) := .modify fun _ => shrinks_same rfl rfl

theorem shrinks_links {links : LinkState} (h : ∀ link, link ∈ links.dict → link ∈ s.links.dict) : Shrinks s { s with links } :=
  ⟨h, fun _ host hm => ⟨host, hm, rfl, rfl⟩⟩

theorem shrinks_delLink (link : Link) : Moves Shrinks (delLink link) := by
  intro s
  unfold delLink
  simp only [wp_bind, wp_get, wp_delItem, wp_modify]
  exact ⟨fun _ => shrinks_links fun l hl => (AList.mem_erase.mp hl).2, fun _ => refl_of Shrinks s⟩

theorem shrinks_delPeer (src : LinkEnd) : Moves Shrinks (delPeer src) :=
  .bind .get fun _ => .bind (moves_delItem _ _) fun _ => .modify fun _ => shrinks_links fun _ hl => hl

theorem shrinks_port_deleted (src : LinkEnd) : Moves Shrinks (port_deleted src) := by
  refine .bind .get fun _ => .bind (.item _ _) fun dst => .bind (shrinks_delLink _) fun _ => .bind (shrinks_delPeer src) fun _ => ?_
  exact .bind .get fun _ => .bind (.modify fun _ => shrinks_links fun l hl => (AList.mem_erase.mp hl).2) fun _ => .pure _

theorem shrinks_link_down (port : LinkEnd) : Moves Shrinks (_link_down port) := by
  refine .bind (moves_tryKey (shrinks_port_deleted port)) fun gone => ?_
  cases gone with
  | none => exact .pure ()
  | some gone =>
    refine .bind (shrinks_send_event _) fun _ => .bind ?_ fun _ => ports_move_front shrinks_ports gone.1
    cases gone.2 with
    | none => exact .pure ()
    | some peer => exact shrinks_send_event _

theorem shrinks_dropOldLink (src dst : LinkEnd) : Moves Shrinks (dropOldLink src dst) := by
  refine .bind .get fun s => ?_
  cases s.links.map.get src with
  | none => exact .pure ()
  | some old_peer => exact .ite (.bind (shrinks_delLink _) fun _ => shrinks_send_event _) (.pure ())

theorem shrinks_update_ip (mac : Bytes) {f : RyuHost → RyuHost} (hf : ∀ host, (f host).mac = host.mac ∧ (f host).port = host.port) :
    Moves Shrinks (update_ip mac f) := by
  refine .modify fun s => ⟨fun _ hl => hl, fun m host hm => ?_⟩
  cases hmac : s.hosts.get mac with
  | none =>
    simp only [hmac] at hm
    exact ⟨host, hm, rfl, rfl⟩
  | some old =>
    simp only [hmac] at hm
    rcases Dict.get_insert_some.mp hm with ⟨rfl, rfl⟩ | ⟨-, hm⟩
    · exact ⟨old, hmac, hf old⟩
    · exact ⟨host, hm, rfl, rfl⟩

theorem shrinks_learnIp (mac : Bytes) (ethertype : Nat) (pkt_data : Bytes) : Moves Shrinks (learnIp env mac ethertype pkt_data) :=
  .ite (.bind (.orRaise _) fun _ => shrinks_update_ip mac fun _ => ⟨rfl, rfl⟩)
    (.ite (.bind (.orRaise _) fun _ => shrinks_update_ip mac fun _ => ⟨rfl, rfl⟩)
      (.ite (.bind (.orRaise _) fun _ => shrinks_update_ip mac fun _ => ⟨rfl, rfl⟩) (.pure ())))

theorem shrinks_main_dispatcher (dp : RyuDatapath) : Moves Shrinks (main_dispatcher env dp) := by
  refine .bind .get fun s => .bind ?_ fun _ => .bind (.modify fun _ => shrinks_same rfl rfl) fun _ =>
    .bind (lookups_get_switch dp.id) fun switch => ?_
  · cases s.dps.get dp.id with
    | none => exact .pure ()
    | some old => exact shrinks_send_msg _
  · cases switch with
    | none => exact .throw _
    | some switch =>
      refine .bind (shrinks_send_event _) fun _ => .ite (.bind (.ite (shrinks_send_msg _) (.pure ())) fun _ => .ite ?_ (.pure ())) (.pure ())
      exact moves_forEach (fun p => .ite (.pure ()) (ports_port_added shrinks_ports p)) _

theorem shrinks_dead_dispatcher (dp : RyuDatapath) : Moves Shrinks (dead_dispatcher env dp) := by
  refine .bind (lookups_get_switch dp.id) fun switch => ?_
  cases switch with
  | none => exact .pure ()
  | some switch =>
    refine .ite (.bind ?_ fun _ => .bind (shrinks_send_event _) fun _ => .ite ?_ (.pure ())) (.pure ())
    · refine .bind .get fun s => ?_
      cases s.dps.get dp.id with
      | none => exact .pure ()
      | some old =>
        exact .ite (.bind (.modify fun _ => shrinks_same rfl rfl) fun _ => .bind .get fun _ => .bind (moves_delItem _ _) fun _ =>
          .modify fun _ => shrinks_same rfl rfl) (.pure ())
    · exact moves_forEach (fun p => .ite (.pure ()) (.bind (ports_del_port shrinks_ports _) fun _ => shrinks_link_down _)) _

theorem moves_withPort {R : Switches → Switches → Prop} [IsPreorder Switches R] (d n : Nat) {body : RyuPort → Stmt Unit}
    (h : ∀ p, Moves R (body p)) : Moves R (withPort env d n body) := by
  refine .ite (.bind (lookups_get_port d n) fun p => ?_) (.pure ())
  cases p with
  | none => exact .pure ()
  | some p => exact .ite (.pure ()) (h p)

theorem shrinks_port_status_handler (d : Nat) (p : OFPPort) (reason : Reason) : Moves Shrinks (port_status_handler env d p reason) := by
  have hset : Moves Shrinks (setPort d p) := .bind .get fun _ => .bind (.item _ _) fun _ => .modify fun _ => shrinks_same rfl rfl
  have hremove : Moves Shrinks (removePort d p.port_no) :=
    .bind .get fun _ => .bind (.item _ _) fun _ => .bind (moves_delItem _ _) fun _ => .modify fun _ => shrinks_same rfl rfl
  cases reason with
  | ADD => exact .bind hset fun _ => .bind (shrinks_send_event _) fun _ => moves_withPort d _ fun p => ports_port_added shrinks_ports p
  | DELETE =>
    refine .bind (shrinks_send_event _) fun _ => .bind (moves_withPort d _ fun p => ?_) fun _ => .ite hremove (.pure ())
    exact .bind (ports_del_port shrinks_ports _) fun _ => shrinks_link_down _
  | MODIFY =>
    refine .bind hset fun _ => .bind (shrinks_send_event _) fun _ => moves_withPort d _ fun p => ?_
    exact .bind (ports_set_down shrinks_ports _ _) fun _ => .ite (shrinks_link_down _) (.pure ())

theorem shrinks_send_lldp_packet (port : LinkEnd) : Moves Shrinks (send_lldp_packet port) := by
  refine .bind (moves_tryKey (ports_lldp_sent shrinks_ports port)) fun data => ?_
  cases data with
  | none => exact .pure ()
  | some data =>
    refine .ite (.pure ()) (.bind .get fun s => ?_)
    cases s.dps.get port.dpid with
    | none => exact .pure ()
    | some dp => exact shrinks_send_msg _

theorem shrinks_link_loop : Moves Shrinks (link_loop env) := by
  refine .bind .get fun s => moves_forEach (fun link => ?_) _
  refine .bind (.bind (shrinks_delLink link) fun _ => shrinks_delPeer link.src) fun _ => .bind (shrinks_send_event _) fun _ => ?_
  refine .ite (.bind (.modify fun s => shrinks_links fun l hl => ?_) fun _ => ports_move_front shrinks_ports link.dst) (.pure ())
  change l ∈ (if _ ∈ s.links.dict then _ else s.links.dict) at hl
  split at hl
  · rename_i hrev
    exact (Dict.mem_insert_of_mem hrev _ l).mp hl
  · exact hl

theorem nodup_macs (hmac : ∀ m h, s.hosts.get m = some h → h.mac = m) (p : RyuHost → Bool) :
    ((((env.order.order s.hosts).filterMap s.hosts.get).filter p).map RyuHost.mac).Nodup := by
  have hkeys : (env.order.order s.hosts).Nodup := (env.order.order_perm s.hosts).nodup_iff.mpr s.hosts.keys_nodup
  have hhosts : ((env.order.order s.hosts).filterMap s.hosts.get).Nodup :=
    hkeys.filterMap fun m m' h hm hm' => (hmac m h hm).symm.trans (hmac m' h hm')
  refine List.Nodup.map_on (fun h hh h' hh' heq => ?_) (hhosts.filter p)
  obtain ⟨m, -, hm⟩ := List.mem_filterMap.mp (List.mem_of_mem_filter hh)
  obtain ⟨m', -, hm'⟩ := List.mem_filterMap.mp (List.mem_of_mem_filter hh')
  have hsame : m = m' := (hmac m h hm).symm.trans (heq.trans (hmac m' h' hm'))
  rw [hsame, hm'] at hm
  exact (Option.some.inj hm).symm

theorem wp_removeInnerHosts (hmac : ∀ m h, s.hosts.get m = some h → h.mac = m) :
    wp (removeInnerHosts env) s (fun _ s' => ∃ hosts, s' = { s with hosts } ∧
      ∀ m h, hosts.get m = some h → s.hosts.get m = some h ∧ _is_edge_port env s h.port = true) fun _ _ => False := by
  have hmem : ∀ m, m ∈ (((env.order.order s.hosts).filterMap s.hosts.get).filter fun host =>
      ¬ _is_edge_port env s host.port).map RyuHost.mac ↔ ∃ h, s.hosts.get m = some h ∧ _is_edge_port env s h.port = false := by
    intro m
    simp only [List.mem_map, List.mem_filter, List.mem_filterMap, env.order.mem, decide_eq_true_eq, Bool.not_eq_true]
    constructor
    · rintro ⟨h, ⟨⟨m', -, hm'⟩, hedge⟩, rfl⟩
      rw [hmac m' h hm']
      exact ⟨h, hm', hedge⟩
    · rintro ⟨h, hm, hedge⟩
      exact ⟨h, ⟨⟨m, Dict.mem_iff_get.mpr ⟨h, hm⟩, hm⟩, hedge⟩, hmac m h hm⟩
  have hnodup : ((((env.order.order s.hosts).filterMap s.hosts.get).filter fun host =>
      ¬ _is_edge_port env s host.port).map RyuHost.mac).Nodup := nodup_macs hmac _
  have hloop : wp (removeInnerHosts env) s (fun _ s' => ∃ hosts, s' = { s with hosts } ∧ ∀ m, hosts.get m =
      if m ∈ (((env.order.order s.hosts).filterMap s.hosts.get).filter fun host => ¬ _is_edge_port env s host.port).map RyuHost.mac
        then none else s.hosts.get m) fun _ _ => False := by
    refine wp_forEach (fun done s' => ∃ hosts, s' = { s with hosts } ∧ ∀ m, hosts.get m = if m ∈ done then none else s.hosts.get m)
      ?_ ⟨s.hosts, rfl, fun m => rfl⟩
    rintro before mac after s₁ hsplit ⟨hosts, rfl, hhosts⟩
    have hfresh : mac ∉ before := by
      rw [hsplit] at hnodup
      exact (List.nodup_middle.mp hnodup).notMem ∘ List.mem_append_left _
    obtain ⟨h, hm, -⟩ := (hmem mac).mp (hsplit ▸ List.mem_append_right _ (List.mem_cons_self ..))
    have hthere : mac ∈ hosts := Dict.mem_iff_get.mpr ⟨h, by rw [hhosts, if_neg hfresh, hm]⟩
    unfold delHost
    simp only [wp_bind, wp_get, wp_delItem, wp_modify]
    refine ⟨fun _ => ⟨_, rfl, fun m => ?_⟩, fun hno => hno hthere⟩
    rw [Dict.get_erase, hhosts]
    by_cases hmm : m = mac <;> simp [hmm]
  refine wp_mono hloop (fun _ s' hs => ?_) fun _ _ h => h
  obtain ⟨hosts, rfl, hhosts⟩ := hs
  refine ⟨hosts, rfl, fun m h hm => ?_⟩
  rw [hhosts] at hm
  split at hm
  · cases hm
  · rename_i hno
    refine ⟨hm, ?_⟩
    by_contra hedge
    exact hno ((hmem m).mpr ⟨h, hm, by simpa using hedge⟩)

theorem keeps_learnLink (h : HostsOff s) {src dst : LinkEnd} (hne : src ≠ dst) :
    wp (learnLink env src dst) s (fun _ => HostsOff) fun _ => HostsOff := by
  have hfront : ∀ s₁, HostsOff s₁ → wp (move_front dst) s₁ (fun _ => HostsOff) fun _ => HostsOff := fun s₁ h₁ =>
    wp_mono (ports_move_front shrinks_ports dst s₁) (fun _ _ hs => h₁.shrinks hs) fun _ _ hs => h₁.shrinks hs
  unfold learnLink
  rw [wp_bind]
  refine wp_mono (shrinks_dropOldLink src dst s) (fun _ s₁ hs => ?_) fun _ _ hs => h.shrinks hs
  have h₁ := h.shrinks hs
  have hend : ∀ s₂, HostsOff { s₂ with
      links := ⟨s₂.links.dict.insert ⟨src, dst⟩ s₂.time, s₂.links.map.insert src dst⟩ } →
      wp (do if ¬ (← update_link src dst) then move_front dst) s₂ (fun _ => HostsOff) fun _ => HostsOff := by
    intro s₂ h₂
    simp only [update_link, wp_bind, wp_get, wp_modify, wp_pure]
    rw [wp_ite]
    exact ⟨fun _ => hfront _ h₂, fun _ => h₂⟩
  unfold announceLink
  simp only [wp_bind, wp_get]
  rw [wp_ite]
  constructor
  · intro hnew
    simp only [send_event_to_observers, wp_bind, wp_modify]
    refine wp_mono (wp_removeInnerHosts h₁.mac) (fun _ s₂ hs₂ => ?_) fun _ _ h => h.elim
    obtain ⟨hosts, rfl, hhosts⟩ := hs₂
    refine hend _ ⟨fun m host hm => h₁.mac m host (hhosts m host hm).1, fun a b ha hb m host hm => ?_⟩
    obtain ⟨hm, hedge⟩ := hhosts m host hm
    have hedge := isEdgePort_iff.mp hedge
    -- one way of the two was there before
    rcases (AList.mem_insert _).mp ha with ha | ha
    · rcases (AList.mem_insert _).mp hb with hb | hb
      · cases ha
        cases hb
        exact absurd rfl hne
      · exact (hedge _ hb).2
    · exact (hedge _ ha).1
  · intro hold
    have hold : ⟨src, dst⟩ ∈ s₁.links.dict := not_not.mp hold
    refine hend s₁ (h₁.shrinks (shrinks_links fun link hl => ?_))
    exact (Dict.mem_insert_of_mem hold _ link).mp hl

theorem wp_get_port_dpid (d n : Nat) : wp (_get_port env d n) s (fun p s' => s' = s ∧ ∀ q, p = some q → q.dpid = d) fun _ s' => s' = s := by
  unfold _get_port _get_switch
  simp only [wp_bind, wp_get]
  cases s.dps.get d with
  | none => exact ⟨rfl, fun q hq => by cases hq⟩
  | some dp =>
    simp only [wp_bind, wp_item, wp_pure]
    refine ⟨fun state _ => ⟨trivial, fun q hq => ?_⟩, fun _ => trivial⟩
    have hmem := List.mem_of_find?_eq_some hq
    unfold switchPorts at hmem
    obtain ⟨o, -, rfl⟩ := List.mem_map.mp (List.mem_of_mem_filter hmem)
    rfl

theorem keeps_lldp_packet_in_handler (h : HostsOff s) (msg : RyuPacketIn) :
    wp (lldp_packet_in_handler env msg) s (fun _ => HostsOff) fun _ => HostsOff := by
  have hport : ∀ {s₁ : Switches} (d n : Nat), HostsOff s₁ →
      wp (_get_port env d n) s₁ (fun p s' => HostsOff s' ∧ ∀ q, p = some q → q.dpid = d) fun _ => HostsOff := by
    intro s₁ d n h₁
    refine wp_mono (wp_get_port_dpid d n) (fun _ _ hs => ⟨?_, hs.2⟩) fun _ _ hs => ?_
    · rw [hs.1]
      exact h₁
    · rw [hs]
      exact h₁
  unfold lldp_packet_in_handler
  rw [wp_ite]
  refine ⟨fun _ => ?_, fun _ => h⟩
  split
  · exact h
  · exact h
  · exact h
  · rw [wp_bind]
    refine wp_mono (hport _ _ h) (fun src s₁ h₁ => ?_) fun _ _ h => h
    cases src with
    | none => exact h₁.1
    | some src =>
      show wp (if src.dpid = msg.dpid then pure () else _) s₁ _ _
      rw [wp_ite]
      refine ⟨fun _ => h₁.1, fun hne => ?_⟩
      rw [wp_bind]
      refine wp_mono (moves_tryKey (ports_lldp_received shrinks_ports _) s₁) (fun _ s₂ hs => ?_) fun _ _ hs => h₁.1.shrinks hs
      rw [wp_bind]
      refine wp_mono (hport _ _ (h₁.1.shrinks hs)) (fun dst s₃ h₃ => ?_) fun _ _ h => h
      cases dst with
      | none => exact h₃.1
      | some dst =>
        have hkeys : src.key ≠ dst.key := fun heq => hne ((congrArg LinkEnd.dpid heq).trans (h₃.2 dst rfl))
        show wp (learnLink env src.key dst.key >>= fun _ => _) s₃ _ _
        rw [wp_bind]
        refine wp_mono (keeps_learnLink h₃.1 hkeys) (fun _ s₄ h₄ => ?_) fun _ _ h => h
        have hdrop : Moves Shrinks (if env.explicit_drop then _drop_packet msg else pure ()) :=
          .ite (.ite (.pure ()) (shrinks_send_msg _)) (.pure ())
        exact wp_mono (hdrop s₄) (fun _ _ hs => h₄.shrinks hs) fun _ _ hs => h₄.shrinks hs

theorem keeps_learnHost (h : HostsOff s) (mac : Bytes) {port : LinkEnd} (hedge : _is_edge_port env s port = true) :
    wp (learnHost mac port) s (fun _ => HostsOff) fun _ => HostsOff := by
  have hput : ∀ e, HostsOff { s with hosts := s.hosts.insert mac { mac, port }, events := s.events ++ [e] } := by
    intro e
    refine ⟨fun m host hm => ?_, fun a b ha hb m host hm => ?_⟩
    · rcases Dict.get_insert_some.mp hm with ⟨rfl, rfl⟩ | ⟨-, hm⟩
      · rfl
      · exact h.mac m host hm
    · rcases Dict.get_insert_some.mp hm with ⟨rfl, rfl⟩ | ⟨-, hm⟩
      · exact (isEdgePort_iff.mp hedge _ ha).1
      · exact h.off a b ha hb m host hm
  unfold learnHost
  simp only [wp_bind, wp_get]
  cases s.hosts.get mac with
  | none => exact hput _
  | some host =>
    show wp (if host.port ≠ port then _ else pure ()) s _ _
    rw [wp_ite]
    exact ⟨fun _ => hput _, fun _ => h⟩

theorem keeps_host_discovery (h : HostsOff s) (msg : RyuPacketIn) :
    wp (host_discovery_packet_in_handler env msg) s (fun _ => HostsOff) fun _ => HostsOff := by
  unfold host_discovery_packet_in_handler
  rw [wp_bind, wp_orRaise]
  refine ⟨fun fields _ => ?_, fun _ _ => h⟩
  split
  · rw [wp_ite]
    refine ⟨fun _ => h, fun _ => ?_⟩
    rw [wp_bind]
    refine wp_mono (wp_get_port_dpid _ _) (fun port s₁ hs => ?_) fun _ s₁ hs => ?_
    · obtain ⟨rfl, -⟩ := hs
      cases port with
      | none => exact h
      | some port =>
        simp only [wp_bind, wp_get]
        rw [wp_ite]
        refine ⟨fun hedge => ?_, fun _ => h⟩
        rw [wp_bind]
        refine wp_mono (keeps_learnHost h _ hedge) (fun _ s₂ h₂ => ?_) fun _ _ h => h
        exact wp_mono (shrinks_learnIp _ _ _ s₂) (fun _ _ hs => h₂.shrinks hs) fun _ _ hs => h₂.shrinks hs
    · rw [hs]
      exact h
  · exact h

theorem hostsOff_handle (h : HostsOff s) (i : Input) : wp (handle env i) s (fun _ => HostsOff) fun _ => HostsOff := by
  have hshrinks : ∀ {x : Stmt Unit}, Moves Shrinks x → wp x s (fun _ => HostsOff) fun _ => HostsOff :=
    fun hx => wp_mono (hx s) (fun _ _ hs => h.shrinks hs) fun _ _ hs => h.shrinks hs
  cases i with
  | Main dp => exact hshrinks (shrinks_main_dispatcher dp)
  | Dead dp =>
    cases dp with
    | none => exact h
    | some dp => exact hshrinks (shrinks_dead_dispatcher dp)
  | PortStatus d p reason => exact hshrinks (shrinks_port_status_handler d p reason)
  | LldpPacketIn msg => exact keeps_lldp_packet_in_handler h msg
  | HostPacketIn msg => exact keeps_host_discovery h msg
  | SendLldp port => exact hshrinks (shrinks_send_lldp_packet port)
  | LinkRound => exact hshrinks shrinks_link_loop
  | Elapse time => exact h.shrinks (shrinks_same rfl rfl)

theorem step_of_handle {I : Switches → Prop} {i : Input} (h : wp (handle env i) s (fun _ => I) fun _ => I) : I (step env s i) := by
  unfold wp at h
  unfold step
  cases hx : handle env i s with
  | ok u s' =>
    rw [hx] at h
    exact h
  | error e s' =>
    rw [hx] at h
    exact h

theorem hostsOff_run (is : List Input) : HostsOff (is.foldl (step env) {}) := by
  have hrun : ∀ s, HostsOff s → HostsOff (is.foldl (step env) s) := by
    induction is with
    | nil => exact fun s h => h
    | cons i is ih => exact fun s h => ih _ (step_of_handle (hostsOff_handle h i))
  exact hrun {} hostsOff_init

/-- **No host on the ends of a link that is seen both ways**, whatever the
switches, the packets and the timers did: a new link is recorded after the hosts
are gone through, so a host may stay on its ends only until the other direction
is seen. -/
theorem two_way_link_holds_no_host (is : List Input) {a b : LinkEnd} (hab : ⟨a, b⟩ ∈ (is.foldl (step env) {}).links.dict)
    (hba : ⟨b, a⟩ ∈ (is.foldl (step env) {}).links.dict) {mac : Bytes} {host : RyuHost}
    (hhost : (is.foldl (step env) {}).hosts.get mac = some host) : host.mac = mac ∧ host.port ≠ a ∧ host.port ≠ b :=
  have h : HostsOff (is.foldl (step env) {}) := hostsOff_run is
  ⟨h.mac mac host hhost, h.off a b hab hba mac host hhost, h.off b a hba hab mac host hhost⟩

def sampleHostRun : List Input :=
  sampleRun ++ [.HostPacketIn ⟨1, 2, OFP_NO_BUFFER, [0xff, 0xff, 0xff, 0xff, 0xff, 0xff, 0, 0, 0, 0, 0, 1, 0x88, 0xb5]⟩]

theorem two_way_link_holds_no_host_wire : ∃ host, (sampleHostRun.foldl (step sampleEnv) {}).hosts.get
    (asciiText "00:00:00:00:00:01") = some host ∧ host.port ≠ ⟨1, 1⟩ ∧ host.port ≠ ⟨2, 1⟩ := by
  obtain ⟨host, hhost⟩ := Option.isSome_iff_exists.mp (show ((sampleHostRun.foldl (step sampleEnv) {}).hosts.get
    (asciiText "00:00:00:00:00:01")).isSome = true by decide +kernel)
  exact ⟨host, hhost, (two_way_link_holds_no_host sampleHostRun (by decide +kernel) (by decide +kernel) hhost).2⟩

end Switches

end VnfDockerNet
