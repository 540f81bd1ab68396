import VnfDockerNet.Layer2Spec

/-!
# The packets that wait for an answer

`xid_to_packet`, `xid_to_packet_timestamp` and `xid_to_buffer_id` are read as one
table of waiting packets. A request adds an entry, an answer takes its entry out
and the sweep keeps the entries that are not too old.
-/

namespace VnfDockerNet

open Python Networkx

namespace Layer2Switch

variable {env : LocalEnv} {s s' : Layer2Switch env.nx.Graph}

/-! ## One table -/

/-- A waiting packet: its data came with the request exactly when no switch has buffered it. -/
structure Waiting where
  data : Option Bytes
  timestamp : Nat
  buffer_id : Nat
  whole : data.isSome = true ↔ buffer_id = OFP_NO_BUFFER

/-- The three tables of `s` are the table `t`. -/
structure Pends (t : Nat → Option Waiting) (s : Layer2Switch env.nx.Graph) : Prop where
  packets : ∀ x, s.xid_to_packet.get x = (t x).map Waiting.data
  stamps : ∀ x, s.xid_to_packet_timestamp.get x = (t x).map Waiting.timestamp
  buffers : ∀ x, s.xid_to_buffer_id.get x = (t x).map Waiting.buffer_id

variable {t : Nat → Option Waiting}

theorem Pends.same (h : Pends t s) (hpackets : s'.xid_to_packet = s.xid_to_packet)
    (hstamps : s'.xid_to_packet_timestamp = s.xid_to_packet_timestamp)
    (hbuffers : s'.xid_to_buffer_id = s.xid_to_buffer_id) : Pends t s' :=
  ⟨fun x => hpackets ▸ h.packets x, fun x => hstamps ▸ h.stamps x, fun x => hbuffers ▸ h.buffers x⟩

theorem Pends.put (h : Pends t s) (xid : Nat) (w : Waiting) :
    Pends (Function.update t xid (some w)) { s with
      xid_to_packet := s.xid_to_packet.insert xid w.data
      xid_to_packet_timestamp := s.xid_to_packet_timestamp.insert xid w.timestamp
      xid_to_buffer_id := s.xid_to_buffer_id.insert xid w.buffer_id } := by
  refine ⟨fun x => ?_, fun x => ?_, fun x => ?_⟩ <;> by_cases hx : x = xid
  all_goals simp [Dict.get_insert, hx, h.packets, h.stamps, h.buffers]

theorem Pends.drop (h : Pends t s) (xid : Nat) :
    Pends (Function.update t xid none) { s with
      xid_to_packet := s.xid_to_packet.erase xid
      xid_to_packet_timestamp := s.xid_to_packet_timestamp.erase xid
      xid_to_buffer_id := s.xid_to_buffer_id.erase xid } := by
  refine ⟨fun x => ?_, fun x => ?_, fun x => ?_⟩ <;> by_cases hx : x = xid
  all_goals simp [Dict.get_erase, hx, h.packets, h.stamps, h.buffers]

theorem pends_init (xid : Nat) : Pends (fun _ => none) (init env xid) := ⟨fun _ => rfl, fun _ => rfl, fun _ => rfl⟩

/-! ## The tables in step -/

structure InStep (s : Layer2Switch env.nx.Graph) : Prop where
  stamped : ∀ x, x ∈ s.xid_to_packet_timestamp ↔ x ∈ s.xid_to_packet
  buffered : ∀ x, x ∈ s.xid_to_buffer_id ↔ x ∈ s.xid_to_packet
  whole : ∀ x, (∃ data, s.xid_to_packet.get x = some (some data)) ↔ s.xid_to_buffer_id.get x = some OFP_NO_BUFFER

theorem Pends.inStep (h : Pends t s) : InStep s := by
  refine ⟨fun x => ?_, fun x => ?_, fun x => ?_⟩
  · rw [Dict.mem_iff_get, Dict.mem_iff_get, h.stamps, h.packets]
    cases t x <;> simp
  · rw [Dict.mem_iff_get, Dict.mem_iff_get, h.buffers, h.packets]
    cases t x <;> simp
  · rw [h.packets, h.buffers]
    cases t x with
    | none => simp
    | some w => simpa [Option.isSome_iff_exists] using w.whole

/-! ## What the handlers do to the table -/

def Tabled (s : Layer2Switch env.nx.Graph) : Prop := ∃ t, Pends t s

theorem Tabled.same (h : Tabled s) (hpackets : s'.xid_to_packet = s.xid_to_packet)
    (hstamps : s'.xid_to_packet_timestamp = s.xid_to_packet_timestamp)
    (hbuffers : s'.xid_to_buffer_id = s.xid_to_buffer_id) : Tabled s' :=
  have ⟨t, h⟩ := h
  ⟨t, h.same hpackets hstamps hbuffers⟩

theorem tabled_send_msg (own_xid : Option Nat) (msg : MsgUp) : Moves (Keeps Tabled) (send_msg env own_xid msg) :=
  moves_send_msg (P := fun _ => True) (fun _ _ h => h.same rfl rfl rfl) (fun _ _ _ _ h => h.same rfl rfl rfl) _ trivial

theorem tabled_askCentral (now : Nat) (msg : PacketIn) (eth : Ethernet) :
    Moves (Keeps Tabled) (askCentral env now msg eth) := by
  refine .bind (moves_set_xid fun _ _ h => h.same rfl rfl rfl) fun xid => .bind (.modify fun s h => ?_) fun _ =>
    tabled_send_msg _ _
  obtain ⟨t, h⟩ := h
  have hwhole : (if msg.buffer_id = OFP_NO_BUFFER then some msg.data else none).isSome = true ↔
      msg.buffer_id = OFP_NO_BUFFER := by
    by_cases hbuf : msg.buffer_id = OFP_NO_BUFFER
    · simp [hbuf]
    · simp [hbuf]
  exact ⟨_, h.put xid ⟨_, now, msg.buffer_id, hwhole⟩⟩

theorem wp_takePending_pends (h : Pends t s) (xid : Nat) :
    wp (takePending env xid) s (fun _ s' => Pends (Function.update t xid none) s') fun _ _ => False := by
  have hpacket := h.packets xid
  have hstamp := h.stamps xid
  have hbuffer := h.buffers xid
  unfold takePending
  simp only [wp_bind, wp_get]
  cases hw : t xid with
  | none =>
    rw [hw] at hpacket
    simp only [hpacket, Option.map_none, wp_pure]
    rwa [← hw, Function.update_eq_self]
  | some w =>
    rw [hw] at hpacket hstamp hbuffer
    simp only [hpacket, Option.map_some, wp_bind, wp_get, wp_item_some hbuffer, wp_modify, wp_item_some hstamp, wp_pure]
    exact h.drop xid

theorem tabled_takePending (xid : Nat) : Moves (Keeps Tabled) (takePending env xid) :=
  Moves.keeps fun _ hs =>
    have ⟨_, hs⟩ := hs
    wp_mono (wp_takePending_pends hs xid) (fun _ _ h => ⟨_, h⟩) fun _ _ h => h.elim

/-! ## The sweep -/

/-- The entries that are no older than the limit. -/
def Waiting.fresh (now : Nat) (w : Waiting) : Bool := now ≤ w.timestamp + PACKET_OUT_TIMEOUT

theorem wp_expirePacket_pends {w : Waiting} (h : Pends t s) (now xid : Nat) (hw : t xid = some w) :
    wp (expirePacket env now xid) s (fun _ s' => Pends (Function.update t xid ((t xid).filter (Waiting.fresh now))) s')
      fun _ _ => False := by
  have hpacket := h.packets xid
  have hstamp := h.stamps xid
  have hbuffer := h.buffers xid
  rw [hw] at hpacket hstamp hbuffer
  unfold expirePacket
  simp only [wp_bind, wp_get, wp_item_some hstamp, wp_ite, wp_item_some hpacket, wp_modify, wp_item_some hbuffer, wp_pure]
  refine ⟨fun hold => ?_, fun hnew => ?_⟩
  · have hstale : Waiting.fresh now w = false := by
      unfold Waiting.fresh
      exact decide_eq_false (by omega)
    rw [hw, Option.filter_some, hstale]
    exact h.drop xid
  · have hfresh : Waiting.fresh now w = true := by
      unfold Waiting.fresh
      exact decide_eq_true (by omega)
    rw [hw, Option.filter_some, hfresh, if_pos rfl, ← hw, Function.update_eq_self]
    exact h

theorem wp_expirePackets_pends (now : Nat) : ∀ (xids : List Nat) (t : Nat → Option Waiting) (s : Layer2Switch env.nx.Graph),
    Pends t s → xids.Nodup → (∀ x ∈ xids, (t x).isSome = true) →
    wp (expirePackets env now xids) s
      (fun _ s' => Pends (fun x => if x ∈ xids then (t x).filter (Waiting.fresh now) else t x) s') fun _ _ => False
  | [], t, s, h, _, _ => by
    simp only [List.not_mem_nil, if_false]
    exact h
  | xid :: xids, t, s, h, hnodup, hlisted => by
    obtain ⟨hnotin, hnodup⟩ := List.nodup_cons.mp hnodup
    obtain ⟨w, hw⟩ := Option.isSome_iff_exists.mp (hlisted xid List.mem_cons_self)
    unfold expirePackets
    rw [wp_bind]
    refine wp_mono (wp_expirePacket_pends h now xid hw) (fun _ s₁ h₁ => ?_) fun _ _ h => h
    have hrest : ∀ x ∈ xids, (Function.update t xid ((t xid).filter (Waiting.fresh now)) x).isSome = true := by
      intro x hx
      rw [Function.update_of_ne fun he : x = xid => hnotin (he ▸ hx)]
      exact hlisted x (List.mem_cons_of_mem _ hx)
    refine wp_mono (wp_expirePackets_pends now xids _ s₁ h₁ hnodup hrest) (fun _ s₂ h₂ => ?_) fun _ _ h => h
    have htable : (fun x => if x ∈ xids then (Function.update t xid ((t xid).filter (Waiting.fresh now)) x).filter
          (Waiting.fresh now) else Function.update t xid ((t xid).filter (Waiting.fresh now)) x) =
        fun x => if x ∈ xid :: xids then (t x).filter (Waiting.fresh now) else t x := by
      funext x
      by_cases hx : x = xid
      · subst hx
        simp [hnotin]
      · simp [hx]
    rwa [htable] at h₂

theorem wp_packet_timeout_pends (h : Pends t s) (now : Nat) :
    wp (_packet_timeout_handler env now) s (fun _ s' => Pends (fun x => (t x).filter (Waiting.fresh now)) s')
      fun _ _ => False := by
  have hmem : ∀ x, x ∈ env.order s.xid_to_packet_timestamp ↔ (t x).isSome = true := by
    intro x
    rw [mem_order, Dict.mem_iff_get, h.stamps, ← Option.isSome_iff_exists, Option.isSome_map]
  unfold _packet_timeout_handler
  simp only [wp_bind, wp_get]
  refine wp_mono (wp_expirePackets_pends now _ t s h ?_ fun x => (hmem x).mp) (fun _ s₁ h₁ => ?_) fun _ _ h => h
  · exact (env.order_perm _).nodup_iff.mpr s.xid_to_packet_timestamp.nodupKeys
  · have htable : (fun x => if x ∈ env.order s.xid_to_packet_timestamp then (t x).filter (Waiting.fresh now) else t x) =
        fun x => (t x).filter (Waiting.fresh now) := by
      funext x
      by_cases hx : (t x).isSome = true
      · rw [if_pos ((hmem x).mpr hx)]
      · rw [if_neg fun hin => hx ((hmem x).mp hin), Option.not_isSome_iff_eq_none.mp hx, Option.filter_none]
    rwa [htable] at h₁

/-! ## Every handler -/

theorem tabled_packet_in_handler (now : Nat) (msg : PacketIn) :
    Moves (Keeps Tabled) (ofp_packet_in_handler env now msg) := by
  unfold ofp_packet_in_handler
  cases msg.pkt.eth with
  | none => exact .throw _
  | some eth =>
    refine .ite (moves_markPort (fun _ _ _ _ h => h.same rfl rfl rfl) _ _) ?_
    refine .bind (moves_countPacket (fun _ _ _ _ h => h.same rfl rfl rfl) _) fun _ => .bind ?_ fun _ =>
      moves_forward_of (fun _ _ h => h.same rfl rfl rfl) (tabled_askCentral now msg eth)
    exact moves_learnHost (P := fun _ => True) (fun _ _ h => h.same rfl rfl rfl) (fun _ _ _ _ h => h.same rfl rfl rfl)
      (fun _ _ h => h.same rfl rfl rfl) (fun _ _ _ _ h => h.same rfl rfl rfl) (fun _ _ => trivial)
      (fun _ _ h => h.same rfl rfl rfl) (fun _ _ _ _ h => h.same rfl rfl rfl) (fun _ _ _ _ h => h.same rfl rfl rfl)
      (fun _ _ => trivial) _ _ _

theorem tabled_switch_leave_handler (dpid : Nat) : Moves (Keeps Tabled) (switch_leave_handler env dpid) := by
  have hmacs : ∀ macs, Moves (Keeps Tabled) (removeMacs env macs) := by
    intro macs
    induction macs with
    | nil => exact .pure _
    | cons mac macs ih => exact .bind (.modify fun _ h => h.same rfl rfl rfl) fun _ => ih
  unfold switch_leave_handler removeNode
  refine .bind (.bind .get fun _ => .bind (.orRaise _) fun _ => .modify fun _ h => h.same rfl rfl rfl) fun _ => ?_
  refine .bind .get fun _ => .bind (.item _ _) fun _ => .bind (.modify fun _ h => h.same rfl rfl rfl) fun _ => ?_
  refine .bind .get fun _ => .bind (.item _ _) fun _ => .bind (.modify fun _ h => h.same rfl rfl rfl) fun _ => ?_
  refine .bind .get fun _ => .bind (.item _ _) fun _ => .bind (.modify fun _ h => h.same rfl rfl rfl) fun _ => ?_
  refine .bind .get fun _ => .bind (.item _ _) fun _ => .bind (hmacs _) fun _ => ?_
  exact .bind (.modify fun _ h => h.same rfl rfl rfl) fun _ => .bind (tabled_send_msg _ _) fun _ =>
    .modify fun _ h => h.same rfl rfl rfl

theorem tabled_get_topology_data (api : Topology) : Moves (Keeps Tabled) (get_topology_data env api) := by
  unfold get_topology_data
  refine .bind (.modify fun _ h => h.same rfl rfl rfl) fun _ => .bind (.orRaise _) fun _ => ?_
  refine .bind (moves_recordWindows (fun _ _ _ h => h.same rfl rfl rfl) _) fun _ => ?_
  refine .bind (.modify fun _ h => h.same rfl rfl rfl) fun _ => .bind (.modify fun _ h => h.same rfl rfl rfl) fun _ => ?_
  exact .bind (.modify fun _ h => h.same rfl rfl rfl) fun _ => .bind (tabled_send_msg _ _) fun _ =>
    .modify fun _ h => h.same rfl rfl rfl

theorem tabled_handle (e : LocalEvent) : Moves (Keeps Tabled) (handle env e) := by
  unfold handle
  cases e with
  | SwitchFeatures datapath =>
    exact .bind (.modify fun _ h => h.same rfl rfl rfl) fun _ => .bind .get fun _ => .bind (tabled_send_msg _ _) fun _ =>
      moves_add_flow (fun _ _ h => h.same rfl rfl rfl) _ _ _ _ _
  | RoleReply dpid role => exact .bind .get fun _ => tabled_send_msg _ _
  | PacketIn now msg => exact tabled_packet_in_handler now msg
  | TopologyChange api => exact tabled_get_topology_data api
  | SwitchLeave dpid => exact tabled_switch_leave_handler dpid
  | Connected => exact .modify fun _ h => h.same rfl rfl rfl
  | Downlink now ev =>
    exact moves_dispatch_event_of (P := fun _ => True) (fun _ _ h => h.same rfl rfl rfl) (fun _ _ _ _ h => h.same rfl rfl rfl)
      (fun _ _ h => h.same rfl rfl rfl) (fun _ => trivial) (fun _ _ h => h.same rfl rfl rfl) now (tabled_takePending _)
  | LoadRound =>
    have hloads : ∀ dpids, Moves (Keeps Tabled) (reportLoads env dpids) := by
      intro dpids
      induction dpids with
      | nil => exact .pure _
      | cons dpid dpids ih =>
        exact .bind .get fun _ => .bind (.modify fun _ h => h.same rfl rfl rfl) fun _ => .bind (tabled_send_msg _ _) fun _ => ih
    exact .bind .get fun _ => .ite (.bind .get fun _ => hloads _) (.pure _)
  | GraphInfoRound window_switches =>
    exact moves_graph_info_thread (P := fun _ => True) (fun _ _ h => h.same rfl rfl rfl) (fun _ _ _ _ h => h.same rfl rfl rfl)
      (fun _ => trivial) (fun _ _ _ h => h.same rfl rfl rfl) (fun _ _ h => h.same rfl rfl rfl) window_switches
  | TimeoutRound now =>
    exact Moves.keeps fun _ hs =>
      have ⟨_, hs⟩ := hs
      wp_mono (wp_packet_timeout_pends hs now) (fun _ _ h => ⟨_, h⟩) fun _ _ h => h.elim

/-- A step for which the counter of xids was first moved, so that an xid can come again at any time. -/
def stepFrom (env : LocalEnv) (s : Layer2Switch env.nx.Graph) (e : (Nat → Nat) × LocalEvent) : Layer2Switch env.nx.Graph :=
  step env { s with xid := e.1 s.xid } e.2

theorem tabled_run (xid : Nat) (es : List ((Nat → Nat) × LocalEvent)) :
    Tabled (es.foldl (stepFrom env) (init env xid)) := by
  refine List.foldlRecOn (motive := Tabled) es (stepFrom env) ⟨_, pends_init xid⟩ fun s h e _ => ?_
  exact step_of_wp (fun _ h => h.same rfl rfl rfl) ((tabled_handle e.2).kept (h.same rfl rfl rfl))

def Fresh (s : Layer2Switch env.nx.Graph) (now x : Nat) : Prop :=
  ∃ timestamp, s.xid_to_packet_timestamp.get x = some timestamp ∧ now ≤ timestamp + PACKET_OUT_TIMEOUT

theorem Pends.fresh_iff (h : Pends t s) (now x : Nat) : Fresh s now x ↔ ((t x).filter (Waiting.fresh now)).isSome = true := by
  unfold Fresh
  rw [h.stamps]
  cases t x with
  | none => simp
  | some w => simp [Option.filter_some, Waiting.fresh]

/-- `s'` has the fresh entries of `s` and no others. -/
structure Swept (now : Nat) (s s' : Layer2Switch env.nx.Graph) : Prop where
  kept : ∀ x, Fresh s now x → s'.xid_to_packet.get x = s.xid_to_packet.get x ∧
    s'.xid_to_packet_timestamp.get x = s.xid_to_packet_timestamp.get x ∧
    s'.xid_to_buffer_id.get x = s.xid_to_buffer_id.get x
  gone : ∀ x, ¬ Fresh s now x → x ∉ s'.xid_to_packet ∧ x ∉ s'.xid_to_packet_timestamp ∧ x ∉ s'.xid_to_buffer_id

theorem Pends.swept {now : Nat} (h : Pends t s) (h' : Pends (fun x => (t x).filter (Waiting.fresh now)) s') :
    Swept now s s' := by
  refine ⟨fun x hx => ?_, fun x hx => ?_⟩
  · have hsame : (t x).filter (Waiting.fresh now) = t x := by
      obtain ⟨w, hw⟩ := Option.isSome_iff_exists.mp ((h.fresh_iff now x).mp hx)
      rw [hw, (Option.filter_eq_some_iff.mp hw).1]
    rw [h'.packets, h'.stamps, h'.buffers, h.packets, h.stamps, h.buffers, hsame]
    exact ⟨rfl, rfl, rfl⟩
  · have hnone : (t x).filter (Waiting.fresh now) = none := Option.not_isSome_iff_eq_none.mp fun hs => hx ((h.fresh_iff now x).mpr hs)
    rw [← Dict.get_eq_none, ← Dict.get_eq_none, ← Dict.get_eq_none, h'.packets, h'.stamps, h'.buffers, hnone]
    exact ⟨rfl, rfl, rfl⟩

/-- **The tables of waiting packets stay in step**, in every run and with any
xids; and the sweep keeps the entries that are not too old, without an exception. -/
theorem pending_tables_in_step (env : LocalEnv) (xid : Nat) (es : List ((Nat → Nat) × LocalEvent)) (now : Nat) :
    InStep (es.foldl (stepFrom env) (init env xid)) ∧
    wp (_packet_timeout_handler env now) (es.foldl (stepFrom env) (init env xid))
      (fun _ s' => Swept now (es.foldl (stepFrom env) (init env xid)) s' ∧ InStep s') fun _ _ => False := by
  obtain ⟨t, h⟩ := @tabled_run env xid es
  exact ⟨h.inStep, wp_mono (wp_packet_timeout_pends h now) (fun _ _ h' => ⟨h.swept h', h'.inStep⟩) fun _ _ h => h⟩

end Layer2Switch

end VnfDockerNet
