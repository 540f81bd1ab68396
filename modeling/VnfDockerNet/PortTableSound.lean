import VnfDockerNet.SwitchesSpec
import VnfDockerNet.Lib.Runs

/-!
# What the discovery application keeps

The table of ports has the ports that the connected switches reported, once
each and in the order of their last packets, and the observers know the
connected switches, in every run whose switches report as OpenFlow has them. A
round of `lldp_loop` may then stop at the first port that is not yet due.
-/

namespace VnfDockerNet

open Python

namespace Switches

variable {env : RyuEnv} {s s' : Switches}

/-- A port that a connected switch has, and that is not reserved. -/
def Listed (port_state : Dict Nat (Dict Nat OFPPort)) (k : LinkEnd) : Prop :=
  ∃ state, port_state.get k.dpid = some state ∧ k.port_no ∈ state ∧ k.port_no ≤ OFPP_MAX

structure Enrolled (s : Switches) : Prop where
  dps : ∀ d, d ∈ s.dps ↔ d ∈ s.port_state
  id : ∀ d dp, s.dps.get d = some dp → dp.id = d
  small : ∀ d, d ∈ s.dps → d < 2 ^ 64
  numbered : ∀ d state n p, s.port_state.get d = some state → state.get n = some p → p.port_no = n

structure Tables (env : RyuEnv) (s : Switches) : Prop where
  enrolled : Enrolled s
  table : PortTable env (Listed s.port_state) s.ports s.time
  nodup : (switchesTold s.events).Nodup
  told : ∀ d, d ∈ switchesTold s.events ↔ d ∈ s.dps
  sent : SentFrames env s.out

theorem tables_init : Tables env {} := by
  have hnone : ∀ d, d ∉ (∅ : Dict Nat (Dict Nat OFPPort)) := fun d => AList.notMem_empty d
  refine ⟨⟨fun d => ?_, fun d dp h => ?_, fun d h => ?_, fun d state n p h => ?_⟩, portTable_init.congr fun k => ?_, .nil, fun d => ?_,
    fun d p data h => absurd h List.not_mem_nil⟩
  · exact ⟨fun h => absurd h (AList.notMem_empty d), fun h => absurd h (hnone d)⟩
  · cases h
  · exact absurd h (AList.notMem_empty d)
  · cases h
  · refine ⟨False.elim, fun h => ?_⟩
    obtain ⟨state, h, -⟩ := h
    cases h
  · exact ⟨fun h => absurd h List.not_mem_nil, fun h => absurd h (AList.notMem_empty d)⟩

theorem Tables.steady (h : Tables env s) (hs : Steady env s s') : Tables env s' := by
  refine ⟨⟨fun d => ?_, fun d dp hdp => ?_, fun d hd => ?_, fun d state n p hstate hp => ?_⟩, ?_, ?_, fun d => ?_,
    hs.sent _ h.table h.sent⟩
  · rw [hs.dps, hs.port_state]
    exact h.enrolled.dps d
  · rw [hs.dps] at hdp
    exact h.enrolled.id d dp hdp
  · rw [hs.dps] at hd
    exact h.enrolled.small d hd
  · rw [hs.port_state] at hstate
    exact h.enrolled.numbered d state n p hstate hp
  · rw [hs.port_state]
    exact hs.table _ h.table
  · rw [hs.told]
    exact h.nodup
  · rw [hs.told, hs.dps]
    exact h.told d

/-! ## Lookups -/

section
variable {Q : Option RyuSwitch → Switches → Prop} {E : Exn → Switches → Prop} {d n : Nat} {state : Dict Nat OFPPort}

theorem Enrolled.reported (h : Enrolled s) {dp : RyuDatapath} (hdp : s.dps.get d = some dp) : ∃ state, s.port_state.get d = some state :=
  Dict.mem_iff_get.mp ((h.dps d).mp (Dict.mem_iff_get.mpr ⟨dp, hdp⟩))

theorem wp_get_switch (h : Enrolled s) (hnone : s.dps.get d = none → Q none s)
    (hsome : ∀ dp state, s.dps.get d = some dp → s.port_state.get d = some state → Q (some ⟨dp, switchPorts env d state⟩) s) :
    wp (_get_switch env d) s Q E := by
  unfold _get_switch
  simp only [wp_bind, wp_get]
  cases hdp : s.dps.get d with
  | none => exact hnone hdp
  | some dp =>
    obtain ⟨state, hstate⟩ := h.reported hdp
    simp only [wp_bind, wp_item_some hstate, wp_pure]
    exact hsome dp state hdp hstate

theorem mem_switchPorts (hnum : ∀ n p, state.get n = some p → p.port_no = n) {p : RyuPort} :
    p ∈ switchPorts env d state ↔ p.dpid = d ∧ state.get p.ofpport.port_no = some p.ofpport ∧ p.ofpport.port_no ≤ OFPP_MAX := by
  unfold switchPorts
  simp only [List.mem_filter, List.mem_map, List.mem_filterMap, RyuPort.is_reserved]
  constructor
  · rintro ⟨⟨o, ⟨n, -, ho⟩, rfl⟩, hmax⟩
    have hn := hnum n o ho
    refine ⟨rfl, by rw [hn]; exact ho, by simpa using hmax⟩
  · rintro ⟨rfl, ho, hmax⟩
    exact ⟨⟨p.ofpport, ⟨p.ofpport.port_no, env.order.mem.mpr (Dict.mem_iff_get.mpr ⟨_, ho⟩), ho⟩, rfl⟩, by simpa using hmax⟩

theorem mem_keys_switchPorts (hnum : ∀ n p, state.get n = some p → p.port_no = n) {k : LinkEnd} :
    k ∈ (switchPorts env d state).map RyuPort.key ↔ k.dpid = d ∧ k.port_no ∈ state ∧ k.port_no ≤ OFPP_MAX := by
  rw [List.mem_map]
  constructor
  · rintro ⟨p, hp, rfl⟩
    obtain ⟨hd, ho, hmax⟩ := (mem_switchPorts hnum).mp hp
    exact ⟨hd, Dict.mem_iff_get.mpr ⟨_, ho⟩, hmax⟩
  · rintro ⟨rfl, hk, hmax⟩
    obtain ⟨o, ho⟩ := Dict.mem_iff_get.mp hk
    have hn := hnum _ o ho
    refine ⟨⟨k.dpid, o⟩, (mem_switchPorts hnum).mpr ⟨rfl, by rw [hn]; exact ho, by rw [hn]; exact hmax⟩, ?_⟩
    unfold RyuPort.key
    rw [hn]

theorem nodup_switchPorts (hnum : ∀ n p, state.get n = some p → p.port_no = n) :
    ((switchPorts env d state).map RyuPort.key).Nodup := by
  have hkeys : (env.order.order state).Nodup := (env.order.order_perm state).nodup_iff.mpr state.keys_nodup
  have hports : ((env.order.order state).filterMap state.get).Nodup := by
    refine hkeys.filterMap fun n n' o ho ho' => ?_
    exact (hnum n o ho).symm.trans (hnum n' o ho')
  unfold switchPorts
  refine List.Nodup.map_on ?_ ((hports.map fun o o' h => ?_).filter _)
  · intro p hp p' hp' hkey
    obtain ⟨hd, ho, -⟩ := (mem_switchPorts hnum).mp hp
    obtain ⟨hd', ho', -⟩ := (mem_switchPorts hnum).mp hp'
    have hno : p.ofpport.port_no = p'.ofpport.port_no := congrArg LinkEnd.port_no hkey
    rw [hno, ho'] at ho
    cases p
    cases p'
    cases hd
    cases hd'
    cases ho
    rfl
  · cases h
    rfl

theorem wp_get_port (h : Enrolled s) {Q : Option RyuPort → Switches → Prop} (hnone : ¬ Listed s.port_state ⟨d, n⟩ → Q none s)
    (hsome : ∀ p state, s.port_state.get d = some state → state.get n = some p.ofpport → p.key = ⟨d, n⟩ →
      Listed s.port_state ⟨d, n⟩ → Q (some p) s) : wp (_get_port env d n) s Q E := by
  unfold _get_port
  rw [wp_bind]
  refine wp_get_switch h (fun hdp => ?_) fun dp state hdp hstate => ?_
  · refine hnone fun hlisted => ?_
    obtain ⟨state, hstate, -⟩ := hlisted
    exact Dict.get_eq_none.mp hdp ((h.dps d).mpr (Dict.mem_iff_get.mpr ⟨state, hstate⟩))
  · have hnum := fun n p => h.numbered d state n p hstate
    show Q ((switchPorts env d state).find? _) s
    cases hfind : (switchPorts env d state).find? (fun p => p.ofpport.port_no = n) with
    | none =>
      refine hnone fun hlisted => ?_
      obtain ⟨state', hstate', hn, hmax⟩ := hlisted
      rw [hstate] at hstate'
      cases hstate'
      obtain ⟨p, hp, hkey⟩ := List.mem_map.mp ((mem_keys_switchPorts hnum).mpr ⟨rfl, hn, hmax⟩)
      have hno := List.find?_eq_none.mp hfind p hp
      cases hkey
      exact hno (by simp)
    | some p =>
      have hn : p.ofpport.port_no = n := by simpa using List.find?_some hfind
      obtain ⟨hd, ho, hmax⟩ := (mem_switchPorts hnum).mp (List.mem_of_find?_eq_some hfind)
      rw [hn] at ho hmax
      refine hsome p state hstate ho ?_ ⟨state, hstate, Dict.mem_iff_get.mpr ⟨_, ho⟩, hmax⟩
      unfold RyuPort.key
      rw [hd, hn]

end

/-! ## Switches that come and go -/

variable {P : LinkEnd → Prop} {s₀ : Switches}

theorem wp_addPorts (h : Since env P s₀ s) {ports : List RyuPort} (hnodup : (ports.map RyuPort.key).Nodup)
    (hports : ∀ p ∈ ports, p.is_reserved = false ∧ ¬ P p.key ∧ HasFrame env p) :
    wp (forEach (fun p => if p.is_reserved then pure () else _port_added env p) ports) s
      (fun _ s' => Since env (fun k => k ∈ ports.map RyuPort.key ∨ P k) s₀ s') fun _ _ => False := by
  refine wp_forEach (fun done s' => Since env (fun k => k ∈ done.map RyuPort.key ∨ P k) s₀ s') ?_ ?_
  · intro before p after s₁ hsplit h₁
    obtain ⟨hres, hnew, hframe⟩ := hports p (hsplit ▸ List.mem_append_right _ (List.mem_cons_self ..))
    rw [hres, if_neg Bool.false_ne_true]
    have hfresh : p.key ∉ before.map RyuPort.key := by
      rw [hsplit, List.map_append, List.map_cons] at hnodup
      exact (List.nodup_middle.mp hnodup).notMem ∘ List.mem_append_left _
    refine wp_mono (wp_port_added h₁ (fun hmem => hmem.elim hfresh hnew) hframe) (fun _ s₂ h₂ => ?_) fun _ _ h => h
    refine { h₂ with table := h₂.table.congr fun k => ?_ }
    rw [List.map_append, List.mem_append, List.map_singleton, List.mem_singleton]
    tauto
  · exact { h with table := h.table.congr fun k => by simp }

theorem wp_removePorts (h : Since env P s₀ s) {ports : List RyuPort} (hnodup : (ports.map RyuPort.key).Nodup)
    (hports : ∀ p ∈ ports, p.is_reserved = false ∧ P p.key) :
    wp (forEach (fun p => if p.is_reserved then pure () else do
      del_port p.key
      _link_down p.key) ports) s
      (fun _ s' => Since env (fun k => k ∉ ports.map RyuPort.key ∧ P k) s₀ s') fun _ _ => False := by
  refine wp_forEach (fun done s' => Since env (fun k => k ∉ done.map RyuPort.key ∧ P k) s₀ s') ?_ ?_
  · intro before p after s₁ hsplit h₁
    obtain ⟨hres, hold⟩ := hports p (hsplit ▸ List.mem_append_right _ (List.mem_cons_self ..))
    rw [hres, if_neg Bool.false_ne_true, wp_bind]
    have hfresh : p.key ∉ before.map RyuPort.key := by
      rw [hsplit, List.map_append, List.map_cons] at hnodup
      exact (List.nodup_middle.mp hnodup).notMem ∘ List.mem_append_left _
    refine wp_mono (wp_del_port h₁ ⟨hfresh, hold⟩) (fun _ s₂ h₂ => ?_) fun _ _ h => h
    refine wp_mono (wp_link_down h₂ p.key) (fun _ s₃ h₃ => ?_) fun _ _ h => h
    refine { h₃ with table := h₃.table.congr fun k => ?_ }
    rw [List.map_append, List.mem_append, List.map_singleton, List.mem_singleton]
    tauto
  · exact { h with table := h.table.congr fun k => by simp }

/-- What ryu reads off the addresses. -/
structure Converts (env : RyuEnv) : Prop where
  multicast : ∃ dst, env.conv.text_to_bin Lldp.LLDP_MAC_NEAREST_BRIDGE = .ok dst
  length : ∀ text bs, env.conv.text_to_bin text = .ok bs → bs.length = 6

/-- The port's number fits, and its address is one. -/
def Addressed (env : RyuEnv) (p : OFPPort) : Prop := p.port_no < 2 ^ 32 ∧ ∃ src, env.conv.text_to_bin p.hw_addr = .ok src

theorem hasFrame (hconv : Converts env) {p : RyuPort} (hdpid : p.dpid < 2 ^ 64) (hp : Addressed env p.ofpport) : HasFrame env p := by
  obtain ⟨dst, hdst⟩ := hconv.multicast
  obtain ⟨hno, src, hsrc⟩ := hp
  have httl : DEFAULT_TTL < 2 ^ 16 := by decide
  obtain ⟨frame, _, _, _, _, _, hframe, -⟩ :=
    Lldp.discovery_frame hdpid hno httl hdst hsrc (hconv.length _ _ hdst) (hconv.length _ _ hsrc)
  exact ⟨frame, hframe, Lldp.parse_frame hdpid hno httl hconv.length hframe⟩

/-- What a switch may report: its ports by their numbers, a new port that is
not there, the change of one that is. -/
def Reports (env : RyuEnv) (s : Switches) : Input → Prop
  | .Main dp => dp.id < 2 ^ 64 ∧ ∀ n p, dp.ports.get n = some p → p.port_no = n ∧ Addressed env p
  | .PortStatus dpid p .ADD => Addressed env p ∧ ∃ state, s.port_state.get dpid = some state ∧ p.port_no ∉ state
  | .PortStatus dpid p .DELETE | .PortStatus dpid p .MODIFY => ∃ state, s.port_state.get dpid = some state ∧ p.port_no ∈ state
  | _ => True

theorem notReserved_of_mem {d : Nat} {state : Dict Nat OFPPort} {p : RyuPort} (hp : p ∈ switchPorts env d state) :
    p.is_reserved = false := by
  unfold switchPorts at hp
  simpa using (List.mem_filter.mp hp).2

/-! ### The switches after an event -/

section
variable {port_state : Dict Nat (Dict Nat OFPPort)} {state state' : Dict Nat OFPPort} {d : Nat} {k : LinkEnd}

theorem listed_of_get (hstate : port_state.get k.dpid = some state) : Listed port_state k ↔ k.port_no ∈ state ∧ k.port_no ≤ OFPP_MAX := by
  constructor
  · rintro ⟨state', hstate', hk⟩
    rw [hstate] at hstate'
    cases hstate'
    exact hk
  · exact fun hk => ⟨state, hstate, hk⟩

theorem listed_insert : Listed (port_state.insert d state') k ↔
    k.dpid = d ∧ k.port_no ∈ state' ∧ k.port_no ≤ OFPP_MAX ∨ k.dpid ≠ d ∧ Listed port_state k := by
  unfold Listed
  rw [Dict.get_insert]
  by_cases hd : k.dpid = d <;> simp [hd]

theorem listed_erase : Listed (port_state.erase d) k ↔ k.dpid ≠ d ∧ Listed port_state k := by
  unfold Listed
  rw [Dict.get_erase]
  by_cases hd : k.dpid = d <;> simp [hd]

end

theorem Since.tables (h : Since env P s₀ s) (henrolled : Enrolled s₀) (hP : ∀ k, P k ↔ Listed s₀.port_state k)
    (hnodup : (switchesTold s₀.events).Nodup) (htold : ∀ d, d ∈ switchesTold s₀.events ↔ d ∈ s₀.dps) : Tables env s := by
  refine ⟨⟨fun d => ?_, fun d dp hdp => ?_, fun d hd => ?_, fun d state n p hstate hp => ?_⟩, ?_, ?_, fun d => ?_, h.sent⟩
  · rw [h.dps, h.port_state]
    exact henrolled.dps d
  · rw [h.dps] at hdp
    exact henrolled.id d dp hdp
  · rw [h.dps] at hd
    exact henrolled.small d hd
  · rw [h.port_state] at hstate
    exact henrolled.numbered d state n p hstate hp
  · rw [h.port_state]
    exact h.table.congr hP
  · rw [h.told]
    exact hnodup
  · rw [h.told, h.dps]
    exact htold d

theorem Enrolled.events (h : Enrolled s) (events : List TopologyEvent) : Enrolled { s with events } := ⟨h.dps, h.id, h.small, h.numbered⟩

theorem Enrolled.setState (h : Enrolled s) {d : Nat} {state state' : Dict Nat OFPPort} (hstate : s.port_state.get d = some state)
    (hnum : ∀ n p, state'.get n = some p → p.port_no = n) : Enrolled { s with port_state := s.port_state.insert d state' } := by
  refine ⟨fun d' => ?_, h.id, h.small, fun d' st n p hst hp => ?_⟩
  · rw [h.dps d', Dict.mem_insert_of_mem (Dict.mem_iff_get.mpr ⟨state, hstate⟩)]
  · rcases Dict.get_insert_some.mp hst with ⟨-, rfl⟩ | ⟨-, hst⟩
    · exact hnum n p hp
    · exact h.numbered d' st n p hst hp

theorem Enrolled.register (h : Enrolled s) {dp : RyuDatapath} (hdp : Reports env s (.Main dp)) :
    Enrolled { s with
      dps := s.dps.insert dp.id dp
      port_state := if dp.id ∈ s.port_state then s.port_state else s.port_state.insert dp.id dp.ports } := by
  refine ⟨fun d => ?_, fun d dp' hdp' => ?_, fun d hd => ?_, fun d st n p hst hp => ?_⟩
  · show d ∈ s.dps.insert dp.id dp ↔ d ∈ if dp.id ∈ s.port_state then s.port_state else s.port_state.insert dp.id dp.ports
    by_cases hold : dp.id ∈ s.port_state
    · rw [if_pos hold, Dict.mem_insert_of_mem ((h.dps dp.id).mpr hold)]
      exact h.dps d
    · rw [if_neg hold, AList.mem_insert, AList.mem_insert, h.dps d]
  · rcases Dict.get_insert_some.mp hdp' with ⟨rfl, rfl⟩ | ⟨-, hdp'⟩
    · rfl
    · exact h.id d dp' hdp'
  · rcases (AList.mem_insert _).mp hd with rfl | hd
    · exact hdp.1
    · exact h.small d hd
  · change Dict.get (if dp.id ∈ s.port_state then s.port_state else s.port_state.insert dp.id dp.ports) d = some st at hst
    split at hst
    · exact h.numbered d st n p hst hp
    · rcases Dict.get_insert_some.mp hst with ⟨-, rfl⟩ | ⟨-, hst⟩
      · exact (hdp.2 n p hp).1
      · exact h.numbered d st n p hst hp

theorem Enrolled.unregister (h : Enrolled s) (d : Nat) :
    Enrolled { s with dps := s.dps.erase d, port_state := s.port_state.erase d } := by
  refine ⟨fun d' => ?_, fun d' dp hdp => ?_, fun d' hd => ?_, fun d' st n p hst hp => ?_⟩
  · show d' ∈ s.dps.erase d ↔ d' ∈ s.port_state.erase d
    rw [AList.mem_erase, AList.mem_erase, h.dps d']
  · exact h.id d' dp (Dict.get_erase_some.mp hdp).2
  · exact h.small d' ((AList.mem_erase).mp hd).2
  · exact h.numbered d' st n p (Dict.get_erase_some.mp hst).2 hp

theorem wp_main_dispatcher (hon : env.link_discovery = true) (hconv : Converts env) (h : Tables env s) {dp : RyuDatapath}
    (hdp : Reports env s (.Main dp)) : wp (main_dispatcher env dp) s (fun _ => Tables env) fun _ _ => False := by
  unfold main_dispatcher
  simp only [wp_bind, wp_get]
  have hclose : wp (closeOld (s.dps.get dp.id)) s (fun _ s' => Steady env s s') fun _ _ => False := by
    cases s.dps.get dp.id with
    | none => exact refl_of (Steady env) s
    | some old => exact moves_send_msg (fun d p data hmem => by simp at hmem) s
  refine wp_mono hclose (fun _ s₁ hs => ?_) fun _ _ h => h
  have h₁ := h.steady hs
  have hdp₁ : Reports env s₁ (.Main dp) := hdp
  simp only [_register, wp_modify]
  have henrolled := h₁.enrolled.register hdp₁
  refine wp_get_switch henrolled (fun hnone => ?_) fun dp' state hdp' hstate => ?_
  · rw [Dict.get_insert, if_pos rfl] at hnone
    cases hnone
  · simp only [send_event_to_observers, wp_bind, wp_modify, hon, if_true]
    have hflow : ∀ s₂, wp (installFlow env dp) s₂ (fun _ s' => Steady env s₂ s') fun _ _ => False := by
      intro s₂
      unfold installFlow
      rw [wp_ite]
      exact ⟨fun _ => moves_send_msg (fun d p data hmem => by simp at hmem) s₂, fun _ => refl_of (Steady env) s₂⟩
    refine wp_mono (hflow _) (fun _ s₃ hs₃ => ?_) fun _ _ h => h
    rw [← hs.dps]
    cases hold : s₁.dps.get dp.id with
    | some old =>
      have hmem : dp.id ∈ s₁.dps := Dict.mem_iff_get.mpr ⟨old, hold⟩
      have hmem' : dp.id ∈ s₁.port_state := (h₁.enrolled.dps dp.id).mp hmem
      rw [if_neg (by simp)]
      rw [← hs.dps, hold] at hs₃
      refine (hs₃.since h₁.table h₁.sent).tables (henrolled.events _) (fun k => ?_) ?_ fun d => ?_
      · rw [if_pos hmem']
      · rw [switchesTold_snoc]
        exact h₁.nodup
      · rw [switchesTold_snoc]
        exact (h₁.told d).trans (Dict.mem_insert_of_mem hmem dp d).symm
    | none =>
      have hnew : dp.id ∉ s₁.dps := Dict.get_eq_none.mp hold
      have hnew' : dp.id ∉ s₁.port_state := fun hmem => hnew ((h₁.enrolled.dps dp.id).mpr hmem)
      rw [if_pos (by simp)]
      rw [← hs.dps, hold] at hs₃
      rw [if_neg hnew', Dict.get_insert, if_pos rfl] at hstate
      cases hstate
      have hnum : ∀ n p, dp.ports.get n = some p → p.port_no = n := fun n p hp => (hdp.2 n p hp).1
      refine wp_mono (wp_addPorts (hs₃.since h₁.table h₁.sent) (nodup_switchPorts hnum) fun p hp => ?_) (fun _ s₄ h₄ => ?_) fun _ _ h => h
      · obtain ⟨hd, hget, -⟩ := (mem_switchPorts hnum).mp hp
        refine ⟨notReserved_of_mem hp, fun hlisted => ?_, hasFrame hconv (hd ▸ hdp.1) (hdp.2 _ _ hget).2⟩
        obtain ⟨state, hst, -⟩ := hlisted
        exact hnew' (hd ▸ Dict.mem_iff_get.mpr ⟨state, hst⟩)
      · refine h₄.tables (henrolled.events _) (fun k => ?_) ?_ fun d => ?_
        · rw [if_neg hnew', listed_insert, mem_keys_switchPorts hnum]
          by_cases hd : k.dpid = dp.id
          · have hno : ¬ Listed s₁.port_state k := by
              intro hlisted
              obtain ⟨state, hst, -⟩ := hlisted
              exact hnew' (hd ▸ Dict.mem_iff_get.mpr ⟨state, hst⟩)
            simp [hd, hno]
          · simp [hd]
        · rw [switchesTold_snoc]
          exact List.nodup_cons.mpr ⟨fun hmem => hnew ((h₁.told dp.id).mp hmem), h₁.nodup⟩
        · rw [switchesTold_snoc]
          show d ∈ dp.id :: _ ↔ d ∈ s₁.dps.insert dp.id dp
          rw [List.mem_cons, AList.mem_insert, h₁.told d]

theorem wp_dead_dispatcher (hon : env.link_discovery = true) (h : Tables env s) (dp : RyuDatapath) :
    wp (dead_dispatcher env dp) s (fun _ => Tables env) fun _ _ => False := by
  unfold dead_dispatcher
  rw [wp_bind]
  refine wp_get_switch h.enrolled (fun _ => h) fun dp' state hdp' hstate => ?_
  show wp (if dp'.conn = dp.conn then _ else _) s _ _
  rw [wp_ite]
  refine ⟨fun hconn => ?_, fun _ => h⟩
  have hmem : dp.id ∈ s.port_state := Dict.mem_iff_get.mpr ⟨state, hstate⟩
  simp only [_unregister, wp_bind, wp_get, hdp', hconn, if_true, wp_modify, wp_delItem, send_event_to_observers, hon]
  refine ⟨fun _ => ?_, fun hno => hno hmem⟩
  have hnum := fun n p => h.enrolled.numbered dp.id state n p hstate
  have hbase : Since env (Listed s.port_state)
      { s with dps := s.dps.erase dp.id, port_state := s.port_state.erase dp.id, events := s.events ++
          [.SwitchLeave dp.id ((switchPorts env dp.id state).map RyuPort.key)] }
      { s with dps := s.dps.erase dp.id, port_state := s.port_state.erase dp.id, events := s.events ++
          [.SwitchLeave dp.id ((switchPorts env dp.id state).map RyuPort.key)] } := ⟨rfl, rfl, rfl, rfl, h.table, h.sent⟩
  refine wp_mono (wp_removePorts hbase (nodup_switchPorts hnum) fun p hp => ?_) (fun _ s₁ h₁ => ?_) fun _ _ h => h
  · refine ⟨notReserved_of_mem hp, ?_⟩
    obtain ⟨hd, hn, hmax⟩ := (mem_keys_switchPorts hnum).mp (List.mem_map_of_mem hp)
    exact (listed_of_get (hd ▸ hstate)).mpr ⟨hn, hmax⟩
  · refine h₁.tables ((h.enrolled.unregister dp.id).events _) (fun k => ?_) ?_ fun d => ?_
    · rw [listed_erase, mem_keys_switchPorts hnum]
      by_cases hd : k.dpid = dp.id
      · rw [listed_of_get (hd ▸ hstate)]
        tauto
      · simp [hd]
    · rw [switchesTold_snoc]
      exact h.nodup.erase dp.id
    · rw [switchesTold_snoc]
      show d ∈ (switchesTold s.events).erase dp.id ↔ d ∈ s.dps.erase dp.id
      rw [h.nodup.mem_erase_iff, AList.mem_erase, h.told d]

theorem wp_withPort (hon : env.link_discovery = true) (h : Enrolled s) {d n : Nat} {body : RyuPort → Stmt Unit}
    {Q : Unit → Switches → Prop} {E : Exn → Switches → Prop} (hnone : ¬ Listed s.port_state ⟨d, n⟩ → Q () s)
    (hsome : ∀ p state, s.port_state.get d = some state → state.get n = some p.ofpport → p.key = ⟨d, n⟩ →
      Listed s.port_state ⟨d, n⟩ → wp (body p) s Q E) : wp (withPort env d n body) s Q E := by
  unfold withPort
  rw [if_pos hon, wp_bind]
  refine wp_get_port h hnone fun p state hstate hp hkey hlisted => ?_
  have hres : p.is_reserved = false := by
    obtain ⟨_, _, _, hmax⟩ := hlisted
    have hno : p.ofpport.port_no = n := congrArg LinkEnd.port_no hkey
    unfold RyuPort.is_reserved
    rw [hno]
    simpa using hmax
  show wp (if p.is_reserved = true then pure () else body p) s Q E
  rw [hres, if_neg Bool.false_ne_true]
  exact hsome p state hstate hp hkey hlisted

theorem get_stored {port_state : Dict Nat (Dict Nat OFPPort)} {d : Nat} {state state' : Dict Nat OFPPort} {p p' : OFPPort}
    (hstate : Dict.get (port_state.insert d (state.insert p.port_no p)) d = some state') (hp : state'.get p.port_no = some p') :
    p' = p := by
  rw [Dict.get_insert, if_pos rfl] at hstate
  cases hstate
  rw [Dict.get_insert, if_pos rfl] at hp
  cases hp
  rfl

theorem wp_port_add (hon : env.link_discovery = true) (hconv : Converts env) (h : Tables env s) {d : Nat} {p : OFPPort}
    (hp : Reports env s (.PortStatus d p .ADD)) : wp (port_status_handler env d p .ADD) s (fun _ => Tables env) fun _ _ => False := by
  obtain ⟨haddr, state, hstate, hnew⟩ := hp
  have hmem : d ∈ s.dps := (h.enrolled.dps d).mpr (Dict.mem_iff_get.mpr ⟨state, hstate⟩)
  have hnum : ∀ n q, Dict.get (state.insert p.port_no p) n = some q → q.port_no = n := by
    intro n q hq
    rcases Dict.get_insert_some.mp hq with ⟨rfl, rfl⟩ | ⟨-, hq⟩
    · rfl
    · exact h.enrolled.numbered d state n q hstate hq
  have hnot : ¬ Listed s.port_state ⟨d, p.port_no⟩ := fun hlisted => hnew ((listed_of_get hstate).mp hlisted).1
  unfold port_status_handler setPort
  simp only [wp_bind, wp_get, wp_item_some hstate, wp_modify, send_event_to_observers]
  have henrolled := (h.enrolled.setState hstate hnum).events (s.events ++ [.PortAdd ⟨d, p.port_no⟩])
  have htold := switchesTold_snoc s.events (.PortAdd ⟨d, p.port_no⟩)
  have hlisted : ∀ k, Listed (s.port_state.insert d (state.insert p.port_no p)) k ↔
      k = ⟨d, p.port_no⟩ ∧ p.port_no ≤ OFPP_MAX ∨ Listed s.port_state k := by
    intro k
    obtain ⟨kd, kn⟩ := k
    rw [listed_insert, LinkEnd.mk.injEq, AList.mem_insert]
    by_cases hd : kd = d
    · subst hd
      rw [listed_of_get hstate]
      by_cases hn : kn = p.port_no <;> simp [hn]
    · simp [hd]
  refine wp_withPort hon henrolled (fun hno => ?_) fun q state' hstate' hq hkey hyes => ?_
  · refine Since.tables ⟨rfl, rfl, rfl, rfl, h.table, h.sent⟩ henrolled (fun k => ?_) (htold ▸ h.nodup) fun d => htold ▸ h.told d
    have hmax : ¬ p.port_no ≤ OFPP_MAX := fun hmax => hno ((hlisted _).mpr (Or.inl ⟨rfl, hmax⟩))
    simp [hlisted k, hmax]
  · have hq' : q.ofpport = p := get_stored hstate' hq
    have hqd : q.dpid = d := congrArg LinkEnd.dpid hkey
    have hmax : p.port_no ≤ OFPP_MAX := by
      obtain ⟨_, _, _, hmax⟩ := hyes
      exact hmax
    have hbase : Since env (Listed s.port_state) { s with
          port_state := s.port_state.insert d (state.insert p.port_no p), events := s.events ++ [.PortAdd ⟨d, p.port_no⟩] }
        { s with port_state := s.port_state.insert d (state.insert p.port_no p), events := s.events ++ [.PortAdd ⟨d, p.port_no⟩] } :=
      ⟨rfl, rfl, rfl, rfl, h.table, h.sent⟩
    refine wp_mono (wp_port_added hbase (hkey ▸ hnot) ?_) (fun _ s₁ h₁ => ?_) fun _ _ h => h
    · exact hasFrame hconv (hqd ▸ h.enrolled.small d hmem) (hq' ▸ haddr)
    · refine h₁.tables henrolled (fun k => ?_) (htold ▸ h.nodup) fun d => htold ▸ h.told d
      rw [hkey, hlisted k]
      simp [hmax]

theorem wp_port_modify (hon : env.link_discovery = true) (h : Tables env s) {d : Nat} {p : OFPPort}
    (hp : Reports env s (.PortStatus d p .MODIFY)) :
    wp (port_status_handler env d p .MODIFY) s (fun _ => Tables env) fun _ _ => False := by
  obtain ⟨state, hstate, hold⟩ := hp
  have hnum : ∀ n q, Dict.get (state.insert p.port_no p) n = some q → q.port_no = n := by
    intro n q hq
    rcases Dict.get_insert_some.mp hq with ⟨rfl, rfl⟩ | ⟨-, hq⟩
    · rfl
    · exact h.enrolled.numbered d state n q hstate hq
  have hlisted : ∀ k, Listed s.port_state k ↔ Listed (s.port_state.insert d (state.insert p.port_no p)) k := by
    intro k
    obtain ⟨kd, kn⟩ := k
    rw [listed_insert, Dict.mem_insert_of_mem hold]
    by_cases hd : kd = d
    · subst hd
      rw [listed_of_get hstate]
      simp
    · simp [hd]
  unfold port_status_handler setPort
  simp only [wp_bind, wp_get, wp_item_some hstate, wp_modify, send_event_to_observers]
  have henrolled := (h.enrolled.setState hstate hnum).events (s.events ++ [.PortModify ⟨d, p.port_no⟩])
  have htold := switchesTold_snoc s.events (.PortModify ⟨d, p.port_no⟩)
  have hend : ∀ s₁, Since env (Listed s.port_state) { s with
      port_state := s.port_state.insert d (state.insert p.port_no p), events := s.events ++ [.PortModify ⟨d, p.port_no⟩] } s₁ →
      Tables env s₁ := fun s₁ h₁ => h₁.tables henrolled hlisted (htold ▸ h.nodup) fun d => htold ▸ h.told d
  refine wp_withPort hon henrolled (fun _ => hend _ ⟨rfl, rfl, rfl, rfl, h.table, h.sent⟩) fun q state' hstate' hq hkey hyes => ?_
  rw [wp_bind]
  refine wp_mono (wp_set_down h.table (hkey ▸ (hlisted _).mpr hyes)) (fun down s₁ hs => ?_) fun _ _ h => h
  rw [wp_ite]
  refine ⟨fun _ => ?_, fun _ => hend s₁ (hs.2.since h.table h.sent)⟩
  exact wp_mono (wp_link_down (hs.2.since h.table h.sent) q.key) (fun _ s₂ h₂ => hend s₂ h₂) fun _ _ h => h

theorem wp_port_delete (hon : env.link_discovery = true) (h : Tables env s) {d : Nat} {p : OFPPort}
    (hp : Reports env s (.PortStatus d p .DELETE)) :
    wp (port_status_handler env d p .DELETE) s (fun _ => Tables env) fun _ _ => False := by
  obtain ⟨state, hstate, hold⟩ := hp
  have hnum : ∀ n q, Dict.get (state.erase p.port_no) n = some q → q.port_no = n :=
    fun n q hq => h.enrolled.numbered d state n q hstate (Dict.get_erase_some.mp hq).2
  unfold port_status_handler
  simp only [wp_bind, wp_modify, send_event_to_observers, hon, if_true]
  have htold := switchesTold_snoc s.events (.PortDelete ⟨d, p.port_no⟩)
  -- with the port gone from the table, its state goes too
  have hremove : ∀ s₁, Since env (fun k => k ≠ ⟨d, p.port_no⟩ ∧ Listed s.port_state k)
      { s with events := s.events ++ [.PortDelete ⟨d, p.port_no⟩] } s₁ →
      wp (removePort d p.port_no) s₁ (fun _ => Tables env) fun _ _ => False := by
    intro s₁ h₁
    have hstate₁ : s₁.port_state.get d = some state := h₁.port_state ▸ hstate
    unfold removePort
    simp only [wp_bind, wp_get, wp_item_some hstate₁, wp_delItem, wp_modify]
    refine ⟨fun _ => ?_, fun hno => hno hold⟩
    have hbase : Since env (fun k => k ≠ ⟨d, p.port_no⟩ ∧ Listed s.port_state k)
        { s with port_state := s.port_state.insert d (state.erase p.port_no), events := s.events ++ [.PortDelete ⟨d, p.port_no⟩] }
        { s₁ with port_state := s₁.port_state.insert d (state.erase p.port_no) } :=
      ⟨h₁.dps, by rw [h₁.port_state], h₁.time, h₁.told, h₁.table, h₁.sent⟩
    refine hbase.tables ((h.enrolled.setState hstate hnum).events _) (fun k => ?_) (htold ▸ h.nodup) fun d => htold ▸ h.told d
    obtain ⟨kd, kn⟩ := k
    rw [listed_insert, ne_eq, LinkEnd.mk.injEq, AList.mem_erase]
    by_cases hd : kd = d
    · subst hd
      rw [listed_of_get hstate]
      by_cases hn : kn = p.port_no <;> simp [hn]
    · simp [hd]
  refine wp_withPort hon (h.enrolled.events _) (fun hno => ?_) fun q state' hstate' hq hkey hyes => ?_
  · refine hremove _ ⟨rfl, rfl, rfl, rfl, h.table.congr fun k => ⟨fun hk => ⟨fun heq => hno (heq ▸ hk), hk⟩, And.right⟩, h.sent⟩
  · rw [wp_bind, hkey]
    have hbase : Since env (Listed s.port_state) { s with events := s.events ++ [.PortDelete ⟨d, p.port_no⟩] }
        { s with events := s.events ++ [.PortDelete ⟨d, p.port_no⟩] } := ⟨rfl, rfl, rfl, rfl, h.table, h.sent⟩
    refine wp_mono (wp_del_port hbase hyes) (fun _ s₁ h₁ => ?_) fun _ _ h => h
    exact wp_mono (wp_link_down h₁ _) (fun _ s₂ h₂ => hremove s₂ h₂) fun _ _ h => h

theorem Tables.elapse (h : Tables env s) (time : Nat) : Tables env { s with time := s.time + time } :=
  ⟨⟨h.enrolled.dps, h.enrolled.id, h.enrolled.small, h.enrolled.numbered⟩, h.table.later (Nat.le_add_right ..), h.nodup, h.told, h.sent⟩

theorem tables_handle (hon : env.link_discovery = true) (hconv : Converts env) (h : Tables env s) {i : Input} (hi : Reports env s i) :
    wp (handle env i) s (fun _ => Tables env) fun _ => Tables env := by
  have hsteady : ∀ {x : Stmt Unit}, Moves (Steady env) x → wp x s (fun _ => Tables env) fun _ => Tables env :=
    fun hx => wp_mono (hx s) (fun _ _ hs => h.steady hs) fun _ _ hs => h.steady hs
  have hraise : ∀ {x : Stmt Unit}, wp x s (fun _ => Tables env) (fun _ _ => False) →
      wp x s (fun _ => Tables env) fun _ => Tables env := fun hx => wp_mono hx (fun _ _ h => h) fun _ _ h => h.elim
  cases i with
  | Main dp => exact hraise (wp_main_dispatcher hon hconv h hi)
  | Dead dp =>
    cases dp with
    | none => exact h
    | some dp => exact hraise (wp_dead_dispatcher hon h dp)
  | PortStatus d p reason =>
    cases reason with
    | ADD => exact hraise (wp_port_add hon hconv h hi)
    | DELETE => exact hraise (wp_port_delete hon h hi)
    | MODIFY => exact hraise (wp_port_modify hon h hi)
  | LldpPacketIn msg => exact hsteady (moves_lldp_packet_in_handler msg)
  | HostPacketIn msg => exact hsteady (moves_host_discovery msg)
  | SendLldp port => exact hsteady (moves_send_lldp_packet port)
  | LinkRound => exact hsteady moves_link_loop
  | Elapse time => exact h.elapse time

theorem tables_step (hon : env.link_discovery = true) (hconv : Converts env) (h : Tables env s) {i : Input} (hi : Reports env s i) :
    Tables env (step env s i) := by
  have hstep := tables_handle hon hconv h hi
  unfold wp at hstep
  unfold step
  cases hx : handle env i s with
  | ok u s' =>
    rw [hx] at hstep
    exact hstep
  | error e s' =>
    rw [hx] at hstep
    exact hstep

theorem tables_run (hon : env.link_discovery = true) (hconv : Converts env) {is : List Input}
    (h : Runs.Allowed (step env) (Reports env) {} is) : Tables env (is.foldl (step env) {}) :=
  Runs.Allowed.invariant (Tables env) (fun _ _ hs hi => tables_step hon hconv hs hi) tables_init h

def sampleStations : List (Bytes × Bytes) :=
  [(Lldp.LLDP_MAC_NEAREST_BRIDGE, [0x01, 0x80, 0xc2, 0x00, 0x00, 0x0e]),
    (asciiText "02:00:00:00:01:01", [0x02, 0x00, 0x00, 0x00, 0x01, 0x01]),
    (asciiText "02:00:00:00:01:02", [0x02, 0x00, 0x00, 0x00, 0x01, 0x02]),
    (asciiText "02:00:00:00:02:01", [0x02, 0x00, 0x00, 0x00, 0x02, 0x01]),
    (asciiText "00:00:00:00:00:01", [0x00, 0x00, 0x00, 0x00, 0x00, 0x01])]

def sampleEnv : RyuEnv where
  conv :=
    { text_to_bin := fun text => ((sampleStations.find? fun x => x.1 = text).map Prod.snd).elim (.error .ValueError) .ok
      bin_to_text := fun addr => ((sampleStations.find? fun x => x.2 = addr).map Prod.fst).getD []
      packet_types := fun _ => none }
  order := .byEntries
  link_discovery := true
  install_flow := true
  explicit_drop := true
  arp_src_ip _ := .error .StructError
  ipv4_src _ := .error .StructError
  ipv6_src _ := .error .StructError

def samplePort (n : Nat) (text : String) : OFPPort := ⟨n, asciiText text, 0, 0⟩

def sampleSwitch (d : Nat) (ports : List OFPPort) : RyuDatapath := ⟨d, d, ports.foldl (fun dict p => dict.insert p.port_no p) ∅⟩

/-- Switch 1 has a wire at port 1 and a host at port 2. -/
def sampleOne : List OFPPort := [samplePort 1 "02:00:00:00:01:01", samplePort 2 "02:00:00:00:01:02"]

def sampleTwo : List OFPPort := [samplePort 1 "02:00:00:00:02:01"]

def sampleFrame (d : Nat) (p : OFPPort) : Bytes :=
  match Lldp.lldp_packet sampleEnv.conv d p.port_no p.hw_addr DEFAULT_TTL with
  | .ok frame => frame
  | .error _ => []

/-- The switches connect, and the wire is seen both ways. -/
def sampleRun : List Input :=
  [.Main (sampleSwitch 1 sampleOne), .Main (sampleSwitch 2 sampleTwo), .SendLldp ⟨1, 1⟩,
    .LldpPacketIn ⟨2, 1, OFP_NO_BUFFER, sampleFrame 1 (samplePort 1 "02:00:00:00:01:01")⟩, .SendLldp ⟨2, 1⟩,
    .LldpPacketIn ⟨1, 1, OFP_NO_BUFFER, sampleFrame 2 (samplePort 1 "02:00:00:00:02:01")⟩]

theorem sampleEnv_converts : Converts sampleEnv := by
  refine ⟨⟨[0x01, 0x80, 0xc2, 0x00, 0x00, 0x0e], by decide +kernel⟩, fun text bs h => ?_⟩
  have hsix : ∀ x ∈ sampleStations, x.2.length = 6 := by decide +kernel
  have h' : ((sampleStations.find? fun x => x.1 = text).map Prod.snd).elim (.error Exn.ValueError) .ok = Except.ok bs := h
  cases hx : sampleStations.find? fun x => x.1 = text with
  | none =>
    rw [hx] at h'
    cases h'
  | some x =>
    rw [hx] at h'
    cases h'
    exact hsix x (List.mem_of_find?_eq_some hx)

theorem sampleSwitch_reports {d : Nat} (hd : d < 2 ^ 64) {ports : List OFPPort} (h : ∀ p ∈ ports, Addressed sampleEnv p) :
    Reports sampleEnv s (.Main (sampleSwitch d ports)) := by
  have hfold : ∀ (ps : List OFPPort) (dict : Dict Nat OFPPort), (∀ p ∈ ps, Addressed sampleEnv p) →
      (∀ n p, dict.get n = some p → p.port_no = n ∧ Addressed sampleEnv p) →
      ∀ n p, Dict.get (ps.foldl (fun dict p => dict.insert p.port_no p) dict) n = some p → p.port_no = n ∧ Addressed sampleEnv p := by
    intro ps
    induction ps with
    | nil => exact fun _ _ h => h
    | cons p ps ih =>
      intro dict hps hdict
      refine ih _ (fun q hq => hps q (List.mem_cons_of_mem p hq)) fun n q hq => ?_
      rcases Dict.get_insert_some.mp hq with ⟨rfl, rfl⟩ | ⟨-, hq⟩
      · exact ⟨rfl, hps _ (List.mem_cons_self ..)⟩
      · exact hdict n q hq
  exact ⟨hd, hfold ports ∅ h fun n p hp => by cases hp⟩

theorem sampleOne_addressed : ∀ p ∈ sampleOne, Addressed sampleEnv p := by
  intro p hp
  rcases List.mem_cons.mp hp with rfl | hp
  · exact ⟨by decide, [0x02, 0x00, 0x00, 0x00, 0x01, 0x01], by decide +kernel⟩
  · cases List.mem_singleton.mp hp
    exact ⟨by decide, [0x02, 0x00, 0x00, 0x00, 0x01, 0x02], by decide +kernel⟩

theorem sampleTwo_addressed : ∀ p ∈ sampleTwo, Addressed sampleEnv p := by
  intro p hp
  cases List.mem_singleton.mp hp
  exact ⟨by decide, [0x02, 0x00, 0x00, 0x00, 0x02, 0x01], by decide +kernel⟩

theorem sampleRun_reports : Runs.Allowed (step sampleEnv) (Reports sampleEnv) {} sampleRun :=
  ⟨sampleSwitch_reports (by decide) sampleOne_addressed, sampleSwitch_reports (by decide) sampleTwo_addressed, trivial, trivial, trivial,
    trivial, trivial⟩

section
variable {now : Nat} {dict : Dict LinkEnd PortData}

theorem mem_first {k : LinkEnd} : ∀ {items : List (LinkEnd × PortData)}, k ∈ (due now items).1 →
    ∃ data, (k, data) ∈ items ∧ data.timestamp = none := by
  intro items
  induction items with
  | nil => exact fun h => absurd h List.not_mem_nil
  | cons x items ih =>
    obtain ⟨key, data⟩ := x
    intro h
    unfold due at h
    cases ht : data.timestamp with
    | none =>
      simp only [ht] at h
      rcases List.mem_cons.mp h with rfl | h
      · exact ⟨data, List.mem_cons_self .., ht⟩
      · obtain ⟨data', hmem, hnone⟩ := ih h
        exact ⟨data', List.mem_cons_of_mem _ hmem, hnone⟩
    | some t =>
      simp only [ht] at h
      split at h
      · obtain ⟨data', hmem, hnone⟩ := ih h
        exact ⟨data', List.mem_cons_of_mem _ hmem, hnone⟩
      · exact absurd h List.not_mem_nil

theorem mem_later {k : LinkEnd} : ∀ {items : List (LinkEnd × PortData)}, k ∈ (due now items).2.1 →
    ∃ data t, (k, data) ∈ items ∧ data.timestamp = some t ∧ t + LLDP_SEND_PERIOD_PER_PORT ≤ now := by
  intro items
  induction items with
  | nil => exact fun h => absurd h List.not_mem_nil
  | cons x items ih =>
    obtain ⟨key, data⟩ := x
    intro h
    have hrest : k ∈ (due now items).2.1 → ∃ data' t, (k, data') ∈ (key, data) :: items ∧ data'.timestamp = some t ∧
        t + LLDP_SEND_PERIOD_PER_PORT ≤ now := by
      intro h
      obtain ⟨data', t, hmem, ht⟩ := ih h
      exact ⟨data', t, List.mem_cons_of_mem _ hmem, ht⟩
    unfold due at h
    cases ht : data.timestamp with
    | none =>
      simp only [ht] at h
      exact hrest h
    | some t =>
      simp only [ht] at h
      split at h
      · rename_i hle
        rcases List.mem_cons.mp h with rfl | h
        · exact ⟨data, t, List.mem_cons_self .., ht, hle⟩
        · exact hrest h
      · exact absurd h List.not_mem_nil

/-- What a round does about a port. -/
structure Served (now : Nat) (round : List LinkEnd × List LinkEnd × Option Nat) (k : LinkEnd) (data : PortData) : Prop where
  first : data.timestamp = none → data.is_down = false → k ∈ round.1
  later : ∀ t, data.timestamp = some t → t + LLDP_SEND_PERIOD_PER_PORT ≤ now → k ∈ round.2.1
  wait : ∀ t, data.timestamp = some t → now < t + LLDP_SEND_PERIOD_PER_PORT →
    ∃ timeout, round.2.2 = some timeout ∧ now + timeout ≤ t + LLDP_SEND_PERIOD_PER_PORT

theorem served_of_turns : ∀ {items : List (LinkEnd × PortData)}, (items.map Prod.fst).Pairwise (InTurn dict) →
    (∀ x ∈ items, dict.get x.1 = some x.2) → ∀ x ∈ items, Served now (due now items) x.1 x.2 := by
  intro items
  induction items with
  | nil => exact fun _ _ x hx => absurd hx List.not_mem_nil
  | cons y items ih =>
    obtain ⟨key, data⟩ := y
    intro hturns hget x hx
    obtain ⟨hhead, hrest⟩ := List.pairwise_cons.mp hturns
    have ih := ih hrest fun x hx => hget x (List.mem_cons_of_mem _ hx)
    have hkey : dict.get key = some data := hget (key, data) (List.mem_cons_self ..)
    unfold due
    cases ht : data.timestamp with
    | none =>
      rcases List.mem_cons.mp hx with rfl | hx
      · refine ⟨fun _ _ => List.mem_cons_self .., fun t h => ?_, fun t h => ?_⟩
        · rw [ht] at h
          cases h
        · rw [ht] at h
          cases h
      · exact ⟨fun h h' => List.mem_cons_of_mem _ ((ih x hx).first h h'), (ih x hx).later, (ih x hx).wait⟩
    | some t =>
      by_cases hle : t + LLDP_SEND_PERIOD_PER_PORT ≤ now
      · simp only [if_pos hle]
        rcases List.mem_cons.mp hx with rfl | hx
        · refine ⟨fun h => ?_, fun _ _ _ => List.mem_cons_self .., fun t' h h' => ?_⟩
          · rw [ht] at h
            cases h
          · rw [ht] at h
            cases h
            omega
        · exact ⟨(ih x hx).first, fun t h h' => List.mem_cons_of_mem _ ((ih x hx).later t h h'), (ih x hx).wait⟩
      · simp only [if_neg hle]
        rcases List.mem_cons.mp hx with rfl | hx
        · refine ⟨fun h => ?_, fun t' h h' => ?_, fun t' h h' => ⟨_, rfl, ?_⟩⟩
          · rw [ht] at h
            cases h
          · rw [ht] at h
            cases h
            exact absurd h' hle
          · rw [ht] at h
            cases h
            omega
        · -- the list stands by the times
          have hin := hhead x.1 (List.mem_map_of_mem hx) data x.2 t hkey (hget x (List.mem_cons_of_mem _ hx)) ht
          refine ⟨fun h h' => ?_, fun t' h h' => ?_, fun t' h h' => ⟨_, rfl, ?_⟩⟩
          · rw [hin.1 h] at h'
            cases h'
          · have := hin.2 t' h
            omega
          · have := hin.2 t' h
            omega

end

end Switches

end VnfDockerNet
