import VnfDockerNet.BranchSound
import VnfDockerNet.PlaceSound

/-!
# How often a packet is let go

A packet that waits at its switch or in the controller is let go by a rule that
carries its buffer id or by a packet-out that carries its data. Whether a
handler does so once depends on the path, and on the buffer id: `add_flow` takes
the id 0 for no buffer.
-/

namespace VnfDockerNet

open Python Networkx Runs

namespace Layer2Switch

variable {env : LocalEnv} {s s' : Layer2Switch env.nx.Graph} {mac : Bytes}

/-! ## The answer of the central controller -/

section
variable {xid in_dpid out_dpid region_out_port : Nat} {path : List Node}

/-- The packet that waits for the answer `xid` is let go once; if none waits, no
packet is sent. -/
def ReleasedOnce {Γ : Type} (s : Layer2Switch Γ) (xid in_dpid : Nat) (out : List (Nat × SwitchMsg)) : Prop :=
  if xid ∈ s.xid_to_packet then
    if (pendingOf s xid).2 = OFP_NO_BUFFER then
      ∃ d in_port actions, releasesIn out = [(d, .PacketOut OFP_NO_BUFFER in_port actions (pendingOf s xid).1)]
    else ∃ priority rule actions, releasesIn out = [(in_dpid, .FlowMod (pendingOf s xid).2 priority rule actions)]
  else ∀ x ∈ out, SwitchMsg.isPacketOut x.2 = false

/-- The path leads over connected switches to another one, and the packet-out for
its end can be packed. -/
def LeadsOut (s : Layer2Switch env.nx.Graph) (in_dpid out_dpid : Nat) : Prop :=
  in_dpid ≠ out_dpid ∧ in_dpid < 2 ^ 32 ∧ ∃ path, env.nx.shortest_path s.net (.dpid in_dpid) (.dpid out_dpid) = .ok path ∧ Connects s path

/-- A packet in the controller waits for a path to another switch, one in a buffer
for a path and an id that is not 0; without a packet no such path is there. -/
def Releasable (s : Layer2Switch env.nx.Graph) (xid in_dpid out_dpid : Nat) : Prop :=
  if xid ∈ s.xid_to_packet then
    if (pendingOf s xid).2 = OFP_NO_BUFFER then LeadsOut s in_dpid out_dpid
    else (pendingOf s xid).2 ≠ 0 ∧ ∃ path, env.nx.shortest_path s.net (.dpid in_dpid) (.dpid out_dpid) = .ok path
  else ¬ LeadsOut s in_dpid out_dpid

theorem pendingOf_of_not_mem {Γ : Type} {s : Layer2Switch Γ} (h : xid ∉ s.xid_to_packet) :
    pendingOf s xid = (none, OFP_NO_BUFFER) := by
  unfold pendingOf
  rw [Dict.get_eq_none.mpr h]

theorem bufferRelease_zero (mac : Bytes) (in_dpid port : Nat) : bufferRelease mac in_dpid 0 port = [] := if_pos rfl

theorem bufferRelease_of_ne {buffer_id : Nat} (h : buffer_id ≠ 0) (mac : Bytes) (in_dpid port : Nat) :
    bufferRelease mac in_dpid buffer_id port = [ruleMsg mac in_dpid buffer_id port] := if_neg h

theorem no_packetOut_of_releasesIn {out : List (Nat × SwitchMsg)} (h : releasesIn out = []) :
    ∀ x ∈ out, SwitchMsg.isPacketOut x.2 = false := by
  intro x hx
  have hnot := List.filter_eq_nil_iff.mp h x hx
  rw [Bool.or_eq_true, not_or] at hnot
  exact Bool.eq_false_iff.mpr hnot.1

theorem mem_of_mem_releasesIn {out : List (Nat × SwitchMsg)} {x : Nat × SwitchMsg} (h : x ∈ releasesIn out) : x ∈ out :=
  List.mem_of_mem_filter h

def pathRelease (mac : Bytes) (in_dpid out_dpid region_out_port port : Nat) (s : Layer2Switch env.nx.Graph)
    (path : List Node) (xid : Nat) : List (Nat × SwitchMsg) :=
  if Connects s path then releaseOf mac in_dpid out_dpid region_out_port port (pendingOf s xid)
  else brokenRelease mac in_dpid port (pendingOf s xid)

theorem wp_flow_mod_releases (h : Ready s) (xid : Nat) (hwin : out_dpid ∈ s.dpid_to_is_win) (hin : in_dpid ∈ s.datapaths)
    (hpath : env.nx.shortest_path s.net (.dpid in_dpid) (.dpid out_dpid) = .ok path) :
    wp (cc_flow_mod_handler env xid in_dpid out_dpid region_out_port mac) s
      (fun _ s' => ∃ port, releasesIn (sentOut s s') = pathRelease mac in_dpid out_dpid region_out_port port s path xid)
      fun _ s' => ∃ port, releasesIn (sentOut s s') = pathRelease mac in_dpid out_dpid region_out_port port s path xid := by
  unfold pathRelease
  refine wp_mono (wp_flow_mod_sends h xid hwin hin hpath) (fun _ s' hs' => ?_) fun _ s' hs' => ?_
  · obtain ⟨hconn, port, out, rules, hout, hrel, _⟩ := hs'
    refine ⟨port, ?_⟩
    rw [if_pos hconn, sentOut_append hout, hrel]
  · rcases hs' with ⟨hconn, port, out, hout, hrel⟩ | ⟨hconn, _, port, out, rules, hout, hrel, _⟩
    · refine ⟨port, ?_⟩
      rw [if_neg hconn, sentOut_append hout, hrel]
    · refine ⟨port, ?_⟩
      rw [if_pos hconn, sentOut_append hout, hrel]

theorem wp_flow_mod_unreached (h : Ready s) (xid : Nat) (hwin : out_dpid ∈ s.dpid_to_is_win) (hin : in_dpid ∈ s.datapaths)
    {e : Exn} (hpath : env.nx.shortest_path s.net (.dpid in_dpid) (.dpid out_dpid) = .error e) :
    wp (cc_flow_mod_handler env xid in_dpid out_dpid region_out_port mac) s (fun _ s' => sentOut s s' = [])
      fun _ s' => sentOut s s' = [] := by
  obtain ⟨in_dp, hget⟩ := Dict.mem_iff_get.mp hin
  refine wp_flow_mod_taken h xid hwin hget (fun _ _ _ _ _ hfound => nomatch hpath.symm.trans hfound) fun s₁ _ hidle _ _ => ?_
  have hnone : sentOut s s₁ = [] := sentOut_append (by rw [hidle.switch_out, List.append_nil])
  exact ⟨hnone, hnone⟩

theorem wp_flow_mod_takes (h : Ready s) (xid : Nat) (hwin : out_dpid ∈ s.dpid_to_is_win) (hin : in_dpid ∈ s.datapaths) :
    wp (cc_flow_mod_handler env xid in_dpid out_dpid region_out_port mac) s (fun _ s' => xid ∉ s'.xid_to_packet)
      fun _ s' => xid ∉ s'.xid_to_packet := by
  have hsend : ∀ (s : Layer2Switch env.nx.Graph) x, Keeps (fun s => xid ∉ s.xid_to_packet) s
      { s with switch_out := s.switch_out ++ [x] } := fun _ _ h => h
  obtain ⟨in_dp, hget⟩ := Dict.mem_iff_get.mp hin
  refine wp_flow_mod_taken h xid hwin hget (fun s₁ path _ _ hgone _ => ?_) fun s₁ _ _ hgone _ => ⟨hgone, hgone⟩
  rw [wp_ite]
  exact ⟨fun _ => (moves_installBuffered hsend _ _ _ _ _ _).kept hgone,
    fun _ => (moves_installUnbuffered hsend _ _ _ _ _ _).kept hgone⟩

/-! ### When it is let go once -/

theorem pathRelease_buffered {port : Nat} (hbuf : (pendingOf s xid).2 ≠ OFP_NO_BUFFER) :
    pathRelease mac in_dpid out_dpid region_out_port port s path xid =
      bufferRelease mac in_dpid (pendingOf s xid).2 port := by
  unfold pathRelease releaseOf brokenRelease
  rw [if_pos hbuf, if_pos hbuf, ite_self]

theorem pathRelease_unbuffered {port : Nat} (hbuf : (pendingOf s xid).2 = OFP_NO_BUFFER)
    (hpath : env.nx.shortest_path s.net (.dpid in_dpid) (.dpid out_dpid) = .ok path) :
    (LeadsOut s in_dpid out_dpid → pathRelease mac in_dpid out_dpid region_out_port port s path xid =
      [(out_dpid, .PacketOut OFP_NO_BUFFER in_dpid [{ port := region_out_port }] (pendingOf s xid).1)]) ∧
    (¬ LeadsOut s in_dpid out_dpid → pathRelease mac in_dpid out_dpid region_out_port port s path xid = []) := by
  unfold pathRelease releaseOf brokenRelease exitRelease
  rw [if_neg (not_not.mpr hbuf), if_neg (not_not.mpr hbuf)]
  constructor
  · intro hlead
    obtain ⟨hne, hsmall, path', hpath', hconn⟩ := hlead
    rw [hpath] at hpath'
    cases hpath'
    rw [if_pos hconn, if_neg (not_or.mpr ⟨hne, Nat.not_le.mpr hsmall⟩)]
  · intro hlead
    by_cases hconn : Connects s path
    · have hstays : in_dpid = out_dpid ∨ 2 ^ 32 ≤ in_dpid := by
        by_contra hboth
        obtain ⟨hne, hsmall⟩ := not_or.mp hboth
        exact hlead ⟨hne, Nat.not_le.mp hsmall, path, hpath, hconn⟩
      rw [if_pos hconn, if_pos hstays]
    · rw [if_neg hconn]

theorem releasedOnce_nil {out : List (Nat × SwitchMsg)} (h : releasesIn out = []) :
    ReleasedOnce s xid in_dpid out ↔ xid ∉ s.xid_to_packet := by
  unfold ReleasedOnce
  by_cases hxid : xid ∈ s.xid_to_packet
  · simp [hxid, h]
  · simp only [hxid, not_false_eq_true, iff_true]
    exact no_packetOut_of_releasesIn h

theorem releasable_unreached {e : Exn} (hpath : env.nx.shortest_path s.net (.dpid in_dpid) (.dpid out_dpid) = .error e) :
    Releasable s xid in_dpid out_dpid ↔ xid ∉ s.xid_to_packet := by
  unfold Releasable LeadsOut
  simp [hpath]

theorem releasedOnce_iff {out : List (Nat × SwitchMsg)} {port : Nat}
    (hpath : env.nx.shortest_path s.net (.dpid in_dpid) (.dpid out_dpid) = .ok path)
    (hrel : releasesIn out = pathRelease mac in_dpid out_dpid region_out_port port s path xid) :
    ReleasedOnce s xid in_dpid out ↔ Releasable s xid in_dpid out_dpid := by
  by_cases hbuf : (pendingOf s xid).2 = OFP_NO_BUFFER
  · obtain ⟨hleads, hstays⟩ := pathRelease_unbuffered hbuf hpath
    unfold Releasable
    rw [if_pos hbuf]
    by_cases hlead : LeadsOut s in_dpid out_dpid
    · rw [hleads hlead] at hrel
      unfold ReleasedOnce
      by_cases hxid : xid ∈ s.xid_to_packet
      · rw [if_pos hxid, if_pos hxid, if_pos hbuf]
        exact iff_of_true ⟨_, _, _, hrel⟩ hlead
      · rw [if_neg hxid, if_neg hxid]
        refine iff_of_false (fun hnone => ?_) (not_not.mpr hlead)
        have hout := hnone _ (mem_of_mem_releasesIn (hrel ▸ List.mem_singleton_self _))
        cases hout
    · rw [hstays hlead] at hrel
      rw [releasedOnce_nil hrel]
      by_cases hxid : xid ∈ s.xid_to_packet
      · rw [if_pos hxid]
        exact iff_of_false (not_not.mpr hxid) hlead
      · rw [if_neg hxid]
        exact iff_of_true hxid hlead
  · have hxid : xid ∈ s.xid_to_packet := by
      by_contra hxid
      rw [pendingOf_of_not_mem hxid] at hbuf
      exact hbuf rfl
    rw [pathRelease_buffered hbuf] at hrel
    unfold Releasable
    rw [if_pos hxid, if_neg hbuf]
    by_cases hzero : (pendingOf s xid).2 = 0
    · rw [hzero, bufferRelease_zero] at hrel
      rw [releasedOnce_nil hrel]
      exact iff_of_false (not_not.mpr hxid) fun h => h.1 hzero
    · rw [bufferRelease_of_ne hzero] at hrel
      unfold ReleasedOnce
      rw [if_pos hxid, if_neg hbuf]
      exact iff_of_true ⟨_, _, _, hrel⟩ ⟨hzero, path, hpath⟩

end

/-- **A flow mod lets the packet that waits for it go once exactly when** it waits
in a buffer with an id other than 0 and there is a path, or in the controller
and the path leads over connected switches from a number of 32 bits to another
one; and no packet is sent for a flow mod that none waits for exactly when no
such path is there. -/
theorem pending_released_once_iff (env : LocalEnv) (xid₀ : Nat) (es : List LocalEvent)
    (xid in_dpid out_dpid region_out_port : Nat) (dst_mac : Bytes)
    (hwin : out_dpid ∈ (es.foldl (step env) (init env xid₀)).dpid_to_is_win)
    (hin : in_dpid ∈ (es.foldl (step env) (init env xid₀)).datapaths) :
    wp (cc_flow_mod_handler env xid in_dpid out_dpid region_out_port dst_mac) (es.foldl (step env) (init env xid₀))
      (fun _ s' => xid ∉ s'.xid_to_packet) (fun _ s' => xid ∉ s'.xid_to_packet) ∧
    (wp (cc_flow_mod_handler env xid in_dpid out_dpid region_out_port dst_mac) (es.foldl (step env) (init env xid₀))
      (fun _ s' => ReleasedOnce (es.foldl (step env) (init env xid₀)) xid in_dpid
        (sentOut (es.foldl (step env) (init env xid₀)) s'))
      (fun _ s' => ReleasedOnce (es.foldl (step env) (init env xid₀)) xid in_dpid
        (sentOut (es.foldl (step env) (init env xid₀)) s')) ↔
      Releasable (es.foldl (step env) (init env xid₀)) xid in_dpid out_dpid) := by
  have hready : Ready (es.foldl (step env) (init env xid₀)) := ready_run xid₀ es
  refine ⟨wp_flow_mod_takes hready xid hwin hin, ?_⟩
  cases hpath : env.nx.shortest_path (es.foldl (step env) (init env xid₀)).net (.dpid in_dpid) (.dpid out_dpid) with
  | ok path =>
    refine wp_iff_of_all (wp_flow_mod_releases hready xid hwin hin hpath) fun s' hs' => ?_
    obtain ⟨port, hrel⟩ := hs'
    exact releasedOnce_iff hpath hrel
  | error e =>
    rw [releasable_unreached hpath]
    refine wp_iff_of_all (wp_flow_mod_unreached hready xid hwin hin hpath) fun s' hs' => ?_
    rw [hs']
    exact releasedOnce_nil rfl

theorem not_once_of_nothing {x : App env Unit} {xid in_dpid : Nat} (hxid : xid ∈ s.xid_to_packet)
    (hx : wp x s (fun _ s' => releasesIn (sentOut s s') = []) fun _ _ => False) :
    ¬ wp x s (fun _ s' => ReleasedOnce s xid in_dpid (sentOut s s')) fun _ s' => ReleasedOnce s xid in_dpid (sentOut s s') := by
  intro h
  obtain ⟨_, s', _, hrel, honce⟩ := ok_of_wp (wp_mono (wp_and hx h) (fun _ _ h => h) fun _ _ h => h.1)
  exact (releasedOnce_nil hrel).mp honce hxid

theorem not_once_of_packet {x : App env Unit} {xid in_dpid d p : Nat} {a : List OFPActionOutput} {b : Option Bytes}
    (hxid : xid ∉ s.xid_to_packet)
    (hx : wp x s (fun _ s' => (d, .PacketOut OFP_NO_BUFFER p a b) ∈ sentOut s s') fun _ _ => False) :
    ¬ wp x s (fun _ s' => ReleasedOnce s xid in_dpid (sentOut s s')) fun _ s' => ReleasedOnce s xid in_dpid (sentOut s s') := by
  intro h
  obtain ⟨_, s', _, hsent, honce⟩ := ok_of_wp (wp_mono (wp_and hx h) (fun _ _ h => h) fun _ _ h => h.1)
  unfold ReleasedOnce at honce
  rw [if_neg hxid] at honce
  have hout := honce _ hsent
  cases hout

/-- A packet for an unknown host comes in at the first of three switches. -/
def askingRun (buffer_id : Nat) : List LocalEvent :=
  lineRun ++ [LocalEvent.PacketIn 0 ⟨⟨1, "10.0.0.1"⟩, 3, buffer_id, [],
    { eth := some ⟨asciiText "00:00:00:00:00:01", asciiText "00:00:00:00:00:09", 0x0806⟩ }⟩]

def askedState (buffer_id : Nat) : Layer2Switch sampleLocalEnv.nx.Graph :=
  (askingRun buffer_id).foldl (step sampleLocalEnv) (init sampleLocalEnv 0)

def answer (xid : Nat) : App sampleLocalEnv Unit :=
  cc_flow_mod_handler sampleLocalEnv xid 1 3 7 (asciiText "00:00:00:00:00:09")

theorem pending_released_once_iff_whole : 6 ∈ (askedState OFP_NO_BUFFER).xid_to_packet ∧
    wp (answer 6) (askedState OFP_NO_BUFFER)
      (fun _ s' => ReleasedOnce (askedState OFP_NO_BUFFER) 6 1 (sentOut (askedState OFP_NO_BUFFER) s'))
      (fun _ s' => ReleasedOnce (askedState OFP_NO_BUFFER) 6 1 (sentOut (askedState OFP_NO_BUFFER) s')) := by
  have hpending : 6 ∈ (askedState OFP_NO_BUFFER).xid_to_packet := by decide +kernel
  have hleads : LeadsOut (askedState OFP_NO_BUFFER) 1 3 :=
    ⟨by decide, by decide, [.dpid 1, .dpid 2, .dpid 3], by decide +kernel, by decide +kernel⟩
  have hable : Releasable (askedState OFP_NO_BUFFER) 6 1 3 := by
    unfold Releasable
    rw [if_pos hpending, if_pos (by decide +kernel)]
    exact hleads
  refine ⟨hpending, ?_⟩
  have honce := (pending_released_once_iff sampleLocalEnv 0 (askingRun OFP_NO_BUFFER) 6 1 3 7
    (asciiText "00:00:00:00:00:09") (by decide +kernel) (by decide +kernel)).2
  unfold askedState at hable ⊢
  unfold answer
  rw [honce]
  exact hable

/-- A packet in buffer 0 is never let go, and a flow mod that no packet waits for
sends one without data. -/
theorem packet_lost_and_invented :
    ¬ wp (answer 6) (askedState 0) (fun _ s' => ReleasedOnce (askedState 0) 6 1 (sentOut (askedState 0) s'))
      (fun _ s' => ReleasedOnce (askedState 0) 6 1 (sentOut (askedState 0) s')) ∧
    ¬ wp (answer 6) lineState (fun _ s' => ReleasedOnce lineState 6 1 (sentOut lineState s'))
      (fun _ s' => ReleasedOnce lineState 6 1 (sentOut lineState s')) := by
  refine ⟨not_once_of_nothing (by decide +kernel) (by decide +kernel), ?_⟩
  exact not_once_of_packet (by decide +kernel) (d := 3) (p := 1) (a := [{ port := 7 }]) (b := none) (by decide +kernel)

/-! ## Packets for a host of the domain -/

section
variable {msg : PacketIn} {eth : Ethernet} {path : List Node}

/-- The ports are only read of a packet with an IPv4 header. -/
theorem rule_ok (pkt : Packet) (eth : Ethernet) : ∃ rule, pkt.rule eth = .ok rule := by
  unfold Packet.rule
  cases hnw : pkt.nw with
  | none =>
    have hzero : pkt.headers = ([0, 0, 0, 0], [0, 0, 0, 0], 0, 0) := by
      unfold Packet.headers
      rw [hnw]
    rw [hzero]
    exact ⟨_, rfl⟩
  | some nw =>
    obtain ⟨src_ip, dst_ip, src_port, dst_port⟩ := pkt.headers
    by_cases hports : src_port ≠ 0 ∧ dst_port ≠ 0
    · exact ⟨_, if_pos hports⟩
    · exact ⟨_, if_neg hports⟩

def hopOut (msg : PacketIn) (d : Nat) (rule : OFPMatch) (port : Nat) : List (Nat × SwitchMsg) :=
  [(d, .FlowMod OFP_NO_BUFFER 1 rule [{ port }]),
    (d, .PacketOut OFP_NO_BUFFER msg.in_port [{ port }] (some msg.data))]

/-- What is sent along a path, up to its last node or to one that is no connected switch. -/
def Follows (datapaths : Dict Nat OfDatapath) (msg : PacketIn) : List Node → List (Nat × SwitchMsg) → Prop
  | u :: v :: rest, out =>
    (∃ d rule port out', d ∈ datapaths ∧ u = .dpid d ∧ out = hopOut msg d rule port ++ out' ∧
      Follows datapaths msg (v :: rest) out') ∨
    (∀ d ∈ datapaths, u ≠ .dpid d) ∧ out = []
  | _, out => out = []

theorem wp_forwardPath_follows (hwhole : msg.buffer_id = OFP_NO_BUFFER) :
    ∀ (path : List Node) (s : Layer2Switch env.nx.Graph), Keyed s → PortsKnown s.net →
      path.IsChain (fun u v => (env.nx.edge s.net u v).isSome = true) →
      wp (forwardPath env msg eth path) s (fun _ s' => ∃ out, Sends s s' out ∧ Follows s.datapaths msg path out)
        fun _ s' => ∃ out, Sends s s' out ∧ Follows s.datapaths msg path out
  | [], s, _, _, _ => ⟨[], by unfold Sends; rw [List.append_nil], rfl⟩
  | [u], s, _, _, _ => ⟨[], by unfold Sends; rw [List.append_nil], rfl⟩
  | last_hop :: next_hop :: rest, s, hkeyed, hports, hchain => by
    obtain ⟨hedge, hrest⟩ := List.isChain_cons_cons.mp hchain
    obtain ⟨rule, hrule⟩ := rule_ok msg.pkt eth
    have hnone : Sends s s [] := by unfold Sends; rw [List.append_nil]
    unfold forwardPath
    cases last_hop with
    | mac m =>
      -- a host has no datapath, whether its edge has a port or not
      have hstop : ∃ out, Sends s s out ∧ Follows s.datapaths msg (.mac m :: next_hop :: rest) out := by
        refine ⟨[], hnone, Or.inr ⟨fun _ _ hd => ?_, rfl⟩⟩
        cases hd
      unfold edgePort nodeDatapath
      simp only [wp_bind, wp_get, wp_key, wp_orRaise, wp_throw]
      exact ⟨fun _ _ => ⟨fun _ _ => ⟨fun _ _ => hstop, fun _ _ => hstop⟩, fun _ => hstop⟩, fun _ => hstop⟩
    | dpid d =>
      obtain ⟨port, hport⟩ := hports.port hedge
      unfold nodeDatapath packetOut
      simp only [wp_bind, wp_edgePort_some hport, wp_orRaise_ok hrule, wp_get, wp_item, hwhole, ne_eq, not_true_eq_false,
        if_false, if_true, wp_add_flow, wp_send_switch]
      refine ⟨fun datapath hget => ?_, fun hget => ?_⟩
      · have hid : datapath.id = d := hkeyed d datapath hget
        have hmem : d ∈ s.datapaths := Dict.mem_iff_get.mpr ⟨datapath, hget⟩
        have hgoes : ∀ {s' : Layer2Switch env.nx.Graph} {out},
            Sends { s with switch_out := s.switch_out ++ hopOut msg d rule port } s' out →
            Follows s.datapaths msg (next_hop :: rest) out →
              ∃ out, Sends s s' out ∧ Follows s.datapaths msg (.dpid d :: next_hop :: rest) out := by
          intro s' out hsends hfollows
          have hhop : Sends s { s with switch_out := s.switch_out ++ hopOut msg d rule port } (hopOut msg d rule port) := rfl
          exact ⟨_, hhop.then hsends, Or.inl ⟨d, rule, port, out, hmem, rfl, rfl, hfollows⟩⟩
        have ih := wp_forwardPath_follows hwhole (next_hop :: rest)
          { s with switch_out := s.switch_out ++ hopOut msg d rule port } hkeyed hports hrest
        rw [hid, List.append_assoc]
        refine wp_mono ih (fun _ s' hs' => ?_) fun _ s' hs' => ?_
        · obtain ⟨out, hsends, hfollows⟩ := hs'
          exact hgoes hsends hfollows
        · obtain ⟨out, hsends, hfollows⟩ := hs'
          exact hgoes hsends hfollows
      · refine ⟨[], hnone, Or.inr ⟨fun d' hmem hd => ?_, rfl⟩⟩
        cases hd
        exact Dict.get_eq_none.mp hget hmem

theorem Follows.releasesIn_nil {datapaths : Dict Nat OfDatapath} {out : List (Nat × SwitchMsg)} {u : Node} {m : Bytes} :
    ∀ {rest : List Node}, Follows datapaths msg (u :: rest) out → (u :: rest).getLast? = some (.mac m) →
      (releasesIn out = [] ↔ ∀ d ∈ datapaths, u ≠ .dpid d)
  | [], h, hlast => by
    cases hlast
    refine iff_of_true ?_ fun d _ hd => by cases hd
    rw [show out = [] from h]
    rfl
  | v :: rest, h, _ => by
    rcases h with ⟨d, rule, port, out', hmem, rfl, rfl, _⟩ | ⟨hnot, rfl⟩
    · refine iff_of_false (fun hnil => ?_) fun hnot => hnot d hmem rfl
      rw [releasesIn_append] at hnil
      cases hnil
    · exact iff_of_true rfl hnot

theorem wp_forwardPath_buffered (hbuf : msg.buffer_id ≠ OFP_NO_BUFFER) {d : Nat} {v : Node} {rest : List Node}
    (hkeyed : Keyed s) (hports : PortsKnown s.net) (hmem : d ∈ s.datapaths)
    (hedge : (env.nx.edge s.net (.dpid d) v).isSome = true) :
    wp (forwardPath env msg eth (.dpid d :: v :: rest)) s (fun _ s' => ∃ rule port, Sends s s'
      [(d, .FlowMod (if msg.buffer_id = 0 then OFP_NO_BUFFER else msg.buffer_id) 1 rule [{ port }])]) fun _ _ => False := by
  obtain ⟨port, hport⟩ := hports.port hedge
  obtain ⟨rule, hrule⟩ := rule_ok msg.pkt eth
  obtain ⟨datapath, hget⟩ := Dict.mem_iff_get.mp hmem
  have hid : datapath.id = d := hkeyed d datapath hget
  unfold forwardPath nodeDatapath
  simp only [wp_bind, wp_edgePort_some hport, wp_orRaise_ok hrule, wp_get, wp_item_some hget, if_pos hbuf, wp_add_flow]
  rw [hid, Option.getD_some]
  exact ⟨rule, port, rfl⟩

/-- The packet is let go once: by a rule with its buffer id at the switch it came
in at, or by a packet-out with its data. -/
def ForwardedOnce (msg : PacketIn) (out : List (Nat × SwitchMsg)) : Prop :=
  if msg.buffer_id = OFP_NO_BUFFER then
    ∃ d in_port actions, releasesIn out = [(d, .PacketOut OFP_NO_BUFFER in_port actions (some msg.data))]
  else ∃ priority rule actions, releasesIn out = [(msg.datapath.id, .FlowMod msg.buffer_id priority rule actions)]

/-- A packet that came whole goes to a host at its switch, or to a node that is no
connected switch; a packet in a buffer has an id that is not 0. -/
def Forwardable {Γ : Type} (s : Layer2Switch Γ) (msg : PacketIn) (path : List Node) : Prop :=
  if msg.buffer_id = OFP_NO_BUFFER then ∀ d ∈ s.datapaths, path[1]? ≠ some (.dpid d) else msg.buffer_id ≠ 0

theorem forwardedOnce_of_hop (hwhole : msg.buffer_id = OFP_NO_BUFFER) {d port : Nat} {rule : OFPMatch}
    {out : List (Nat × SwitchMsg)} : ForwardedOnce msg (hopOut msg d rule port ++ out) ↔ releasesIn out = [] := by
  have hrel : releasesIn (hopOut msg d rule port ++ out) =
      (d, .PacketOut OFP_NO_BUFFER msg.in_port [{ port }] (some msg.data)) :: releasesIn out := releasesIn_append _ _
  unfold ForwardedOnce
  rw [if_pos hwhole, hrel]
  constructor
  · intro h
    obtain ⟨_, _, _, hone⟩ := h
    exact (List.cons.inj hone).2
  · intro h
    rw [h]
    exact ⟨_, _, _, rfl⟩

theorem forwardedOnce_of_rule (hbuf : msg.buffer_id ≠ OFP_NO_BUFFER) {rule : OFPMatch} {actions : List OFPActionOutput} :
    ForwardedOnce msg [(msg.datapath.id, .FlowMod (if msg.buffer_id = 0 then OFP_NO_BUFFER else msg.buffer_id) 1 rule
      actions)] ↔ msg.buffer_id ≠ 0 := by
  unfold ForwardedOnce
  rw [if_neg hbuf]
  by_cases hzero : msg.buffer_id = 0
  · rw [if_pos hzero]
    refine iff_of_false (fun h => ?_) (not_not.mpr hzero)
    obtain ⟨_, _, _, hone⟩ := h
    cases hone
  · rw [if_neg hzero]
    refine iff_of_true ⟨1, rule, actions, ?_⟩ hzero
    simp [releasesIn, SwitchMsg.carriesBuffer, hbuf]

theorem ForwardedOnce.length {out : List (Nat × SwitchMsg)} (h : ForwardedOnce msg out) : (releasesIn out).length = 1 := by
  unfold ForwardedOnce at h
  by_cases hwhole : msg.buffer_id = OFP_NO_BUFFER
  · rw [if_pos hwhole] at h
    obtain ⟨_, _, _, hone⟩ := h
    rw [hone, List.length_singleton]
  · rw [if_neg hwhole] at h
    obtain ⟨_, _, _, hone⟩ := h
    rw [hone, List.length_singleton]

theorem not_forwarded_of_count {x : App env Unit} {n : Nat}
    (hx : wp x s (fun _ s' => (releasesIn (sentOut s s')).length = n) fun _ _ => False) (hn : n ≠ 1) :
    ¬ wp x s (fun _ s' => ForwardedOnce msg (sentOut s s')) fun _ s' => ForwardedOnce msg (sentOut s s') := by
  intro h
  obtain ⟨_, s', _, hcount, honce⟩ := ok_of_wp (wp_mono (wp_and hx h) (fun _ _ h => h) fun _ _ h => h.1)
  exact hn (hcount.symm.trans honce.length)

theorem wp_forwardPath_once (hkeyed : Keyed s) (hports : PortsKnown s.net) (hmem : msg.datapath.id ∈ s.datapaths)
    (hpath : env.nx.shortest_path s.net (.dpid msg.datapath.id) (.mac mac) = .ok path) :
    wp (forwardPath env msg eth path) s
      (fun _ s' => ∃ out, Sends s s' out ∧ (ForwardedOnce msg out ↔ Forwardable s msg path))
      fun _ s' => ∃ out, Sends s s' out ∧ (ForwardedOnce msg out ↔ Forwardable s msg path) := by
  have hp := (env.nx.shortest_path_ok _ _ _ _ hpath).1
  obtain ⟨v, rest, rfl⟩ := hp.first_hop (by simp)
  unfold Forwardable
  rw [List.getElem?_cons_succ, List.getElem?_cons_zero]
  by_cases hwhole : msg.buffer_id = OFP_NO_BUFFER
  · rw [if_pos hwhole]
    have honce : ∀ out, Follows s.datapaths msg (.dpid msg.datapath.id :: v :: rest) out →
        (ForwardedOnce msg out ↔ ∀ d ∈ s.datapaths, some v ≠ some (.dpid d)) := by
      intro out hout
      rcases hout with ⟨d, rule, port, out', _, _, rfl, hfollows⟩ | ⟨hnot, _⟩
      · have hlast : (v :: rest).getLast? = some (.mac mac) := by rw [← hp.last, List.getLast?_cons_cons]
        rw [forwardedOnce_of_hop hwhole, hfollows.releasesIn_nil hlast]
        simp only [ne_eq, Option.some.injEq]
      · exact absurd rfl (hnot _ hmem)
    refine wp_mono (wp_forwardPath_follows hwhole _ s hkeyed hports hp.chain) (fun _ s' hs' => ?_) fun _ s' hs' => ?_
    · obtain ⟨out, hsends, hfollows⟩ := hs'
      exact ⟨out, hsends, honce out hfollows⟩
    · obtain ⟨out, hsends, hfollows⟩ := hs'
      exact ⟨out, hsends, honce out hfollows⟩
  · rw [if_neg hwhole]
    have hedge := (List.isChain_cons_cons.mp hp.chain).1
    refine wp_mono (wp_forwardPath_buffered hwhole hkeyed hports hmem hedge) (fun _ s' hs' => ?_) fun _ _ h => h.elim
    obtain ⟨rule, port, hsends⟩ := hs'
    exact ⟨_, hsends, forwardedOnce_of_rule hwhole⟩

/-! ### Learning first -/

theorem steady_learningStep (msg : PacketIn) (eth : Ethernet) : Moves Steady (learningStep env msg eth) :=
  .bind (steady_countPacket _) fun _ => steady_learnHost _ _ _

theorem keepsW_learningStep (K : List Nat) (msg : PacketIn) (eth : Ethernet) :
    Moves (Keeps (WindowInv K)) (learningStep env msg eth) :=
  .bind (moves_countPacket (fun _ _ _ _ h => h.same rfl rfl rfl rfl rfl) _) fun _ => keepsW_learnHost _ _ _

theorem wp_learningStep_raises (ht : Tables s) {f : Bytes ≃. (Nat × Nat)} (hosts : Hosts env f s.mac_to_port s.net)
    (hmem : msg.datapath.id ∈ s.datapaths) :
    wp (learningStep env msg eth) s (fun _ _ => True) fun e _ => e = .StructError ∧ 2 ^ 64 ≤ msg.datapath.id := by
  obtain ⟨load, hload⟩ := Dict.mem_iff_get.mp ((ht.load _).mpr hmem)
  unfold learningStep countPacket
  simp only [wp_bind, wp_get, wp_item_some hload, wp_modify]
  refine wp_mono (wp_learnHost hosts) (fun _ _ _ => trivial) fun _ _ hpost => ?_
  rcases hpost with ⟨_, _, hout | hout⟩ | ⟨he, hwide, _⟩
  · exact absurd ((ht.ports _).mpr hmem) hout
  · exact absurd ((ht.macs _).mpr hmem) hout
  · exact ⟨he, hwide⟩

theorem wp_learningStep_steady (h : Ready s) (ht : Tables s) (hsize : ∀ d ∈ s.datapaths, d < 2 ^ 64)
    {f : Bytes ≃. (Nat × Nat)} (hosts : Hosts env f s.mac_to_port s.net) (hmem : msg.datapath.id ∈ s.datapaths) :
    wp (learningStep env msg eth) s (fun _ s' => Steady s s' ∧ PortsKnown s'.net) fun _ _ => False := by
  have hkept := (keepsW_learningStep s.dpid_to_is_win.keys msg eth).kept h.windowInv
  refine wp_mono (wp_and (wp_learningStep_raises ht hosts hmem) (wp_and (steady_learningStep msg eth s) hkept))
    (fun _ s' hs' => ⟨hs'.2.1, hs'.2.2.ports⟩) fun _ _ hraised => ?_
  have hwide := hraised.1.2
  exact absurd (hsize _ hmem) (by omega)

theorem wp_packet_in_path {s₁ : Layer2Switch env.nx.Graph} {path : List Node} (now : Nat) (heth : msg.pkt.eth = some eth)
    (hlldp : eth.dst ≠ LLDP_MAC_NEAREST_BRIDGE) (hlearn : learningStep env msg eth s = .ok () s₁)
    (hnode : env.nx.has_node s₁.net (.mac eth.dst) = true)
    (hpath : env.nx.shortest_path s₁.net (.dpid msg.datapath.id) (.mac eth.dst) = .ok path)
    {Q : Unit → Layer2Switch env.nx.Graph → Prop} {E : Exn → Layer2Switch env.nx.Graph → Prop}
    (h : wp (forwardPath env msg eth path) s₁ Q E) : wp (ofp_packet_in_handler env now msg) s Q E := by
  rw [packet_in_learns env now heth hlldp, wp_bind]
  refine wp_of_ok hlearn ?_
  unfold forward
  simp only [wp_bind, wp_get, if_pos hnode, hpath]
  exact h

end

/-- **A packet-in for a host of the domain is let go once exactly when** it is in a
buffer with an id other than 0, or came whole and its path has no connected
switch after the first. The host learning before it completes. -/
theorem packet_in_forwarded_once_iff (env : LocalEnv) (xid : Nat) (es : List LocalEvent) (hsized : ∀ e ∈ es, Sized e)
    (now : Nat) (msg : PacketIn) (eth : Ethernet) (heth : msg.pkt.eth = some eth)
    (hlldp : eth.dst ≠ LLDP_MAC_NEAREST_BRIDGE)
    (hmem : msg.datapath.id ∈ (es.foldl (step env) (init env xid)).datapaths) :
    ∃ s₁, learningStep env msg eth (es.foldl (step env) (init env xid)) = .ok () s₁ ∧
      ∀ path, env.nx.has_node s₁.net (.mac eth.dst) = true →
        env.nx.shortest_path s₁.net (.dpid msg.datapath.id) (.mac eth.dst) = .ok path →
        (wp (ofp_packet_in_handler env now msg) (es.foldl (step env) (init env xid))
          (fun _ s' => ForwardedOnce msg (sentOut (es.foldl (step env) (init env xid)) s'))
          (fun _ s' => ForwardedOnce msg (sentOut (es.foldl (step env) (init env xid)) s')) ↔
          Forwardable (es.foldl (step env) (init env xid)) msg path) := by
  obtain ⟨⟨ht, f, hosts⟩, hsize⟩ := @tableInv_run env xid es hsized
  have hready : Ready (es.foldl (step env) (init env xid)) := ready_run xid es
  generalize es.foldl (step env) (init env xid) = s at ht hosts hsize hready hmem ⊢
  have hquiet : wp (learningStep env msg eth) s (fun _ s' => Steady s s' ∧ PortsKnown s'.net) fun _ _ => False :=
    wp_learningStep_steady hready ht hsize hosts hmem
  obtain ⟨_, s₁, hlearn, hsteady, hports⟩ := ok_of_wp hquiet
  refine ⟨s₁, hlearn, fun path hnode hpath => ?_⟩
  have hdps : s₁.datapaths = s.datapaths := hsteady.datapaths
  have hkeyed : Keyed s₁ := hsteady.keyed hready.keyed
  have hable : Forwardable s₁ msg path ↔ Forwardable s msg path := by
    unfold Forwardable
    rw [hdps]
  have hsends : wp (ofp_packet_in_handler env now msg) s
      (fun _ s' => ∃ out, Sends s₁ s' out ∧ (ForwardedOnce msg out ↔ Forwardable s₁ msg path))
      fun _ s' => ∃ out, Sends s₁ s' out ∧ (ForwardedOnce msg out ↔ Forwardable s₁ msg path) :=
    wp_packet_in_path now heth hlldp hlearn hnode hpath (wp_forwardPath_once hkeyed hports (hdps ▸ hmem) hpath)
  refine wp_iff_of_all hsends fun s' hs' => ?_
  obtain ⟨out, hout, honce⟩ := hs'
  have hsent : s'.switch_out = s.switch_out ++ out := by rw [hout.out_eq, hsteady.switch_out]
  rw [sentOut_append hsent, honce, hable]

def hostPacket (buffer_id : Nat) : PacketIn :=
  ⟨⟨1, "10.0.0.1"⟩, 3, buffer_id, [7],
    { eth := some ⟨asciiText "00:00:00:00:00:02", asciiText "00:00:00:00:00:01", 0x0806⟩ }⟩

theorem packet_in_forwarded_once_iff_edge :
    wp (ofp_packet_in_handler sampleLocalEnv 0 (hostPacket OFP_NO_BUFFER))
      (edgeRun.foldl (step sampleLocalEnv) (init sampleLocalEnv 0))
      (fun _ s' => ForwardedOnce (hostPacket OFP_NO_BUFFER)
        (sentOut (edgeRun.foldl (step sampleLocalEnv) (init sampleLocalEnv 0)) s'))
      (fun _ s' => ForwardedOnce (hostPacket OFP_NO_BUFFER)
        (sentOut (edgeRun.foldl (step sampleLocalEnv) (init sampleLocalEnv 0)) s')) := by
  obtain ⟨s₁, hlearn, honce⟩ := packet_in_forwarded_once_iff sampleLocalEnv 0 edgeRun (by decide) 0
    (hostPacket OFP_NO_BUFFER) ⟨asciiText "00:00:00:00:00:02", asciiText "00:00:00:00:00:01", 0x0806⟩ rfl (by decide)
    (by decide +kernel)
  have hfound : wp (learningStep sampleLocalEnv (hostPacket OFP_NO_BUFFER)
        ⟨asciiText "00:00:00:00:00:02", asciiText "00:00:00:00:00:01", 0x0806⟩)
      (edgeRun.foldl (step sampleLocalEnv) (init sampleLocalEnv 0))
      (fun _ s₁ => sampleLocalEnv.nx.has_node s₁.net (.mac (asciiText "00:00:00:00:00:01")) = true ∧
        sampleLocalEnv.nx.shortest_path s₁.net (.dpid 1) (.mac (asciiText "00:00:00:00:00:01")) =
          .ok [.dpid 1, .mac (asciiText "00:00:00:00:00:01")]) (fun _ _ => False) := by decide +kernel
  unfold wp at hfound
  rw [hlearn] at hfound
  refine (honce _ hfound.1 hfound.2).mpr ?_
  have hwhole : (hostPacket OFP_NO_BUFFER).buffer_id = OFP_NO_BUFFER := rfl
  unfold Forwardable
  rw [if_pos hwhole]
  exact fun d _ h => by cases h

def farState : Layer2Switch sampleLocalEnv.nx.Graph :=
  (pairRun ++ [samplePacket 2 3 (asciiText "00:00:00:00:00:01") BROADCAST_STR]).foldl (step sampleLocalEnv)
    (init sampleLocalEnv 0)

/-- A packet that came whole is sent by both switches of its path, and one in
buffer 0 by none. -/
theorem packet_copied_or_lost :
    ¬ wp (ofp_packet_in_handler sampleLocalEnv 0 (hostPacket OFP_NO_BUFFER)) farState
      (fun _ s' => ForwardedOnce (hostPacket OFP_NO_BUFFER) (sentOut farState s'))
      (fun _ s' => ForwardedOnce (hostPacket OFP_NO_BUFFER) (sentOut farState s')) ∧
    ¬ wp (ofp_packet_in_handler sampleLocalEnv 0 (hostPacket 0)) farState
      (fun _ s' => ForwardedOnce (hostPacket 0) (sentOut farState s'))
      (fun _ s' => ForwardedOnce (hostPacket 0) (sentOut farState s')) :=
  ⟨not_forwarded_of_count (n := 2) (by decide +kernel) (by decide),
    not_forwarded_of_count (n := 0) (by decide +kernel) (by decide)⟩

end Layer2Switch

end VnfDockerNet
