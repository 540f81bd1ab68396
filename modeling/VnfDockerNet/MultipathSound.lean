import VnfDockerNet.Multipath

/-!
# Broadcasts over several paths

An address keeps the port of its first frame. So a broadcast that comes in at
another port is dropped, and in a network with loops every switch floods it
once.
-/

namespace VnfDockerNet

open Python

namespace Multipath

variable {parse : Bytes → Packet} {mac : Bytes} {s s' s'' : MULTIPATH_13}

def port (s : MULTIPATH_13) (d : Nat) (m : Bytes) : Option Nat := (s.mac_to_port.get d).bind fun macs => macs.get m

/-! ## What the handlers do to the table -/

theorem port_of_get {d : Nat} {macs : Dict Bytes Nat} (h : s.mac_to_port.get d = some macs) (m : Bytes) : port s d m = macs.get m := by
  unfold port
  rw [h]
  rfl

theorem port_insert {s₀ : MULTIPATH_13} {d : Nat} {macs : Dict Bytes Nat} (hs : s.mac_to_port = s₀.mac_to_port.insert d macs) (d' : Nat) (m : Bytes) :
    port s d' m = if d' = d then macs.get m else port s₀ d' m := by
  unfold port
  rw [hs, Dict.get_insert]
  split <;> rfl

theorem wp_mac_learning (d : Nat) (src : Bytes) (p : Nat) :
    wp (mac_learning d src p) s (fun r s' => (r = some false ↔ ∃ q, port s d src = some q ∧ q ≠ p) ∧ s'.out = s.out ∧ s'.FLAGS = s.FLAGS ∧
      (∃ macs, s'.mac_to_port.get d = some macs) ∧
      ∀ d' m, port s' d' m = if d' = d ∧ m = src then some ((port s d src).getD p) else port s d' m) fun _ _ => False := by
  have hmacs : Dict.get (s.mac_to_port.setdefault d ∅) d = some ((s.mac_to_port.get d).getD ∅) := by
    rw [Dict.get_setdefault, if_pos rfl]
  have hget : ∀ m, Dict.get ((s.mac_to_port.get d).getD ∅) m = port s d m := by
    intro m
    unfold port
    cases s.mac_to_port.get d with
    | none => rfl
    | some macs => rfl
  have hold : ∀ d' m, port { s with mac_to_port := s.mac_to_port.setdefault d ∅ } d' m = port s d' m := by
    intro d' m
    by_cases hd : d' = d
    · subst hd
      rw [← hget m]
      exact port_of_get hmacs m
    · unfold port
      rw [Dict.get_setdefault, if_neg hd]
  unfold mac_learning
  simp only [wp_bind, wp_modify, wp_get, wp_item, hmacs]
  refine ⟨fun macs h => ?_, fun h => by cases h⟩
  cases h
  cases hsrc : Dict.get ((s.mac_to_port.get d).getD ∅) src with
  | some q =>
    rw [hget] at hsrc
    refine ⟨?_, rfl, rfl, ⟨_, hmacs⟩, fun d' m => ?_⟩
    · by_cases hpq : p ≠ q
      · simp [hsrc, hpq, Ne.symm hpq]
      · rw [not_not] at hpq
        simp [hsrc, hpq]
    · rw [hold]
      split
      · rename_i h
        rw [h.1, h.2, hsrc]
        rfl
      · rfl
  | none =>
    rw [hget] at hsrc
    refine ⟨?_, rfl, rfl, ⟨_, (Dict.get_insert ..).trans (if_pos rfl)⟩, fun d' m => ?_⟩
    · simp [hsrc]
    · rw [port_insert rfl, hold, Dict.get_insert, hget, hsrc]
      by_cases hd : d' = d
      · by_cases hm : m = src
        · simp [hd, hm]
        · simp [hd, hm]
      · simp [hd]

theorem out_flood (msg : PacketIn) :
    flood msg = send_msg msg.dpid (.PacketOut OFP_NO_BUFFER OFPP_CONTROLLER [.Output OFPP_FLOOD] (some msg.data)) := rfl

/-! ## A broadcast of the host -/

def IsRequest (parse : Bytes → Packet) (mac data : Bytes) : Prop :=
  parse data = ⟨some ⟨mac, BROADCAST_STR, ETH_TYPE_ARP⟩, true, none, false⟩

def Unheard (s : MULTIPATH_13) : Prop := ∀ d, port s d BROADCAST_STR = none

def floodOut (data : Bytes) : SwitchMsg := .PacketOut OFP_NO_BUFFER OFPP_CONTROLLER [.Output OFPP_FLOOD] (some data)

theorem wp_request (hmac : mac ≠ BROADCAST_STR) (hs : Unheard s) {data : Bytes} (hdata : IsRequest parse mac data) (d p buffer_id : Nat) :
    wp (_packet_in_handler parse ⟨d, p, buffer_id, data⟩) s
      (fun _ s' => (∀ d' m, port s' d' m = if d' = d ∧ m = mac then some ((port s d mac).getD p) else port s d' m) ∧
        s'.out = s.out ++ if ∃ q, port s d mac = some q ∧ q ≠ p then [] else [(d, floodOut data)]) fun _ _ => False := by
  unfold _packet_in_handler
  rw [hdata]
  simp only [Bool.false_eq_true, if_false, wp_bind]
  unfold arpFirst processArp
  rw [if_pos rfl]
  simp only [wp_bind]
  refine wp_mono (wp_mac_learning d mac p) (fun r s₁ h => ?_) fun _ _ h => h
  obtain ⟨hr, hout, -, ⟨macs, hmacs⟩, hport⟩ := h
  rw [wp_ite]
  refine ⟨fun hfalse => ⟨hport, ?_⟩, fun hnot => ?_⟩
  · rw [if_pos (hr.mp hfalse), List.append_nil]
    exact hout
  · unfold arp_forwarding
    simp only [wp_bind, wp_get, wp_item, hmacs]
    refine ⟨fun macs' h => ?_, fun h => by cases h⟩
    cases h
    have hnone : macs.get BROADCAST_STR = none := by
      have hb : port s₁ d BROADCAST_STR = none := by
        rw [hport, if_neg fun h => hmac h.2.symm]
        exact hs d
      rwa [port_of_get hmacs] at hb
    rw [hnone]
    refine ⟨hport, ?_⟩
    rw [if_neg fun h => hnot (hr.mpr h), ← hout]
    rfl

/-! ## Events of others -/

def missRule : FlowRule := ⟨0, {}, [.Output OFPP_CONTROLLER OFPCML_NO_BUFFER]⟩

def Spares (rule : OFPMatch) : Prop :=
  (∃ d, rule.eth_dst = some d ∧ d ≠ BROADCAST_STR) ∨ ∃ t, rule.eth_type = some t ∧ t ≠ ETH_TYPE_ARP

def Harmless (parse : Bytes → Packet) (mac : Bytes) : SwitchMsg → Prop
  | .FlowMod priority _ rule actions => ⟨priority, rule, actions⟩ = missRule ∨ Spares rule
  | .GroupMod .. => True
  | .PacketOut _ _ _ data => ∀ f, data = some f → ¬ IsFrom parse mac f

structure Apart (parse : Bytes → Packet) (mac : Bytes) (s s' : MULTIPATH_13) : Prop where
  port : ∀ d, port s' d mac = port s d mac
  unheard : Unheard s'
  out : ∃ new, s'.out = s.out ++ new ∧ ∀ x ∈ new, Harmless parse mac x.2

theorem Apart.refl (hs : Unheard s) : Apart parse mac s s :=
  ⟨fun _ => rfl, hs, [], (List.append_nil _).symm, fun _ hx => absurd hx List.not_mem_nil⟩

theorem Apart.trans (h : Apart parse mac s s') (h' : Apart parse mac s' s'') : Apart parse mac s s'' := by
  obtain ⟨new, hnew, hall⟩ := h.out
  obtain ⟨new', hnew', hall'⟩ := h'.out
  refine ⟨fun d => (h'.port d).trans (h.port d), h'.unheard, new ++ new', by rw [hnew', hnew, List.append_assoc], fun x hx => ?_⟩
  exact (List.mem_append.mp hx).elim (hall x) (hall' x)

theorem apart_send (hs : Unheard s) {msg : SwitchMsg} (hmsg : Harmless parse mac msg) (d : Nat) :
    Apart parse mac s { s with out := s.out ++ [(d, msg)] } :=
  ⟨fun _ => rfl, hs, [(d, msg)], rfl, fun x hx => by rw [List.mem_singleton.mp hx]; exact hmsg⟩

theorem wp_send_packet_out (hs : Unheard s) {data : Bytes} (hdata : ¬ IsFrom parse mac data) (d buffer_id src_port : Nat) (dst_port : Option Nat) :
    wp (send_packet_out d buffer_id src_port dst_port (some data)) s (fun _ => Apart parse mac s) fun _ _ => False := by
  unfold send_packet_out _build_packet_out
  by_cases hbuf : buffer_id = OFP_NO_BUFFER
  · rw [if_pos hbuf]
    refine apart_send hs ?_ d
    intro f hf
    cases hf
    exact hdata
  · rw [if_neg hbuf]
    refine apart_send hs ?_ d
    intro f hf
    cases hf

theorem wp_flood (hs : Unheard s) {msg : PacketIn} (hdata : ¬ IsFrom parse mac msg.data) :
    wp (flood msg) s (fun _ => Apart parse mac s) fun _ _ => False := by
  refine apart_send hs ?_ msg.dpid
  intro f hf
  cases hf
  exact hdata

theorem wp_forward (hs : Unheard s) {msg : PacketIn} (hdata : ¬ IsFrom parse mac msg.data) {priority out_port : Nat} {rule : OFPMatch}
    {actions : List Action} (hrule : Spares rule) :
    wp (do
      add_flow msg.dpid 0 priority rule actions
      send_packet_out msg.dpid msg.buffer_id msg.in_port (some out_port) (some msg.data)) s (fun _ => Apart parse mac s) fun _ _ => False := by
  unfold add_flow send_msg
  simp only [wp_bind, wp_modify]
  have hmod : Harmless parse mac (.FlowMod priority 0 rule actions) := Or.inr hrule
  have hfirst := apart_send hs hmod msg.dpid
  exact wp_mono (wp_send_packet_out hfirst.unheard hdata ..) (fun _ _ h => hfirst.trans h) fun _ _ h => h

theorem ne_broadcast (hs : Unheard s) {d : Nat} {macs : Dict Bytes Nat} (hmacs : s.mac_to_port.get d = some macs) {dst : Bytes} {out_port : Nat}
    (hdst : macs.get dst = some out_port) : dst ≠ BROADCAST_STR := by
  rintro rfl
  have hnone := hs d
  rw [port_of_get hmacs, hdst] at hnone
  cases hnone

theorem apart_mac_learning (hs : Unheard s) {src : Bytes} (hmac : src ≠ mac) (hsrc : src ≠ BROADCAST_STR) (d p : Nat) :
    wp (mac_learning d src p) s (fun _ s' => Apart parse mac s s' ∧ ∃ macs, s'.mac_to_port.get d = some macs) fun _ _ => False := by
  refine wp_mono (wp_mac_learning d src p) (fun _ s' h => ?_) fun _ _ h => h
  obtain ⟨-, hout, -, hmacs, hport⟩ := h
  refine ⟨⟨fun d' => ?_, fun d' => ?_, [], by rw [hout, List.append_nil], fun _ hx => absurd hx List.not_mem_nil⟩, hmacs⟩
  · rw [hport, if_neg fun h => hmac h.2.symm]
  · rw [hport, if_neg fun h => hsrc h.2.symm]
    exact hs d'

theorem wp_arp_forwarding (hs : Unheard s) {msg : PacketIn} (hdata : ¬ IsFrom parse mac msg.data) (eth : Ethernet) :
    wp (arp_forwarding msg eth) s (fun _ => Apart parse mac s) fun _ => Apart parse mac s := by
  unfold arp_forwarding
  simp only [wp_bind, wp_get, wp_item]
  refine ⟨fun macs hmacs => ?_, fun _ => .refl hs⟩
  cases hdst : macs.get eth.dst with
  | none => exact wp_mono (wp_flood hs hdata) (fun _ _ h => h) fun _ _ h => h.elim
  | some out_port =>
    exact wp_mono (wp_forward hs hdata (Or.inl ⟨_, rfl, ne_broadcast hs hmacs hdst⟩)) (fun _ _ h => h) fun _ _ h => h.elim

theorem wp_firstGroup (hs : Unheard s) (d : Nat) : wp (firstGroup d) s (fun _ => Apart parse mac s) fun _ _ => False := by
  unfold firstGroup
  rw [wp_bind, wp_get, wp_ite]
  refine ⟨fun _ => ⟨fun _ => rfl, hs, [_], rfl, fun x hx => ?_⟩, fun _ => .refl hs⟩
  rw [List.mem_singleton.mp hx]
  exact trivial

theorem wp_processIpv4 (hs : Unheard s) {msg : PacketIn} (hdata : ¬ IsFrom parse mac msg.data) {eth : Ethernet} (hmac : eth.src ≠ mac)
    (hsrc : eth.src ≠ BROADCAST_STR) (htype : eth.ethertype ≠ ETH_TYPE_ARP) (ipv4_src : Bytes) :
    wp (processIpv4 msg eth ipv4_src) s (fun _ => Apart parse mac s) fun _ => Apart parse mac s := by
  unfold processIpv4
  simp only [wp_bind, wp_get, wp_item]
  refine ⟨fun macs hmacs => ?_, fun _ => .refl hs⟩
  cases hdst : macs.get eth.dst with
  | none =>
    show wp (mac_learning msg.dpid eth.src msg.in_port >>= fun learned => if learned = some false then pure () else flood msg) s _ _
    rw [wp_bind]
    have hlearn : wp (mac_learning msg.dpid eth.src msg.in_port) s (fun _ s' => Apart parse mac s s' ∧ _) _ := apart_mac_learning hs hmac hsrc _ _
    refine wp_mono hlearn (fun r s₁ h => ?_) fun _ _ h => h.elim
    rw [wp_ite]
    refine ⟨fun _ => h.1, fun _ => ?_⟩
    exact wp_mono (wp_flood h.1.unheard hdata) (fun _ _ h' => h.1.trans h') fun _ _ h => h.elim
  | some out_port =>
    show wp (if msg.dpid = 1 ∧ msg.in_port = 1 then useGroup msg eth ipv4_src else _) s _ _
    rw [wp_ite]
    constructor
    · intro _
      have hforward : ∀ {s₁}, Unheard s₁ → wp (do
          add_flow msg.dpid 0 3 { in_port := some msg.in_port, eth_type := some eth.ethertype, ipv4_src := some ipv4_src } [.Group 50]
          send_packet_out msg.dpid msg.buffer_id msg.in_port (some 2) (some msg.data)) s₁ (fun _ => Apart parse mac s₁) fun _ _ => False :=
        fun hs₁ => wp_forward hs₁ hdata (Or.inr ⟨_, rfl, htype⟩)
      unfold useGroup
      rw [wp_bind]
      have hfirst : wp (firstGroup msg.dpid) s (fun _ => Apart parse mac s) _ := wp_firstGroup hs msg.dpid
      refine wp_mono hfirst (fun _ s₁ h => ?_) fun _ _ h => h.elim
      exact wp_mono (hforward h.unheard) (fun _ _ h' => h.trans h') fun _ _ h => h.elim
    · intro _
      exact wp_mono (wp_forward hs hdata (Or.inl ⟨_, rfl, ne_broadcast hs hmacs hdst⟩)) (fun _ _ h => h) fun _ _ h => h.elim

/-- Under the type of ARP there is no IPv4. -/
def ParsesByType (parse : Bytes → Packet) : Prop :=
  ∀ data eth, (parse data).eth = some eth → (parse data).ipv4 ≠ none → eth.ethertype ≠ ETH_TYPE_ARP

/-- The host did not send it, and nobody sends from the broadcast address. -/
def Foreign (parse : Bytes → Packet) (mac : Bytes) : Input → Prop
  | .PacketIn msg => ∀ eth, (parse msg.data).eth = some eth → eth.src ≠ mac ∧ eth.src ≠ BROADCAST_STR
  | _ => True

theorem apart_handle (hparse : ParsesByType parse)
    (hs : Unheard s) {i : Input} (hi : Foreign parse mac i) :
    wp (handle parse i) s (fun _ => Apart parse mac s) fun _ => Apart parse mac s := by
  cases i with
  | SwitchFeatures dpid =>
    have hmiss : Harmless parse mac (.FlowMod 0 0 {} [.Output OFPP_CONTROLLER OFPCML_NO_BUFFER]) := Or.inl rfl
    exact apart_send hs hmiss dpid
  | StateChange datapath state =>
    cases state with
    | MAIN => exact ⟨fun _ => rfl, hs, [], (List.append_nil _).symm, fun _ hx => absurd hx List.not_mem_nil⟩
    | DEAD => exact ⟨fun _ => rfl, hs, [], (List.append_nil _).symm, fun _ hx => absurd hx List.not_mem_nil⟩
  | PacketIn msg =>
    show wp (_packet_in_handler parse msg) s _ _
    unfold _packet_in_handler
    cases heth : (parse msg.data).eth with
    | none => exact .refl hs
    | some eth =>
      obtain ⟨hmac, hsrc⟩ := hi eth heth
      have hdata : ¬ IsFrom parse mac msg.data := by
        intro hfrom
        rw [IsFrom, heth] at hfrom
        exact hmac (Option.some.inj hfrom)
      show wp (if (parse msg.data).ipv6 = true then _ else _) s _ _
      rw [wp_ite]
      have hipv6 : Harmless parse mac (.FlowMod 1 0 { eth_type := some ETH_TYPE_IPV6 } []) := Or.inr (Or.inr ⟨_, rfl, by decide⟩)
      refine ⟨fun _ => apart_send hs hipv6 msg.dpid, fun _ => ?_⟩
      have hend : ∀ {s₁ : MULTIPATH_13} (done : Bool), Apart parse mac s s₁ →
          wp (ipv4Next done (parse msg.data).ipv4 msg eth) s₁ (fun _ => Apart parse mac s) fun _ => Apart parse mac s := by
        intro s₁ done h₁
        cases done with
        | true => exact h₁
        | false =>
          cases hip : (parse msg.data).ipv4 with
          | none => exact h₁
          | some ipv4_src =>
            have htype := hparse msg.data eth heth (by rw [hip]; exact Option.some_ne_none _)
            exact wp_mono (wp_processIpv4 h₁.unheard hdata hmac hsrc htype ipv4_src) (fun _ _ h => h₁.trans h) fun _ _ h => h₁.trans h
      unfold arpFirst
      rw [wp_bind, wp_ite]
      refine ⟨fun _ => ?_, fun _ => hend false (.refl hs)⟩
      unfold processArp
      rw [wp_bind]
      have hlearn : wp (mac_learning msg.dpid eth.src msg.in_port) s (fun _ s' => Apart parse mac s s' ∧ _) _ := apart_mac_learning hs hmac hsrc _ _
      refine wp_mono hlearn (fun r s₁ h => ?_) fun _ _ h => h.elim
      rw [wp_ite]
      refine ⟨fun _ => hend true h.1, fun _ => ?_⟩
      rw [wp_bind]
      exact wp_mono (wp_arp_forwarding h.1.unheard hdata eth) (fun _ _ h' => hend false (h.1.trans h')) fun _ _ h' => h.1.trans h'

/-! ## Flow tables -/

theorem not_matches_request {rule : OFPMatch} (hrule : Spares rule) {data : Bytes} (hdata : IsRequest parse mac data) (p : Nat) :
    ¬ rule.Matches p (parse data) := by
  rw [hdata]
  intro h
  rcases hrule with ⟨d, hd, hne⟩ | ⟨t, ht, hne⟩
  · exact hne (Option.some.inj (h.2.1 d hd)).symm
  · exact hne (Option.some.inj (h.2.2.1 t ht)).symm

/-- A request only meets the rule that gives it to the application. -/
structure TableOk (rules : List FlowRule) : Prop where
  miss : missRule ∈ rules
  spares : ∀ r ∈ rules, r = missRule ∨ Spares r.rule

theorem mem_addRule {r r' : FlowRule} {rules : List FlowRule} :
    r' ∈ addRule r rules ↔ r' = r ∨ (r' ∈ rules ∧ ¬ (r'.priority = r.priority ∧ r'.rule = r.rule)) := by
  unfold addRule
  rw [List.mem_orderedInsert, List.mem_filter, decide_eq_true_eq]

theorem spares_addRule {r : FlowRule} {rules : List FlowRule} (hrules : ∀ r ∈ rules, r = missRule ∨ Spares r.rule) (hr : r = missRule ∨ Spares r.rule) :
    ∀ r' ∈ addRule r rules, r' = missRule ∨ Spares r'.rule := by
  intro r' hr'
  rcases mem_addRule.mp hr' with rfl | ⟨hr', -⟩
  · exact hr
  · exact hrules r' hr'

theorem miss_addRule {r : FlowRule} {rules : List FlowRule} (hmiss : missRule ∈ rules) (hr : r = missRule ∨ Spares r.rule) : missRule ∈ addRule r rules := by
  refine mem_addRule.mpr ?_
  rcases hr with rfl | hr
  · exact Or.inl rfl
  · refine Or.inr ⟨hmiss, fun h => ?_⟩
    rw [← h.2] at hr
    rcases hr with ⟨d, hd, -⟩ | ⟨t, ht, -⟩
    · cases hd
    · cases ht

theorem lookup_request {rules : List FlowRule} (h : TableOk rules) {data : Bytes} (hdata : IsRequest parse mac data) (p : Nat) :
    lookup rules p (parse data) = some missRule := by
  have hmatch : missRule.rule.Matches p (parse data) :=
    ⟨fun _ hp => (by cases hp), fun _ hd => (by cases hd), fun _ ht => (by cases ht), fun _ hs => (by cases hs)⟩
  unfold lookup
  cases hfind : rules.find? fun r => decide (r.rule.Matches p (parse data)) with
  | none =>
    have hnone := List.find?_eq_none.mp hfind missRule h.miss
    exact absurd (decide_eq_true hmatch) hnone
  | some r =>
    have hr : r.rule.Matches p (parse data) := by simpa using List.find?_some hfind
    rcases h.spares r (List.mem_of_find?_eq_some hfind) with rfl | hspares
    · rfl
    · exact absurd hr (not_matches_request hspares hdata p)

/-! ## The network floods -/

variable {W : Wiring} {nodes : List Nat} {net net' : Net}

def floods (parse : Bytes → Packet) (mac : Bytes) (out : List (Nat × SwitchMsg)) (d : Nat) : List Bytes :=
  out.filterMap fun x => match x.2 with
    | .PacketOut _ _ _ (some data) => if x.1 = d ∧ IsFrom parse mac data then some data else none
    | _ => none

theorem floods_append (out new : List (Nat × SwitchMsg)) (d : Nat) :
    floods parse mac (out ++ new) d = floods parse mac out d ++ floods parse mac new d := List.filterMap_append ..

theorem floods_harmless {new : List (Nat × SwitchMsg)} (h : ∀ x ∈ new, Harmless parse mac x.2) (d : Nat) : floods parse mac new d = [] := by
  refine List.filterMap_eq_nil_iff.mpr fun x hx => ?_
  have hx := h x hx
  obtain ⟨d', msg⟩ := x
  cases msg with
  | PacketOut buffer_id in_port actions data =>
    cases data with
    | none => rfl
    | some data => exact if_neg fun hfrom => hx data rfl hfrom.2
  | _ => rfl

def floodState (parse : Bytes → Packet) (mac : Bytes) (net : Net) : Flooding.State Nat Nat Bytes :=
  ⟨fun d => port net.app d mac, net.inflight, floods parse mac net.app.out, net.entered, net.arrived⟩

structure Sound (parse : Bytes → Packet) (W : Wiring) (mac : Bytes) (nodes : List Nat) (net : Net) : Prop where
  unheard : Unheard net.app
  tables : ∀ d ∈ nodes, TableOk (net.rules d)
  spares : ∀ d, ∀ r ∈ net.rules d, r = missRule ∨ Spares r.rule
  requests : ∀ x ∈ net.inflight, IsRequest parse mac x.2
  inv : Flooding.Inv W.toTopology (floodState parse mac net)
  spent : Flooding.Spent W.toTopology nodes (floodState parse mac net)

structure Untouched (nodes : List Nat) (net net' : Net) : Prop where
  app : net'.app = net.app
  inflight : net'.inflight = net.inflight
  entered : net'.entered = net.entered
  arrived : net'.arrived = net.arrived
  spares : (∀ d, ∀ r ∈ net.rules d, r = missRule ∨ Spares r.rule) → ∀ d, ∀ r ∈ net'.rules d, r = missRule ∨ Spares r.rule
  miss : ∀ d, missRule ∈ net.rules d → missRule ∈ net'.rules d

theorem untouched_refl : Untouched nodes net net := ⟨rfl, rfl, rfl, rfl, id, fun _ => id⟩

theorem Untouched.trans {net'' : Net} (h : Untouched nodes net net') (h' : Untouched nodes net' net'') : Untouched nodes net net'' :=
  ⟨h'.app.trans h.app, h'.inflight.trans h.inflight, h'.entered.trans h.entered, h'.arrived.trans h.arrived, fun hs => h'.spares (h.spares hs),
    fun d hd => h'.miss d (h.miss d hd)⟩

theorem untouched_execute {d : Nat} {msg : SwitchMsg} (hmsg : Harmless parse mac msg) : Untouched nodes net (execute parse W mac net d msg) := by
  cases msg with
  | FlowMod priority hard_timeout rule actions =>
    refine ⟨rfl, rfl, rfl, rfl, fun hs d' => ?_, fun d' hmiss => ?_⟩
    · show ∀ r ∈ Function.update net.rules d _ d', _
      by_cases hd : d' = d
      · subst hd
        rw [Function.update_self]
        exact spares_addRule (hs d') hmsg
      · rw [Function.update_of_ne hd]
        exact hs d'
    · show missRule ∈ Function.update net.rules d _ d'
      by_cases hd : d' = d
      · subst hd
        rw [Function.update_self]
        exact miss_addRule hmiss hmsg
      · rw [Function.update_of_ne hd]
        exact hmiss
  | GroupMod group_id buckets => exact untouched_refl
  | PacketOut buffer_id in_port actions data =>
    cases data with
    | none => exact untouched_refl
    | some data =>
      have hsame : execute parse W mac net d (.PacketOut buffer_id in_port actions (some data)) = net := if_neg (hmsg data rfl)
      rw [hsame]
      exact untouched_refl

theorem untouched_foldl : ∀ {new : List (Nat × SwitchMsg)} {net : Net}, (∀ x ∈ new, Harmless parse mac x.2) →
    Untouched nodes net (new.foldl (fun net x => execute parse W mac net x.1 x.2) net)
  | [], _, _ => untouched_refl
  | x :: new, net, h => by
    rw [List.forall_mem_cons] at h
    exact (untouched_execute h.1).trans (untouched_foldl h.2)

theorem Sound.control (hparse : ParsesByType parse)
    (h : Sound parse W mac nodes net) {i : Input} (hi : Foreign parse mac i) : Sound parse W mac nodes (Multipath.control parse W mac net i) := by
  have hwp := apart_handle hparse h.unheard hi
  have hstep : Apart parse mac net.app (step parse net.app i) := by
    unfold wp at hwp
    unfold step
    cases hx : handle parse i net.app with
    | ok u s' =>
      rw [hx] at hwp
      exact hwp
    | error e s' =>
      rw [hx] at hwp
      exact hwp
  obtain ⟨new, hnew, hall⟩ := hstep.out
  have hdrop : (step parse net.app i).out.drop net.app.out.length = new := by rw [hnew, List.drop_left]
  have hun : Untouched nodes { net with app := step parse net.app i } (Multipath.control parse W mac net i) := by
    show Untouched nodes _ (((step parse net.app i).out.drop net.app.out.length).foldl _ _)
    rw [hdrop]
    exact untouched_foldl hall
  have hstate : floodState parse mac (Multipath.control parse W mac net i) = floodState parse mac net := by
    unfold floodState
    rw [hun.app, hun.inflight, hun.entered, hun.arrived]
    have hport : (fun d => port (step parse net.app i) d mac) = fun d => port net.app d mac := funext hstep.port
    have hfloods : floods parse mac (step parse net.app i).out = floods parse mac net.app.out := by
      funext d
      rw [hnew, floods_append, floods_harmless hall, List.append_nil]
    show Flooding.State.mk (fun d => port (step parse net.app i) d mac) net.inflight (floods parse mac (step parse net.app i).out) _ _ = _
    rw [hport, hfloods]
  refine ⟨?_, fun d hd => ⟨hun.miss d (h.tables d hd).miss, hun.spares h.spares d⟩, hun.spares h.spares, ?_, ?_, ?_⟩
  · rw [hun.app]
    exact hstep.unheard
  · rw [hun.inflight]
    exact h.requests
  · rw [hstate]
    exact h.inv
  · rw [hstate]
    exact h.spent

/-- Ports have the numbers of ports, and the wires are between these switches. -/
structure Physical (W : Wiring) (nodes : List Nat) : Prop where
  ports : ∀ d, ∀ p ∈ W.ports d, p < OFPP_MAX
  source : W.source.1 ∈ nodes
  peers : ∀ a b, W.peer a = some b → b.1 ∈ nodes

theorem emit_flood (hW : Physical W nodes) (d : Nat) (data : Bytes) :
    emit W d OFPP_CONTROLLER data [.Output OFPP_FLOOD] = W.toTopology.copies d data := by
  have hall : (W.ports d).filter (fun p => decide (p ≠ OFPP_CONTROLLER)) = W.ports d := by
    refine List.filter_eq_self.mpr fun p hp => decide_eq_true fun heq => ?_
    have hlt := hW.ports d p hp
    rw [heq] at hlt
    exact absurd hlt (by decide)
  have hports : outPorts W d OFPP_CONTROLLER data (.Output OFPP_FLOOD) = W.ports d := hall
  unfold emit
  rw [List.flatMap_singleton, hports]
  rfl

theorem step_request (hmac : mac ≠ BROADCAST_STR) (hs : Unheard s) {data : Bytes} (hdata : IsRequest parse mac data) (d p : Nat) :
    (∀ d' m, port (step parse s (.PacketIn ⟨d, p, OFP_NO_BUFFER, data⟩)) d' m =
      if d' = d ∧ m = mac then some ((port s d mac).getD p) else port s d' m) ∧
    (step parse s (.PacketIn ⟨d, p, OFP_NO_BUFFER, data⟩)).out =
      s.out ++ if ∃ q, port s d mac = some q ∧ q ≠ p then [] else [(d, floodOut data)] := by
  obtain ⟨u, s', hrun, hport, hout⟩ := ok_of_wp (wp_request hmac hs hdata d p OFP_NO_BUFFER)
  have hhandle : handle parse (.PacketIn ⟨d, p, OFP_NO_BUFFER, data⟩) s = .ok u s' := hrun
  unfold step
  rw [hhandle]
  exact ⟨hport, hout⟩

theorem isFrom_request {data : Bytes} (hdata : IsRequest parse mac data) : IsFrom parse mac data := by
  rw [IsFrom, hdata]
  rfl

theorem Sound.enter (hW : Physical W nodes) (h : Sound parse W mac nodes net) {data : Bytes} (hdata : IsRequest parse mac data) :
    Sound parse W mac nodes (turn parse W mac net (.enter data)) := by
  have hstep : Flooding.Step W.toTopology (floodState parse mac net) (floodState parse mac (turn parse W mac net (.enter data))) := .enter
  refine ⟨h.unheard, h.tables, h.spares, fun x hx => ?_, h.inv.step hstep, h.spent.step hstep hW.source hW.peers⟩
  rcases List.mem_append.mp hx with hx | hx
  · exact h.requests x hx
  · rw [List.mem_singleton.mp hx]
    exact hdata

theorem arrive_request (hmac : mac ≠ BROADCAST_STR) (hW : Physical W nodes) (h : Sound parse W mac nodes net) {d p : Nat} {data : Bytes}
    (hx : ((d, p), data) ∈ net.inflight) :
    ∃ app, (turn parse W mac net (.arrive ((d, p), data))).app = app ∧ (turn parse W mac net (.arrive ((d, p), data))).rules = net.rules ∧
      (∀ d' m, port app d' m = if d' = d ∧ m = mac then some ((port net.app d mac).getD p) else port net.app d' m) ∧
      (((∃ q, port net.app d mac = some q ∧ q ≠ p) ∧ app.out = net.app.out ∧ turn parse W mac net (.arrive ((d, p), data)) =
        { net with app, inflight := Flooding.without net.inflight ((d, p), data), arrived := net.arrived + 1 }) ∨
      ((port net.app d mac = none ∨ port net.app d mac = some p) ∧ app.out = net.app.out ++ [(d, floodOut data)] ∧
        turn parse W mac net (.arrive ((d, p), data)) = { net with app, inflight := Flooding.without net.inflight ((d, p), data) ++ W.toTopology.copies d data, arrived := net.arrived + 1 })) := by
  have hdata := h.requests _ hx
  obtain ⟨hport, hout⟩ := step_request hmac h.unheard hdata d p
  have hlookup := lookup_request (h.tables d (h.spent.inside _ hx)) hdata p
  have hturn : turn parse W mac net (.arrive ((d, p), data)) = Multipath.control parse W mac
      { net with inflight := Flooding.without net.inflight ((d, p), data), arrived := net.arrived + 1 } (.PacketIn ⟨d, p, OFP_NO_BUFFER, data⟩) := by
    show (if ((d, p), data) ∈ net.inflight then Multipath.arrive parse W mac _ ((d, p), data) else net) = _
    rw [if_pos hx]
    unfold Multipath.arrive
    simp only [hlookup]
    rfl
  rw [hturn]
  by_cases hother : ∃ q, port net.app d mac = some q ∧ q ≠ p
  · rw [if_pos hother, List.append_nil] at hout
    have hcontrol : Multipath.control parse W mac { net with inflight := Flooding.without net.inflight ((d, p), data), arrived := net.arrived + 1 }
        (.PacketIn ⟨d, p, OFP_NO_BUFFER, data⟩) =
          { net with
            app := step parse net.app (.PacketIn ⟨d, p, OFP_NO_BUFFER, data⟩)
            inflight := Flooding.without net.inflight ((d, p), data), arrived := net.arrived + 1 } := by
      show ((step parse net.app (.PacketIn ⟨d, p, OFP_NO_BUFFER, data⟩)).out.drop net.app.out.length).foldl _ _ = _
      rw [hout, List.drop_length]
      rfl
    rw [hcontrol]
    exact ⟨_, rfl, rfl, hport, Or.inl ⟨hother, hout, rfl⟩⟩
  · rw [if_neg hother] at hout
    have hcontrol : Multipath.control parse W mac { net with inflight := Flooding.without net.inflight ((d, p), data), arrived := net.arrived + 1 }
        (.PacketIn ⟨d, p, OFP_NO_BUFFER, data⟩) =
          { net with
            app := step parse net.app (.PacketIn ⟨d, p, OFP_NO_BUFFER, data⟩)
            inflight := Flooding.without net.inflight ((d, p), data) ++ W.toTopology.copies d data, arrived := net.arrived + 1 } := by
      show ((step parse net.app (.PacketIn ⟨d, p, OFP_NO_BUFFER, data⟩)).out.drop net.app.out.length).foldl _ _ = _
      rw [hout, List.drop_left]
      show execute parse W mac _ d (floodOut data) = _
      unfold execute floodOut
      simp only [if_pos (isFrom_request hdata), emit_flood hW]
    rw [hcontrol]
    refine ⟨_, rfl, rfl, hport, Or.inr ⟨?_, hout, rfl⟩⟩
    cases hp : port net.app d mac with
    | none => exact Or.inl rfl
    | some q =>
      by_cases hq : q = p
      · exact Or.inr (by rw [hq])
      · exact absurd ⟨q, hp, hq⟩ hother

theorem Sound.arrive (hmac : mac ≠ BROADCAST_STR) (hW : Physical W nodes) (h : Sound parse W mac nodes net) (x : (Nat × Nat) × Bytes) :
    Sound parse W mac nodes (turn parse W mac net (.arrive x)) := by
  by_cases hx : x ∈ net.inflight
  · obtain ⟨⟨d, p⟩, data⟩ := x
    have hdata := h.requests _ hx
    obtain ⟨app, happ, hrules, hport, hcase⟩ := arrive_request hmac hW h hx
    have hunheard : Unheard app := by
      intro d'
      rw [hport, if_neg fun hb => hmac hb.2.symm]
      exact h.unheard d'
    have hstep : Flooding.Step W.toTopology (floodState parse mac net) (floodState parse mac (turn parse W mac net (.arrive ((d, p), data)))) := by
      rcases hcase with ⟨⟨q, hq, hne⟩, hout, hturn⟩ | ⟨hl, hout, hturn⟩
      · have hlearned : (fun d' => port app d' mac) = fun d' => port net.app d' mac := by
          funext d'
          rw [hport]
          split
          · rename_i hd
            rw [hd.1, hq]
            rfl
          · rfl
        rw [hturn]
        have hdrop : floodState parse mac { net with app, inflight := Flooding.without net.inflight ((d, p), data), arrived := net.arrived + 1 } =
            (floodState parse mac net).drop d p data := by
          unfold floodState Flooding.State.drop
          show Flooding.State.mk (fun d' => port app d' mac) _ (floods parse mac app.out) _ _ = _
          rw [hlearned, hout]
        rw [hdrop]
        exact .drop hx hq hne
      · have hlearned : (fun d' => port app d' mac) = Function.update (fun d' => port net.app d' mac) d (some p) := by
          funext d'
          rw [hport]
          by_cases hd : d' = d
          · subst hd
            rw [if_pos ⟨rfl, rfl⟩, Function.update_self]
            rcases hl with hl | hl
            · rw [hl]
              rfl
            · rw [hl]
              rfl
          · rw [if_neg fun h => hd h.1, Function.update_of_ne hd]
        have hfloods : floods parse mac app.out = Function.update (floods parse mac net.app.out) d (floods parse mac net.app.out d ++ [data]) := by
          funext d'
          rw [hout, floods_append]
          by_cases hd : d' = d
          · subst hd
            rw [Function.update_self]
            have hone : floods parse mac [(d', floodOut data)] d' = [data] := by simp [floods, floodOut, isFrom_request hdata]
            rw [hone]
          · rw [Function.update_of_ne hd]
            have hnone : floods parse mac [(d, floodOut data)] d' = [] := by simp [floods, floodOut, Ne.symm hd]
            rw [hnone, List.append_nil]
        rw [hturn]
        have haccept : floodState parse mac { net with app, inflight := Flooding.without net.inflight ((d, p), data) ++ W.toTopology.copies d data, arrived := net.arrived + 1 } =
            (floodState parse mac net).accept W.toTopology d p data := by
          unfold floodState Flooding.State.accept
          show Flooding.State.mk (fun d' => port app d' mac) _ (floods parse mac app.out) _ _ = _
          rw [hlearned, hfloods]
        rw [haccept]
        rcases hl with hl | hl
        · exact .learn hx hl
        · exact .forward hx hl
    refine ⟨?_, fun d' hd' => ?_, fun d' => ?_, fun y hy => ?_, h.inv.step hstep, h.spent.step hstep hW.source hW.peers⟩
    · rw [happ]
      exact hunheard
    · rw [hrules]
      exact h.tables d' hd'
    · rw [hrules]
      exact h.spares d'
    · rcases hcase with ⟨-, -, hturn⟩ | ⟨-, -, hturn⟩
      · rw [hturn] at hy
        exact h.requests y (Flooding.mem_of_mem_without hy)
      · rw [hturn] at hy
        rcases List.mem_append.mp hy with hy | hy
        · exact h.requests y (Flooding.mem_of_mem_without hy)
        · obtain ⟨p', -, hp'⟩ := List.mem_filterMap.mp hy
          obtain ⟨b, -, rfl⟩ := Option.map_eq_some_iff.mp hp'
          exact hdata
  · have hsame : turn parse W mac net (.arrive x) = net := if_neg hx
    rw [hsame]
    exact h

/-! ## Runs -/

/-- The host only sends requests, and what else the application handles is not the host's. -/
def Fits (parse : Bytes → Packet) (mac : Bytes) : Turn → Prop
  | .enter data => IsRequest parse mac data
  | .arrive _ => True
  | .other i => Foreign parse mac i

theorem Sound.turn (hparse : ParsesByType parse) (hmac : mac ≠ BROADCAST_STR) (hW : Physical W nodes) (h : Sound parse W mac nodes net)
    {t : Turn} (ht : Fits parse mac t) : Sound parse W mac nodes (Multipath.turn parse W mac net t) := by
  cases t with
  | enter data => exact h.enter hW ht
  | arrive x => exact h.arrive hmac hW x
  | other i => exact h.control hparse ht

theorem Sound.run (hparse : ParsesByType parse) (hmac : mac ≠ BROADCAST_STR) (hW : Physical W nodes) : ∀ {ts : List Turn} {net : Net},
    Sound parse W mac nodes net → (∀ t ∈ ts, Fits parse mac t) → Sound parse W mac nodes (ts.foldl (Multipath.turn parse W mac) net)
  | [], _, h, _ => h
  | t :: ts, _, h, hts => by
    rw [List.forall_mem_cons] at hts
    rw [List.foldl_cons]
    exact Sound.run hparse hmac hW (h.turn hparse hmac hW hts.1) hts.2

/-- Before there are frames; each switch that has connected has its rule. -/
structure Idle (parse : Bytes → Packet) (mac : Bytes) (done : List Nat) (net : Net) : Prop where
  unheard : Unheard net.app
  tables : ∀ d ∈ done, missRule ∈ net.rules d
  spares : ∀ d, ∀ r ∈ net.rules d, r = missRule ∨ Spares r.rule
  state : floodState parse mac net = Flooding.init

theorem control_features (d : Nat) : Multipath.control parse W mac net (.SwitchFeatures d) =
    { net with
      app := { net.app with out := net.app.out ++ [(d, .FlowMod 0 0 {} [.Output OFPP_CONTROLLER OFPCML_NO_BUFFER])] }
      rules := Function.update net.rules d (addRule missRule (net.rules d)) } := by
  show ((net.app.out ++ [_]).drop net.app.out.length).foldl _ _ = _
  rw [List.drop_left]
  rfl

theorem Idle.connect {done : List Nat} (h : Idle parse mac done net) (d : Nat) :
    Idle parse mac (done ++ [d]) (Multipath.control parse W mac net (.SwitchFeatures d)) := by
  have hnone : ∀ d', floods parse mac [(d, .FlowMod 0 0 {} [.Output OFPP_CONTROLLER OFPCML_NO_BUFFER])] d' = [] := fun _ => rfl
  rw [control_features]
  refine ⟨h.unheard, fun d' hd' => ?_, fun d' => ?_, ?_⟩
  · show missRule ∈ Function.update net.rules d _ d'
    by_cases hd : d' = d
    · subst hd
      rw [Function.update_self]
      exact mem_addRule.mpr (Or.inl rfl)
    · rw [Function.update_of_ne hd]
      refine h.tables d' ((List.mem_append.mp hd').resolve_right fun hd'' => hd (List.mem_singleton.mp hd''))
  · show ∀ r ∈ Function.update net.rules d _ d', _
    by_cases hd : d' = d
    · subst hd
      rw [Function.update_self]
      exact spares_addRule (h.spares d') (Or.inl rfl)
    · rw [Function.update_of_ne hd]
      exact h.spares d'
  · rw [← h.state]
    unfold floodState
    have hfloods : floods parse mac (net.app.out ++ [(d, .FlowMod 0 0 {} [.Output OFPP_CONTROLLER OFPCML_NO_BUFFER])]) = floods parse mac net.app.out := by
      funext d'
      rw [floods_append, hnone, List.append_nil]
    show Flooding.State.mk _ _ (floods parse mac (net.app.out ++ _)) _ _ = _
    rw [hfloods]
    rfl

theorem idle_foldl : ∀ (nodes : List Nat) {done : List Nat} {net : Net}, Idle parse mac done net →
    Idle parse mac (done ++ nodes) (nodes.foldl (fun net d => Multipath.control parse W mac net (.SwitchFeatures d)) net)
  | [], done, net, h => by
    rw [List.append_nil]
    exact h
  | d :: nodes, done, net, h => by
    have hrest := idle_foldl nodes (h.connect (W := W) d)
    rwa [List.append_assoc] at hrest

theorem sound_connected (nodes : List Nat) : Sound parse W mac nodes (connected parse W mac nodes) := by
  have hstart : Idle parse mac [] {} := ⟨fun _ => rfl, fun _ hd => absurd hd List.not_mem_nil, fun _ _ hr => absurd hr List.not_mem_nil, rfl⟩
  have h : Idle parse mac nodes (connected parse W mac nodes) := idle_foldl nodes hstart
  have hinflight : (connected parse W mac nodes).inflight = [] := congrArg Flooding.State.inflight h.state
  refine ⟨h.unheard, fun d hd => ⟨h.tables d hd, h.spares d⟩, h.spares, fun x hx => ?_, ?_, ?_⟩
  · rw [hinflight] at hx
    exact absurd hx List.not_mem_nil
  · rw [h.state]
    exact Flooding.inv_init
  · rw [h.state]
    exact Flooding.spent_init

/-- Three switches in a ring. -/
def ringPeer (k : Nat × Nat) : Option (Nat × Nat) :=
  if k = (1, 1) then some (2, 1) else if k = (2, 1) then some (1, 1) else if k = (2, 2) then some (3, 1)
  else if k = (3, 1) then some (2, 2) else if k = (3, 2) then some (1, 2) else if k = (1, 2) then some (3, 2) else none

def ringPorts (d : Nat) : List Nat := if d = 1 then [1, 2, 3] else if d = 2 then [1, 2] else if d = 3 then [1, 2] else []

theorem ringPeer_cases {a b : Nat × Nat} (h : ringPeer a = some b) : ringPeer b = some a ∧ a.2 ∈ ringPorts a.1 ∧ b.1 ∈ [1, 2, 3] := by
  unfold ringPeer at h
  split_ifs at h with h₁ h₂ h₃ h₄ h₅ h₆
  all_goals
    cases h
    subst a
    decide

def ring : Wiring where
  ports := ringPorts
  peer := ringPeer
  source := (1, 3)
  nodup d := by
    unfold ringPorts
    split_ifs <;> decide
  symm _ _ h := (ringPeer_cases h).1
  mem _ _ h := (ringPeer_cases h).2.1
  free := rfl
  group _ _ _ := []

theorem ring_physical : Physical ring [1, 2, 3] := by
  refine ⟨fun d p hp => ?_, by decide, fun _ _ h => (ringPeer_cases h).2.2⟩
  have hp : p ∈ ringPorts d := hp
  have hall : ∀ p ∈ [1, 2, 3], p < OFPP_MAX := by decide
  unfold ringPorts at hp
  split_ifs at hp
  · exact hall p hp
  · exact hall p (by simp at hp; rcases hp with rfl | rfl <;> decide)
  · exact hall p (by simp at hp; rcases hp with rfl | rfl <;> decide)
  · exact absurd hp List.not_mem_nil

def ringMac : Bytes := asciiText "02:00:00:00:00:01"

def ringParse (data : Bytes) : Packet :=
  if data = [1] then ⟨some ⟨ringMac, BROADCAST_STR, ETH_TYPE_ARP⟩, true, none, false⟩ else ⟨none, false, none, false⟩

/-- The first copies to come in go on, the others meet them and end. -/
def ringTurns : List Turn :=
  .enter [1] :: [(1, 3), (2, 1), (3, 2), (1, 1), (3, 1), (2, 2), (1, 2)].map fun k => .arrive (k, [1])

def ringNet : Net := ringTurns.foldl (turn ringParse ring ringMac) (connected ringParse ring ringMac [1, 2, 3])

theorem ringParse_byType : ParsesByType ringParse := by
  intro data eth _ hip
  unfold ringParse at hip
  split_ifs at hip <;> exact absurd rfl hip

theorem ringTurns_fit : ∀ t ∈ ringTurns, Fits ringParse ringMac t := by
  intro t ht
  rcases List.mem_cons.mp ht with rfl | ht
  · exact (rfl : ringParse [1] = _)
  · obtain ⟨k, -, rfl⟩ := List.mem_map.mp ht
    exact trivial

end Multipath

end VnfDockerNet
