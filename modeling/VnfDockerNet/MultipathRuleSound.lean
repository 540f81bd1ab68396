import VnfDockerNet.MultipathSound

/-!
# The rules of the application for several paths

No entry of the table changes, so no rule goes stale. The group goes out when a
rule first needs it and not again.
-/

namespace VnfDockerNet

open Python

namespace Multipath

variable {parse : Bytes → Packet} {s s' : MULTIPATH_13}

/-- A rule for an address sends to the port that the table has for it. -/
def Follows (s : MULTIPATH_13) : Nat × SwitchMsg → Prop
  | (d, .FlowMod _ _ rule actions) => ∀ m, rule.eth_dst = some m → ∃ p, actions = [.Output p] ∧ port s d m = some p
  | _ => True

def IsGroupMod : SwitchMsg → Bool
  | .GroupMod .. => true
  | _ => false

def UsesGroup (g : Nat) : SwitchMsg → Prop
  | .FlowMod _ _ _ actions => .Group g ∈ actions
  | _ => False

structure Consistent (s : MULTIPATH_13) : Prop where
  follows : ∀ x ∈ s.out, Follows s x
  ungrouped : s.FLAGS = true → ∀ x ∈ s.out, IsGroupMod x.2 = false ∧ ∀ g, ¬ UsesGroup g x.2
  grouped : s.FLAGS = false → ∃ before buckets after, s.out = before ++ (1, .GroupMod 50 buckets) :: after ∧
    (∀ x ∈ before, IsGroupMod x.2 = false ∧ ∀ g, ¬ UsesGroup g x.2) ∧
    ∀ x ∈ after, IsGroupMod x.2 = false ∧ ∀ g, UsesGroup g x.2 → x.1 = 1 ∧ g = 50

theorem consistent_init : Consistent {} :=
  ⟨fun _ hx => absurd hx List.not_mem_nil, fun _ _ hx => absurd hx List.not_mem_nil, fun h => by cases h⟩

theorem Follows.mono {x : Nat × SwitchMsg} (h : Follows s x) (hport : ∀ d m p, port s d m = some p → port s' d m = some p) : Follows s' x := by
  obtain ⟨d, msg⟩ := x
  cases msg with
  | FlowMod priority hard_timeout rule actions =>
    intro m hm
    obtain ⟨p, hp, hport'⟩ := h m hm
    exact ⟨p, hp, hport d m p hport'⟩
  | _ => trivial

theorem Consistent.mono (h : Consistent s) (hout : s'.out = s.out) (hflags : s'.FLAGS = s.FLAGS)
    (hport : ∀ d m p, port s d m = some p → port s' d m = some p) : Consistent s' := by
  refine ⟨fun x hx => ?_, ?_, ?_⟩
  · rw [hout] at hx
    exact (h.follows x hx).mono hport
  · rw [hout, hflags]
    exact h.ungrouped
  · rw [hout, hflags]
    exact h.grouped

theorem Consistent.send (h : Consistent s) {d : Nat} {msg : SwitchMsg} (hfollows : Follows s (d, msg)) (hno : IsGroupMod msg = false)
    (huses : ∀ g, UsesGroup g msg → s.FLAGS = false ∧ d = 1 ∧ g = 50) : Consistent { s with out := s.out ++ [(d, msg)] } := by
  refine ⟨fun x hx => ?_, fun hflags x hx => ?_, fun hflags => ?_⟩
  · rcases List.mem_append.mp hx with hx | hx
    · exact (h.follows x hx).mono fun _ _ _ hp => hp
    · rw [List.mem_singleton.mp hx]
      exact hfollows.mono fun _ _ _ hp => hp
  · rcases List.mem_append.mp hx with hx | hx
    · exact h.ungrouped hflags x hx
    · rw [List.mem_singleton.mp hx]
      refine ⟨hno, fun g hg => ?_⟩
      have hfalse := (huses g hg).1
      rw [show s.FLAGS = true from hflags] at hfalse
      cases hfalse
  · obtain ⟨before, buckets, after, hout, hbefore, hafter⟩ := h.grouped hflags
    refine ⟨before, buckets, after ++ [(d, msg)], ?_, hbefore, fun x hx => ?_⟩
    · show s.out ++ [(d, msg)] = _
      rw [hout, List.append_assoc, List.cons_append]
    · rcases List.mem_append.mp hx with hx | hx
      · exact hafter x hx
      · rw [List.mem_singleton.mp hx]
        exact ⟨hno, fun g hg => (huses g hg).2⟩

theorem consistent_add_flow (h : Consistent s) {d hard_timeout priority : Nat} {rule : OFPMatch} {actions : List Action}
    (hfollows : ∀ m, rule.eth_dst = some m → ∃ p, actions = [.Output p] ∧ port s d m = some p)
    (huses : ∀ g, .Group g ∈ actions → s.FLAGS = false ∧ d = 1 ∧ g = 50) :
    wp (add_flow d hard_timeout priority rule actions) s (fun _ s' => Consistent s' ∧ s'.FLAGS = s.FLAGS) fun _ _ => False :=
  ⟨h.send hfollows rfl huses, rfl⟩

theorem consistent_packet_out (h : Consistent s) (d buffer_id src_port : Nat) (dst_port : Option Nat) (data : Option Bytes) :
    wp (send_packet_out d buffer_id src_port dst_port data) s (fun _ => Consistent) fun _ _ => False := by
  have hsend : ∀ {actions : List Action} {data : Option Bytes}, Consistent { s with out := s.out ++ [(d, .PacketOut buffer_id src_port actions data)] } :=
    h.send trivial rfl fun _ hg => hg.elim
  unfold send_packet_out _build_packet_out
  split_ifs
  · cases data with
    | none => exact h
    | some data => exact hsend
  · exact hsend

theorem consistent_flood (h : Consistent s) (msg : PacketIn) : wp (flood msg) s (fun _ => Consistent) fun _ _ => False := by
  rw [out_flood]
  exact h.send trivial rfl fun _ hg => hg.elim

theorem port_mono_mac_learning {d : Nat} {src : Bytes} {p : Nat}
    (h : ∀ d' m, port s' d' m = if d' = d ∧ m = src then some ((port s d src).getD p) else port s d' m) (d' : Nat) (m : Bytes) (q : Nat)
    (hq : port s d' m = some q) : port s' d' m = some q := by
  rw [h]
  split
  · rename_i heq
    rw [heq.1, heq.2] at hq
    rw [hq]
    rfl
  · exact hq

theorem consistent_mac_learning (h : Consistent s) (d : Nat) (src : Bytes) (p : Nat) :
    wp (mac_learning d src p) s (fun _ => Consistent) fun _ _ => False := by
  refine wp_mono (wp_mac_learning d src p) (fun _ s' hs => ?_) fun _ _ h => h
  obtain ⟨-, hout, hflags, -, hport⟩ := hs
  exact h.mono hout hflags (port_mono_mac_learning hport)

theorem consistent_forward (h : Consistent s) {msg : PacketIn} {eth : Ethernet} {macs : Dict Bytes Nat} {out_port : Nat}
    (hmacs : s.mac_to_port.get msg.dpid = some macs) (hdst : macs.get eth.dst = some out_port) :
    wp (do
      add_flow msg.dpid 0 1 { in_port := some msg.in_port, eth_dst := some eth.dst, eth_type := some eth.ethertype } [.Output out_port]
      send_packet_out msg.dpid msg.buffer_id msg.in_port (some out_port) (some msg.data)) s (fun _ => Consistent) fun _ _ => False := by
  rw [wp_bind]
  refine wp_mono (consistent_add_flow h (fun m hm => ⟨out_port, rfl, ?_⟩) fun g hg => ?_) (fun _ s₁ h₁ => ?_) fun _ _ h => h
  · cases hm
    rw [port_of_get hmacs, hdst]
  · exact absurd (List.mem_singleton.mp hg) (by simp)
  · exact consistent_packet_out h₁.1 ..

theorem consistent_arp_forwarding (h : Consistent s) (msg : PacketIn) (eth : Ethernet) :
    wp (arp_forwarding msg eth) s (fun _ => Consistent) fun _ => Consistent := by
  unfold arp_forwarding
  simp only [wp_bind, wp_get, wp_item]
  refine ⟨fun macs hmacs => ?_, fun _ => h⟩
  cases hdst : macs.get eth.dst with
  | none => exact wp_mono (consistent_flood h msg) (fun _ _ h => h) fun _ _ h => h.elim
  | some out_port => exact wp_mono (consistent_forward h hmacs hdst) (fun _ _ h => h) fun _ _ h => h.elim

theorem consistent_firstGroup (h : Consistent s) : wp (firstGroup 1) s (fun _ s' => Consistent s' ∧ s'.FLAGS = false) fun _ _ => False := by
  unfold firstGroup
  rw [wp_bind, wp_get, wp_ite]
  constructor
  · intro hflags
    simp only [send_group_mod, send_msg, wp_bind, wp_modify]
    refine ⟨⟨fun x hx => ?_, (fun hfalse => by cases hfalse), fun _ => ?_⟩, trivial⟩
    · rcases List.mem_append.mp hx with hx | hx
      · exact (h.follows x hx).mono fun _ _ _ hp => hp
      · rw [List.mem_singleton.mp hx]
        exact trivial
    · exact ⟨s.out, _, [], rfl, h.ungrouped hflags, fun _ hx => absurd hx List.not_mem_nil⟩
  · intro hflags
    exact ⟨h, by simpa using hflags⟩

theorem consistent_useGroup (h : Consistent s) {msg : PacketIn} (hd : msg.dpid = 1) (eth : Ethernet) (ipv4_src : Bytes) :
    wp (useGroup msg eth ipv4_src) s (fun _ => Consistent) fun _ _ => False := by
  unfold useGroup
  rw [wp_bind, hd]
  refine wp_mono (consistent_firstGroup h) (fun _ s₁ h₁ => ?_) fun _ _ h => h
  rw [wp_bind]
  refine wp_mono (consistent_add_flow h₁.1 (fun m hm => by cases hm) fun g hg => ⟨h₁.2, rfl, ?_⟩) (fun _ s₂ h₂ => ?_) fun _ _ h => h
  · cases List.mem_singleton.mp hg
    rfl
  · exact consistent_packet_out h₂.1 ..

theorem consistent_processIpv4 (h : Consistent s) (msg : PacketIn) (eth : Ethernet) (ipv4_src : Bytes) :
    wp (processIpv4 msg eth ipv4_src) s (fun _ => Consistent) fun _ => Consistent := by
  unfold processIpv4
  simp only [wp_bind, wp_get, wp_item]
  refine ⟨fun macs hmacs => ?_, fun _ => h⟩
  cases hdst : macs.get eth.dst with
  | none =>
    show wp (mac_learning msg.dpid eth.src msg.in_port >>= fun learned => if learned = some false then pure () else flood msg) s _ _
    rw [wp_bind]
    refine wp_mono (consistent_mac_learning h msg.dpid eth.src msg.in_port) (fun r s₁ h₁ => ?_) fun _ _ h => h.elim
    rw [wp_ite]
    exact ⟨fun _ => h₁, fun _ => wp_mono (consistent_flood h₁ msg) (fun _ _ h => h) fun _ _ h => h.elim⟩
  | some out_port =>
    show wp (if msg.dpid = 1 ∧ msg.in_port = 1 then useGroup msg eth ipv4_src else _) s _ _
    rw [wp_ite]
    refine ⟨fun hone => wp_mono (consistent_useGroup h hone.1 eth ipv4_src) (fun _ _ h => h) fun _ _ h => h.elim, fun _ => ?_⟩
    exact wp_mono (consistent_forward h hmacs hdst) (fun _ _ h => h) fun _ _ h => h.elim

theorem consistent_handle (h : Consistent s) (i : Input) : wp (handle parse i) s (fun _ => Consistent) fun _ => Consistent := by
  cases i with
  | SwitchFeatures dpid =>
    refine h.send (fun m hm => by cases hm) rfl fun g hg => ?_
    exact absurd (List.mem_singleton.mp hg) (by simp)
  | StateChange datapath state =>
    cases state with
    | MAIN => exact h.mono rfl rfl fun _ _ _ hp => hp
    | DEAD => exact h.mono rfl rfl fun _ _ _ hp => hp
  | PacketIn msg =>
    show wp (_packet_in_handler parse msg) s _ _
    unfold _packet_in_handler
    cases heth : (parse msg.data).eth with
    | none => exact h
    | some eth =>
      show wp (if (parse msg.data).ipv6 = true then _ else _) s _ _
      rw [wp_ite]
      refine ⟨fun _ => h.send (fun m hm => by cases hm) rfl fun g hg => absurd hg List.not_mem_nil, fun _ => ?_⟩
      rw [wp_bind]
      have harp : wp (arpFirst (parse msg.data).arp msg eth) s (fun _ => Consistent) fun _ => Consistent := by
        unfold arpFirst
        rw [wp_ite]
        refine ⟨fun _ => ?_, fun _ => h⟩
        unfold processArp
        rw [wp_bind]
        refine wp_mono (consistent_mac_learning h msg.dpid eth.src msg.in_port) (fun r s₁ h₁ => ?_) fun _ _ h => h.elim
        rw [wp_ite]
        refine ⟨fun _ => h₁, fun _ => ?_⟩
        rw [wp_bind]
        exact consistent_arp_forwarding h₁ msg eth
      refine wp_mono harp (fun done s₁ h₁ => ?_) fun _ _ h => h
      cases done with
      | true => exact h₁
      | false =>
        cases hip : (parse msg.data).ipv4 with
        | none => exact h₁
        | some ipv4_src => exact consistent_processIpv4 h₁ msg eth ipv4_src

theorem consistent_run : ∀ (is : List Input) {s : MULTIPATH_13}, Consistent s → Consistent (is.foldl (step parse) s)
  | [], _, h => h
  | i :: is, s, h => by
    rw [List.foldl_cons]
    refine consistent_run is ?_
    have hwp : wp (handle parse i) s (fun _ => Consistent) fun _ => Consistent := consistent_handle h i
    unfold wp at hwp
    unfold step
    cases hx : handle parse i s with
    | ok u s' =>
      rw [hx] at hwp
      exact hwp
    | error e s' =>
      rw [hx] at hwp
      exact hwp

theorem Consistent.one_group (h : Consistent s) : (s.out.filter fun x => IsGroupMod x.2).length ≤ 1 := by
  have hno : ∀ l : List (Nat × SwitchMsg), (∀ x ∈ l, IsGroupMod x.2 = false) → (l.filter fun x => IsGroupMod x.2) = [] := by
    intro l hl
    simp only [List.filter_eq_nil_iff]
    intro x hx
    simp [hl x hx]
  cases hflags : s.FLAGS with
  | true =>
    rw [hno s.out fun x hx => (h.ungrouped hflags x hx).1]
    simp
  | false =>
    obtain ⟨first, buckets, last, hsplit, hfirst, hlast⟩ := h.grouped hflags
    rw [hsplit, List.filter_append, List.filter_cons, hno first fun x hx => (hfirst x hx).1, hno last fun x hx => (hlast x hx).1]
    simp [IsGroupMod]

/-- A rule that uses a group stands after it. -/
theorem Consistent.group_before (h : Consistent s) {before after : List (Nat × SwitchMsg)} {x : Nat × SwitchMsg} {g : Nat}
    (hout : s.out = before ++ x :: after) (hg : UsesGroup g x.2) : x.1 = 1 ∧ ∃ buckets, (1, .GroupMod g buckets) ∈ before := by
  have hx : x ∈ s.out := by simp [hout]
  cases hflags : s.FLAGS with
  | true => exact absurd hg ((h.ungrouped hflags x hx).2 g)
  | false =>
    obtain ⟨first, buckets, last, hsplit, hfirst, hlast⟩ := h.grouped hflags
    rw [hsplit] at hout
    rcases List.append_eq_append_iff.mp hout with ⟨mid, hbefore, hmid⟩ | ⟨mid, hfirst', hmid⟩
    · -- the group itself uses none
      cases mid with
      | nil =>
        cases hmid
        exact hg.elim
      | cons y mid =>
        cases hmid
        obtain ⟨hd, rfl⟩ := (hlast x (by simp)).2 g hg
        refine ⟨hd, buckets, ?_⟩
        simp [hbefore]
    · cases mid with
      | nil =>
        cases hmid
        exact hg.elim
      | cons y mid =>
        cases hmid
        exact absurd hg ((hfirst x (by simp [hfirst'])).2 g)

/-- **Rules and table agree**: whatever the application handles, each rule it has
sent for an address outputs to the one port of the address at that switch, a
group is added at most once, and before each rule that uses it. -/
theorem rules_agree_with_table (parse : Bytes → Packet) (is : List Input) :
    let s := is.foldl (step parse) ({} : MULTIPATH_13)
    (∀ d priority hard_timeout rule actions m, (d, .FlowMod priority hard_timeout rule actions) ∈ s.out → rule.eth_dst = some m →
      ∃ p, actions = [.Output p] ∧ port s d m = some p) ∧
    (s.out.filter fun x => IsGroupMod x.2).length ≤ 1 ∧
    ∀ before x after g, s.out = before ++ x :: after → UsesGroup g x.2 → x.1 = 1 ∧ ∃ buckets, (1, .GroupMod g buckets) ∈ before := by
  have h : Consistent (is.foldl (step parse) ({} : MULTIPATH_13)) := consistent_run is consistent_init
  refine ⟨fun d priority hard_timeout rule actions m hx hm => h.follows _ hx m hm, h.one_group, fun before x after g hout hg => ?_⟩
  exact h.group_before hout hg

end Multipath

end VnfDockerNet
