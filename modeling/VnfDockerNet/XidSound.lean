import VnfDockerNet.Network
import VnfDockerNet.Registry
import VnfDockerNet.LocalHostSound

/-!
# Answers and the packets they release

A FLOW_MOD carries the xid of the PACKET_IN it answers to every controller on
the path, and each takes the packet it has under that xid. It is the packet that
was asked about in the runs in which no controller of the path has another
packet under the xid when the FLOW_MODs are sent or stores one before they arrive.
-/

namespace VnfDockerNet

open Python Networkx Runs

/-! ## Requests -/

def SentUp.isPacketIn (buf : SentUp) : Bool :=
  match buf.msg with
  | .PacketIn .. => true
  | _ => false

/-- The last request with the xid is message number `pos`; `askCentral` stores
an entry whenever it sends one. -/
def RequestAt (sent : List SentUp) (xid pos : Nat) : Prop :=
  (∃ buf ∈ sent[pos]?, buf.xid = xid ∧ buf.isPacketIn = true) ∧
    ∀ buf ∈ sent.drop (pos + 1), buf.xid = xid → buf.isPacketIn = false

instance (sent : List SentUp) (xid pos : Nat) : Decidable (RequestAt sent xid pos) := inferInstanceAs (Decidable (_ ∧ _))

theorem RequestAt.append {sent new : List SentUp} {xid pos : Nat} (h : RequestAt sent xid pos)
    (hnew : ∀ buf ∈ new, buf.xid = xid → buf.isPacketIn = false) : RequestAt (sent ++ new) xid pos := by
  obtain ⟨⟨buf, hbuf, hxid, hask⟩, hlast⟩ := h
  have hpos : pos < sent.length := (List.getElem?_eq_some_iff.mp hbuf).1
  refine ⟨⟨buf, ?_, hxid, hask⟩, fun buf' hmem => ?_⟩
  · rw [List.getElem?_append_left hpos]
    exact hbuf
  · rw [List.drop_append_of_le_length hpos] at hmem
    rcases List.mem_append.mp hmem with hmem | hmem
    · exact hlast buf' hmem
    · exact hnew buf' hmem

namespace Layer2Switch

variable {env : LocalEnv} {s : Layer2Switch env.nx.Graph}

/-! ## Storing a packet -/

/-- A packet is pending only if it was before or its request was sent. -/
def Asked {Γ : Type} (s s' : Layer2Switch Γ) : Prop :=
  ∃ new, s'.sent = s.sent ++ new ∧
    ∀ x ∈ s'.xid_to_packet, x ∈ s.xid_to_packet ∨ ∃ buf ∈ new, buf.xid = x ∧ buf.isPacketIn = true

instance {Γ : Type} : IsPreorder (Layer2Switch Γ) Asked where
  refl s := ⟨[], (List.append_nil _).symm, fun _ hx => Or.inl hx⟩
  trans s s' s'' h h' := by
    obtain ⟨new, hsent, hask⟩ := h
    obtain ⟨new', hsent', hask'⟩ := h'
    refine ⟨new ++ new', by rw [hsent', hsent, List.append_assoc], fun x hx => ?_⟩
    rcases hask' x hx with hx | ⟨buf, hmem, hbuf⟩
    · rcases hask x hx with hx | ⟨buf, hmem, hbuf⟩
      · exact Or.inl hx
      · exact Or.inr ⟨buf, List.mem_append_left _ hmem, hbuf⟩
    · exact Or.inr ⟨buf, List.mem_append_right _ hmem, hbuf⟩

theorem asked_of_same {s s' : Layer2Switch env.nx.Graph} (hsent : s'.sent = s.sent)
    (hpending : ∀ x, x ∈ s'.xid_to_packet → x ∈ s.xid_to_packet) : Asked s s' :=
  ⟨[], by rw [hsent, List.append_nil], fun x hx => Or.inl (hpending x hx)⟩

theorem asked_sent (s : Layer2Switch env.nx.Graph) (xid : Nat) (msg : MsgUp) :
    Asked s { s with sent := s.sent ++ [⟨xid, msg⟩] } := ⟨[⟨xid, msg⟩], rfl, fun _ hx => Or.inl hx⟩

/-- What ryu reads from a packet fits the fields of a PACKET_IN. -/
def Parsed : LocalEvent → Prop
  | .PacketIn _ msg => msg.datapath.id < 2 ^ 64 ∧ (∀ eth ∈ msg.pkt.eth, eth.src.length = 17 ∧ eth.dst.length = 17) ∧
    (∀ nw ∈ msg.pkt.nw, nw.src.length = 4 ∧ nw.dst.length = 4) ∧
    (∀ tp ∈ msg.pkt.tp, tp.src_port < 2 ^ 16 ∧ tp.dst_port < 2 ^ 16) ∧
    ∀ up ∈ msg.pkt.up, up.src_port < 2 ^ 16 ∧ up.dst_port < 2 ^ 16
  | _ => True

instance : ∀ e, Decidable (Parsed e)
  | .PacketIn _ _ => inferInstanceAs (Decidable (_ ∧ _))
  | .SwitchFeatures _ | .RoleReply .. | .TopologyChange _ | .SwitchLeave _ | .Connected | .Downlink .. | .LoadRound
  | .GraphInfoRound _ | .TimeoutRound _ => isTrue trivial

theorem headers_fit {pkt : Packet} (hnw : ∀ nw ∈ pkt.nw, nw.src.length = 4 ∧ nw.dst.length = 4)
    (htp : ∀ tp ∈ pkt.tp, tp.src_port < 2 ^ 16 ∧ tp.dst_port < 2 ^ 16)
    (hup : ∀ up ∈ pkt.up, up.src_port < 2 ^ 16 ∧ up.dst_port < 2 ^ 16) :
    natBE pkt.headers.1 < 2 ^ 32 ∧ natBE pkt.headers.2.1 < 2 ^ 32 ∧ pkt.headers.2.2.1 < 2 ^ 16 ∧
      pkt.headers.2.2.2 < 2 ^ 16 := by
  have hip : ∀ ip : Bytes, ip.length = 4 → natBE ip < 2 ^ 32 := fun ip hlen => by
    have := natBE_lt ip
    rw [hlen] at this
    exact this
  unfold Packet.headers
  cases hpkt : pkt.nw with
  | none =>
    show natBE [0, 0, 0, 0] < 2 ^ 32 ∧ natBE [0, 0, 0, 0] < 2 ^ 32 ∧ 0 < 2 ^ 16 ∧ 0 < 2 ^ 16
    decide
  | some nw =>
    obtain ⟨hsrc, hdst⟩ := hnw nw hpkt
    have hsrc := hip nw.src hsrc
    have hdst := hip nw.dst hdst
    cases hudp : pkt.up with
    | some up => exact ⟨hsrc, hdst, hup up hudp⟩
    | none =>
      cases htcp : pkt.tp with
      | some tp => exact ⟨hsrc, hdst, htp tp htcp⟩
      | none => exact ⟨hsrc, hdst, Nat.two_pow_pos 16, Nat.two_pow_pos 16⟩

theorem asked_askCentral {now : Nat} {msg : PacketIn} {eth : Ethernet} (hparsed : Parsed (.PacketIn now msg))
    (heth : msg.pkt.eth = some eth) : Moves Asked (askCentral env now msg eth) := by
  obtain ⟨hdpid, hmac, hnw, htp, hup⟩ := hparsed
  obtain ⟨hsrc, hdst, hsp, hdp⟩ := headers_fit hnw htp hup
  obtain ⟨hsm, hdm⟩ := hmac eth heth
  intro s
  have hxid : (s.xid + 1) &&& MAX_XID < 2 ^ 32 := Nat.lt_succ_of_le Nat.and_le_right
  have hfits : (TFLCPPacketIn msg.datapath.id eth.src eth.dst (some msg.pkt.headers.1) (some msg.pkt.headers.2.1)
      msg.pkt.headers.2.2.1 msg.pkt.headers.2.2.2).fits = true := by
    have hsp' := lt_trans hsp (show 2 ^ 16 < 2 ^ 64 by decide)
    have hdp' := lt_trans hdp (show 2 ^ 16 < 2 ^ 64 by decide)
    simp only [TFLCPPacketIn, MsgUp.fits, ipField, Bool.and_eq_true, decide_eq_true_eq, beq_iff_eq]
    exact ⟨⟨⟨⟨⟨⟨hdpid, hsm⟩, hdm⟩, hsrc⟩, hdst⟩, hsp'⟩, hdp'⟩
  obtain ⟨frame, hframe, _⟩ := uplink_delivers env.host hxid _ rfl hfits
  unfold askCentral set_xid send_msg transmit messageXid
  simp only [wp_bind, wp_modify, wp_get, wp_pure, hframe]
  refine ⟨_, rfl, fun y hy => ?_⟩
  rcases (AList.mem_insert _).mp hy with rfl | hy
  · exact Or.inr ⟨_, List.mem_singleton_self _, rfl, rfl⟩
  · exact Or.inl hy

theorem asked_forward {now : Nat} {msg : PacketIn} {eth : Ethernet} (hparsed : Parsed (.PacketIn now msg))
    (heth : msg.pkt.eth = some eth) : Moves Asked (forward env now msg eth) := by
  have hout : ∀ (s : Layer2Switch env.nx.Graph) x, Asked s { s with switch_out := s.switch_out ++ [x] } :=
    fun s _ => asked_of_same rfl fun _ hx => hx
  unfold forward
  refine .bind .get fun s => .ite ?_ (.ite (moves_send_switch hout _ _) (.ite (asked_askCentral hparsed heth) (.pure _)))
  cases env.nx.shortest_path s.net (.dpid msg.datapath.id) (.mac eth.dst) with
  | ok path => exact moves_forwardPath hout msg eth path
  | error e => cases e <;> first | exact .pure _ | exact .throw _

theorem asked_ofp_packet_in_handler {now : Nat} {msg : PacketIn} (hparsed : Parsed (.PacketIn now msg)) :
    Moves Asked (ofp_packet_in_handler env now msg) := by
  have hsame : ∀ s s' : Layer2Switch env.nx.Graph, s'.sent = s.sent → s'.xid_to_packet = s.xid_to_packet → Asked s s' :=
    fun s s' hsent hpending => asked_of_same hsent fun x hx => by rw [hpending] at hx; exact hx
  unfold ofp_packet_in_handler
  cases heth : msg.pkt.eth with
  | none => exact .throw _
  | some eth =>
    refine .ite (moves_markPort (fun s _ _ _ => hsame s _ rfl rfl) _ _) ?_
    refine .bind (moves_countPacket (fun s _ _ _ => hsame s _ rfl rfl) _) fun _ => .bind ?_ fun _ =>
      asked_forward hparsed heth
    apply moves_learnHost (P := fun _ => True)
    · exact fun s _ => hsame s _ rfl rfl
    · exact fun s xid msg _ => asked_sent s xid msg
    · exact fun s _ => hsame s _ rfl rfl
    · exact fun s _ _ _ => hsame s _ rfl rfl
    · exact fun _ _ => trivial
    · exact fun s _ => hsame s _ rfl rfl
    · exact fun s _ _ _ => hsame s _ rfl rfl
    · exact fun s _ _ _ => hsame s _ rfl rfl
    · exact fun _ _ => trivial

theorem asked_step (s : Layer2Switch env.nx.Graph) {e : LocalEvent} (hparsed : Parsed e) : Asked s (step env s e) := by
  have hsame : ∀ s s' : Layer2Switch env.nx.Graph, s'.sent = s.sent → s'.xid_to_packet = s.xid_to_packet → Asked s s' :=
    fun s s' hsent hpending => asked_of_same hsent fun x hx => by rw [hpending] at hx; exact hx
  apply step_of_wp
  · exact fun s' h => trans_of Asked h (hsame _ _ rfl rfl)
  · have hquiet : (∀ now msg, e ≠ .PacketIn now msg) → Moves Asked (handle env e) := by
      intro hask
      apply moves_handle e
      · exact fun s s' _ _ hsent hpending => hsame s s' hsent hpending
      · exact fun s xid msg _ => asked_sent s xid msg
      · exact fun s x => asked_of_same rfl fun y hy => (AList.mem_erase.mp hy).2
      · exact fun s _ now msg he => absurd he (hask now msg)
      · exact fun s _ _ => hsame s _ rfl rfl
      · exact fun s _ _ => hsame s _ rfl rfl
      · exact fun s _ _ => hsame s _ rfl rfl
      · exact fun s _ _ _ => hsame s _ rfl rfl
    cases e with
    | PacketIn now msg => exact asked_ofp_packet_in_handler hparsed s
    | _ => exact hquiet (fun _ _ he => by cases he) s

theorem asked_happen (s : Layer2Switch env.nx.Graph) {e : LocalEvent} (hparsed : Parsed e) :
    Asked s (Network.happen env s e) := by
  apply Network.happen_of_greet _ e (asked_step s hparsed)
  refine .bind (.modify fun s => asked_of_same rfl fun _ hx => hx) fun _ => ?_
  apply moves_send_msg (P := fun _ => True)
  · exact fun s _ => asked_of_same rfl fun _ hx => hx
  · exact fun s xid msg _ => asked_sent s xid msg
  · trivial

/-! ## Releasing a packet -/

/-- A message from the central controller asks nothing and releases at most the
packet under its own xid. -/
def Released {Γ : Type} (xid : Nat) (s s' : Layer2Switch Γ) : Prop :=
  (∃ new, s'.sent = s.sent ++ new ∧ ∀ buf ∈ new, buf.isPacketIn = false) ∧
    (∀ x ∈ s'.xid_to_packet, x ∈ s.xid_to_packet) ∧ ∀ x ∈ s.xid_to_packet, x ∉ s'.xid_to_packet → x = xid

instance {Γ : Type} (xid : Nat) : IsPreorder (Layer2Switch Γ) (Released xid) where
  refl s := ⟨⟨[], (List.append_nil _).symm, fun _ hb => absurd hb List.not_mem_nil⟩, fun _ hx => hx,
    fun _ hx hn => absurd hx hn⟩
  trans s s' s'' h h' := by
    obtain ⟨⟨new, hsent, hnew⟩, hsub, hgone⟩ := h
    obtain ⟨⟨new', hsent', hnew'⟩, hsub', hgone'⟩ := h'
    refine ⟨⟨new ++ new', by rw [hsent', hsent, List.append_assoc], fun buf hmem => ?_⟩,
      fun x hx => hsub x (hsub' x hx), fun x hx hn => ?_⟩
    · exact (List.mem_append.mp hmem).elim (hnew buf) (hnew' buf)
    · by_cases hmid : x ∈ s'.xid_to_packet
      · exact hgone' x hmid hn
      · exact hgone x hx hmid

theorem released_downlink (s : Layer2Switch env.nx.Graph) (now : Nat) (ev : Event MsgDown) :
    Released ev.header.xid s (step env s (.Downlink now ev)) := by
  have hsame : ∀ s s' : Layer2Switch env.nx.Graph, s'.sent = s.sent → s'.xid_to_packet = s.xid_to_packet →
      Released ev.header.xid s s' := by
    intro s s' hsent hpending
    refine ⟨⟨[], by rw [hsent, List.append_nil], fun _ hb => absurd hb List.not_mem_nil⟩, fun x hx => ?_,
      fun x hx hn => ?_⟩
    · rw [hpending] at hx
      exact hx
    · rw [hpending] at hn
      exact absurd hx hn
  apply step_of_wp
  · exact fun s' h => trans_of (Released ev.header.xid) h (hsame _ _ rfl rfl)
  · have hmoves : Moves (Released ev.header.xid) (dispatch_event env now ev) := by
      apply moves_dispatch_event (P := fun msg => SentUp.isPacketIn ⟨0, msg⟩ = false)
      · exact fun s _ => hsame s _ rfl rfl
      · intro s xid msg hmsg
        refine ⟨⟨[⟨xid, msg⟩], rfl, fun buf hmem => ?_⟩, fun _ hx => hx, fun _ hx hn => absurd hx hn⟩
        rw [List.mem_singleton.mp hmem]
        exact hmsg
      · exact fun s _ => hsame s _ rfl rfl
      · exact fun s _ _ => hsame s _ rfl rfl
      · exact fun _ => rfl
      · exact fun s _ => hsame s _ rfl rfl
      · intro s ts buf
        refine ⟨⟨[], (List.append_nil _).symm, fun _ hb => absurd hb List.not_mem_nil⟩,
          fun x hx => (AList.mem_erase.mp hx).2, fun x hx hn => ?_⟩
        by_contra hne
        exact hn (AList.mem_erase.mpr ⟨hne, hx⟩)
    exact hmoves s

end Layer2Switch

namespace AppManager

variable {env : Env}

/-! ## Answering -/

def requested : MsgUp → Option Bytes
  | .PacketIn _ _ dst_mac _ _ _ _ => some dst_mac
  | _ => none

/-- `s'` is `s` after handling `ev`: the flow mods sent answer it. -/
def Answered (lc : Nat) (ev : Event MsgUp) (s s' : AppManager env.nx.Graph) : Prop :=
  ∃ msgs, s'.sent = s.sent ++ msgs ∧ ∀ m ∈ msgs, m.isFlowMod →
    m.xid = ev.header.xid ∧ ∃ dst_mac, requested ev.msg = some dst_mac ∧ m.lc ∈ routeOf env s lc dst_mac

variable {lc : Nat} {ev : Event MsgUp} {s s' : AppManager env.nx.Graph}

theorem answered_silent (h : s'.sent = s.sent) : Answered lc ev s s' :=
  ⟨[], by rw [h, List.append_nil], fun _ hm => absurd hm List.not_mem_nil⟩

theorem answered_other {msg : MsgDown} {msgs : List Sent} (hsent : s'.sent = s.sent ++ msgs) (hmsgs : AtMostOne msg msgs)
    (hmsg : ∀ lc xid, ¬ Sent.isFlowMod ⟨lc, xid, msg⟩) : Answered lc ev s s' := by
  refine ⟨msgs, hsent, fun m hm hflow => ?_⟩
  have hm := hmsgs.2 m hm
  subst hm
  exact absurd hflow (hmsg m.lc m.xid)

theorem answered_dispatch (lc : Nat) (ev : Event MsgUp) (s : AppManager env.nx.Graph) :
    Always (dispatch_event env lc ev) s (Answered lc ev s) := by
  refine Always.mono (outcome_dispatch lc ev s) ?_
  intro s' hout
  cases hout with
  | packetIn dst_mac msgs hmsg hmsgs =>
    obtain ⟨in_dpid, src_mac, src_ip, dst_ip, tp_src, tp_dst, hmsg⟩ := hmsg
    refine ⟨msgs, rfl, fun m hm _ => ⟨(hmsgs m hm).2.1, dst_mac, ?_, (hmsgs m hm).2.2⟩⟩
    rw [hmsg]
    rfl
  | hello lcid x msgs _ _ hmsgs => exact answered_other rfl hmsgs fun _ _ hflow => by simp [Sent.isFlowMod] at hflow
  | connect dpid w hosts dps dp x msgs _ _ _ hmsgs =>
    exact answered_other rfl hmsgs fun _ _ hflow => by simp [Sent.isFlowMod] at hflow
  | gid dpid dp x msgs _ _ hmsgs => exact answered_other rfl hmsgs fun _ _ hflow => by simp [Sent.isFlowMod] at hflow
  | hosts | load | echo | leave | graph | same => exact answered_silent rfl

theorem answered_receive (s : AppManager env.nx.Graph) (r : Received) : Answered r.lc r.ev s (receive env s r) := by
  apply receive_of_always
  · exact fun s' h => h
  · exact answered_dispatch r.lc r.ev s

end AppManager

namespace Network

open Layer2Switch AppManager

variable {cenv : Env} {env : Nat → LocalEnv} {a : Network cenv env}

/-! ## Runs -/

/-- A flow mod that releases a packet was sent while the request stored with the
packet was handled. -/
def ReleasesAnswered (a : Network cenv env) (t : NetTurn) : Prop :=
  ∀ i now d x, t = .deliver i now → a.down[i]? = some d → d.buf.isFlowMod →
    x ∈ (a.locals d.buf.lc).xid_to_packet → x ∉ ((a.turn t).locals d.buf.lc).xid_to_packet →
    d.lc = d.buf.lc ∧ d.buf.xid = x ∧ RequestAt (a.locals d.buf.lc).sent x d.pos

/-- No packet is stored under the xid of a flow mod on its way to its controller,
and no request is dispatched along a controller with another packet under its xid. -/
def XidsApart (a : Network cenv env) : NetTurn → Prop
  | .app lc e => ∀ u ∈ fresh lc (a.locals lc) (happen (env lc) (a.locals lc) e), u.buf.isPacketIn = true →
    ∀ d ∈ a.down, d.buf.lc = lc → d.buf.isFlowMod → d.buf.xid ≠ u.buf.xid
  | .central i => ∀ u ∈ a.up[i]?, ∀ dst_mac ∈ requested u.buf.msg, ∀ lc ∈ routeOf cenv a.central u.lc dst_mac,
    u.buf.xid ∈ (a.locals lc).xid_to_packet → u.lc = lc ∧ RequestAt (a.locals lc).sent u.buf.xid u.pos
  | .deliver .. => True

/-- A flow mod on its way finds no packet, or that of the request it answers. -/
def AnswersMatch (a : Network cenv env) : Prop :=
  ∀ d ∈ a.down, d.buf.isFlowMod → d.buf.xid ∈ (a.locals d.buf.lc).xid_to_packet →
    d.lc = d.buf.lc ∧ RequestAt (a.locals d.buf.lc).sent d.buf.xid d.pos

theorem mem_fresh {Γ : Type} (lc : Nat) {s s' : Layer2Switch Γ} {new : List SentUp} (hsent : s'.sent = s.sent ++ new)
    {buf : SentUp} (hbuf : buf ∈ new) : ∃ u ∈ fresh lc s s', u.buf = buf := by
  have hdrop : s'.sent.zipIdx.drop s.sent.length = new.zipIdx (0 + s.sent.length) := by
    rw [hsent, List.zipIdx_append]
    exact List.drop_left' List.length_zipIdx
  have hmem : buf ∈ (new.zipIdx (0 + s.sent.length)).map Prod.fst := by
    rw [List.zipIdx_map_fst]
    exact hbuf
  obtain ⟨x, hx, rfl⟩ := List.mem_map.mp hmem
  refine ⟨⟨lc, x.2, x.1⟩, ?_, rfl⟩
  unfold fresh
  rw [hdrop]
  exact List.mem_map.mpr ⟨x, hx, rfl⟩

theorem answersMatch_settle (h : AnswersMatch a) (lc : Nat) {s' : Layer2Switch (env lc).nx.Graph} {new : List SentUp}
    (hsent : s'.sent = (a.locals lc).sent ++ new)
    (hkeep : ∀ d ∈ a.down, d.buf.lc = lc → d.buf.isFlowMod → d.buf.xid ∈ s'.xid_to_packet →
      d.buf.xid ∈ (a.locals lc).xid_to_packet ∧ ∀ buf ∈ new, buf.xid = d.buf.xid → buf.isPacketIn = false) :
    AnswersMatch (a.settle lc s') := by
  intro d hd hflow hx
  by_cases hlc : d.buf.lc = lc
  · subst hlc
    have hself : (a.settle d.buf.lc s').locals d.buf.lc = s' := Function.update_self ..
    rw [hself] at hx ⊢
    obtain ⟨hx', hnew⟩ := hkeep d hd rfl hflow hx
    obtain ⟨hlc', hat⟩ := h d hd hflow hx'
    refine ⟨hlc', ?_⟩
    rw [hsent]
    exact hat.append hnew
  · have hother : (a.settle lc s').locals d.buf.lc = a.locals d.buf.lc := Function.update_of_ne hlc ..
    rw [hother] at hx ⊢
    exact h d hd hflow hx

theorem answersMatch_app (h : AnswersMatch a) {lc : Nat} {e : LocalEvent} (hparsed : Parsed e)
    (hapart : XidsApart a (.app lc e)) : AnswersMatch (a.turn (.app lc e)) := by
  obtain ⟨new, hsent, hask⟩ := asked_happen (a.locals lc) hparsed
  show AnswersMatch (a.settle lc (happen (env lc) (a.locals lc) e))
  apply answersMatch_settle h lc hsent
  intro d hd hlc hflow hx
  have hno : ∀ buf ∈ new, buf.xid = d.buf.xid → buf.isPacketIn = false := by
    intro buf hbuf hxid
    by_contra hask'
    obtain ⟨u, hu, rfl⟩ := mem_fresh lc hsent hbuf
    exact hapart u hu (Bool.not_eq_false _ ▸ hask') d hd hlc hflow hxid.symm
  refine ⟨?_, hno⟩
  rcases hask _ hx with hx | ⟨buf, hbuf, hxid, hpacket⟩
  · exact hx
  · rw [hno buf hbuf hxid] at hpacket
    cases hpacket

theorem answersMatch_central (h : AnswersMatch a) {i : Nat} (hapart : XidsApart a (.central i)) :
    AnswersMatch (a.turn (.central i)) := by
  unfold turn
  simp only
  cases hu : a.up[i]? with
  | none => exact h
  | some u =>
    obtain ⟨msgs, hsent, hmsgs⟩ := answered_receive a.central ⟨u.lc, u.buf.event (env u.lc).host⟩
    intro d hd hflow hx
    rcases List.mem_append.mp hd with hd | hd
    · exact h d hd hflow hx
    · rw [hsent, List.drop_left] at hd
      obtain ⟨buf, hbuf, rfl⟩ := List.mem_map.mp hd
      obtain ⟨hxid, dst_mac, hreq, hroute⟩ := hmsgs buf hbuf hflow
      have hxid : buf.xid = u.buf.xid := hxid
      show u.lc = buf.lc ∧ RequestAt (a.locals buf.lc).sent buf.xid u.pos
      rw [hxid]
      refine hapart u hu dst_mac hreq buf.lc hroute ?_
      rw [← hxid]
      exact hx

theorem answersMatch_deliver (h : AnswersMatch a) (i now : Nat) : AnswersMatch (a.turn (.deliver i now)) := by
  unfold turn
  simp only
  cases hd : a.down[i]? with
  | none => exact h
  | some d =>
    obtain ⟨⟨new, hsent, hnew⟩, hsub, _⟩ := released_downlink (a.locals d.buf.lc) now (d.buf.event cenv.host)
    have hsettle := answersMatch_settle h d.buf.lc hsent fun d' _ _ _ hx => ⟨hsub _ hx, fun buf hbuf _ => hnew buf hbuf⟩
    exact fun d' hd' => hsettle d' (List.mem_of_mem_eraseIdx hd')

theorem releases_of_answersMatch (h : AnswersMatch a) (t : NetTurn) : ReleasesAnswered a t := by
  rintro i now d x rfl hd hflow hx hgone
  have hlocal : (a.turn (.deliver i now)).locals d.buf.lc =
      Layer2Switch.step (env d.buf.lc) (a.locals d.buf.lc) (.Downlink now (d.buf.event cenv.host)) := by
    unfold turn
    simp only [hd]
    exact Function.update_self ..
  obtain ⟨_, _, hrel⟩ := released_downlink (a.locals d.buf.lc) now (d.buf.event cenv.host)
  rw [hlocal] at hgone
  have hxid : x = d.buf.xid := hrel x hx hgone
  subst hxid
  obtain ⟨hlc, hat⟩ := h d (List.mem_of_getElem? hd) hflow hx
  exact ⟨hlc, rfl, hat⟩

/-- The events at the local controllers are about packets that ryu has parsed. -/
def ParsedTurn : NetTurn → Prop
  | .app _ e => Parsed e
  | _ => True

instance : ∀ t, Decidable (ParsedTurn t)
  | .app _ e => inferInstanceAs (Decidable (Parsed e))
  | .central _ | .deliver .. => isTrue trivial

theorem releases_of_apart : ∀ (ts : List NetTurn) {a : Network cenv env}, AnswersMatch a → (∀ t ∈ ts, ParsedTurn t) →
    Allowed turn XidsApart a ts → Allowed turn ReleasesAnswered a ts
  | [], _, _, _, _ => trivial
  | t :: ts, a, h, hparsed, hapart => by
    obtain ⟨ht, hapart⟩ := hapart
    refine ⟨releases_of_answersMatch h t, ?_⟩
    refine releases_of_apart ts ?_ (fun t' ht' => hparsed t' (List.mem_cons_of_mem t ht')) hapart
    cases t with
    | app lc e => exact answersMatch_app h (hparsed _ List.mem_cons_self) ht
    | central i => exact answersMatch_central h ht
    | deliver i now => exact answersMatch_deliver h i now

/-- **A FLOW_MOD releases the packet it answers** in every run that keeps the
xids apart; and a request on its way stands at its place among the messages of
its sender, by which the answer is known. -/
theorem flow_mod_releases_answered (cenv : Env) (env : Nat → LocalEnv) (address : Nat → String × Nat)
    (cxid xid : Nat → Nat) (ts : List NetTurn) (hparsed : ∀ t ∈ ts, ParsedTurn t)
    (hapart : Allowed turn XidsApart (start cenv env address cxid xid) ts) :
    Allowed turn ReleasesAnswered (start cenv env address cxid xid) ts ∧
      Placed (ts.foldl turn (start cenv env address cxid xid)) := by
  refine ⟨releases_of_apart ts ?_ hparsed hapart, placed_run cenv env address cxid xid ts⟩
  exact fun d hd => absurd hd List.not_mem_nil

/-! ## Three controllers in a row -/

instance : ∀ m : Sent, Decidable m.isFlowMod
  | ⟨_, _, .FlowMod in_dpid out_dpid out_port dst_mac wildcards⟩ =>
    isTrue ⟨in_dpid, out_dpid, out_port, dst_mac, wildcards, rfl⟩
  | ⟨_, _, .HelloDown _⟩ | ⟨_, _, .RoleAssign ..⟩ | ⟨_, _, .GidReply ..⟩ | ⟨_, _, .DpMigration ..⟩
  | ⟨_, _, .CtrlPoolChange ..⟩ | ⟨_, _, .EchoRequest _⟩ | ⟨_, _, .BarrierRequest⟩ | ⟨_, _, .SwitchControllerMapUpdate⟩ =>
    isFalse fun h => by
      obtain ⟨_, _, _, _, _, hmsg⟩ := h
      cases hmsg

instance (a : Network cenv env) : ∀ t, Decidable (XidsApart a t)
  | .app _ _ => inferInstanceAs (Decidable (∀ u ∈ _, _ → ∀ d ∈ _, _ → _ → _))
  | .central _ => inferInstanceAs (Decidable (∀ u ∈ _, ∀ dst_mac ∈ _, ∀ lc ∈ _, _ → _))
  | .deliver .. => isTrue trivial

def rowWindows : List Window := [⟨some 1, some 9, some 2, some 9⟩, ⟨some 2, some 8, some 3, some 8⟩]

def rowText : Bytes := asciiText ("[\x7b\"src_dpid\": 1, \"src_port_no\": 9, \"dst_dpid\": 2, \"dst_port_no\": 9\x7d, " ++
  "\x7b\"src_dpid\": 2, \"src_port_no\": 8, \"dst_dpid\": 3, \"dst_port_no\": 8\x7d]")

def rowEnv : LocalEnv :=
  { sampleLocalEnv with json_dumps := fun windows => if windows = rowWindows then rowText else asciiText "[]" }

def rowStart (xid : Nat → Nat) : Network (sampleEnv [(asciiText "[]", []), (rowText, rowWindows)]) fun _ => rowEnv :=
  start _ _ (fun lc => ("10.0.0.1", 40000 + lc)) (fun lc => lc) xid

def rowHost (lc : Nat) : Bytes := asciiText "00:00:00:00:00:0" ++ asciiText (toString (lc + 1))

/-- Each controller connects and reports its switch and a host; the windows
are reported too, and the central controller has handled it all. -/
def rowUp : List NetTurn :=
  [0, 1, 2].flatMap (fun lc => [.app lc .Connected, .app lc (.SwitchFeatures ⟨lc + 1, "10.0.0.1"⟩),
    .app lc (.TopologyChange ⟨[lc + 1], [], []⟩)]) ++
  [.app 0 (.GraphInfoRound rowWindows)] ++
  [0, 1, 2].map (fun lc => .app lc (samplePacket (lc + 1) 2 (rowHost lc) BROADCAST_STR)) ++
  List.replicate 13 (.central 0)

/-- The first two controllers ask for the host of the third, the request of the
first is handled, and the flow mod for the second arrives. -/
def rowRequests : List NetTurn :=
  [.app 0 (samplePacket 1 2 (rowHost 0) (rowHost 2)), .app 1 (samplePacket 2 2 (rowHost 1) (rowHost 2)), .central 0]

def rowAnswers : List NetTurn := rowUp ++ rowRequests ++ [.deliver 7 0, .deliver 6 0]

/-- The counters of the agents are apart, and the answer releases the packet of
the first controller. -/
theorem flow_mod_releases_answered_row :
    Allowed turn ReleasesAnswered (rowStart fun lc => 100 * lc) rowAnswers ∧
      Placed (rowAnswers.foldl turn (rowStart fun lc => 100 * lc)) :=
  flow_mod_releases_answered _ _ _ _ _ _ (by decide +kernel) (by decide +kernel)

/-- The counters of the first two agents coincide: the second controller takes
the packet it has asked about, with the answer to the first one's request. -/
theorem foreign_answer_releases :
    ¬ Allowed turn ReleasesAnswered (rowStart fun lc => lc) (rowUp ++ rowRequests ++ [.deliver 7 0]) := by
  intro h
  obtain ⟨hlast, _⟩ := (allowed_append.mp h).2
  have hdown : ((rowUp ++ rowRequests).foldl turn (rowStart fun lc => lc)).down[7]? =
      some ⟨0, 5, ⟨1, 6, .FlowMod 2 2 8 (rowHost 2) 0⟩⟩ := by decide +kernel
  have hanswer := hlast 7 0 _ 6 rfl hdown ⟨2, 2, 8, rowHost 2, 0, rfl⟩ (by decide +kernel) (by decide +kernel)
  cases hanswer.1

end Network

end VnfDockerNet
