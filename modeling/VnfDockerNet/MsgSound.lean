import VnfDockerNet.MsgHandler

/-!
# Round trip of the messages in use

`delivers_of_unpack` covers every layout with fixed fields: the encoder packs
what the receiver's handler unpacks. Messages without a body and the text of
GRAPH_INFO are the two other shapes.
-/

namespace VnfDockerNet

open Python

/-- The frame is well headed, and whatever follows it in the buffer the
receiver's handler reads `msg` from it. -/
def Delivers {α : Type} (host : ByteOrder) (handlers : Nat → Option (Handler α)) (msg_type xid : Nat)
    (frame : Bytes) (msg : α) : Prop :=
  ∀ rest, ∃ hdr : Header, hdr = ⟨TFLC_VERSION_1, msg_type, frame.length, xid⟩ ∧
    header (frame ++ rest) = .ok hdr ∧
    ∃ handler, handlers msg_type = some handler ∧ handler host hdr (frame ++ rest) = .ok (some ⟨hdr, msg⟩)

/-- The messages the local controllers send. -/
def MsgUp.inUse : MsgUp → Bool
  | .GidRequest .. | .Error .. | .BarrierReply => false
  | _ => true

/-- The messages the central controller sends. -/
def MsgDown.inUse : MsgDown → Bool
  | .DpMigration .. | .CtrlPoolChange .. | .BarrierRequest => false
  | _ => true

def MsgUp.fits : MsgUp → Bool
  | .HelloUp | .BarrierReply => true
  | .DPConnected dpid _ | .GidRequest dpid | .DatapathLeave dpid => dpid < 2 ^ 64
  | .GraphInfo text => 12 + text.length < 2 ^ 16
  | .PacketIn in_dpid src_mac dst_mac src_ip dst_ip tp_src tp_dst =>
    in_dpid < 2 ^ 64 && src_mac.length == 17 && dst_mac.length == 17 && src_ip < 2 ^ 32 && dst_ip < 2 ^ 32 &&
      tp_src < 2 ^ 64 && tp_dst < 2 ^ 64
  | .LoadReport dpid pkt_in_cnt => dpid < 2 ^ 64 && pkt_in_cnt < 2 ^ 64
  | .RoleNotify dpid lcid role => dpid < 2 ^ 64 && lcid.any (· < 2 ^ 32) && role < 2 ^ 32
  | .EchoReply timestamp => timestamp < 2 ^ 64
  | .Error type code data => type < 2 ^ 16 && code < 2 ^ 16 && 16 + data.length < 2 ^ 16
  | .HostConnected dpid mac | .HostLeave dpid mac => dpid < 2 ^ 64 && mac.length == 17

def MsgDown.fits : MsgDown → Bool
  | .HelloDown lcid => lcid < 2 ^ 32
  | .RoleAssign dpid lcid role gid => dpid < 2 ^ 64 && lcid.any (· < 2 ^ 32) && role < 2 ^ 32 && gid < 2 ^ 64
  | .GidReply dpid gid => dpid < 2 ^ 64 && gid < 2 ^ 64
  | .FlowMod in_dpid out_dpid out_port dst_mac wildcards =>
    in_dpid < 2 ^ 64 && out_dpid < 2 ^ 64 && out_port < 2 ^ 64 && dst_mac.length == 17 && wildcards < 2 ^ 16
  | .DpMigration src_lcid dst_lcid m_dpid => src_lcid < 2 ^ 32 && dst_lcid < 2 ^ 32 && m_dpid < 2 ^ 64
  | .CtrlPoolChange dpid lc_cnt lc_list =>
    dpid < 2 ^ 64 && lc_cnt == lc_list.length && 24 + 8 * lc_list.length < 2 ^ 16 &&
      lc_list.all fun lc => lc.1 < 2 ^ 16 && lc.2.1 < 2 ^ 32 && lc.2.2 < 2 ^ 16
  | .EchoRequest timestamp => timestamp < 2 ^ 64
  | .BarrierRequest | .SwitchControllerMapUpdate => true

theorem MsgUp.msg_type_lt (msg : MsgUp) : msg.msg_type < 2 ^ 8 := by
  cases msg <;> simp [msg_type]

theorem MsgDown.msg_type_lt (msg : MsgDown) : msg.msg_type < 2 ^ 8 := by
  cases msg <;> simp [msg_type]

/-! ## Headers -/

theorem unpack_from_append (host : ByteOrder) (fmt : Format) (pre bs rest : Bytes) (args : List Val)
    (h : ∀ p r, unpack_from host fmt (p ++ bs ++ r) p.length = some args) {n : Nat} (hn : pre.length = n) :
    unpack_from host fmt (pre ++ bs ++ rest) n = some args := by
  subst hn; exact h pre rest

theorem serialize_append (host : ByteOrder) {msg_type xid : Nat} (body : Bytes → Option Bytes) {bs : Bytes}
    (hb : body (zeros TFLCP_HEADER_SIZE) = some (zeros TFLCP_HEADER_SIZE ++ bs)) (ht : msg_type < 2 ^ 8)
    (hl : TFLCP_HEADER_SIZE + bs.length < 2 ^ 16) (hx : xid < 2 ^ 32) :
    ∃ hd : Bytes, hd.length = TFLCP_HEADER_SIZE ∧ serialize host msg_type (some xid) body = some (hd ++ bs) ∧
      ∀ rest, header (hd ++ bs ++ rest) = .ok ⟨TFLC_VERSION_1, msg_type, (hd ++ bs).length, xid⟩ := by
  let args : List Val := [.int TFLC_VERSION_1, .int msg_type, .int (TFLCP_HEADER_SIZE + bs.length), .int xid]
  have hf : fitsCodes TFLCP_HEADER_PACK_STR.codes args = true := by
    simp only [args, fitsCodes, TFLCP_HEADER_PACK_STR, Val.fits, TFLC_VERSION_1, ht, hl, hx]
    decide
  obtain ⟨hd, hp, hlen, hu⟩ := unpack_pack host TFLCP_HEADER_PACK_STR args hf
  have hsize : calcsize TFLCP_HEADER_PACK_STR = TFLCP_HEADER_SIZE := by decide
  rw [hsize] at hlen
  refine ⟨hd, hlen, ?_, fun rest => ?_⟩
  · have hroom : 0 + calcsize TFLCP_HEADER_PACK_STR ≤ (zeros TFLCP_HEADER_SIZE ++ bs).length := by simp [hsize]
    have hdrop : (zeros TFLCP_HEADER_SIZE ++ bs).drop TFLCP_HEADER_SIZE = bs := List.drop_left' (zeros_length _)
    have hargs : [Val.int TFLC_VERSION_1, .int msg_type, .int (zeros TFLCP_HEADER_SIZE ++ bs).length,
        .int ((some xid).getD 0)] = args := by simp [args]
    simp only [serialize, hb, Option.bind_eq_bind, Option.bind_some]
    rw [hargs, pack_into, if_pos hroom, hp]
    simp [hsize, hdrop]
  · have hrest := hu [] (bs ++ rest)
    have hlen' : TFLCP_HEADER_SIZE ≤ (hd ++ bs ++ rest).length := by simp [hlen]
    have hsum : (hd ++ bs).length = TFLCP_HEADER_SIZE + bs.length := by simp [hlen]
    -- the header is in network order, so the host it is read on does not matter
    have hu' : unpack_from .big TFLCP_HEADER_PACK_STR (hd ++ bs ++ rest) 0 = some args := by
      rw [List.append_assoc]; simpa [unpack_from, Format.order, TFLCP_HEADER_PACK_STR] using hrest
    rw [header, if_pos hlen', hu', hsum]

theorem msg_pack_into_header (host : ByteOrder) (fmt : Format) (args : List Val) :
    msg_pack_into host fmt (zeros TFLCP_HEADER_SIZE) TFLCP_HEADER_SIZE args =
      (pack host fmt args).map (zeros TFLCP_HEADER_SIZE ++ ·) := by
  simp [msg_pack_into]

section
variable {α : Type} {handlers : Nat → Option (Handler α)} {msg_type xid : Nat} {msg : α}
variable (host : ByteOrder) (ht : msg_type < 2 ^ 8) (hx : xid < 2 ^ 32)
include ht hx

theorem delivers_bare (hh : handlers msg_type = some (bareHandler msg)) :
    ∃ frame, serialize host msg_type (some xid) some = some frame ∧
      Delivers host handlers msg_type xid frame msg := by
  have hb : some (zeros TFLCP_HEADER_SIZE) = some (zeros TFLCP_HEADER_SIZE ++ []) := by simp
  obtain ⟨hd, _, hs, hhd⟩ := serialize_append host some hb ht (by decide) hx
  exact ⟨_, hs, fun rest => ⟨_, rfl, hhd rest, _, hh, rfl⟩⟩

theorem delivers_of_unpack (fmt : Format) (args : List Val) (read : List Val → Option α)
    (hf : fitsCodes fmt.codes args = true) (hl : TFLCP_HEADER_SIZE + calcsize fmt < 2 ^ 16)
    (hread : read args = some msg) (hh : handlers msg_type = some (unpackHandler fmt read)) :
    ∃ frame, serialize host msg_type (some xid) (fun buf =>
        msg_pack_into host fmt buf TFLCP_HEADER_SIZE args) = some frame ∧
      Delivers host handlers msg_type xid frame msg := by
  obtain ⟨bs, hp, hlen, hu⟩ := unpack_pack host fmt args hf
  have hb : msg_pack_into host fmt (zeros TFLCP_HEADER_SIZE) TFLCP_HEADER_SIZE args =
      some (zeros TFLCP_HEADER_SIZE ++ bs) := by
    rw [msg_pack_into_header, hp]; rfl
  obtain ⟨hd, hhl, hs, hhd⟩ := serialize_append host (fun buf =>
    msg_pack_into host fmt buf TFLCP_HEADER_SIZE args) hb ht (by rw [hlen]; exact hl) hx
  refine ⟨_, hs, fun rest => ⟨_, rfl, hhd rest, _, hh, ?_⟩⟩
  rw [unpackHandler, unpack_from_append host fmt hd bs rest args hu hhl]
  simp only [hread]

end

theorem delivers_graphInfo (host : ByteOrder) {xid : Nat} (hx : xid < 2 ^ 32) (text : Bytes)
    (hl : 12 + text.length < 2 ^ 16) :
    ∃ frame, (MsgUp.GraphInfo text).serialize host (some xid) = some frame ∧
      Delivers host Tflc.msg_handler 20 xid frame (.GraphInfo text) := by
  have hf : fitsCodes (graphInfoPackStr text.length).codes [.int text.length, .str text] = true := by
    simp [graphInfoPackStr, fitsCodes, Val.fits]; omega
  obtain ⟨bs, hp, hlen, hu⟩ := unpack_pack host _ _ hf
  have hlen' : bs.length = 4 + text.length := by
    rw [hlen]; simp [calcsize, codesSize, graphInfoPackStr, Code.size]
  have hb : msg_pack_into host (graphInfoPackStr text.length) (zeros TFLCP_HEADER_SIZE) TFLCP_HEADER_SIZE
      [.int text.length, .str text] = some (zeros TFLCP_HEADER_SIZE ++ bs) := by
    rw [msg_pack_into_header, hp]; rfl
  have hbody : (MsgUp.GraphInfo text)._serialize_body host (zeros TFLCP_HEADER_SIZE) =
      some (zeros TFLCP_HEADER_SIZE ++ bs) := hb
  obtain ⟨hd, hhl, hs, hhd⟩ := serialize_append host
    (fun buf => (MsgUp.GraphInfo text)._serialize_body host buf) hbody (show 20 < 2 ^ 8 by decide)
    (by rw [hlen']; simp only [TFLCP_HEADER_SIZE]; omega) hx
  refine ⟨_, hs, fun rest => ⟨_, rfl, hhd rest, _, rfl, ?_⟩⟩
  have hfull := unpack_from_append host _ hd bs rest _ hu hhl
  -- the first read takes the length alone from the same place
  have hfirst : unpack_from host ⟨false, [.I]⟩ (hd ++ bs ++ rest) TFLCP_HEADER_SIZE =
      some [.int text.length] := by
    rw [unpack_from] at hfull ⊢
    split at hfull
    · rename_i hroom
      have hroom' : TFLCP_HEADER_SIZE + calcsize ⟨false, [.I]⟩ ≤ (hd ++ bs ++ rest).length := by
        refine le_trans ?_ hroom
        simp [calcsize, codesSize, graphInfoPackStr, Code.size]
      rw [if_pos hroom']
      simp only [Option.some.injEq, graphInfoPackStr, unpackCodes, List.cons.injEq] at hfull ⊢
      exact ⟨hfull.1, trivial⟩
    · cases hfull
  unfold Tflc.graph_info_handler
  rw [hfirst]
  simp only [unpackHandler, hfull]

theorem uplink_delivers (host : ByteOrder) {xid : Nat} (hx : xid < 2 ^ 32) (msg : MsgUp) (hu : msg.inUse = true)
    (hf : msg.fits = true) : ∃ frame, msg.serialize host (some xid) = some frame ∧
      Delivers host Tflc.msg_handler msg.msg_type xid frame msg := by
  cases msg with
  | GidRequest | Error | BarrierReply => simp [MsgUp.inUse] at hu
  | HelloUp => exact delivers_bare host (by decide) hx rfl
  | GraphInfo text => exact delivers_graphInfo host hx text (by simpa [MsgUp.fits] using hf)
  | RoleNotify dpid lcid role =>
    simp only [MsgUp.fits, Bool.and_eq_true, decide_eq_true_eq, Option.any_eq_true] at hf
    obtain ⟨⟨hd, l, rfl, hl⟩, hr⟩ := hf
    refine delivers_of_unpack host (MsgUp.msg_type_lt _) hx _ _ _ ?_ (by decide) rfl rfl
    simp only [TFLCP_ROLE_NOTIFY_PACK_STR, fitsCodes, Val.fits, Val.ofOption, hd, hr, hl]
    decide
  | PacketIn in_dpid src_mac dst_mac src_ip dst_ip tp_src tp_dst =>
    simp only [MsgUp.fits, Bool.and_eq_true, decide_eq_true_eq, beq_iff_eq] at hf
    obtain ⟨⟨⟨⟨⟨⟨hd, hs⟩, ht⟩, hsi⟩, hdi⟩, hsp⟩, hdp⟩ := hf
    have hsi' : src_ip < 2 ^ 64 := lt_trans hsi (by decide)
    have hdi' : dst_ip < 2 ^ 64 := lt_trans hdi (by decide)
    refine delivers_of_unpack host (MsgUp.msg_type_lt _) hx _ _ _ ?_ (by decide) rfl rfl
    simp only [TFLCP_PACKET_IN_PACK_STR, fitsCodes, Val.fits, hd, hs, ht, hsi', hdi', hsp, hdp]
    decide
  | _ =>
    -- what the message's fields must satisfy is what its pack string asks for
    refine delivers_of_unpack host (MsgUp.msg_type_lt _) hx _ _ _ ?_ (by decide) rfl rfl
    simp_all [MsgUp.fits, fitsCodes, Val.fits, TFLCP_DATAPATH_CONNECTED_PACK_STR, TFLCP_LOAD_REPORT_PACK_STR,
      TFLCP_ECHO_REPLY_PACK_STR, TFLCP_HOST_CONNECTED_PACK_STR, TFLCP_DATAPATH_LEAVE_PACK_STR,
      TFLCP_HOST_LEAVE_PACK_STR]

theorem downlink_delivers (host : ByteOrder) {xid : Nat} (hx : xid < 2 ^ 32) (msg : MsgDown) (hu : msg.inUse = true)
    (hf : msg.fits = true) : ∃ frame, msg.serialize host (some xid) = some frame ∧
      Delivers host CcClient.msg_handler msg.msg_type xid frame msg := by
  cases msg with
  | DpMigration | CtrlPoolChange | BarrierRequest => simp [MsgDown.inUse] at hu
  | SwitchControllerMapUpdate => exact delivers_bare host (by decide) hx rfl
  | RoleAssign dpid lcid role gid =>
    simp only [MsgDown.fits, Bool.and_eq_true, decide_eq_true_eq, Option.any_eq_true] at hf
    obtain ⟨⟨⟨hd, l, rfl, hl⟩, hr⟩, hg⟩ := hf
    refine delivers_of_unpack host (MsgDown.msg_type_lt _) hx _ _ _ ?_ (by decide) rfl rfl
    simp only [TFLCP_ROLE_ASSIGN_PACK_STR, fitsCodes, Val.fits, Val.ofOption, hd, hr, hl, hg]
    decide
  | _ =>
    refine delivers_of_unpack host (MsgDown.msg_type_lt _) hx _ _ _ ?_ (by decide) rfl rfl
    simp_all [MsgDown.fits, fitsCodes, Val.fits, TFLCP_HELLO_DOWN_PACK_STR, TFLCP_GID_REPLY_PACK_STR,
      TFLCP_FLOW_MOD_PACK_STR, TFLCP_ECHO_REQUEST_PACK_STR]

/-! ## What is not packed -/

theorem serialize_unpacked {host : ByteOrder} {fmt : Format} {args : List Val} (h : pack host fmt args = none)
    (msg_type : Nat) (xid : Option Nat) :
    serialize host msg_type xid (fun buf => msg_pack_into host fmt buf TFLCP_HEADER_SIZE args) = none := by
  have hinto : ∀ buf, msg_pack_into host fmt buf TFLCP_HEADER_SIZE args = none := by
    intro buf
    simp [msg_pack_into, pack_into, h]
  unfold serialize
  simp only [hinto]
  rfl

theorem serialize_of_not_fits (host : ByteOrder) (fmt : Format) {args : List Val} (hcodes : ∀ c ∈ fmt.codes, c.isInt = true)
    (hargs : ∀ v ∈ args, ∀ b, v ≠ .bool b) (h : fitsCodes fmt.codes args = false) (msg_type : Nat) (xid : Option Nat) :
    serialize host msg_type xid (fun buf => msg_pack_into host fmt buf TFLCP_HEADER_SIZE args) = none :=
  serialize_unpacked (packCodes_of_not_fits _ _ _ hcodes hargs h) msg_type xid

theorem Val.ofOption_ne_bool (v : Option Nat) (b : Bool) : Val.ofOption v ≠ .bool b := by
  cases v <;> simp [Val.ofOption]

/-- `struct.pack` takes no `None`, so a role is not notified without an id. -/
theorem roleNotify_unsent (host : ByteOrder) (xid : Option Nat) (dpid role : Nat) :
    (MsgUp.RoleNotify dpid none role).serialize host xid = none := by
  refine serialize_of_not_fits host TFLCP_ROLE_NOTIFY_PACK_STR (by decide) ?_ ?_ _ xid
  · simp [Val.ofOption]
  · simp [TFLCP_ROLE_NOTIFY_PACK_STR, fitsCodes, Val.fits, Val.ofOption]

/-- **The answers about a datapath** are packed exactly if their numbers fit. -/
theorem roleAssign_packed_iff {host : ByteOrder} {xid : Nat} (hx : xid < 2 ^ 32) (dpid : Nat) (lcid : Option Nat)
    (role gid : Nat) : (MsgDown.RoleAssign dpid lcid role gid).serialize host (some xid) ≠ none ↔
      (MsgDown.RoleAssign dpid lcid role gid).fits = true := by
  constructor
  · intro h
    by_contra hfits
    refine h (serialize_of_not_fits host TFLCP_ROLE_ASSIGN_PACK_STR (by decide) ?_ ?_ _ _)
    · simp [Val.ofOption_ne_bool]
    · cases lcid with
      | none => simp [TFLCP_ROLE_ASSIGN_PACK_STR, fitsCodes, Val.fits, Val.ofOption]
      | some l =>
        simp only [MsgDown.fits, Option.any_some, Bool.not_eq_true] at hfits
        simpa [TFLCP_ROLE_ASSIGN_PACK_STR, fitsCodes, Val.fits, Val.ofOption, Bool.and_assoc] using hfits
  · intro h
    obtain ⟨frame, hframe, _⟩ := downlink_delivers host hx _ rfl h
    rw [hframe]
    exact Option.some_ne_none frame

theorem gidReply_packed_iff {host : ByteOrder} {xid : Nat} (hx : xid < 2 ^ 32) (dpid gid : Nat) :
    (MsgDown.GidReply dpid gid).serialize host (some xid) ≠ none ↔ (MsgDown.GidReply dpid gid).fits = true := by
  constructor
  · intro h
    by_contra hfits
    refine h (serialize_of_not_fits host TFLCP_GID_REPLY_PACK_STR (by decide) (by simp) ?_ _ _)
    simpa [TFLCP_GID_REPLY_PACK_STR, fitsCodes, Val.fits, MsgDown.fits] using hfits
  · intro h
    obtain ⟨frame, hframe, _⟩ := downlink_delivers host hx _ rfl h
    rw [hframe]
    exact Option.some_ne_none frame

/-! ## Reports about hosts -/

/-- The message is about hosts at the datapath. -/
inductive ReportsAt (dpid : Nat) : MsgUp → Prop
  | hostConnected (mac : Bytes) : ReportsAt dpid (.HostConnected dpid mac)
  | hostLeave (mac : Bytes) : ReportsAt dpid (.HostLeave dpid mac)
  | datapathLeave : ReportsAt dpid (.DatapathLeave dpid)

theorem packVal_cut (o : ByteOrder) (n : Nat) (text : Bytes) :
    packVal o (.s n) (.str (text.take n ++ zeros (n - text.length))) = packVal o (.s n) (.str text) := by
  have hlen : (text.take n ++ zeros (n - text.length)).length = n := by simp; omega
  have htake : (text.take n ++ zeros (n - text.length)).take n = text.take n ++ zeros (n - text.length) :=
    List.take_of_length_le (le_of_eq hlen)
  show some _ = some _
  rw [htake, hlen, Nat.sub_self]
  simp [zeros]

/-- A MAC text of any length is cut to its field, so only the dpid can be too wide. -/
theorem wide_of_unsent {host : ByteOrder} {dpid xid : Nat} {msg : MsgUp} (h : ReportsAt dpid msg)
    (hx : xid ≤ MAX_XID) (hser : msg.serialize host (some xid) = none) : 2 ^ 64 ≤ dpid := by
  by_contra hd
  have hx' : xid < 2 ^ 32 := Nat.lt_succ_of_le hx
  have hfits : ∀ msg : MsgUp, msg.inUse = true → msg.fits = true → msg.serialize host (some xid) ≠ none := by
    intro msg hu hf hnone
    obtain ⟨frame, hframe, _⟩ := uplink_delivers host hx' msg hu hf
    rw [hnone] at hframe
    cases hframe
  have hmac : ∀ mac : Bytes, (mac.take 17 ++ zeros (17 - mac.length)).length = 17 := fun mac => by simp; omega
  cases h with
  | datapathLeave => exact hfits (.DatapathLeave dpid) rfl (by simpa [MsgUp.fits] using hd) hser
  | hostConnected mac =>
    refine hfits (.HostConnected dpid (mac.take 17 ++ zeros (17 - mac.length))) rfl
      (by simpa [MsgUp.fits, hmac] using hd) ?_
    rw [← hser]
    simp only [MsgUp.serialize, MsgUp.msg_type, MsgUp._serialize_body, msg_pack_into, pack_into, pack, TFLCP_HOST_CONNECTED_PACK_STR, packCodes, packVal_cut]
  | hostLeave mac =>
    refine hfits (.HostLeave dpid (mac.take 17 ++ zeros (17 - mac.length))) rfl
      (by simpa [MsgUp.fits, hmac] using hd) ?_
    rw [← hser]
    simp only [MsgUp.serialize, MsgUp.msg_type, MsgUp._serialize_body, msg_pack_into, pack_into, pack, TFLCP_HOST_LEAVE_PACK_STR, packCodes, packVal_cut]

/-- **The messages in use survive the wire**, in both directions. Both programs run
on machines of one byte order, `host`, in which GRAPH_INFO is packed and read. -/
theorem live_round_trip (host : ByteOrder) (xid : Nat) (hx : xid < 2 ^ 32) :
    (∀ msg : MsgUp, msg.inUse = true → msg.fits = true →
      ∃ frame, msg.serialize host (some xid) = some frame ∧
        Delivers host Tflc.msg_handler msg.msg_type xid frame msg) ∧
    (∀ msg : MsgDown, msg.inUse = true → msg.fits = true →
      ∃ frame, msg.serialize host (some xid) = some frame ∧
        Delivers host CcClient.msg_handler msg.msg_type xid frame msg) :=
  ⟨fun msg hu hf => uplink_delivers host hx msg hu hf, fun msg hu hf => downlink_delivers host hx msg hu hf⟩

theorem live_round_trip_packet_in_flow_mod :
    (∃ frame, (MsgUp.PacketIn 4 (List.replicate 17 58) (List.replicate 17 48) 167772161 167772162 5000 80).serialize
        .little (some 7) = some frame ∧
      Delivers .little Tflc.msg_handler 6 7 frame
        (.PacketIn 4 (List.replicate 17 58) (List.replicate 17 48) 167772161 167772162 5000 80)) ∧
    ∃ frame, (MsgDown.FlowMod 4 5 2 (List.replicate 17 48) 1).serialize .little (some 7) = some frame ∧
      Delivers .little CcClient.msg_handler 7 7 frame (.FlowMod 4 5 2 (List.replicate 17 48) 1) :=
  ⟨(live_round_trip .little 7 (by decide)).1 _ rfl (by decide),
    (live_round_trip .little 7 (by decide)).2 _ rfl (by decide)⟩

end VnfDockerNet
