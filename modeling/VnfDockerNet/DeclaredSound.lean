import VnfDockerNet.Layer2Spec

/-!
# The declared messages that nobody sends yet

GID_REQUEST and the two barriers survive the wire like the messages in use. The
other three do not: DATAPATH_MIGRATION is packed with the format of another
message, the data of an ERROR are sliced from the wrong variable, and each entry
of a controller pool is passed to `struct.pack` as one object.
-/

namespace VnfDockerNet

open Python

/-- The message is packed, and its receiver's handler reads it from the frame whatever follows. -/
def MsgUp.RoundTrips (host : ByteOrder) (xid : Nat) (msg : MsgUp) : Prop :=
  ∃ frame, msg.serialize host (some xid) = some frame ∧ Delivers host Tflc.msg_handler msg.msg_type xid frame msg

def MsgDown.RoundTrips (host : ByteOrder) (xid : Nat) (msg : MsgDown) : Prop :=
  ∃ frame, msg.serialize host (some xid) = some frame ∧ Delivers host CcClient.msg_handler msg.msg_type xid frame msg

section
variable (host : ByteOrder) {xid : Nat}

/-! ## Without a list -/

theorem error_lost (type code : Nat) (data : Bytes) : ¬ (MsgUp.Error type code data).RoundTrips host xid := by
  intro h
  obtain ⟨frame, _, hdelivers⟩ := h
  obtain ⟨hdr, _, _, handler, hhandler, hread⟩ := hdelivers []
  cases hhandler
  unfold Tflc.error_handler at hread
  split at hread
  · cases hread
  · cases hread

/-- The format packs a number and a truth value, and three numbers are passed. -/
theorem dpMigration_lost (src_lcid dst_lcid m_dpid : Nat) :
    ¬ (MsgDown.DpMigration src_lcid dst_lcid m_dpid).RoundTrips host xid := by
  intro h
  obtain ⟨frame, hframe, _⟩ := h
  have hpack : pack host TFLCP_DATAPATH_CONNECTED_PACK_STR [.int src_lcid, .int dst_lcid, .int m_dpid] = none := by
    simp [pack, TFLCP_DATAPATH_CONNECTED_PACK_STR, packCodes]
  have hnone : (MsgDown.DpMigration src_lcid dst_lcid m_dpid).serialize host (some xid) = none :=
    serialize_unpacked hpack _ _
  rw [hnone] at hframe
  cases hframe

/-- **Which of the declared messages survive the wire.** -/
theorem declared_round_trip_iff (hx : xid < 2 ^ 32) :
    (∀ msg : MsgUp, msg.inUse = false → msg.fits = true →
      (msg.RoundTrips host xid ↔ ∀ type code data, msg ≠ .Error type code data)) ∧
    ∀ msg : MsgDown, msg.inUse = false → msg.fits = true → (∀ dpid lc_cnt lc_list, msg ≠ .CtrlPoolChange dpid lc_cnt lc_list) →
      (msg.RoundTrips host xid ↔ ∀ src_lcid dst_lcid m_dpid, msg ≠ .DpMigration src_lcid dst_lcid m_dpid) := by
  constructor
  · intro msg hu hf
    cases msg with
    | GidRequest dpid =>
      refine iff_of_true ?_ (by simp)
      refine delivers_of_unpack host (MsgUp.msg_type_lt _) hx TFLCP_GID_REQUEST_PACK_STR [.int dpid] _ ?_ (by decide) rfl rfl
      simpa [MsgUp.fits, fitsCodes, Val.fits, TFLCP_GID_REQUEST_PACK_STR] using hf
    | BarrierReply => exact iff_of_true (delivers_bare host (by decide) hx rfl) (by simp)
    | Error type code data => exact iff_of_false (error_lost host type code data) fun h => h type code data rfl
    | _ => cases hu
  · intro msg hu hf hpool
    cases msg with
    | BarrierRequest => exact iff_of_true (delivers_bare host (by decide) hx rfl) (by simp)
    | DpMigration src_lcid dst_lcid m_dpid =>
      exact iff_of_false (dpMigration_lost host src_lcid dst_lcid m_dpid) fun h => h src_lcid dst_lcid m_dpid rfl
    | CtrlPoolChange dpid lc_cnt lc_list => exact absurd rfl (hpool dpid lc_cnt lc_list)
    | _ => cases hu

theorem declared_round_trip_iff_gid_request :
    (MsgUp.GidRequest 4).RoundTrips .little 7 ↔ ∀ type code data, MsgUp.GidRequest 4 ≠ .Error type code data :=
  (declared_round_trip_iff .little (by decide)).1 (.GidRequest 4) rfl (by decide)

theorem migration_and_error_lost :
    (MsgDown.DpMigration 1 2 7).fits = true ∧ (MsgDown.DpMigration 1 2 7).serialize .little (some 7) = none ∧
    (MsgUp.Error 1 2 [104, 105]).fits = true ∧
    ∃ frame, (MsgUp.Error 1 2 [104, 105]).serialize .little (some 7) = some frame ∧
      header frame = .ok ⟨1, 14, 18, 7⟩ ∧ Tflc.error_handler .little ⟨1, 14, 18, 7⟩ frame = .error .TypeError := by
  refine ⟨by decide, by decide, by decide, _, rfl, by decide, by decide⟩

/-! ## The controller pool -/

/-- The message survives the wire, and its listener passes on as many texts as there are addresses, in their order. -/
def PoolArrives (host : ByteOrder) (xid dpid : Nat) (lc_list : List LocalCtrlAddr) : Prop :=
  (MsgDown.CtrlPoolChange dpid lc_list.length lc_list).RoundTrips host xid ∧
    ∀ (env : LocalEnv) (s : Layer2Switch env.nx.Graph) (datapath : OfDatapath), s.datapaths.get dpid = some datapath →
      ∃ text : LocalCtrlAddr → String, Layer2Switch.cc_ctrl_pool_change_handler env dpid lc_list s = .ok () { s with
        switch_out := s.switch_out ++
          [(datapath.id, .SetController ("tcp:" ++ datapath.address ++ ":6632") (lc_list.map text))] }

theorem ctrlPoolChange_lost (dpid lc_cnt : Nat) (lc : LocalCtrlAddr) (lc_list : List LocalCtrlAddr) :
    ¬ (MsgDown.CtrlPoolChange dpid lc_cnt (lc :: lc_list)).RoundTrips host xid := by
  intro h
  obtain ⟨frame, hframe, _⟩ := h
  have hpack : pack host TFLCP_LOCAL_CTRL_ADDRESS_PACK_STR [.obj] = none := rfl
  have hlist : ∀ buf, packLcList host buf (lc :: lc_list) = none := by
    intro buf
    rw [packLcList, hpack]
    rfl
  simp [MsgDown.serialize, serialize, MsgDown._serialize_body, hlist] at hframe

theorem ctrlPoolChange_empty (hx : xid < 2 ^ 32) {dpid : Nat} (hd : dpid < 2 ^ 64) :
    (MsgDown.CtrlPoolChange dpid 0 []).RoundTrips host xid := by
  have hf : fitsCodes TFLCP_CONTRL_POOL_CHANGE_PACK_STR.codes [.int dpid, .int 0] = true := by
    simpa [TFLCP_CONTRL_POOL_CHANGE_PACK_STR, fitsCodes, Val.fits] using hd
  obtain ⟨bs, hp, hlen, hu⟩ := unpack_pack host TFLCP_CONTRL_POOL_CHANGE_PACK_STR _ hf
  have hbody : (MsgDown.CtrlPoolChange dpid 0 [])._serialize_body host (zeros TFLCP_HEADER_SIZE) =
      some (zeros TFLCP_HEADER_SIZE ++ bs) := by
    simp [MsgDown._serialize_body, msg_pack_into_header, hp, packLcList]
  obtain ⟨hd, hhl, hs, hhd⟩ := serialize_append host
    (fun buf => (MsgDown.CtrlPoolChange dpid 0 [])._serialize_body host buf) hbody (show 10 < 2 ^ 8 by decide)
    (by rw [hlen]; decide) hx
  refine ⟨_, hs, fun rest => ⟨_, rfl, hhd rest, _, rfl, ?_⟩⟩
  unfold CcClient.ctl_pool_change_handler
  rw [unpack_from_append host _ hd bs rest _ hu hhl]
  rfl

/-- **A controller pool arrives** exactly if it is empty. -/
theorem ctrl_pool_round_trip_iff (hx : xid < 2 ^ 32) (dpid : Nat) (lc_list : List LocalCtrlAddr)
    (hfits : (MsgDown.CtrlPoolChange dpid lc_list.length lc_list).fits = true) :
    PoolArrives host xid dpid lc_list ↔ lc_list = [] := by
  cases lc_list with
  | cons lc lc_list =>
    refine iff_of_false (fun h => ?_) (by simp)
    exact ctrlPoolChange_lost host dpid _ lc lc_list h.1
  | nil =>
    have hd : dpid < 2 ^ 64 := by simpa [MsgDown.fits] using hfits
    refine iff_of_true ⟨ctrlPoolChange_empty host hx hd, fun env s datapath hdp => ⟨fun _ => "", ?_⟩⟩ rfl
    have htexts : Layer2Switch.controllerTexts [] = .ok [] := rfl
    obtain ⟨_, _, hx, rfl⟩ := ok_of_wp (show wp (Layer2Switch.cc_ctrl_pool_change_handler env dpid []) s
      (fun _ s' => s' = { s with
        switch_out := s.switch_out ++ [(datapath.id, .SetController ("tcp:" ++ datapath.address ++ ":6632") [])] })
      (fun _ _ => False) by
        unfold Layer2Switch.cc_ctrl_pool_change_handler Layer2Switch.send_switch
        rw [wp_bind, wp_orRaise_ok htexts]
        simp only [wp_bind, wp_get, wp_item_some hdp, wp_modify])
    exact hx

theorem ctrl_pool_round_trip_iff_empty : PoolArrives .little 7 4 [] ↔ ([] : List LocalCtrlAddr) = [] :=
  ctrl_pool_round_trip_iff .little (by decide) 4 [] (by decide)

theorem ctrl_pool_of_one_lost :
    (MsgDown.CtrlPoolChange 4 1 [(1, 167772161, 6633)]).fits = true ∧
      (MsgDown.CtrlPoolChange 4 1 [(1, 167772161, 6633)]).serialize .little (some 7) = none := by
  decide

end

end VnfDockerNet
