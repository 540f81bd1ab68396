import VnfDockerNet.RecvSound

/-!
# What a handler reads beyond its frame

The receive loops cut the buffer by `msg_len` but hand all of it to the handler,
which reads as far as its format says. `need` is where that ends: for a body of
fixed fields at a fixed place, for a text or a list of addresses where the length
in front of it says. The outcome depends on what follows the frame exactly when
the frame ends before.
-/

namespace VnfDockerNet

open Python

/-- What the handler makes of the frame does not depend on the bytes after it. -/
def DecodedAlone {α : Type} (handler : Handler α) (host : ByteOrder) (hdr : Header) (frame : Bytes) : Prop :=
  ∀ rest rest', handler host hdr (frame ++ rest) = handler host hdr (frame ++ rest')

/-- The handler reads up to `need`, and fails on a buffer that ends before. -/
structure Reads {α : Type} (handler : Handler α) (need : ByteOrder → Bytes → Nat) : Prop where
  enough : ∀ host hdr frame rest, need host frame ≤ frame.length →
    handler host hdr (frame ++ rest) = handler host hdr frame
  short : ∀ host hdr frame, frame.length < need host frame → handler host hdr frame = .error .StructError
  more : ∀ host hdr frame, frame.length < need host frame → ∃ rest, handler host hdr (frame ++ rest) ≠ .error .StructError

section
variable {α : Type} {handler : Handler α} {need : ByteOrder → Bytes → Nat}

theorem Reads.decodedAlone_iff (h : Reads handler need) (host : ByteOrder) (hdr : Header) (frame : Bytes) :
    DecodedAlone handler host hdr frame ↔ need host frame ≤ frame.length := by
  constructor
  · intro hown
    by_contra hlt
    have hlt' : frame.length < need host frame := not_le.mp hlt
    obtain ⟨rest, hrest⟩ := h.more host hdr frame hlt'
    apply hrest
    rw [hown rest [], List.append_nil]
    exact h.short host hdr frame hlt'
  · intro hle rest rest'
    rw [h.enough host hdr frame rest hle, h.enough host hdr frame rest' hle]

/-! ## Fixed fields -/

theorem reads_bare (msg : α) : Reads (bareHandler msg) fun _ _ => 0 where
  enough _ _ _ _ _ := rfl
  short _ _ _ h := absurd h (Nat.not_lt_zero _)
  more _ _ _ h := absurd h (Nat.not_lt_zero _)

def fixedNeed (fmt : Format) (_ : ByteOrder) (_ : Bytes) : Nat := TFLCP_HEADER_SIZE + calcsize fmt

theorem unpackHandler_long {fmt : Format} {msg : List Val → Option α} {host : ByteOrder} {hdr : Header} {data : Bytes}
    (h : TFLCP_HEADER_SIZE + calcsize fmt ≤ data.length) : unpackHandler fmt msg host hdr data ≠ .error .StructError := by
  unfold unpackHandler unpack_from
  rw [if_pos h]
  simp only
  split
  · simp
  · simp

theorem reads_unpack (fmt : Format) (msg : List Val → Option α) : Reads (unpackHandler fmt msg) (fixedNeed fmt) where
  enough host hdr frame rest h := by
    unfold unpackHandler
    rw [unpack_from_longer h]
  short host hdr frame h := by
    unfold unpackHandler
    rw [unpack_from_short h]
  more host hdr frame _ := by
    refine ⟨zeros (TFLCP_HEADER_SIZE + calcsize fmt), unpackHandler_long ?_⟩
    rw [List.length_append, zeros_length]
    omega

end

theorem reads_error : Reads Tflc.error_handler (fixedNeed TFLCP_ERROR_PACK_STR) where
  enough host hdr frame rest h := by
    unfold Tflc.error_handler
    rw [unpack_from_longer h]
  short host hdr frame h := by
    unfold Tflc.error_handler
    rw [unpack_from_short h]
  more host hdr frame _ := by
    refine ⟨zeros (TFLCP_HEADER_SIZE + calcsize TFLCP_ERROR_PACK_STR), ?_⟩
    unfold Tflc.error_handler unpack_from
    rw [if_pos (by rw [List.length_append, zeros_length]; omega)]
    simp

theorem reads_downlinkStub : Reads Tflc.downlinkStub fun _ _ => 0 where
  enough _ _ _ _ _ := rfl
  short _ _ _ h := absurd h (Nat.not_lt_zero _)
  more _ _ _ h := absurd h (Nat.not_lt_zero _)

theorem reads_uplinkStub : Reads CcClient.uplinkStub fun _ _ => 0 where
  enough _ _ _ _ _ := rfl
  short _ _ _ h := absurd h (Nat.not_lt_zero _)
  more _ _ _ h := absurd h (Nat.not_lt_zero _)

/-! ## GRAPH_INFO -/

def graphInfoNeed (host : ByteOrder) (frame : Bytes) : Nat :=
  match unpack_from host ⟨false, [.I]⟩ frame TFLCP_HEADER_SIZE with
  | some [.int len] => TFLCP_HEADER_SIZE + calcsize (graphInfoPackStr len)
  | _ => TFLCP_HEADER_SIZE + calcsize ⟨false, [.I]⟩

theorem unpack_len (host : ByteOrder) {data : Bytes} (h : TFLCP_HEADER_SIZE + calcsize ⟨false, [.I]⟩ ≤ data.length) :
    ∃ len, unpack_from host ⟨false, [.I]⟩ data TFLCP_HEADER_SIZE = some [.int len] := by
  unfold unpack_from
  rw [if_pos h]
  exact ⟨_, rfl⟩

theorem graphInfo_more (host : ByteOrder) (hdr : Header) (frame : Bytes) :
    ∃ rest, Tflc.graph_info_handler host hdr (frame ++ rest) ≠ .error .StructError := by
  have hroom : TFLCP_HEADER_SIZE + calcsize ⟨false, [.I]⟩ ≤ (frame ++ zeros 12).length := by
    rw [List.length_append, zeros_length]
    simp only [TFLCP_HEADER_SIZE, calcsize, codesSize, List.map_cons, List.map_nil, List.sum_cons, List.sum_nil, Code.size]
    omega
  obtain ⟨len, hlen⟩ := unpack_len host hroom
  refine ⟨zeros 12 ++ zeros (TFLCP_HEADER_SIZE + calcsize (graphInfoPackStr len)), ?_⟩
  unfold Tflc.graph_info_handler
  rw [← List.append_assoc, unpack_from_longer hroom, hlen]
  apply unpackHandler_long
  rw [List.length_append, zeros_length]
  omega

theorem reads_graphInfo : Reads Tflc.graph_info_handler graphInfoNeed where
  enough host hdr frame rest h := by
    by_cases hroom : TFLCP_HEADER_SIZE + calcsize ⟨false, [.I]⟩ ≤ frame.length
    · obtain ⟨len, hlen⟩ := unpack_len host hroom
      unfold graphInfoNeed at h
      rw [hlen] at h
      unfold Tflc.graph_info_handler
      rw [unpack_from_longer hroom, hlen]
      exact (reads_unpack _ _).enough host hdr frame rest h
    · unfold graphInfoNeed at h
      rw [unpack_from_short (not_le.mp hroom)] at h
      exact absurd h hroom
  short host hdr frame h := by
    by_cases hroom : TFLCP_HEADER_SIZE + calcsize ⟨false, [.I]⟩ ≤ frame.length
    · obtain ⟨len, hlen⟩ := unpack_len host hroom
      unfold graphInfoNeed at h
      rw [hlen] at h
      unfold Tflc.graph_info_handler
      rw [hlen]
      exact (reads_unpack _ _).short host hdr frame h
    · unfold Tflc.graph_info_handler
      rw [unpack_from_short (not_le.mp hroom)]
  more host hdr frame _ := graphInfo_more host hdr frame

/-! ## CTRL_POOL_CHANGE -/

def ctlPoolNeed (host : ByteOrder) (frame : Bytes) : Nat :=
  match unpack_from host TFLCP_CONTRL_POOL_CHANGE_PACK_STR frame TFLCP_HEADER_SIZE with
  | some [.int _, .int lc_cnt] => TFLCP_CONTRL_POOL_CHANGE_SIZE + lc_cnt * TFLCP_LOCAL_CTRL_ADDRESS_SIZE
  | _ => TFLCP_CONTRL_POOL_CHANGE_SIZE

theorem ctlPool_size : TFLCP_HEADER_SIZE + calcsize TFLCP_CONTRL_POOL_CHANGE_PACK_STR = TFLCP_CONTRL_POOL_CHANGE_SIZE := by
  decide

theorem address_size : calcsize TFLCP_LOCAL_CTRL_ADDRESS_PACK_STR = TFLCP_LOCAL_CTRL_ADDRESS_SIZE := by decide

theorem unpack_lc_cnt (host : ByteOrder) {data : Bytes}
    (h : TFLCP_HEADER_SIZE + calcsize TFLCP_CONTRL_POOL_CHANGE_PACK_STR ≤ data.length) :
    ∃ dpid lc_cnt, unpack_from host TFLCP_CONTRL_POOL_CHANGE_PACK_STR data TFLCP_HEADER_SIZE =
      some [.int dpid, .int lc_cnt] := by
  unfold unpack_from
  rw [if_pos h]
  exact ⟨_, _, rfl⟩

theorem unpack_address (host : ByteOrder) {data : Bytes} {n : Nat}
    (h : TFLCP_CONTRL_POOL_CHANGE_SIZE + (n + 1) * TFLCP_LOCAL_CTRL_ADDRESS_SIZE ≤ data.length) :
    ∃ type ip_addr port, unpack_from host TFLCP_LOCAL_CTRL_ADDRESS_PACK_STR data
      (TFLCP_CONTRL_POOL_CHANGE_SIZE + n * TFLCP_LOCAL_CTRL_ADDRESS_SIZE) = some [.int type, .int ip_addr, .int port] := by
  unfold unpack_from
  rw [if_pos (by rw [address_size]; rw [Nat.succ_mul] at h; omega)]
  exact ⟨_, _, _, rfl⟩

theorem unpackLcList_enough (host : ByteOrder) (data : Bytes) : ∀ lc_cnt n,
    TFLCP_CONTRL_POOL_CHANGE_SIZE + (n + lc_cnt) * TFLCP_LOCAL_CTRL_ADDRESS_SIZE ≤ data.length →
    (∃ lcs, CcClient.unpackLcList host data lc_cnt n = .ok lcs) ∧
      ∀ rest, CcClient.unpackLcList host (data ++ rest) lc_cnt n = CcClient.unpackLcList host data lc_cnt n
  | 0, n, _ => ⟨⟨[], rfl⟩, fun _ => rfl⟩
  | lc_cnt + 1, n, h => by
    have hnext : TFLCP_CONTRL_POOL_CHANGE_SIZE + (n + 1 + lc_cnt) * TFLCP_LOCAL_CTRL_ADDRESS_SIZE ≤ data.length := by
      rwa [Nat.add_right_comm, Nat.add_assoc n lc_cnt 1]
    have hfirst : TFLCP_CONTRL_POOL_CHANGE_SIZE + (n + 1) * TFLCP_LOCAL_CTRL_ADDRESS_SIZE ≤ data.length :=
      le_trans (Nat.add_le_add_left (Nat.mul_le_mul_right _ (Nat.le_add_right _ _)) _) hnext
    obtain ⟨⟨lcs, hlcs⟩, hrest⟩ := unpackLcList_enough host data lc_cnt (n + 1) hnext
    obtain ⟨type, ip_addr, port, haddr⟩ := unpack_address host hfirst
    constructor
    · exact ⟨(type, ip_addr, port) :: lcs, by rw [CcClient.unpackLcList, haddr]; simp only [hlcs]⟩
    · intro rest
      have hroom : TFLCP_CONTRL_POOL_CHANGE_SIZE + n * TFLCP_LOCAL_CTRL_ADDRESS_SIZE +
          calcsize TFLCP_LOCAL_CTRL_ADDRESS_PACK_STR ≤ data.length := by
        rw [Nat.succ_mul] at hfirst
        rw [address_size]
        omega
      rw [CcClient.unpackLcList, CcClient.unpackLcList, unpack_from_longer hroom, hrest rest]

theorem unpackLcList_short (host : ByteOrder) (data : Bytes) : ∀ lc_cnt n,
    TFLCP_CONTRL_POOL_CHANGE_SIZE + n * TFLCP_LOCAL_CTRL_ADDRESS_SIZE ≤ data.length →
    data.length < TFLCP_CONTRL_POOL_CHANGE_SIZE + (n + lc_cnt) * TFLCP_LOCAL_CTRL_ADDRESS_SIZE →
    CcClient.unpackLcList host data lc_cnt n = .error .StructError
  | 0, n, hle, hlt => absurd hlt (not_lt.mpr hle)
  | lc_cnt + 1, n, _, hlt => by
    by_cases hfirst : TFLCP_CONTRL_POOL_CHANGE_SIZE + (n + 1) * TFLCP_LOCAL_CTRL_ADDRESS_SIZE ≤ data.length
    · obtain ⟨type, ip_addr, port, haddr⟩ := unpack_address host hfirst
      have ih := unpackLcList_short host data lc_cnt (n + 1) hfirst (by
        rwa [Nat.add_right_comm, Nat.add_assoc n lc_cnt 1])
      rw [CcClient.unpackLcList, haddr]
      simp only [ih]
    · rw [Nat.succ_mul] at hfirst
      rw [CcClient.unpackLcList, unpack_from_short (by rw [address_size]; omega)]

theorem reads_ctlPool : Reads CcClient.ctl_pool_change_handler ctlPoolNeed where
  enough host hdr frame rest h := by
    by_cases hroom : TFLCP_HEADER_SIZE + calcsize TFLCP_CONTRL_POOL_CHANGE_PACK_STR ≤ frame.length
    · obtain ⟨dpid, lc_cnt, hcnt⟩ := unpack_lc_cnt host hroom
      unfold ctlPoolNeed at h
      rw [hcnt] at h
      have hlist := (unpackLcList_enough host frame lc_cnt 0 (by rwa [Nat.zero_add])).2 rest
      unfold CcClient.ctl_pool_change_handler
      rw [unpack_from_longer hroom, hcnt]
      simp only [hlist]
    · unfold ctlPoolNeed at h
      rw [unpack_from_short (not_le.mp hroom)] at h
      exact absurd (ctlPool_size ▸ h) hroom
  short host hdr frame h := by
    by_cases hroom : TFLCP_HEADER_SIZE + calcsize TFLCP_CONTRL_POOL_CHANGE_PACK_STR ≤ frame.length
    · obtain ⟨dpid, lc_cnt, hcnt⟩ := unpack_lc_cnt host hroom
      unfold ctlPoolNeed at h
      rw [hcnt] at h
      have hlist := unpackLcList_short host frame lc_cnt 0 (by rwa [Nat.zero_mul, Nat.add_zero, ← ctlPool_size]) (by rwa [Nat.zero_add])
      unfold CcClient.ctl_pool_change_handler
      rw [hcnt]
      simp only [hlist]
    · unfold CcClient.ctl_pool_change_handler
      rw [unpack_from_short (not_le.mp hroom)]
  more host hdr frame _ := by
    have hroom : TFLCP_HEADER_SIZE + calcsize TFLCP_CONTRL_POOL_CHANGE_PACK_STR ≤ (frame ++ zeros 24).length := by
      rw [ctlPool_size, List.length_append, zeros_length]
      exact Nat.le_add_left _ _
    obtain ⟨dpid, lc_cnt, hcnt⟩ := unpack_lc_cnt host hroom
    refine ⟨zeros 24 ++ zeros (TFLCP_CONTRL_POOL_CHANGE_SIZE + (0 + lc_cnt) * TFLCP_LOCAL_CTRL_ADDRESS_SIZE), ?_⟩
    rw [← List.append_assoc]
    obtain ⟨⟨lcs, hlcs⟩, _⟩ := unpackLcList_enough host
      (frame ++ zeros 24 ++ zeros (TFLCP_CONTRL_POOL_CHANGE_SIZE + (0 + lc_cnt) * TFLCP_LOCAL_CTRL_ADDRESS_SIZE)) lc_cnt 0 (by
        rw [List.length_append, zeros_length]
        exact Nat.le_add_left _ _)
    unfold CcClient.ctl_pool_change_handler
    rw [unpack_from_longer hroom, hcnt]
    simp only [hlcs]
    simp

/-! ## The handler tables -/

def Tflc.need : Nat → ByteOrder → Bytes → Nat
  | 2 => fixedNeed TFLCP_DATAPATH_CONNECTED_PACK_STR
  | 4 => fixedNeed TFLCP_GID_REQUEST_PACK_STR
  | 6 => fixedNeed TFLCP_PACKET_IN_PACK_STR
  | 8 => fixedNeed TFLCP_LOAD_REPORT_PACK_STR
  | 11 => fixedNeed TFLCP_ROLE_NOTIFY_PACK_STR
  | 13 => fixedNeed TFLCP_ECHO_REPLY_PACK_STR
  | 14 => fixedNeed TFLCP_ERROR_PACK_STR
  | 17 => fixedNeed TFLCP_HOST_CONNECTED_PACK_STR
  | 18 => fixedNeed TFLCP_DATAPATH_LEAVE_PACK_STR
  | 19 => fixedNeed TFLCP_HOST_LEAVE_PACK_STR
  | 20 => graphInfoNeed
  -- the other handlers read nothing
  | _ => fun _ _ => 0

def CcClient.need : Nat → ByteOrder → Bytes → Nat
  | 1 => fixedNeed TFLCP_HELLO_DOWN_PACK_STR
  | 3 => fixedNeed TFLCP_ROLE_ASSIGN_PACK_STR
  | 5 => fixedNeed TFLCP_GID_REPLY_PACK_STR
  | 7 => fixedNeed TFLCP_FLOW_MOD_PACK_STR
  | 9 => fixedNeed TFLCP_DATAPATH_MIGRATION_PACK_STR
  | 10 => ctlPoolNeed
  | 12 => fixedNeed TFLCP_ECHO_REQUEST_PACK_STR
  | _ => fun _ _ => 0

theorem Tflc.reads {msg_type : Nat} {handler : Handler MsgUp} (h : Tflc.msg_handler msg_type = some handler) :
    Reads handler (Tflc.need msg_type) := by
  unfold Tflc.msg_handler at h
  split at h <;> cases h
  all_goals first
    | exact reads_bare _
    | exact reads_downlinkStub
    | exact reads_unpack _ _
    | exact reads_error
    | exact reads_graphInfo

theorem CcClient.reads {msg_type : Nat} {handler : Handler MsgDown} (h : CcClient.msg_handler msg_type = some handler) :
    Reads handler (CcClient.need msg_type) := by
  unfold CcClient.msg_handler at h
  split at h <;> cases h
  all_goals first
    | exact reads_bare _
    | exact reads_uplinkStub
    | exact reads_unpack _ _
    | exact reads_ctlPool

/-- **A frame is decoded from its own bytes** exactly when they are all that its handler reads. -/
theorem decoded_alone_iff (host : ByteOrder) (hdr : Header) (frame : Bytes) :
    (∀ handler, Tflc.msg_handler hdr.msg_type = some handler →
      (DecodedAlone handler host hdr frame ↔ Tflc.need hdr.msg_type host frame ≤ frame.length)) ∧
    ∀ handler, CcClient.msg_handler hdr.msg_type = some handler →
      (DecodedAlone handler host hdr frame ↔ CcClient.need hdr.msg_type host frame ≤ frame.length) :=
  ⟨fun _ h => (Tflc.reads h).decodedAlone_iff host hdr frame, fun _ h => (CcClient.reads h).decodedAlone_iff host hdr frame⟩

theorem decoded_alone_iff_load_report :
    DecodedAlone Tflc.load_report_handler .little ⟨1, 8, 24, 7⟩ (1 :: 8 :: 0 :: 24 :: zeros 20) ↔
      Tflc.need 8 .little (1 :: 8 :: 0 :: 24 :: zeros 20) ≤ 24 :=
  (decoded_alone_iff .little ⟨1, 8, 24, 7⟩ (1 :: 8 :: 0 :: 24 :: zeros 20)).1 _ rfl

/-- A LOAD_REPORT of eight bytes takes its fields from the two HELLO_UPs after it. -/
theorem load_report_reads_on :
    header [1, 8, 0, 8, 0, 0, 0, 7] = .ok ⟨1, 8, 8, 7⟩ ∧ Tflc.msg_handler 8 = some Tflc.load_report_handler ∧
    Tflc.load_report_handler .little ⟨1, 8, 8, 7⟩ [1, 8, 0, 8, 0, 0, 0, 7] = .error .StructError ∧
    (∃ ev, Tflc.load_report_handler .little ⟨1, 8, 8, 7⟩
      ([1, 8, 0, 8, 0, 0, 0, 7] ++ [1, 0, 0, 8, 0, 0, 0, 8, 1, 0, 0, 8, 0, 0, 0, 9]) = .ok (some ev)) ∧
    ¬ DecodedAlone Tflc.load_report_handler .little ⟨1, 8, 8, 7⟩ [1, 8, 0, 8, 0, 0, 0, 7] := by
  refine ⟨rfl, rfl, rfl, ⟨_, rfl⟩, fun h => ?_⟩
  have := h [] [1, 0, 0, 8, 0, 0, 0, 8, 1, 0, 0, 8, 0, 0, 0, 9]
  exact absurd this (by decide)

/-! ## Calls of a run -/

/-- **What the calls of a run make of its frames** is what each frame alone gives, if no handler reads past its frame. -/
theorem calls_decoded_alone {α : Type} {handlers : Nat → Option (Handler α)} {need : Nat → ByteOrder → Bytes → Nat}
    (hreads : ∀ msg_type handler, handlers msg_type = some handler → Reads handler (need msg_type)) (host : ByteOrder)
    {frames : List Bytes} {calls : List (Header × Bytes)} (hcalls : List.Forall₂ CallOf frames calls)
    (hfull : ∀ f ∈ frames, ∀ hdr, header f = .ok hdr → need hdr.msg_type host f ≤ f.length) :
    List.Forall₂ (fun f call => ∀ handler, handlers call.1.msg_type = some handler →
      handler host call.1 call.2 = handler host call.1 f) frames calls := by
  induction hcalls with
  | nil => exact .nil
  | @cons f call frames calls hcall _ ih =>
    refine .cons (fun handler hhandler => ?_) (ih fun g hg => hfull g (List.mem_cons_of_mem f hg))
    obtain ⟨hh, rest, hrest⟩ := hcall
    rw [← hrest]
    exact (hreads _ _ hhandler).enough host call.1 f rest (hfull f (List.mem_cons_self ..) call.1 hh)

end VnfDockerNet
