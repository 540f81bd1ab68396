import VnfDockerNet.Lib.Struct

/-!
# The control protocol: constants, messages and encoders

`tflc/msg_proto.py` and `cc_client/msg_proto.py` agree word for word; the
encoders are `cc_client/msg_proto_parser.py` for the uplink and
`tflc/msg_proto_parser.py` for the downlink. A field that is `None` when the
sender does not know it yet is an `Option`.
-/

namespace VnfDockerNet

open Python

def TFLC_VERSION_1 : Nat := 1
def MAX_XID : Nat := 0xffffffff

/-! ## Pack strings -/

def TFLCP_HEADER_PACK_STR : Format := ⟨true, [.B, .B, .H, .I]⟩
def TFLCP_HEADER_SIZE : Nat := 8
def TFLCP_HELLO_DOWN_PACK_STR : Format := ⟨true, [.I, .x 4]⟩
def TFLCP_DATAPATH_CONNECTED_PACK_STR : Format := ⟨true, [.Q, .bool, .x 7]⟩
def TFLCP_ROLE_ASSIGN_PACK_STR : Format := ⟨true, [.Q, .I, .I, .Q]⟩
def TFLCP_GID_REQUEST_PACK_STR : Format := ⟨true, [.Q]⟩
def TFLCP_GID_REPLY_PACK_STR : Format := ⟨true, [.Q, .Q]⟩
def TFLCP_PACKET_IN_PACK_STR : Format := ⟨true, [.Q, .Q, .Q, .Q, .Q, .s 17, .x 7, .s 17, .x 7]⟩
def TFLCP_FLOW_MOD_PACK_STR : Format := ⟨true, [.Q, .Q, .Q, .s 17, .x 5, .H]⟩
def TFLCP_LOAD_REPORT_PACK_STR : Format := ⟨true, [.Q, .Q]⟩
def TFLCP_DATAPATH_MIGRATION_PACK_STR : Format := ⟨true, [.I, .I, .Q]⟩
def TFLCP_CONTRL_POOL_CHANGE_PACK_STR : Format := ⟨true, [.Q, .I, .x 4]⟩
def TFLCP_CONTRL_POOL_CHANGE_SIZE : Nat := 24
def TFLCP_ROLE_NOTIFY_PACK_STR : Format := ⟨true, [.Q, .I, .I]⟩
def TFLCP_ECHO_REQUEST_PACK_STR : Format := ⟨true, [.Q]⟩
def TFLCP_ECHO_REPLY_PACK_STR : Format := ⟨true, [.Q]⟩
def TFLCP_ERROR_PACK_STR : Format := ⟨true, [.H, .H, .x 4]⟩
def TFLCP_HOST_CONNECTED_PACK_STR : Format := ⟨true, [.Q, .s 17, .x 7]⟩
def TFLCP_DATAPATH_LEAVE_PACK_STR : Format := ⟨true, [.Q]⟩
def TFLCP_HOST_LEAVE_PACK_STR : Format := ⟨true, [.Q, .s 17, .x 7]⟩
def TFLCP_LOCAL_CTRL_ADDRESS_PACK_STR : Format := ⟨true, [.H, .I, .H]⟩
def TFLCP_LOCAL_CTRL_ADDRESS_SIZE : Nat := 8

/-- `"I%ds" % n`: no `!`, so in the host's byte order. -/
def graphInfoPackStr (n : Nat) : Format := ⟨false, [.I, .s n]⟩

/-! ## OpenFlow controller roles -/

def OFPCR_ROLE_MASTER : Nat := 2

/-! ## Messages -/

inductive MsgUp where
  | HelloUp
  | DPConnected (dpid : Nat) (is_window : Bool)
  | GraphInfo (json_window_switches : Bytes)
  | GidRequest (dpid : Nat)
  | PacketIn (in_dpid : Nat) (src_mac dst_mac : Bytes) (src_ip dst_ip tp_src tp_dst : Nat)
  | LoadReport (dpid pkt_in_cnt : Nat)
  | RoleNotify (dpid : Nat) (lcid : Option Nat) (role : Nat)
  | EchoReply (timestamp : Nat)
  | Error (type code : Nat) (data : Bytes)
  | BarrierReply
  | HostConnected (dpid : Nat) (mac : Bytes)
  | DatapathLeave (dpid : Nat)
  | HostLeave (dpid : Nat) (mac : Bytes)
  deriving DecidableEq, Repr

/-- An entry of the controller pool: `type`, `ip_addr`, `port`. -/
abbrev LocalCtrlAddr := Nat × Nat × Nat

inductive MsgDown where
  | HelloDown (lcid : Nat)
  | RoleAssign (dpid : Nat) (lcid : Option Nat) (role gid : Nat)
  | GidReply (dpid gid : Nat)
  | FlowMod (in_dpid out_dpid out_port : Nat) (dst_mac : Bytes) (wildcards : Nat)
  | DpMigration (src_lcid dst_lcid m_dpid : Nat)
  | CtrlPoolChange (dpid lc_cnt : Nat) (lc_list : List LocalCtrlAddr)
  | EchoRequest (timestamp : Nat)
  | BarrierRequest
  | SwitchControllerMapUpdate
  deriving DecidableEq, Repr

def MsgUp.msg_type : MsgUp → Nat
  | .HelloUp => 0
  | .DPConnected .. => 2
  | .GidRequest .. => 4
  | .PacketIn .. => 6
  | .LoadReport .. => 8
  | .RoleNotify .. => 11
  | .EchoReply .. => 13
  | .Error .. => 14
  | .BarrierReply => 16
  | .HostConnected .. => 17
  | .DatapathLeave .. => 18
  | .HostLeave .. => 19
  | .GraphInfo .. => 20

def MsgDown.msg_type : MsgDown → Nat
  | .HelloDown .. => 1
  | .RoleAssign .. => 3
  | .GidReply .. => 5
  | .FlowMod .. => 7
  | .DpMigration .. => 9
  | .CtrlPoolChange .. => 10
  | .EchoRequest .. => 12
  | .BarrierRequest => 15
  | .SwitchControllerMapUpdate => 21

/-- The integer `TFLCPPacketIn.__init__` stores for an address, given by its
four octets: `inet_aton` and `unpack("!L")`, and 0 for `None`. -/
def ipField : Option Bytes → Nat
  | none => 0
  | some packedIP => natBE packedIP

/-- `TFLCPPacketIn.__init__` of the local controller. -/
def TFLCPPacketIn (in_dpid : Nat) (src_mac dst_mac : Bytes) (src_ip dst_ip : Option Bytes)
    (tp_src tp_dst : Nat) : MsgUp :=
  .PacketIn in_dpid src_mac dst_mac (ipField src_ip) (ipField dst_ip) tp_src tp_dst

/-! ## Encoders -/

/-- Pads the buffer up to `offset`, then appends or overwrites. -/
def msg_pack_into (host : ByteOrder) (fmt : Format) (buf : Bytes) (offset : Nat) (args : List Val) :
    Option Bytes :=
  let buf := if buf.length < offset then buf ++ zeros (offset - buf.length) else buf
  if buf.length = offset then (pack host fmt args).map (buf ++ ·)
  else
    let needed_len := offset + calcsize fmt
    let buf := if buf.length < needed_len then buf ++ zeros (needed_len - buf.length) else buf
    pack_into host fmt buf offset args

def MsgUp._serialize_body (host : ByteOrder) (buf : Bytes) : MsgUp → Option Bytes
  | .HelloUp => some buf
  | .DPConnected dpid is_window =>
    msg_pack_into host TFLCP_DATAPATH_CONNECTED_PACK_STR buf TFLCP_HEADER_SIZE [.int dpid, .bool is_window]
  | .GraphInfo text =>
    msg_pack_into host (graphInfoPackStr text.length) buf TFLCP_HEADER_SIZE [.int text.length, .str text]
  | .GidRequest dpid => msg_pack_into host TFLCP_GID_REQUEST_PACK_STR buf TFLCP_HEADER_SIZE [.int dpid]
  | .PacketIn in_dpid src_mac dst_mac src_ip dst_ip tp_src tp_dst =>
    msg_pack_into host TFLCP_PACKET_IN_PACK_STR buf TFLCP_HEADER_SIZE
      [.int in_dpid, .int src_ip, .int dst_ip, .int tp_src, .int tp_dst, .str src_mac, .str dst_mac]
  | .LoadReport dpid pkt_in_cnt =>
    msg_pack_into host TFLCP_LOAD_REPORT_PACK_STR buf TFLCP_HEADER_SIZE [.int dpid, .int pkt_in_cnt]
  | .RoleNotify dpid lcid role =>
    msg_pack_into host TFLCP_ROLE_NOTIFY_PACK_STR buf TFLCP_HEADER_SIZE [.int dpid, .ofOption lcid, .int role]
  | .EchoReply timestamp => msg_pack_into host TFLCP_ECHO_REPLY_PACK_STR buf TFLCP_HEADER_SIZE [.int timestamp]
  | .Error type code data =>
    (msg_pack_into host TFLCP_ERROR_PACK_STR buf TFLCP_HEADER_SIZE [.int type, .int code]).map (· ++ data)
  | .BarrierReply => some buf
  | .HostConnected dpid mac =>
    msg_pack_into host TFLCP_HOST_CONNECTED_PACK_STR buf TFLCP_HEADER_SIZE [.int dpid, .str mac]
  | .DatapathLeave dpid => msg_pack_into host TFLCP_DATAPATH_LEAVE_PACK_STR buf TFLCP_HEADER_SIZE [.int dpid]
  | .HostLeave dpid mac =>
    msg_pack_into host TFLCP_HOST_LEAVE_PACK_STR buf TFLCP_HEADER_SIZE [.int dpid, .str mac]

/-- The loop of `TFLCPCtrlPoolChange._serialize_body`: each address is passed
to `struct.pack` as one object. -/
def packLcList (host : ByteOrder) : Bytes → List LocalCtrlAddr → Option Bytes
  | buf, [] => some buf
  | buf, _ :: lcs => do
    let packed ← pack host TFLCP_LOCAL_CTRL_ADDRESS_PACK_STR [.obj]
    packLcList host (buf ++ packed) lcs

def MsgDown._serialize_body (host : ByteOrder) (buf : Bytes) : MsgDown → Option Bytes
  | .HelloDown lcid => msg_pack_into host TFLCP_HELLO_DOWN_PACK_STR buf TFLCP_HEADER_SIZE [.int lcid]
  | .RoleAssign dpid lcid role gid =>
    msg_pack_into host TFLCP_ROLE_ASSIGN_PACK_STR buf TFLCP_HEADER_SIZE
      [.int dpid, .ofOption lcid, .int role, .int gid]
  | .GidReply dpid gid =>
    msg_pack_into host TFLCP_GID_REPLY_PACK_STR buf TFLCP_HEADER_SIZE [.int dpid, .int gid]
  | .FlowMod in_dpid out_dpid out_port dst_mac wildcards =>
    msg_pack_into host TFLCP_FLOW_MOD_PACK_STR buf TFLCP_HEADER_SIZE
      [.int in_dpid, .int out_dpid, .int out_port, .str dst_mac, .int wildcards]
  | .DpMigration src_lcid dst_lcid m_dpid =>
    -- the source packs the three fields with the format of DATAPATH_CONNECTED
    msg_pack_into host TFLCP_DATAPATH_CONNECTED_PACK_STR buf TFLCP_HEADER_SIZE
      [.int src_lcid, .int dst_lcid, .int m_dpid]
  | .CtrlPoolChange dpid lc_cnt lc_list => do
    let buf ← msg_pack_into host TFLCP_CONTRL_POOL_CHANGE_PACK_STR buf TFLCP_HEADER_SIZE [.int dpid, .int lc_cnt]
    packLcList host buf lc_list
  | .EchoRequest timestamp => msg_pack_into host TFLCP_ECHO_REQUEST_PACK_STR buf TFLCP_HEADER_SIZE [.int timestamp]
  | .BarrierRequest => some buf
  | .SwitchControllerMapUpdate => some buf

/-- `serialize` of both message base classes: an empty header, the body, and
then the header with the length reached. -/
def serialize (host : ByteOrder) (msg_type : Nat) (xid : Option Nat) (body : Bytes → Option Bytes) :
    Option Bytes := do
  let buf ← body (zeros TFLCP_HEADER_SIZE)
  pack_into host TFLCP_HEADER_PACK_STR buf 0
    [.int TFLC_VERSION_1, .int msg_type, .int buf.length, .int (xid.getD 0)]

def MsgUp.serialize (host : ByteOrder) (xid : Option Nat) (msg : MsgUp) : Option Bytes :=
  VnfDockerNet.serialize host msg.msg_type xid fun buf => msg._serialize_body host buf

def MsgDown.serialize (host : ByteOrder) (xid : Option Nat) (msg : MsgDown) : Option Bytes :=
  VnfDockerNet.serialize host msg.msg_type xid fun buf => msg._serialize_body host buf

end VnfDockerNet
