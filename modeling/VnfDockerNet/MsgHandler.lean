import VnfDockerNet.Lib.Python
import VnfDockerNet.MsgProto

/-!
# The control protocol: header and decoders

`tflc/msg_handler.py` decodes the uplink and holds empty functions without
parameters for the downlink types; `cc_client/msg_handler.py` decodes the
downlink and ignores the uplink types. A handler dispatches one event, which
carries the header fields and the message read from the frame.
-/

namespace VnfDockerNet

open Python

/-- What `header` returns: `(version, msg_type, msg_len, xid)`. -/
structure Header where
  version : Nat
  msg_type : Nat
  msg_len : Nat
  xid : Nat
  deriving DecidableEq, Repr

def header (buf : Bytes) : Except Exn Header :=
  if TFLCP_HEADER_SIZE ≤ buf.length then
    match unpack_from .big TFLCP_HEADER_PACK_STR buf 0 with
    | some [.int version, .int msg_type, .int msg_len, .int xid] => .ok ⟨version, msg_type, msg_len, xid⟩
    | _ => .error .StructError
  else .error .AssertionError

structure Event (α : Type) where
  header : Header
  msg : α
  deriving DecidableEq, Repr

/-- A handler reads `data` and dispatches an event, or does nothing, or raises. -/
abbrev Handler (α : Type) := ByteOrder → Header → Bytes → Except Exn (Option (Event α))

/-- The handlers that read their fields with one `unpack_from` at the body. -/
def unpackHandler {α : Type} (fmt : Format) (msg : List Val → Option α) : Handler α := fun host hdr data =>
  match unpack_from host fmt data TFLCP_HEADER_SIZE with
  | none => .error .StructError
  | some vals =>
    match msg vals with
    | some m => .ok (some ⟨hdr, m⟩)
    | none => .error .ValueError

/-- The handlers of messages without a body. -/
def bareHandler {α : Type} (msg : α) : Handler α := fun _ hdr _ => .ok (some ⟨hdr, msg⟩)

namespace Tflc

def hello_up_handler : Handler MsgUp := bareHandler .HelloUp

def dp_connected_handler : Handler MsgUp := unpackHandler TFLCP_DATAPATH_CONNECTED_PACK_STR fun
  | [.int dpid, .bool is_window] => some (.DPConnected dpid is_window)
  | _ => none

def gid_request_handler : Handler MsgUp := unpackHandler TFLCP_GID_REQUEST_PACK_STR fun
  | [.int dpid] => some (.GidRequest dpid)
  | _ => none

def packet_in_handler : Handler MsgUp := unpackHandler TFLCP_PACKET_IN_PACK_STR fun
  | [.int in_dpid, .int src_ip, .int dst_ip, .int src_port, .int dst_port, .str src_mac, .str dst_mac] =>
    some (.PacketIn in_dpid src_mac dst_mac src_ip dst_ip src_port dst_port)
  | _ => none

def load_report_handler : Handler MsgUp := unpackHandler TFLCP_LOAD_REPORT_PACK_STR fun
  | [.int dpid, .int pkt_in_cnt] => some (.LoadReport dpid pkt_in_cnt)
  | _ => none

def role_notify_handler : Handler MsgUp := unpackHandler TFLCP_ROLE_NOTIFY_PACK_STR fun
  | [.int dpid, .int lcid, .int role] => some (.RoleNotify dpid (some lcid) role)
  | _ => none

def echo_rep_handler : Handler MsgUp := unpackHandler TFLCP_ECHO_REPLY_PACK_STR fun
  | [.int timestamp] => some (.EchoReply timestamp)
  | _ => none

def error_handler : Handler MsgUp := fun host _ data =>
  match unpack_from host TFLCP_ERROR_PACK_STR data TFLCP_HEADER_SIZE with
  | none => .error .StructError
  -- `msg.data[TFLCP_ERROR_SIZE:]` slices the message's own `data`, which is still `None`
  | some _ => .error .TypeError

def barrier_rep_handler : Handler MsgUp := bareHandler .BarrierReply

def host_connected_handler : Handler MsgUp := unpackHandler TFLCP_HOST_CONNECTED_PACK_STR fun
  | [.int dpid, .str mac] => some (.HostConnected dpid mac)
  | _ => none

def datapath_leave_handler : Handler MsgUp := unpackHandler TFLCP_DATAPATH_LEAVE_PACK_STR fun
  | [.int dpid] => some (.DatapathLeave dpid)
  | _ => none

def host_leave_handler : Handler MsgUp := unpackHandler TFLCP_HOST_LEAVE_PACK_STR fun
  | [.int dpid, .str mac] => some (.HostLeave dpid mac)
  | _ => none

/-- Reads the text's length first, and then the length and the text. -/
def graph_info_handler : Handler MsgUp := fun host hdr data =>
  match unpack_from host ⟨false, [.I]⟩ data TFLCP_HEADER_SIZE with
  | some [.int len] =>
    unpackHandler (graphInfoPackStr len) (fun
      | [.int _, .str text] => some (.GraphInfo text)
      | _ => none) host hdr data
  | _ => .error .StructError

/-- The downlink stubs take no arguments, and are called with six. -/
def downlinkStub : Handler MsgUp := fun _ _ _ => .error .TypeError

def msg_handler : Nat → Option (Handler MsgUp)
  | 0 => some hello_up_handler
  | 1 => some downlinkStub
  | 2 => some dp_connected_handler
  | 3 => some downlinkStub
  | 4 => some gid_request_handler
  | 5 => some downlinkStub
  | 6 => some packet_in_handler
  | 7 => some downlinkStub
  | 8 => some load_report_handler
  | 9 => some downlinkStub
  | 10 => some downlinkStub
  | 11 => some role_notify_handler
  | 12 => some downlinkStub
  | 13 => some echo_rep_handler
  | 14 => some error_handler
  | 15 => some downlinkStub
  | 16 => some barrier_rep_handler
  | 17 => some host_connected_handler
  | 18 => some datapath_leave_handler
  | 19 => some host_leave_handler
  | 20 => some graph_info_handler
  | 21 => some downlinkStub
  | _ => none

end Tflc

namespace CcClient

def hello_down_handler : Handler MsgDown := unpackHandler TFLCP_HELLO_DOWN_PACK_STR fun
  | [.int lcid] => some (.HelloDown lcid)
  | _ => none

def role_assign_handler : Handler MsgDown := unpackHandler TFLCP_ROLE_ASSIGN_PACK_STR fun
  | [.int dpid, .int lcid, .int role, .int gid] => some (.RoleAssign dpid (some lcid) role gid)
  | _ => none

def gid_reply_handler : Handler MsgDown := unpackHandler TFLCP_GID_REPLY_PACK_STR fun
  | [.int dpid, .int gid] => some (.GidReply dpid gid)
  | _ => none

def flow_mod_handler : Handler MsgDown := unpackHandler TFLCP_FLOW_MOD_PACK_STR fun
  | [.int in_dpid, .int out_dpid, .int out_port, .str dst_mac, .int wildcards] =>
    some (.FlowMod in_dpid out_dpid out_port dst_mac wildcards)
  | _ => none

def dp_migration_handler : Handler MsgDown := unpackHandler TFLCP_DATAPATH_MIGRATION_PACK_STR fun
  | [.int src_lcid, .int dst_lcid, .int m_dpid] => some (.DpMigration src_lcid dst_lcid m_dpid)
  | _ => none

/-- Reads `lc_cnt` addresses, the next one being number `n`. -/
def unpackLcList (host : ByteOrder) (data : Bytes) : Nat → Nat → Except Exn (List LocalCtrlAddr)
  | 0, _ => .ok []
  | lc_cnt + 1, n =>
    match unpack_from host TFLCP_LOCAL_CTRL_ADDRESS_PACK_STR data
        (TFLCP_CONTRL_POOL_CHANGE_SIZE + n * TFLCP_LOCAL_CTRL_ADDRESS_SIZE) with
    | some [.int type, .int ip_addr, .int port] =>
      match unpackLcList host data lc_cnt (n + 1) with
      | .ok lcs => .ok ((type, ip_addr, port) :: lcs)
      | .error e => .error e
    | _ => .error .StructError

def ctl_pool_change_handler : Handler MsgDown := fun host hdr data =>
  match unpack_from host TFLCP_CONTRL_POOL_CHANGE_PACK_STR data TFLCP_HEADER_SIZE with
  | some [.int dpid, .int lc_cnt] =>
    match unpackLcList host data lc_cnt 0 with
    | .ok lc_list => .ok (some ⟨hdr, .CtrlPoolChange dpid lc_cnt lc_list⟩)
    | .error e => .error e
  | _ => .error .StructError

def echo_req_handler : Handler MsgDown := unpackHandler TFLCP_ECHO_REQUEST_PACK_STR fun
  | [.int timestamp] => some (.EchoRequest timestamp)
  | _ => none

def barrier_req_handler : Handler MsgDown := bareHandler .BarrierRequest

def switch_controller_map_update : Handler MsgDown := bareHandler .SwitchControllerMapUpdate

/-- The uplink stubs take their six arguments and do nothing. -/
def uplinkStub : Handler MsgDown := fun _ _ _ => .ok none

def msg_handler : Nat → Option (Handler MsgDown)
  | 0 => some uplinkStub
  | 1 => some hello_down_handler
  | 2 => some uplinkStub
  | 3 => some role_assign_handler
  | 4 => some uplinkStub
  | 5 => some gid_reply_handler
  | 6 => some uplinkStub
  | 7 => some flow_mod_handler
  | 8 => some uplinkStub
  | 9 => some dp_migration_handler
  | 10 => some ctl_pool_change_handler
  | 11 => some uplinkStub
  | 12 => some echo_req_handler
  | 13 => some uplinkStub
  | 14 => some uplinkStub
  | 15 => some barrier_req_handler
  | 16 => some uplinkStub
  | 17 => some uplinkStub
  | 18 => some uplinkStub
  | 19 => some uplinkStub
  | 20 => some uplinkStub
  | 21 => some switch_controller_map_update
  | _ => none

end CcClient

end VnfDockerNet
