import VnfDockerNet.Lib.Struct
import VnfDockerNet.Lib.Text

/-!
# LLDP packets

The TLVs of `ryu/lib/packet/lldp.py`, the way of such a packet through
`ethernet` and `Packet`, and `LLDPPacket` of the topology application. Formats
are in network order. The conversion of MAC texts and what `Packet` makes of
other ethertypes are parameters.
-/

namespace VnfDockerNet

open Python

namespace Lldp

/-! ## Records -/

/-- `struct.unpack`: the buffer has the size of the format. -/
def unpack (codes : List Code) (buf : Bytes) : Except Exn (List Val) :=
  if buf.length = codesSize codes then .ok (unpackCodes .big codes buf) else .error .StructError

/-- `struct.pack` -/
def packed (codes : List Code) (args : List Val) : Except Exn Bytes :=
  match packCodes .big codes args with
  | some bs => .ok bs
  | none => .error .StructError

def assert (p : Prop) [Decidable p] : Except Exn Unit := if p then .ok () else .error .AssertionError

/-! ## TLVs -/

def LLDP_TLV_SIZE : Nat := 2
def LLDP_TLV_TYPE_MASK : Nat := 0xfe00
def LLDP_TLV_TYPE_SHIFT : Nat := 9
def LLDP_TLV_LENGTH_MASK : Nat := 0x01ff

def LLDP_TLV_END : Nat := 0
def LLDP_TLV_CHASSIS_ID : Nat := 1
def LLDP_TLV_PORT_ID : Nat := 2
def LLDP_TLV_TTL : Nat := 3

/-- The attributes of the TLV classes. -/
inductive Info where
  | End
  | ChassisID (subtype : Nat) (chassis_id : Bytes)
  | PortID (subtype : Nat) (port_id : Bytes)
  | TTL (ttl : Nat)
  | PortDescription (tlv_info : Bytes)
  | SystemName (tlv_info : Bytes)
  | SystemDescription (tlv_info : Bytes)
  | SystemCapabilities (system_cap enabled_cap : Nat)
  | ManagementAddress (addr_len addr_subtype : Nat) (addr : Bytes) (intf_subtype intf_num oid_len : Nat) (oid : Bytes)
  | OrganizationallySpecific (oui : Bytes) (subtype : Nat) (info : Bytes)
  deriving DecidableEq, Repr

def Info.tlv_type : Info → Nat
  | .End => LLDP_TLV_END
  | .ChassisID .. => LLDP_TLV_CHASSIS_ID
  | .PortID .. => LLDP_TLV_PORT_ID
  | .TTL .. => LLDP_TLV_TTL
  | .PortDescription .. => 4
  | .SystemName .. => 5
  | .SystemDescription .. => 6
  | .SystemCapabilities .. => 7
  | .ManagementAddress .. => 8
  | .OrganizationallySpecific .. => 127

structure Tlv where
  typelen : Nat
  len : Nat
  info : Info
  deriving DecidableEq, Repr

/-! ### Building -/

/-- The constructors without a buffer: `_len_valid` and the type with the length. -/
def build (lenMin lenMax len : Nat) (info : Info) : Except Exn Tlv := do
  assert (lenMin ≤ len ∧ len ≤ lenMax)
  return ⟨(info.tlv_type <<< LLDP_TLV_TYPE_SHIFT) ||| len, len, info⟩

def End : Tlv := ⟨0, 0, .End⟩

def ChassisID (subtype : Nat) (chassis_id : Bytes) : Except Exn Tlv :=
  build 2 256 (1 + chassis_id.length) (.ChassisID subtype chassis_id)

def PortID (subtype : Nat) (port_id : Bytes) : Except Exn Tlv := build 2 256 (1 + port_id.length) (.PortID subtype port_id)

def TTL (ttl : Nat) : Except Exn Tlv := build 2 2 2 (.TTL ttl)

def PortDescription (port_description : Bytes) : Except Exn Tlv :=
  build 0 255 port_description.length (.PortDescription port_description)

def SystemName (system_name : Bytes) : Except Exn Tlv := build 0 255 system_name.length (.SystemName system_name)

def SystemDescription (system_description : Bytes) : Except Exn Tlv :=
  build 0 255 system_description.length (.SystemDescription system_description)

def SystemCapabilities (system_cap enabled_cap : Nat) : Except Exn Tlv :=
  build 4 4 4 (.SystemCapabilities system_cap enabled_cap)

/-- `_addr_len_valid` has an `or` between its bounds. -/
def addrLenValid (addr_len : Nat) : Prop := 1 ≤ addr_len ∨ addr_len ≤ 31

def oidLenValid (oid_len : Nat) : Prop := oid_len ≤ 128

instance (n : Nat) : Decidable (addrLenValid n) := inferInstanceAs (Decidable (_ ∨ _))
instance (n : Nat) : Decidable (oidLenValid n) := inferInstanceAs (Decidable (_ ≤ _))

def ManagementAddress (addr_subtype : Nat) (addr : Bytes) (intf_subtype intf_num : Nat) (oid : Bytes) : Except Exn Tlv := do
  let addr_len := addr.length + 1
  assert (addrLenValid addr_len)
  assert (oidLenValid oid.length)
  build 9 167 (2 + addr_len - 1 + 6 + oid.length)
    (.ManagementAddress addr_len addr_subtype addr intf_subtype intf_num oid.length oid)

def OrganizationallySpecific (oui : Bytes) (subtype : Nat) (info : Bytes) : Except Exn Tlv :=
  build 4 511 (4 + info.length) (.OrganizationallySpecific oui subtype info)

/-! ### Writing -/

def Tlv.serialize (tlv : Tlv) : Except Exn Bytes :=
  match tlv.info with
  | .End => packed [.H] [.int tlv.typelen]
  | .ChassisID subtype text | .PortID subtype text => do
    let head ← packed [.H, .B] [.int tlv.typelen, .int subtype]
    return head ++ text
  | .TTL ttl => packed [.H, .H] [.int tlv.typelen, .int ttl]
  | .PortDescription text | .SystemName text | .SystemDescription text => do
    let head ← packed [.H] [.int tlv.typelen]
    return head ++ text
  | .SystemCapabilities system_cap enabled_cap =>
    packed [.H, .H, .H] [.int tlv.typelen, .int system_cap, .int enabled_cap]
  | .ManagementAddress addr_len addr_subtype addr intf_subtype intf_num oid_len oid => do
    let first ← packed [.B, .B] [.int addr_len, .int addr_subtype]
    let second ← packed [.B, .I, .B] [.int intf_subtype, .int intf_num, .int oid_len]
    let head ← packed [.H] [.int tlv.typelen]
    return head ++ (first ++ addr ++ second ++ oid)
  | .OrganizationallySpecific oui subtype info => do
    let head ← packed [.H, .s 3, .B] [.int tlv.typelen, .str oui, .int subtype]
    return head ++ info

/-- `lldp.serialize` -/
def serialize : List Tlv → Except Exn Bytes
  | [] => .ok []
  | tlv :: tlvs => do
    let data ← tlv.serialize
    let rest ← serialize tlvs
    return data ++ rest

/-! ### Reading -/

/-- `struct.unpack` of one number. -/
def readInt (code : Code) (buf : Bytes) : Except Exn Nat := do
  match ← unpack [code] buf with
  | [.int n] => return n
  | _ => throw .TypeError

/-- The constructors with a buffer, after the base class has cut `tlv_info` out. -/
def readInfo (tlv_info : Bytes) : Nat → Except Exn Info
  | 0 => .ok .End
  | 1 => do
    let subtype ← readInt .B (tlv_info.take 1)
    return .ChassisID subtype (tlv_info.drop 1)
  | 2 => do
    let subtype ← readInt .B (tlv_info.take 1)
    return .PortID subtype (tlv_info.drop 1)
  | 3 => do
    let ttl ← readInt .H (tlv_info.take 2)
    return .TTL ttl
  | 4 => .ok (.PortDescription tlv_info)
  | 5 => .ok (.SystemName tlv_info)
  | 6 => .ok (.SystemDescription tlv_info)
  | 7 => do
    match ← unpack [.H, .H] (tlv_info.take 4) with
    | [.int system_cap, .int enabled_cap] => return .SystemCapabilities system_cap enabled_cap
    | _ => throw .TypeError
  | 8 => do
    match ← unpack [.B, .B] (tlv_info.take 2) with
    | [.int addr_len, .int addr_subtype] =>
      assert (addrLenValid addr_len)
      let offset := 2 + addr_len - 1
      let addr := (tlv_info.take offset).drop 2
      match ← unpack [.B, .I, .B] ((tlv_info.drop offset).take 6) with
      | [.int intf_subtype, .int intf_num, .int oid_len] =>
        assert (oidLenValid oid_len)
        return .ManagementAddress addr_len addr_subtype addr intf_subtype intf_num oid_len (tlv_info.drop (offset + 6))
      | _ => throw .TypeError
    | _ => throw .TypeError
  | 127 => do
    match ← unpack [.s 3, .B] (tlv_info.take 4) with
    | [.str oui, .int subtype] => return .OrganizationallySpecific oui subtype (tlv_info.drop 4)
    | _ => throw .TypeError
  -- `_tlv_parsers[tlv_type]`
  | _ => .error .KeyError

def readTlv (buf : Bytes) : Except Exn Tlv := do
  let typelen ← readInt .H (buf.take LLDP_TLV_SIZE)
  let len := typelen &&& LLDP_TLV_LENGTH_MASK
  assert (len + LLDP_TLV_SIZE ≤ buf.length)
  let info ← readInfo ((buf.drop LLDP_TLV_SIZE).take len) ((typelen &&& LLDP_TLV_TYPE_MASK) >>> LLDP_TLV_TYPE_SHIFT)
  return ⟨typelen, len, info⟩

/-- The loop of `_parser`; every round takes some bytes off the buffer. -/
def readTlvs : Nat → Bytes → Except Exn (List Tlv × Bytes)
  | _, [] => .ok ([], [])
  | 0, _ :: _ => .error .RuntimeError
  | fuel + 1, buf => do
    let tlv ← readTlv buf
    let buf := buf.drop (LLDP_TLV_SIZE + tlv.len)
    if tlv.info.tlv_type = LLDP_TLV_END then return ([tlv], buf)
    assert (0 < buf.length)
    let (tlvs, buf) ← readTlvs fuel buf
    return (tlv :: tlvs, buf)

def _tlvs_len_valid (tlvs : List Tlv) : Prop := 4 ≤ tlvs.length

def _tlvs_valid (tlvs : List Tlv) : Prop :=
  let types := tlvs.map fun tlv => tlv.info.tlv_type
  types[0]? = some LLDP_TLV_CHASSIS_ID ∧ types[1]? = some LLDP_TLV_PORT_ID ∧ types[2]? = some LLDP_TLV_TTL ∧
    types.getLast? = some LLDP_TLV_END

instance (tlvs : List Tlv) : Decidable (_tlvs_len_valid tlvs) := inferInstanceAs (Decidable (_ ≤ _))
instance (tlvs : List Tlv) : Decidable (_tlvs_valid tlvs) := inferInstanceAs (Decidable (_ ∧ _))

/-- The packet and the bytes after it. -/
def parserBody (buf : Bytes) : Except Exn (List Tlv × Bytes) := do
  let (tlvs, buf) ← readTlvs buf.length buf
  assert (_tlvs_len_valid tlvs)
  assert (_tlvs_valid tlvs)
  return (tlvs, buf)

/-- Every exception makes the packet one that is not there. -/
def parser (buf : Bytes) : Option (List Tlv) × Bytes :=
  match parserBody buf with
  | .ok (tlvs, rest) => (some tlvs, rest)
  | .error _ => (none, buf)

/-! ## Packets -/

def ETH_TYPE_LLDP : Nat := 0x88cc
def ETH_TYPE_IEEE802_3 : Nat := 0x05dc
def LLDP_MAC_NEAREST_BRIDGE : Bytes := asciiText "01:80:c2:00:00:0e"

/-- What `Packet` iterates over. -/
inductive Proto where
  | ethernet (dst src : Bytes) (ethertype : Nat)
  | lldp (tlvs : List Tlv)
  /-- A header of another protocol. -/
  | other
  | payload (data : Bytes)
  deriving DecidableEq, Repr

structure Env where
  /-- `addrconv.mac` -/
  text_to_bin : Bytes → Except Exn Bytes
  bin_to_text : Bytes → Bytes
  /-- What `Packet` makes of the rest of a packet of another type, if the type is known. -/
  packet_types : Nat → Option (Bytes → Except Exn (List Proto))

section
variable (env : Env)

/-- The rest, unless it is padding. -/
def restOf (rest : Bytes) : List Proto := if rest.all (· == 0) then [] else [.payload rest]

/-- `Packet(data).protocols` -/
def Packet (data : Bytes) : Except Exn (List Proto) :=
  if data.all (· == 0) then .ok []
  else
    match unpack [.s 6, .s 6, .H] (data.take 14) with
    | .ok [.str dst, .str src, .int ethertype] =>
      let eth := Proto.ethernet (env.bin_to_text dst) (env.bin_to_text src) ethertype
      let rest := data.drop 14
      let type := if ethertype ≤ ETH_TYPE_IEEE802_3 then ETH_TYPE_IEEE802_3 else ethertype
      if rest.all (· == 0) then .ok [eth]
      else if type = ETH_TYPE_LLDP then
        let (pkt, rest) := parser rest
        .ok (eth :: (pkt.map Proto.lldp).toList ++ restOf rest)
      else
        match env.packet_types type with
        | some protocols => (protocols rest).map (eth :: ·)
        | none => .ok (eth :: restOf rest)
    -- `struct.error`
    | _ => .ok (restOf data)

/-! ## Link discovery -/

inductive LldpExn where
  | LLDPUnknownFormat (msg : Option (List Char))
  | StopIteration
  | raised (e : Exn)
  deriving DecidableEq, Repr

/-- `data.decode('utf-8')` -/
def decodeUtf8 (data : Bytes) : Except Exn (List Char) :=
  match (ByteArray.mk data.toArray).utf8Decode? with
  | some text => .ok text.toList
  | none => .error .ValueError

def encodeAscii (text : List Char) : Bytes := text.map fun c => c.toNat.toUInt8

def dpid_to_str (dpid : Nat) : List Char := hexText 16 dpid

def isHexDigit (c : Char) : Bool := c.isDigit || ('a' ≤ c && c ≤ 'f')

/-- `int(dpid_str, 16)` of a text in digits. -/
def str_to_dpid (dpid_str : List Char) : Except Exn Nat := do
  assert (dpid_str.length = 16)
  if dpid_str.all isHexDigit then return hexValue dpid_str else throw .ValueError

def CHASSIS_ID_PREFIX : List Char := "dpid:".toList

def SUB_LOCALLY_ASSIGNED : Nat := 7
def SUB_PORT_COMPONENT : Nat := 2

/-- `Packet.serialize` for an `ethernet` with this payload, which gets padded. -/
def ethernetFrame (dst src : Bytes) (ethertype : Nat) (payload : Bytes) : Except Exn Bytes := do
  let dst ← env.text_to_bin dst
  let src ← env.text_to_bin src
  let head ← packed [.s 6, .s 6, .H] [.str dst, .str src, .int ethertype]
  return head ++ (payload ++ zeros (46 - payload.length))

def lldp_packet (dpid port_no : Nat) (dl_addr : Bytes) (ttl : Nat) : Except Exn Bytes := do
  let tlv_chassis_id ← ChassisID SUB_LOCALLY_ASSIGNED (encodeAscii (CHASSIS_ID_PREFIX ++ dpid_to_str dpid))
  let port_id ← packed [.I] [.int port_no]
  let tlv_port_id ← PortID SUB_PORT_COMPONENT port_id
  let tlv_ttl ← TTL ttl
  let data ← serialize [tlv_chassis_id, tlv_port_id, tlv_ttl, End]
  ethernetFrame env LLDP_MAC_NEAREST_BRIDGE dl_addr ETH_TYPE_LLDP data

def raise {α : Type} : Except Exn α → Except LldpExn α
  | .ok a => .ok a
  | .error e => .error (.raised e)

/-- The first two TLVs of the packet. -/
def readPort (subtype : Nat) (chassis_id : Bytes) (port_subtype : Nat) (port_id : Bytes) : Except LldpExn (Nat × Nat) := do
  if subtype ≠ SUB_LOCALLY_ASSIGNED then
    throw (.LLDPUnknownFormat (some ("unknown chassis id subtype ".toList ++ str subtype)))
  let chassis_id ← raise (decodeUtf8 chassis_id)
  if ¬ CHASSIS_ID_PREFIX.isPrefixOf chassis_id then
    throw (.LLDPUnknownFormat (some ("unknown chassis id format ".toList ++ chassis_id)))
  let src_dpid ← raise (str_to_dpid (chassis_id.drop CHASSIS_ID_PREFIX.length))
  if port_subtype ≠ SUB_PORT_COMPONENT then
    throw (.LLDPUnknownFormat (some ("unknown port id subtype ".toList ++ str port_subtype)))
  -- the message for another length formats a text as a number
  if port_id.length ≠ 4 then throw (.raised .TypeError)
  let src_port_no ← raise (readInt .I port_id)
  return (src_dpid, src_port_no)

def lldp_parse (data : Bytes) : Except LldpExn (Nat × Nat) := do
  match ← raise (Packet env data) with
  | [] => throw .StopIteration
  | .ethernet .. :: protocols =>
    match protocols with
    | [] => throw .StopIteration
    | .lldp (⟨_, _, .ChassisID subtype chassis_id⟩ :: ⟨_, _, .PortID port_subtype port_id⟩ :: _) :: _ =>
      readPort subtype chassis_id port_subtype port_id
    | .lldp _ :: _ => throw (.raised .AttributeError)
    | _ => throw (.LLDPUnknownFormat none)
  | _ => throw (.raised .AssertionError)

end

end Lldp

end VnfDockerNet
