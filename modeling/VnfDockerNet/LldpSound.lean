import VnfDockerNet.Lldp

/-!
# Round trips of LLDP packets

A TLV is its type and length, and its bytes after those (`infoBytes`). What the
constructors build is read back from what it serializes to; what is read
serializes to the bytes it was read from if no byte of the TLV was ignored.
A packet of link discovery gives back its switch and port.
-/

namespace VnfDockerNet

open Python

namespace Lldp

/-! ## Records -/

theorem packed_cons {c : Code} (hc : ∀ n, c ≠ .x n) (cs : List Code) (v : Val) (vs : List Val) :
    packed (c :: cs) (v :: vs) = do
      let first ← packed [c] [v]
      let rest ← packed cs vs
      return first ++ rest := by
  have hsplit : packCodes .big (c :: cs) (v :: vs) =
      (packVal .big c v).bind fun b => (packCodes .big cs vs).map (b ++ ·) := by
    cases c <;> first | exact absurd rfl (hc _) | (simp only [packCodes]; cases packVal .big _ v <;> cases packCodes .big cs vs <;> rfl)
  have hone : packCodes .big [c] [v] = packVal .big c v := by
    cases c <;> first | exact absurd rfl (hc _) | (simp only [packCodes]; cases packVal .big _ v <;> simp)
  unfold packed
  rw [hsplit, hone]
  cases packVal .big c v with
  | none => rfl
  | some b => cases packCodes .big cs vs <;> rfl

theorem fits_of_packed {codes : List Code} {args : List Val} {bs : Bytes} (hcodes : ∀ c ∈ codes, c.isInt = true)
    (hargs : ∀ v ∈ args, ∀ b, v ≠ .bool b) (h : packed codes args = .ok bs) : fitsCodes codes args = true := by
  by_contra hfits
  have hnone := packCodes_of_not_fits .big codes args hcodes hargs (Bool.eq_false_iff.mpr hfits)
  unfold packed at h
  rw [hnone] at h
  cases h

theorem unpack_packed {codes : List Code} {args : List Val} {bs : Bytes} (hfits : fitsCodes codes args = true)
    (h : packed codes args = .ok bs) : bs.length = codesSize codes ∧ unpack codes bs = .ok args := by
  obtain ⟨bs', hpack, hlen, hunpack⟩ := packCodes_of_fits .big codes args hfits
  unfold packed at h
  rw [hpack] at h
  cases h
  refine ⟨hlen, ?_⟩
  have hargs := hunpack []
  rw [List.append_nil] at hargs
  unfold unpack
  rw [if_pos hlen, hargs]

theorem readInt_packed {c : Code} (hc : c.isInt = true) {n : Nat} {bs : Bytes} (h : packed [c] [.int n] = .ok bs) :
    bs.length = c.size ∧ readInt c bs = .ok n := by
  have hfits := fits_of_packed (by simpa using hc) (by simp) h
  obtain ⟨hlen, hunpack⟩ := unpack_packed hfits h
  refine ⟨by simpa [codesSize] using hlen, ?_⟩
  unfold readInt
  rw [hunpack]
  rfl

theorem natBE_injective : ∀ {bs bs' : Bytes}, bs.length = bs'.length → natBE bs = natBE bs' → bs = bs'
  | [], [], _, _ => rfl
  | b :: bs, b' :: bs', hlen, h => by
    have hlen : bs.length = bs'.length := Nat.succ.inj hlen
    have hlt := natBE_lt bs
    have hlt' := natBE_lt bs'
    have hpos : 0 < 256 ^ bs.length := Nat.pow_pos (by decide)
    unfold natBE at h
    rw [← hlen] at h hlt'
    have hdiv : ∀ (n m : Nat), m < 256 ^ bs.length →
        (n * 256 ^ bs.length + m) / 256 ^ bs.length = n ∧ (n * 256 ^ bs.length + m) % 256 ^ bs.length = m := by
      intro n m hm
      rw [Nat.mul_comm, Nat.mul_add_div hpos, Nat.div_eq_of_lt hm, Nat.add_zero, Nat.mul_add_mod, Nat.mod_eq_of_lt hm]
      exact ⟨rfl, rfl⟩
    have hhead := congrArg (· / 256 ^ bs.length) h
    have hrest := congrArg (· % 256 ^ bs.length) h
    simp only [(hdiv _ _ hlt).1, (hdiv _ _ hlt').1] at hhead
    simp only [(hdiv _ _ hlt).2, (hdiv _ _ hlt').2] at hrest
    rw [UInt8.toNat_inj.mp hhead, natBE_injective hlen hrest]

theorem bytesBE_natBE (bs : Bytes) : bytesBE bs.length (natBE bs) = bs := by
  apply natBE_injective (bytesBE_length _ _)
  rw [natBE_bytesBE, Nat.mod_eq_of_lt (natBE_lt bs)]

theorem packInt_of_lt (o : ByteOrder) {n v : Nat} (h : v < 256 ^ n) : packInt o n (.int v) = some (intBytes o n v) := if_pos h

def isPlain : Code → Bool
  | .bool | .x _ => false
  | _ => true

theorem packVal_unpackVal {c : Code} (hc : isPlain c = true) (bs : Bytes) (h : bs.length = c.size) :
    packVal .big c (unpackVal .big c bs) = some bs := by
  have hbytes := bytesBE_natBE bs
  have hlt := natBE_lt bs
  rw [h] at hbytes hlt
  cases c with
  | bool | x => cases hc
  | s n =>
    have hlen : bs.length = n := h
    show some (bs.take n ++ zeros (n - bs.length)) = some bs
    rw [List.take_of_length_le (le_of_eq hlen), hlen, Nat.sub_self]
    simp [zeros]
  | B | H | I | Q =>
    simp only [Code.size] at hbytes hlt
    have hpack := packInt_of_lt .big hlt
    exact hpack.trans (congrArg some hbytes)

theorem packCodes_unpackCodes : ∀ (codes : List Code) (bs : Bytes), (∀ c ∈ codes, isPlain c = true) →
    bs.length = codesSize codes → packCodes .big codes (unpackCodes .big codes bs) = some bs
  | [], bs, _, h => by
    have hnil : bs = [] := List.eq_nil_of_length_eq_zero h
    rw [hnil]
    rfl
  | c :: codes, bs, hc, h => by
    have hsize : bs.length = c.size + codesSize codes := by simpa [codesSize] using h
    have hplain := hc c (List.mem_cons_self ..)
    have hfirst := packVal_unpackVal hplain (bs.take c.size) (by rw [List.length_take]; omega)
    have hrest := packCodes_unpackCodes codes (bs.drop c.size) (fun c' h' => hc c' (List.mem_cons_of_mem c h'))
      (by rw [List.length_drop]; omega)
    have hcons : unpackCodes .big (c :: codes) bs =
        unpackVal .big c (bs.take c.size) :: unpackCodes .big codes (bs.drop c.size) := by
      cases c <;> first | rfl | cases hplain
    have hpack : packCodes .big (c :: codes) (unpackVal .big c (bs.take c.size) :: unpackCodes .big codes (bs.drop c.size)) =
        (packVal .big c (unpackVal .big c (bs.take c.size))).bind fun b =>
          (packCodes .big codes (unpackCodes .big codes (bs.drop c.size))).map (b ++ ·) := by
      cases c <;> first
        | (cases hplain; done)
        | (simp only [packCodes]; cases packVal .big _ _ <;> cases packCodes .big codes _ <;> rfl)
    rw [hcons, hpack, hfirst, hrest]
    show some (bs.take c.size ++ bs.drop c.size) = some bs
    rw [List.take_append_drop]

theorem packed_unpack {codes : List Code} (hc : ∀ c ∈ codes, isPlain c = true) {args : List Val} {bs : Bytes}
    (h : unpack codes bs = .ok args) : bs.length = codesSize codes ∧ packed codes args = .ok bs := by
  unfold unpack at h
  by_cases hlen : bs.length = codesSize codes
  · rw [if_pos hlen] at h
    cases h
    refine ⟨hlen, ?_⟩
    unfold packed
    rw [packCodes_unpackCodes codes bs hc hlen]
  · rw [if_neg hlen] at h
    cases h

/-! ## TLVs -/

def infoBytes : Info → Except Exn Bytes
  | .End => .ok []
  | .ChassisID subtype text | .PortID subtype text => do
    let first ← packed [.B] [.int subtype]
    return first ++ text
  | .TTL ttl => packed [.H] [.int ttl]
  | .PortDescription text | .SystemName text | .SystemDescription text => .ok text
  | .SystemCapabilities system_cap enabled_cap => packed [.H, .H] [.int system_cap, .int enabled_cap]
  | .ManagementAddress addr_len addr_subtype addr intf_subtype intf_num oid_len oid => do
    let first ← packed [.B, .B] [.int addr_len, .int addr_subtype]
    let second ← packed [.B, .I, .B] [.int intf_subtype, .int intf_num, .int oid_len]
    return first ++ addr ++ second ++ oid
  | .OrganizationallySpecific oui subtype info => do
    let first ← packed [.s 3, .B] [.str oui, .int subtype]
    return first ++ info

theorem bind_eq_ok {α β : Type} {x : Except Exn α} {f : α → Except Exn β} {b : β} :
    (x >>= f) = .ok b ↔ ∃ a, x = .ok a ∧ f a = .ok b := by
  cases x with
  | error e =>
    constructor
    · intro h
      cases h
    · rintro ⟨a, h, -⟩
      cases h
  | ok a =>
    constructor
    · intro h
      exact ⟨a, rfl, h⟩
    · rintro ⟨a', h, h'⟩
      cases h
      exact h'

theorem pure_eq_ok {α : Type} {a b : α} : (pure a : Except Exn α) = .ok b ↔ b = a := by
  constructor
  · intro h
    cases h
    rfl
  · intro h
    rw [h]
    rfl

theorem assert_eq_ok {p : Prop} [Decidable p] {u : Unit} : assert p = .ok u ↔ p := by
  unfold assert
  by_cases h : p <;> simp [h]

theorem packed_readInt {c : Code} (hc : c.isInt = true) {n : Nat} {bs : Bytes} (h : readInt c bs = .ok n) :
    bs.length = c.size ∧ packed [c] [.int n] = .ok bs := by
  have hplain : ∀ c' ∈ [c], isPlain c' = true := by
    intro c' h'
    rw [List.mem_singleton.mp h']
    cases c <;> first | rfl | cases hc
  obtain ⟨args, hu, hargs⟩ := bind_eq_ok.mp h
  obtain ⟨hlen, hpacked⟩ := packed_unpack hplain hu
  have hint : args = [.int n] := by
    revert hargs
    split
    · intro h; cases h; rfl
    · intro h; cases h
  rw [hint] at hpacked
  exact ⟨by simpa [codesSize] using hlen, hpacked⟩

theorem serialize_eq_ok {tlv : Tlv} {bs : Bytes} : tlv.serialize = .ok bs ↔
    ∃ head, packed [.H] [.int tlv.typelen] = .ok head ∧ ∃ body, infoBytes tlv.info = .ok body ∧ bs = head ++ body := by
  have htwo : ∀ c cs v vs, packed (.H :: c :: cs) (.int tlv.typelen :: v :: vs) = _ :=
    fun c cs v vs => packed_cons (c := .H) (by simp) (c :: cs) (.int tlv.typelen) (v :: vs)
  unfold Tlv.serialize infoBytes
  cases tlv.info <;> simp only [htwo, bind_eq_ok, pure_eq_ok]
  case End => simp
  case PortDescription | SystemName | SystemDescription => simp
  case ManagementAddress =>
    constructor
    · rintro ⟨first, hfirst, second, hsecond, head, hhead, rfl⟩
      exact ⟨head, hhead, _, ⟨first, hfirst, second, hsecond, rfl⟩, rfl⟩
    · rintro ⟨head, hhead, body, ⟨first, hfirst, second, hsecond, rfl⟩, rfl⟩
      exact ⟨first, hfirst, second, hsecond, head, hhead, rfl⟩
  all_goals
    constructor
    · rintro ⟨both, ⟨head, hhead, body, hbody, rfl⟩, rfl⟩
      exact ⟨head, hhead, _, ⟨body, hbody, rfl⟩, List.append_assoc ..⟩
    · rintro ⟨head, hhead, body, ⟨first, hfirst, rfl⟩, rfl⟩
      exact ⟨_, ⟨head, hhead, first, hfirst, rfl⟩, (List.append_assoc ..).symm⟩

/-! ### The type and the length -/

theorem and_mask (n : Nat) : n &&& LLDP_TLV_LENGTH_MASK = n % 512 := Nat.and_two_pow_sub_one_eq_mod n 9

theorem type_mask {n : Nat} (h : n < 65536) : (n &&& LLDP_TLV_TYPE_MASK) >>> LLDP_TLV_TYPE_SHIFT = n / 512 := by
  have hmask : LLDP_TLV_TYPE_MASK >>> LLDP_TLV_TYPE_SHIFT = 2 ^ 7 - 1 := by decide
  rw [Nat.shiftRight_and_distrib, hmask, Nat.and_two_pow_sub_one_eq_mod]
  show n >>> 9 % 128 = n / 512
  rw [Nat.shiftRight_eq_div_pow]
  omega

theorem typelen_eq {type len : Nat} (h : len < 512) : (type <<< LLDP_TLV_TYPE_SHIFT) ||| len = type * 512 + len := by
  show type <<< 9 ||| len = _
  rw [← Nat.shiftLeft_add_eq_or_of_lt (by omega : len < 2 ^ 9), Nat.shiftLeft_eq]

theorem tlv_type_lt (info : Info) : info.tlv_type < 128 := by
  cases info <;> simp [Info.tlv_type, LLDP_TLV_END, LLDP_TLV_CHASSIS_ID, LLDP_TLV_PORT_ID, LLDP_TLV_TTL]

/-- The numbers of a TLV belong to its fields. -/
structure Headed (tlv : Tlv) : Prop where
  len : tlv.len < 512
  typelen : tlv.typelen = tlv.info.tlv_type * 512 + tlv.len

theorem Headed.mask {tlv : Tlv} (h : Headed tlv) : tlv.typelen &&& LLDP_TLV_LENGTH_MASK = tlv.len := by
  have hlen := h.len
  rw [and_mask, h.typelen]
  omega

theorem Headed.type {tlv : Tlv} (h : Headed tlv) :
    (tlv.typelen &&& LLDP_TLV_TYPE_MASK) >>> LLDP_TLV_TYPE_SHIFT = tlv.info.tlv_type := by
  have hlen := h.len
  have htype := tlv_type_lt tlv.info
  have htypelen := h.typelen
  rw [type_mask (by omega)]
  omega

/-! ### What is read from a TLV's bytes -/

/-- The fields have the lengths that the TLV says. -/
def Info.Sized : Info → Prop
  | .ManagementAddress addr_len _ addr _ _ oid_len oid => addr_len = addr.length + 1 ∧ oid_len = oid.length ∧ oidLenValid oid_len
  | .OrganizationallySpecific oui _ _ => oui.length = 3
  | _ => True

theorem unpack_ints (codes : List Code) (ns : List Nat) {bs : Bytes} (hcodes : ∀ c ∈ codes, c.isInt = true)
    (h : packed codes (ns.map Val.int) = .ok bs) : bs.length = codesSize codes ∧ unpack codes bs = .ok (ns.map Val.int) := by
  refine unpack_packed (fits_of_packed hcodes ?_ h) h
  intro v hv b hb
  obtain ⟨n, -, hn⟩ := List.mem_map.mp hv
  rw [← hn] at hb
  cases hb

theorem unpack_oui {oui : Bytes} {subtype : Nat} {bs : Bytes} (houi : oui.length = 3)
    (h : packed [.s 3, .B] [.str oui, .int subtype] = .ok bs) :
    bs.length = 4 ∧ unpack [.s 3, .B] bs = .ok [.str oui, .int subtype] := by
  have hcons := packed_cons (c := .s 3) (by simp) [.B] (.str oui) [.int subtype]
  have hsplit := h
  rw [hcons] at hsplit
  obtain ⟨first, -, hrest⟩ := bind_eq_ok.mp hsplit
  obtain ⟨rest, hsubtype, -⟩ := bind_eq_ok.mp hrest
  have hfits : fitsCodes [.B] [.int subtype] = true := fits_of_packed (by simp [Code.isInt]) (by simp) hsubtype
  refine unpack_packed ?_ h
  show (oui.length == 3 && fitsCodes [.B] [.int subtype]) = true
  rw [hfits, houi]
  rfl

theorem readInfo_infoBytes {info : Info} (hsized : info.Sized) {body : Bytes} (h : infoBytes info = .ok body) :
    readInfo body info.tlv_type = .ok info := by
  cases info with
  | End => rfl
  | PortDescription | SystemName | SystemDescription => cases h; rfl
  | ChassisID subtype text =>
    obtain ⟨first, hfirst, hbody⟩ := bind_eq_ok.mp h
    obtain ⟨hlen, hread⟩ := readInt_packed rfl hfirst
    have hlen : first.length = 1 := hlen
    cases hbody
    show (do let n ← readInt .B ((first ++ text).take 1); return Info.ChassisID n ((first ++ text).drop 1)) = _
    rw [List.take_left' hlen, List.drop_left' hlen, hread]
    rfl
  | PortID subtype text =>
    obtain ⟨first, hfirst, hbody⟩ := bind_eq_ok.mp h
    obtain ⟨hlen, hread⟩ := readInt_packed rfl hfirst
    have hlen : first.length = 1 := hlen
    cases hbody
    show (do let n ← readInt .B ((first ++ text).take 1); return Info.PortID n ((first ++ text).drop 1)) = _
    rw [List.take_left' hlen, List.drop_left' hlen, hread]
    rfl
  | TTL ttl =>
    obtain ⟨hlen, hread⟩ := readInt_packed (c := .H) rfl h
    have hlen : body.length = 2 := hlen
    show (do let n ← readInt .H (body.take 2); return Info.TTL n) = _
    rw [List.take_of_length_le (le_of_eq hlen), hread]
    rfl
  | SystemCapabilities system_cap enabled_cap =>
    obtain ⟨hlen, hread⟩ := unpack_ints [.H, .H] [system_cap, enabled_cap] (by simp [Code.isInt]) h
    have hlen : body.length = 4 := hlen
    unfold Info.tlv_type readInfo
    rw [List.take_of_length_le (le_of_eq hlen), hread]
    rfl
  | ManagementAddress addr_len addr_subtype addr intf_subtype intf_num oid_len oid =>
    obtain ⟨haddr, -, hoid⟩ := hsized
    obtain ⟨first, hfirst, hrest⟩ := bind_eq_ok.mp h
    obtain ⟨second, hsecond, hbody⟩ := bind_eq_ok.mp hrest
    obtain ⟨hlen, hread⟩ := unpack_ints [.B, .B] [addr_len, addr_subtype] (by simp [Code.isInt]) hfirst
    obtain ⟨hlen', hread'⟩ := unpack_ints [.B, .I, .B] [intf_subtype, intf_num, oid_len]
      (by simp [Code.isInt]) hsecond
    have hlen : first.length = 2 := hlen
    have hlen' : second.length = 6 := hlen'
    have haddr' : addrLenValid addr_len := Or.inl (by omega)
    have hoffset : 2 + addr_len - 1 = (first ++ addr).length := by rw [List.length_append]; omega
    have hbody' : body = first ++ (addr ++ (second ++ oid)) := by
      rw [pure_eq_ok.mp hbody]
      simp only [List.append_assoc]
    have htake : body.take 2 = first := by rw [hbody', List.take_left' hlen]
    have hmid : (body.take (2 + addr_len - 1)).drop 2 = addr := by
      rw [hbody', ← List.append_assoc, List.take_left' hoffset.symm, List.drop_left' hlen]
    have hdrop : body.drop (2 + addr_len - 1) = second ++ oid := by
      rw [hbody', ← List.append_assoc, List.drop_left' hoffset.symm]
    have hend : body.drop (2 + addr_len - 1 + 6) = oid := by
      rw [← List.drop_drop, hdrop, List.drop_left' hlen']
    unfold Info.tlv_type readInfo
    rw [htake, hread]
    show (do assert (addrLenValid addr_len); _) = _
    rw [show assert (addrLenValid addr_len) = .ok () from if_pos haddr']
    show (unpack [.B, .I, .B] ((body.drop (2 + addr_len - 1)).take 6) >>= _) = _
    rw [hdrop, List.take_left' hlen', hread']
    show (do assert (oidLenValid oid_len); return Info.ManagementAddress addr_len addr_subtype _ intf_subtype intf_num oid_len _) = _
    rw [show assert (oidLenValid oid_len) = .ok () from if_pos hoid, hmid, hend]
    rfl
  | OrganizationallySpecific oui subtype text =>
    obtain ⟨first, hfirst, hbody⟩ := bind_eq_ok.mp h
    obtain ⟨hlen, hread⟩ := unpack_oui hsized hfirst
    cases hbody
    unfold Info.tlv_type readInfo
    rw [List.take_left' hlen, List.drop_left' hlen, hread]
    rfl

/-- No byte of the record is left unread. -/
def Info.Whole (len : Nat) : Info → Prop
  | .End => len = 0
  | .TTL _ => len = 2
  | .SystemCapabilities .. => len = 4
  | .ManagementAddress addr_len .. => addr_len ≠ 0
  | _ => True

theorem address_record (body : Bytes) {addr_len : Nat} (h : addr_len ≠ 0) :
    body.take 2 ++ (body.take (2 + addr_len - 1)).drop 2 ++ (body.drop (2 + addr_len - 1)).take 6 ++
      body.drop (2 + addr_len - 1 + 6) = body := by
  have htake : body.take 2 = (body.take (2 + addr_len - 1)).take 2 := by
    rw [List.take_take, Nat.min_eq_left (by omega)]
  rw [htake, List.take_append_drop, List.append_assoc, ← List.drop_drop, List.take_append_drop, List.take_append_drop]

theorem infoBytes_readInfo {body : Bytes} {type : Nat} {info : Info} (hwhole : info.Whole body.length)
    (h : readInfo body type = .ok info) : info.tlv_type = type ∧ infoBytes info = .ok body := by
  unfold readInfo at h
  split at h
  · cases h
    exact ⟨rfl, by rw [List.eq_nil_of_length_eq_zero hwhole]; rfl⟩
  · obtain ⟨subtype, hread, hinfo⟩ := bind_eq_ok.mp h
    obtain ⟨-, hfirst⟩ := packed_readInt rfl hread
    cases hinfo
    refine ⟨rfl, ?_⟩
    show (do let first ← packed [.B] [.int subtype]; return first ++ body.drop 1) = Except.ok body
    rw [hfirst]
    exact congrArg Except.ok (List.take_append_drop 1 body)
  · obtain ⟨subtype, hread, hinfo⟩ := bind_eq_ok.mp h
    obtain ⟨-, hfirst⟩ := packed_readInt rfl hread
    cases hinfo
    refine ⟨rfl, ?_⟩
    show (do let first ← packed [.B] [.int subtype]; return first ++ body.drop 1) = Except.ok body
    rw [hfirst]
    exact congrArg Except.ok (List.take_append_drop 1 body)
  · obtain ⟨ttl, hread, hinfo⟩ := bind_eq_ok.mp h
    obtain ⟨-, hfirst⟩ := packed_readInt rfl hread
    cases hinfo
    have hlen : body.length = 2 := hwhole
    rw [List.take_of_length_le (le_of_eq hlen)] at hfirst
    exact ⟨rfl, hfirst⟩
  · cases h
    exact ⟨rfl, rfl⟩
  · cases h
    exact ⟨rfl, rfl⟩
  · cases h
    exact ⟨rfl, rfl⟩
  · obtain ⟨args, hread, hinfo⟩ := bind_eq_ok.mp h
    obtain ⟨-, hpacked⟩ := packed_unpack (by simp [isPlain]) hread
    split at hinfo
    · cases hinfo
      have hlen : body.length = 4 := hwhole
      rw [List.take_of_length_le (le_of_eq hlen)] at hpacked
      exact ⟨rfl, hpacked⟩
    · cases hinfo
  · obtain ⟨args, hread, hrest⟩ := bind_eq_ok.mp h
    obtain ⟨-, hfirst⟩ := packed_unpack (by simp [isPlain]) hread
    split at hrest
    · obtain ⟨u, -, hrest⟩ := bind_eq_ok.mp hrest
      obtain ⟨args', hread', hrest⟩ := bind_eq_ok.mp hrest
      obtain ⟨-, hsecond⟩ := packed_unpack (by simp [isPlain]) hread'
      split at hrest
      · obtain ⟨u', -, hinfo⟩ := bind_eq_ok.mp hrest
        cases hinfo
        refine ⟨rfl, ?_⟩
        refine bind_eq_ok.mpr ⟨_, hfirst, bind_eq_ok.mpr ⟨_, hsecond, pure_eq_ok.mpr ?_⟩⟩
        exact (address_record body hwhole).symm
      · cases hrest
    · cases hrest
  · obtain ⟨args, hread, hinfo⟩ := bind_eq_ok.mp h
    obtain ⟨-, hpacked⟩ := packed_unpack (by simp [isPlain]) hread
    split at hinfo
    · cases hinfo
      exact ⟨rfl, bind_eq_ok.mpr ⟨_, hpacked, pure_eq_ok.mpr (List.take_append_drop 4 body).symm⟩⟩
    · cases hinfo
  · cases h

/-! ### One TLV -/

structure Shaped (tlv : Tlv) : Prop extends Headed tlv where
  sized : tlv.info.Sized
  body : ∀ body, infoBytes tlv.info = .ok body → body.length = tlv.len

theorem Shaped.serialize_length {tlv : Tlv} (h : Shaped tlv) {bs : Bytes} (hbs : tlv.serialize = .ok bs) :
    bs.length = LLDP_TLV_SIZE + tlv.len := by
  obtain ⟨head, hhead, body, hbody, rfl⟩ := serialize_eq_ok.mp hbs
  rw [List.length_append, h.body body hbody, (readInt_packed rfl hhead).1]
  rfl

theorem Shaped.readTlv {tlv : Tlv} (h : Shaped tlv) {bs : Bytes} (hbs : tlv.serialize = .ok bs) (rest : Bytes) :
    readTlv (bs ++ rest) = .ok tlv := by
  have hbslen := h.serialize_length hbs
  obtain ⟨head, hhead, body, hbody, rfl⟩ := serialize_eq_ok.mp hbs
  obtain ⟨hlen, hread⟩ := readInt_packed rfl hhead
  have hlen : head.length = LLDP_TLV_SIZE := hlen
  refine bind_eq_ok.mpr ⟨tlv.typelen, ?_, ?_⟩
  · rw [List.append_assoc, List.take_left' hlen, hread]
  · show (do assert ((tlv.typelen &&& LLDP_TLV_LENGTH_MASK) + LLDP_TLV_SIZE ≤ _); _) = _
    rw [h.mask, h.type]
    have hroom : tlv.len + LLDP_TLV_SIZE ≤ (head ++ body ++ rest).length := by rw [List.length_append, hbslen]; omega
    have hcut : (((head ++ body ++ rest).drop LLDP_TLV_SIZE).take tlv.len) = body := by
      rw [List.append_assoc, List.drop_left' hlen, List.take_left' (h.body body hbody)]
    refine bind_eq_ok.mpr ⟨(), if_pos hroom, bind_eq_ok.mpr ⟨tlv.info, ?_, rfl⟩⟩
    rw [hcut]
    exact readInfo_infoBytes h.sized hbody

/-- No byte of the TLV was left unread. -/
def Whole (tlv : Tlv) : Prop := tlv.info.Whole tlv.len

theorem serialize_readTlv {buf : Bytes} {tlv : Tlv} (hwhole : Whole tlv) (h : readTlv buf = .ok tlv) :
    Headed tlv ∧ tlv.serialize = .ok (buf.take (LLDP_TLV_SIZE + tlv.len)) := by
  obtain ⟨typelen, hread, hrest⟩ := bind_eq_ok.mp h
  obtain ⟨u, hroom, hrest⟩ := bind_eq_ok.mp hrest
  obtain ⟨info, hinfo, htlv⟩ := bind_eq_ok.mp hrest
  have hroom := assert_eq_ok.mp hroom
  obtain ⟨hlen, hhead⟩ := packed_readInt rfl hread
  have hlt : typelen < 65536 := by
    have hfits : fitsCodes [.H] [.int typelen] = true := fits_of_packed (by simp [Code.isInt]) (by simp) hhead
    simpa [fitsCodes, Val.fits] using hfits
  cases htlv
  rw [type_mask hlt] at hinfo
  simp only [and_mask] at hroom hinfo hwhole ⊢
  have hbody : ((buf.drop LLDP_TLV_SIZE).take (typelen % 512)).length = typelen % 512 := by
    rw [List.length_take, List.length_drop]
    omega
  obtain ⟨htype, hbytes⟩ := infoBytes_readInfo (by rw [hbody]; exact hwhole) hinfo
  refine ⟨⟨Nat.mod_lt _ (by decide), ?_⟩, ?_⟩
  · show typelen = info.tlv_type * 512 + typelen % 512
    rw [htype]
    omega
  · refine serialize_eq_ok.mpr ⟨_, hhead, _, hbytes, ?_⟩
    rw [List.take_add]

/-! ### Packets -/

theorem Headed.pos {tlv : Tlv} : 0 < LLDP_TLV_SIZE + tlv.len := Nat.add_pos_left (by decide) _

theorem serialize_cons {tlv : Tlv} {tlvs : List Tlv} {data : Bytes} : serialize (tlv :: tlvs) = .ok data ↔
    ∃ bs, tlv.serialize = .ok bs ∧ ∃ rest, serialize tlvs = .ok rest ∧ data = bs ++ rest := by
  simp only [serialize, bind_eq_ok, pure_eq_ok]

/-- The end of the packet, and nothing before, is an end. -/
def Ended : List Tlv → Prop
  | [] => False
  | [tlv] => tlv.info.tlv_type = LLDP_TLV_END
  | tlv :: tlvs => tlv.info.tlv_type ≠ LLDP_TLV_END ∧ Ended tlvs

theorem readTlvs_serialize : ∀ (tlvs : List Tlv) (fuel : Nat) (data rest : Bytes), Ended tlvs →
    (∀ tlv ∈ tlvs, Shaped tlv) → serialize tlvs = .ok data → data.length ≤ fuel →
    readTlvs fuel (data ++ rest) = .ok (tlvs, rest)
  | [], _, _, _, h, _, _, _ => h.elim
  | tlv :: tlvs, fuel, data, rest, hended, hshaped, hdata, hfuel => by
    obtain ⟨bs, hbs, data', hdata', rfl⟩ := serialize_cons.mp hdata
    have htlv := hshaped tlv (List.mem_cons_self ..)
    have hlen := htlv.serialize_length hbs
    have hpos : 0 < bs.length := by rw [hlen]; exact Headed.pos
    cases fuel with
    | zero => simp only [List.length_append] at hfuel; omega
    | succ fuel =>
      have hdrop : (bs ++ data' ++ rest).drop (LLDP_TLV_SIZE + tlv.len) = data' ++ rest := by
        rw [List.append_assoc, List.drop_left' hlen]
      have hread := htlv.readTlv hbs (data' ++ rest)
      rw [← List.append_assoc] at hread
      obtain ⟨b, bs', hcons⟩ := List.exists_cons_of_length_pos hpos
      have hstep : readTlvs (fuel + 1) (bs ++ data' ++ rest) = (do
          let tlv ← Lldp.readTlv (bs ++ data' ++ rest)
          let buf := (bs ++ data' ++ rest).drop (LLDP_TLV_SIZE + tlv.len)
          if tlv.info.tlv_type = LLDP_TLV_END then return ([tlv], buf)
          assert (0 < buf.length)
          let p ← readTlvs fuel buf
          return (tlv :: p.1, p.2)) := by
        rw [hcons]
        rfl
      rw [hstep, hread]
      show (do
        let buf := (bs ++ data' ++ rest).drop (LLDP_TLV_SIZE + tlv.len)
        if tlv.info.tlv_type = LLDP_TLV_END then return ([tlv], buf)
        assert (0 < buf.length)
        let p ← readTlvs fuel buf
        return (tlv :: p.1, p.2)) = _
      cases tlvs with
      | nil =>
        cases hdata'
        rw [hdrop]
        exact if_pos hended
      | cons tlv' tlvs =>
        have ih := readTlvs_serialize (tlv' :: tlvs) fuel data' rest hended.2
          (fun t h => hshaped t (List.mem_cons_of_mem tlv h)) hdata'
          (by rw [List.length_append] at hfuel; omega)
        obtain ⟨bs'', hbs'', data'', -, hdata''⟩ := serialize_cons.mp hdata'
        have hpos' : 0 < (data' ++ rest).length := by
          have htlv' := hshaped tlv' (List.mem_cons_of_mem tlv (List.mem_cons_self ..))
          have hlen' := htlv'.serialize_length hbs''
          rw [hdata'', List.append_assoc, List.length_append, hlen']
          exact Nat.add_pos_left Headed.pos _
        rw [hdrop]
        show (if tlv.info.tlv_type = LLDP_TLV_END then _ else _) = _
        rw [if_neg hended.1]
        show (do assert (0 < (data' ++ rest).length); _) = _
        rw [show assert (0 < (data' ++ rest).length) = .ok () from if_pos hpos']
        show (readTlvs fuel (data' ++ rest) >>= _) = _
        rw [ih]
        rfl

theorem readTlvs_cons {fuel : Nat} {b : UInt8} {bs : Bytes} {tlvs : List Tlv} {rest : Bytes}
    (h : readTlvs fuel (b :: bs) = .ok (tlvs, rest)) : ∃ tlv, readTlv (b :: bs) = .ok tlv ∧
      (tlv.info.tlv_type = LLDP_TLV_END ∧ tlvs = [tlv] ∧ rest = (b :: bs).drop (LLDP_TLV_SIZE + tlv.len) ∨
        tlv.info.tlv_type ≠ LLDP_TLV_END ∧ ∃ fuel' tlvs', fuel = fuel' + 1 ∧ tlvs = tlv :: tlvs' ∧
          0 < ((b :: bs).drop (LLDP_TLV_SIZE + tlv.len)).length ∧
          readTlvs fuel' ((b :: bs).drop (LLDP_TLV_SIZE + tlv.len)) = .ok (tlvs', rest)) := by
  cases fuel with
  | zero => cases h
  | succ fuel =>
    obtain ⟨tlv, hread, h⟩ := bind_eq_ok.mp h
    refine ⟨tlv, hread, ?_⟩
    by_cases hend : tlv.info.tlv_type = LLDP_TLV_END
    · have h : (Except.ok ([tlv], (b :: bs).drop (LLDP_TLV_SIZE + tlv.len)) : Except Exn _) = .ok (tlvs, rest) := by
        rw [← h]
        exact (if_pos hend).symm
      cases h
      exact .inl ⟨hend, rfl, rfl⟩
    · have h : (do
          assert (0 < ((b :: bs).drop (LLDP_TLV_SIZE + tlv.len)).length)
          let p ← readTlvs fuel ((b :: bs).drop (LLDP_TLV_SIZE + tlv.len))
          return (tlv :: p.1, p.2)) = Except.ok (tlvs, rest) := by
        rw [← h]
        exact (if_neg hend).symm
      obtain ⟨u, hpos, h⟩ := bind_eq_ok.mp h
      obtain ⟨⟨tlvs', rest'⟩, hrest, h⟩ := bind_eq_ok.mp h
      cases h
      exact .inr ⟨hend, fuel, tlvs', rfl, rfl, assert_eq_ok.mp hpos, hrest⟩

theorem serialize_readTlvs : ∀ (fuel : Nat) (buf : Bytes) {tlvs : List Tlv} {rest : Bytes},
    readTlvs fuel buf = .ok (tlvs, rest) → (∀ tlv ∈ tlvs, Whole tlv) →
    (tlvs ≠ [] → Ended tlvs) ∧ (∀ tlv ∈ tlvs, Headed tlv) ∧ ∃ data, serialize tlvs = .ok data ∧ buf = data ++ rest
  | fuel, [], tlvs, rest, h, _ => by
    have hnil : readTlvs fuel [] = .ok ([], []) := by cases fuel <;> rfl
    rw [hnil] at h
    cases h
    exact ⟨fun hne => absurd rfl hne, fun _ hmem => absurd hmem List.not_mem_nil, [], rfl, rfl⟩
  | fuel, b :: bs, tlvs, rest, h, hwhole => by
    obtain ⟨tlv, hread, h⟩ := readTlvs_cons h
    have hmem : tlv ∈ tlvs := by
      rcases h with ⟨-, rfl, -⟩ | ⟨-, -, tlvs', -, rfl, -⟩
      · exact List.mem_singleton_self tlv
      · exact List.mem_cons_self ..
    obtain ⟨hheaded, hbytes⟩ := serialize_readTlv (hwhole tlv hmem) hread
    rcases h with ⟨hend, rfl, rfl⟩ | ⟨hend, fuel', tlvs', rfl, rfl, hpos, hrest⟩
    · refine ⟨fun _ => hend, fun t ht => by rw [List.mem_singleton.mp ht]; exact hheaded, _,
        serialize_cons.mpr ⟨_, hbytes, [], rfl, rfl⟩, ?_⟩
      rw [List.append_nil, List.take_append_drop]
    · obtain ⟨hended, hall, data, hdata, hbuf⟩ := serialize_readTlvs fuel' _ hrest
        fun t ht => hwhole t (List.mem_cons_of_mem tlv ht)
      have hne : tlvs' ≠ [] := by
        -- a list is read from some bytes
        obtain ⟨b', bs', hcons⟩ := List.exists_cons_of_length_pos hpos
        rw [hcons] at hrest
        obtain ⟨tlv', -, ⟨-, rfl, -⟩ | ⟨-, -, -, -, rfl, -⟩⟩ := readTlvs_cons hrest
        · exact List.cons_ne_nil _ _
        · exact List.cons_ne_nil _ _
      refine ⟨fun _ => ?_, ?_, _, serialize_cons.mpr ⟨_, hbytes, data, hdata, rfl⟩, ?_⟩
      · obtain ⟨tlv', tlvs'', rfl⟩ := List.exists_cons_of_ne_nil hne
        exact ⟨hend, hended hne⟩
      · intro t ht
        rcases List.mem_cons.mp ht with rfl | ht
        · exact hheaded
        · exact hall t ht
      · rw [List.append_assoc, ← hbuf, List.take_append_drop]

/-! ### What the constructors build -/

theorem build_eq_ok {lenMin lenMax len : Nat} {info : Info} {tlv : Tlv} : build lenMin lenMax len info = .ok tlv ↔
    (lenMin ≤ len ∧ len ≤ lenMax) ∧ tlv = ⟨(info.tlv_type <<< LLDP_TLV_TYPE_SHIFT) ||| len, len, info⟩ := by
  simp only [build, bind_eq_ok, pure_eq_ok, assert_eq_ok, exists_const]

/-- A TLV of the constructors; an organisation has three bytes. -/
inductive Built : Tlv → Prop
  | End : Built Lldp.End
  | ChassisID {subtype chassis_id tlv} : Lldp.ChassisID subtype chassis_id = .ok tlv → Built tlv
  | PortID {subtype port_id tlv} : Lldp.PortID subtype port_id = .ok tlv → Built tlv
  | TTL {ttl tlv} : Lldp.TTL ttl = .ok tlv → Built tlv
  | PortDescription {port_description tlv} : Lldp.PortDescription port_description = .ok tlv → Built tlv
  | SystemName {system_name tlv} : Lldp.SystemName system_name = .ok tlv → Built tlv
  | SystemDescription {system_description tlv} : Lldp.SystemDescription system_description = .ok tlv → Built tlv
  | SystemCapabilities {system_cap enabled_cap tlv} : Lldp.SystemCapabilities system_cap enabled_cap = .ok tlv → Built tlv
  | ManagementAddress {addr_subtype addr intf_subtype intf_num oid tlv} :
    Lldp.ManagementAddress addr_subtype addr intf_subtype intf_num oid = .ok tlv → Built tlv
  | OrganizationallySpecific {oui subtype info tlv} : oui.length = 3 →
    Lldp.OrganizationallySpecific oui subtype info = .ok tlv → Built tlv

theorem shaped_of_build {lenMin lenMax len : Nat} {info : Info} {tlv : Tlv} (h : build lenMin lenMax len info = .ok tlv)
    (hmax : lenMax < 512) (hsized : info.Sized) (hbody : ∀ body, infoBytes info = .ok body → body.length = len) :
    Shaped tlv := by
  obtain ⟨⟨-, hlen⟩, rfl⟩ := build_eq_ok.mp h
  have hlt : len < 512 := by omega
  exact ⟨⟨hlt, typelen_eq hlt⟩, hsized, hbody⟩

theorem Built.shaped {tlv : Tlv} (h : Built tlv) : Shaped tlv := by
  cases h with
  | End => exact ⟨⟨by decide, rfl⟩, trivial, fun body h => by cases h; rfl⟩
  | PortDescription h | SystemName h | SystemDescription h =>
    refine shaped_of_build h (by decide) trivial fun body hbody => ?_
    cases hbody
    rfl
  | ChassisID h | PortID h =>
    refine shaped_of_build h (by decide) trivial fun body hbody => ?_
    obtain ⟨first, hfirst, hbody⟩ := bind_eq_ok.mp hbody
    cases hbody
    rw [List.length_append, (readInt_packed rfl hfirst).1]
    rfl
  | TTL h => exact shaped_of_build h (by decide) trivial fun body hbody => (readInt_packed (c := .H) rfl hbody).1
  | @SystemCapabilities system_cap enabled_cap _ h =>
    refine shaped_of_build h (by decide) trivial fun body hbody => ?_
    exact (unpack_ints [.H, .H] [system_cap, enabled_cap] (by simp [Code.isInt]) hbody).1
  | @ManagementAddress addr_subtype addr intf_subtype intf_num oid _ h =>
    obtain ⟨u, haddr, h⟩ := bind_eq_ok.mp h
    obtain ⟨u', hoid, h⟩ := bind_eq_ok.mp h
    refine shaped_of_build h (by decide) ⟨rfl, rfl, assert_eq_ok.mp hoid⟩ fun body hbody => ?_
    obtain ⟨first, hfirst, hbody⟩ := bind_eq_ok.mp hbody
    obtain ⟨second, hsecond, hbody⟩ := bind_eq_ok.mp hbody
    have hlen : first.length = 2 :=
      (unpack_ints [.B, .B] [addr.length + 1, addr_subtype] (by simp [Code.isInt]) hfirst).1
    have hlen' : second.length = 6 :=
      (unpack_ints [.B, .I, .B] [intf_subtype, intf_num, oid.length] (by simp [Code.isInt]) hsecond).1
    cases hbody
    simp only [List.length_append]
    omega
  | OrganizationallySpecific houi h =>
    refine shaped_of_build h (by decide) houi fun body hbody => ?_
    obtain ⟨first, hfirst, hbody⟩ := bind_eq_ok.mp hbody
    cases hbody
    rw [List.length_append, (unpack_oui houi hfirst).1]

theorem parser_shaped {tlvs : List Tlv} (hshaped : ∀ tlv ∈ tlvs, Shaped tlv) (hended : Ended tlvs)
    (hlen : _tlvs_len_valid tlvs) (hvalid : _tlvs_valid tlvs) {data : Bytes} (hdata : serialize tlvs = .ok data)
    (rest : Bytes) : parser (data ++ rest) = (some tlvs, rest) := by
  have hread := readTlvs_serialize tlvs (data ++ rest).length data rest hended hshaped hdata
    (by rw [List.length_append]; omega)
  have hparse : parserBody (data ++ rest) = .ok (tlvs, rest) := by
    refine bind_eq_ok.mpr ⟨(tlvs, rest), hread, bind_eq_ok.mpr ⟨(), if_pos hlen, bind_eq_ok.mpr ⟨(), if_pos hvalid, rfl⟩⟩⟩
  unfold parser
  rw [hparse]

/-- **What a sender serialized is what the receiver parses**: the packet of TLVs
that the constructors built, in an order that the standard allows, and the bytes
after it. -/
theorem parser_serialize {tlvs : List Tlv} (hbuilt : ∀ tlv ∈ tlvs, Built tlv) (hended : Ended tlvs)
    (hlen : _tlvs_len_valid tlvs) (hvalid : _tlvs_valid tlvs) {data : Bytes} (hdata : serialize tlvs = .ok data)
    (rest : Bytes) : parser (data ++ rest) = (some tlvs, rest) :=
  parser_shaped (fun tlv h => (hbuilt tlv h).shaped) hended hlen hvalid hdata rest

/-- A packet of a station with a management address and a vendor's TLV. -/
def sampleTlvs : List Tlv :=
  [⟨519, 7, .ChassisID 4 [2, 0, 0, 0, 0, 1]⟩, ⟨1026, 2, .PortID 7 [49]⟩, ⟨1538, 2, .TTL 120⟩, ⟨2564, 4, .SystemName [115, 49, 46, 97]⟩,
    ⟨4108, 12, .ManagementAddress 5 1 [10, 0, 0, 1] 2 7 0 []⟩, ⟨65030, 6, .OrganizationallySpecific [0, 18, 15] 4 [5, 220]⟩, End]

def sampleData : Bytes :=
  [2, 7, 4, 2, 0, 0, 0, 0, 1, 4, 2, 7, 49, 6, 2, 0, 120, 10, 4, 115, 49, 46, 97, 16, 12, 5, 1, 10, 0, 0, 1, 2, 0, 0, 0, 7, 0,
    254, 6, 0, 18, 15, 4, 5, 220, 0, 0]

theorem parser_serialize_station : parser (sampleData ++ [9, 9]) = (some sampleTlvs, [9, 9]) := by
  have hended : Ended sampleTlvs := ⟨by decide, by decide, by decide, by decide, by decide, by decide, rfl⟩
  refine parser_serialize ?_ hended (by decide) (by decide) (by decide +kernel) [9, 9]
  intro tlv htlv
  simp only [sampleTlvs, List.mem_cons, List.not_mem_nil, or_false] at htlv
  rcases htlv with rfl | rfl | rfl | rfl | rfl | rfl | rfl
  · exact .ChassisID (show ChassisID 4 [2, 0, 0, 0, 0, 1] = .ok _ from rfl)
  · exact .PortID (show PortID 7 [49] = .ok _ from rfl)
  · exact .TTL (show TTL 120 = .ok _ from rfl)
  · exact .SystemName (show SystemName [115, 49, 46, 97] = .ok _ from rfl)
  · exact .ManagementAddress (show ManagementAddress 1 [10, 0, 0, 1] 2 7 [] = .ok _ from rfl)
  · exact .OrganizationallySpecific rfl (show OrganizationallySpecific [0, 18, 15] 4 [5, 220] = .ok _ from rfl)
  · exact .End

theorem hexText_length {width n : Nat} (hpos : 0 < width) (h : n < 16 ^ width) : (hexText width n).length = width := by
  have hlen := Nat.toDigits_length 16 n width hpos h
  unfold hexText
  rw [List.length_append, List.length_replicate]
  omega

theorem mem_hexText {width n : Nat} {c : Char} (h : c ∈ hexText width n) : ∃ d < 16, Nat.digitChar d = c := by
  by_contra hnone
  refine notMem_hexText (fun d hd heq => hnone ⟨d, hd, heq⟩) width n h

theorem str_to_dpid_dpid_to_str {dpid : Nat} (h : dpid < 2 ^ 64) : str_to_dpid (dpid_to_str dpid) = .ok dpid := by
  have hlen : (dpid_to_str dpid).length = 16 := hexText_length (by decide) h
  have hdigits : (dpid_to_str dpid).all isHexDigit = true := by
    rw [List.all_eq_true]
    intro c hc
    obtain ⟨d, hd, rfl⟩ := mem_hexText hc
    have hdigit : ∀ d < 16, isHexDigit (Nat.digitChar d) = true := by decide
    exact hdigit d hd
  refine bind_eq_ok.mpr ⟨(), if_pos hlen, ?_⟩
  rw [if_pos hdigits]
  exact congrArg Except.ok (hexValue_hexText 16 dpid)

theorem decodeUtf8_encodeAscii {text : List Char} (h : ∀ c ∈ text, c.toNat ≤ 0x7f) :
    decodeUtf8 (encodeAscii text) = .ok text := by
  have hbytes : ByteArray.mk (encodeAscii text).toArray = text.utf8Encode := by
    have hchars : text.flatMap String.utf8EncodeChar = encodeAscii text := by
      unfold encodeAscii
      rw [← List.flatMap_singleton' (text.map _), List.flatMap_map]
      refine List.flatMap_congr fun c hc => ?_
      exact if_pos (h c hc)
    unfold List.utf8Encode
    rw [hchars]
    exact ByteArray.ext List.data_toByteArray.symm
  unfold decodeUtf8
  rw [hbytes, List.utf8Decode?_utf8Encode]

theorem chassis_ascii (dpid : Nat) : ∀ c ∈ CHASSIS_ID_PREFIX ++ dpid_to_str dpid, c.toNat ≤ 0x7f := by
  intro c hc
  rcases List.mem_append.mp hc with hc | hc
  · have hprefix : CHASSIS_ID_PREFIX.all (fun c => c.toNat ≤ 0x7f) = true := by decide
    simpa using List.all_eq_true.mp hprefix c hc
  · obtain ⟨d, hd, rfl⟩ := mem_hexText hc
    have hdigit : ∀ d < 16, (Nat.digitChar d).toNat ≤ 0x7f := by decide
    exact hdigit d hd

theorem readPort_packed {dpid port_no : Nat} (hdpid : dpid < 2 ^ 64) {port_id : Bytes}
    (hport : packed [.I] [.int port_no] = .ok port_id) :
    readPort SUB_LOCALLY_ASSIGNED (encodeAscii (CHASSIS_ID_PREFIX ++ dpid_to_str dpid)) SUB_PORT_COMPONENT port_id =
      .ok (dpid, port_no) := by
  obtain ⟨hlen, hread⟩ := readInt_packed rfl hport
  have hlen : port_id.length = 4 := hlen
  unfold readPort
  rw [decodeUtf8_encodeAscii (chassis_ascii dpid)]
  have hprefix : CHASSIS_ID_PREFIX.isPrefixOf (CHASSIS_ID_PREFIX ++ dpid_to_str dpid) = true := by
    rw [List.isPrefixOf_iff_prefix]
    exact List.prefix_append _ _
  have hdrop : (CHASSIS_ID_PREFIX ++ dpid_to_str dpid).drop CHASSIS_ID_PREFIX.length = dpid_to_str dpid :=
    List.drop_left' rfl
  simp only [raise, bind, Except.bind, pure, Except.pure, ne_eq, not_true_eq_false, if_false, hprefix, hdrop,
    str_to_dpid_dpid_to_str hdpid, hlen, hread]

section
variable {env : Env}

theorem packed_some (codes : List Code) (args : List Val) (h : fitsCodes codes args = true) :
    ∃ bs, packed codes args = .ok bs ∧ bs.length = codesSize codes ∧ unpack codes bs = .ok args := by
  obtain ⟨bs, hpack, -, -⟩ := packCodes_of_fits .big codes args h
  have hpacked : packed codes args = .ok bs := by
    unfold packed
    rw [hpack]
  exact ⟨bs, hpacked, unpack_packed h hpacked⟩

theorem all_zeros (n : Nat) : (zeros n).all (· == 0) = true := by
  rw [List.all_eq_true]
  intro b hb
  rw [List.eq_of_mem_replicate hb]
  rfl

theorem Packet_ethernetFrame {dst src dst' src' data : Bytes} {tlvs : List Tlv} (hdst : env.text_to_bin dst = .ok dst')
    (hsrc : env.text_to_bin src = .ok src') (hdst' : dst'.length = 6) (hsrc' : src'.length = 6)
    (hparse : ∀ rest, parser (data ++ rest) = (some tlvs, rest)) (hdata : data.all (· == 0) = false) :
    ∃ frame, ethernetFrame env dst src ETH_TYPE_LLDP data = .ok frame ∧ frame.length = 14 + max data.length 46 ∧
      Packet env frame = .ok [.ethernet (env.bin_to_text dst') (env.bin_to_text src') ETH_TYPE_LLDP, .lldp tlvs] := by
  have hfits : fitsCodes [.s 6, .s 6, .H] [.str dst', .str src', .int ETH_TYPE_LLDP] = true := by
    show (dst'.length == 6 && (src'.length == 6 && _)) = true
    rw [hdst', hsrc']
    decide
  obtain ⟨head, hhead, hlen, hunpack⟩ := packed_some _ _ hfits
  have hlen : head.length = 14 := hlen
  have hall : ∀ pad, (data ++ zeros pad).all (· == 0) = false := by
    intro pad
    rw [List.all_append, hdata]
    rfl
  refine ⟨head ++ (data ++ zeros (46 - data.length)), ?_, ?_, ?_⟩
  · exact bind_eq_ok.mpr ⟨dst', hdst, bind_eq_ok.mpr ⟨src', hsrc, bind_eq_ok.mpr ⟨head, hhead, rfl⟩⟩⟩
  · simp only [List.length_append, zeros_length]
    omega
  · unfold Packet
    have hframe : (head ++ (data ++ zeros (46 - data.length))).all (· == 0) = false := by
      rw [List.all_append, hall, Bool.and_false]
    rw [hframe, List.take_left' hlen, List.drop_left' hlen, hunpack]
    simp only [Bool.false_eq_true, if_false, hall]
    rw [if_neg (by decide : ¬ ETH_TYPE_LLDP ≤ ETH_TYPE_IEEE802_3), if_pos rfl, hparse]
    unfold restOf
    rw [all_zeros]
    rfl

theorem Shaped.serialize_some {tlv : Tlv} (h : Shaped tlv) (body : Bytes) (hbody : infoBytes tlv.info = .ok body) :
    ∃ head, tlv.serialize = .ok (head ++ body) ∧ (head ++ body).length = LLDP_TLV_SIZE + tlv.len := by
  have htype := tlv_type_lt tlv.info
  have hlen := h.len
  have hfits : fitsCodes [.H] [.int tlv.typelen] = true := by
    simp only [fitsCodes, Val.fits, Bool.and_true, decide_eq_true_eq, h.typelen]
    omega
  obtain ⟨head, hhead, -, -⟩ := packed_some _ _ hfits
  have hbytes := serialize_eq_ok.mpr ⟨head, hhead, body, hbody, rfl⟩
  exact ⟨head, hbytes, h.serialize_length hbytes⟩

theorem discovery_tlvs {dpid port_no ttl : Nat} (hdpid : dpid < 2 ^ 64) (hport_no : port_no < 2 ^ 32) (httl : ttl < 2 ^ 16) :
    ∃ chassis port time port_id data,
      ChassisID SUB_LOCALLY_ASSIGNED (encodeAscii (CHASSIS_ID_PREFIX ++ dpid_to_str dpid)) = .ok chassis ∧
      packed [.I] [.int port_no] = .ok port_id ∧ PortID SUB_PORT_COMPONENT port_id = .ok port ∧ TTL ttl = .ok time ∧
      serialize [chassis, port, time, End] = .ok data ∧ data.length = 37 ∧ data.all (· == 0) = false := by
  have htext : (encodeAscii (CHASSIS_ID_PREFIX ++ dpid_to_str dpid)).length = 21 := by
    have hlen : (dpid_to_str dpid).length = 16 := hexText_length (by decide) hdpid
    unfold encodeAscii
    rw [List.length_map, List.length_append, hlen]
    rfl
  obtain ⟨port_id, hport, hportlen, -⟩ := packed_some [.I] [.int port_no]
    (by simpa [fitsCodes, Val.fits] using hport_no)
  have hportlen : port_id.length = 4 := hportlen
  obtain ⟨chassis, hchassis⟩ : ∃ tlv, ChassisID SUB_LOCALLY_ASSIGNED (encodeAscii (CHASSIS_ID_PREFIX ++ dpid_to_str dpid)) = .ok tlv :=
    ⟨_, build_eq_ok.mpr ⟨by rw [htext]; decide, rfl⟩⟩
  obtain ⟨port, hportTlv⟩ : ∃ tlv, PortID SUB_PORT_COMPONENT port_id = .ok tlv :=
    ⟨_, build_eq_ok.mpr ⟨by rw [hportlen]; decide, rfl⟩⟩
  obtain ⟨time, htime⟩ : ∃ tlv, TTL ttl = .ok tlv := ⟨_, build_eq_ok.mpr ⟨by decide, rfl⟩⟩
  have hinfo := (build_eq_ok.mp hchassis).2
  have hinfo' := (build_eq_ok.mp hportTlv).2
  have hinfo'' := (build_eq_ok.mp htime).2
  obtain ⟨first, hfirst, -⟩ := packed_some [.B] [.int SUB_LOCALLY_ASSIGNED] (by decide)
  obtain ⟨second, hsecond, -⟩ := packed_some [.B] [.int SUB_PORT_COMPONENT] (by decide)
  obtain ⟨third, hthird, -⟩ := packed_some [.H] [.int ttl] (by simpa [fitsCodes, Val.fits] using httl)
  obtain ⟨head, hbytes, hlen⟩ := (Built.ChassisID hchassis).shaped.serialize_some
    (first ++ encodeAscii (CHASSIS_ID_PREFIX ++ dpid_to_str dpid)) (by rw [hinfo]; exact bind_eq_ok.mpr ⟨first, hfirst, rfl⟩)
  obtain ⟨head', hbytes', hlen'⟩ := (Built.PortID hportTlv).shaped.serialize_some
    (second ++ port_id) (by rw [hinfo']; exact bind_eq_ok.mpr ⟨second, hsecond, rfl⟩)
  obtain ⟨head'', hbytes'', hlen''⟩ := (Built.TTL htime).shaped.serialize_some third (by rw [hinfo'']; exact hthird)
  obtain ⟨head3, hbytes3, hlen3⟩ := Built.End.shaped.serialize_some [] rfl
  refine ⟨chassis, port, time, port_id, _, hchassis, hport, hportTlv, htime, serialize_cons.mpr ⟨_, hbytes, _,
    serialize_cons.mpr ⟨_, hbytes', _, serialize_cons.mpr ⟨_, hbytes'', _, serialize_cons.mpr ⟨_, hbytes3, [], rfl, rfl⟩, rfl⟩,
      rfl⟩, rfl⟩, ?_, ?_⟩
  · have hsize : chassis.len = 22 := by rw [hinfo]; exact congrArg (1 + ·) htext
    have hsize' : port.len = 5 := by rw [hinfo']; exact congrArg (1 + ·) hportlen
    have hsize'' : time.len = 2 := by rw [hinfo'']
    rw [hsize] at hlen
    rw [hsize'] at hlen'
    rw [hsize''] at hlen''
    rw [List.length_append, hlen, List.length_append, hlen', List.length_append, hlen'', List.length_append, hlen3]
    rfl
  · -- the text starts with a letter
    rw [List.all_eq_false]
    refine ⟨100, ?_, by decide⟩
    have htext : (100 : UInt8) ∈ encodeAscii (CHASSIS_ID_PREFIX ++ dpid_to_str dpid) := List.mem_cons_self ..
    exact List.mem_append_left _ (List.mem_append_right _ (List.mem_append_right _ htext))

theorem discovery_frame {dpid port_no ttl : Nat} {dl_addr dst src : Bytes} (hdpid : dpid < 2 ^ 64)
    (hport_no : port_no < 2 ^ 32) (httl : ttl < 2 ^ 16) (hdst : env.text_to_bin LLDP_MAC_NEAREST_BRIDGE = .ok dst)
    (hsrc : env.text_to_bin dl_addr = .ok src) (hdst' : dst.length = 6) (hsrc' : src.length = 6) :
    ∃ frame eth chassis port tlvs port_id, lldp_packet env dpid port_no dl_addr ttl = .ok frame ∧ frame.length = 60 ∧
      Packet env frame = .ok [.ethernet (env.bin_to_text dst) (env.bin_to_text src) eth, .lldp (chassis :: port :: tlvs)] ∧
      chassis.info = .ChassisID SUB_LOCALLY_ASSIGNED (encodeAscii (CHASSIS_ID_PREFIX ++ dpid_to_str dpid)) ∧
      port.info = .PortID SUB_PORT_COMPONENT port_id ∧ packed [.I] [.int port_no] = .ok port_id := by
  obtain ⟨chassis, port, time, port_id, data, hchassis, hport, hportTlv, htime, hdata, hlen, hall⟩ :=
    discovery_tlvs hdpid hport_no httl
  have hshaped : ∀ tlv ∈ [chassis, port, time, End], Shaped tlv := by
    intro tlv htlv
    simp only [List.mem_cons, List.not_mem_nil, or_false] at htlv
    rcases htlv with rfl | rfl | rfl | rfl
    · exact (Built.ChassisID hchassis).shaped
    · exact (Built.PortID hportTlv).shaped
    · exact (Built.TTL htime).shaped
    · exact Built.End.shaped
  have hinfo := (build_eq_ok.mp hchassis).2
  have hinfo' := (build_eq_ok.mp hportTlv).2
  have hinfo'' := (build_eq_ok.mp htime).2
  have hparse : ∀ rest, parser (data ++ rest) = (some [chassis, port, time, End], rest) := by
    refine parser_shaped hshaped ?_ (Nat.le_refl 4) ?_ hdata
    · rw [hinfo, hinfo', hinfo'']
      exact ⟨Nat.succ_ne_zero 0, Nat.succ_ne_zero 1, Nat.succ_ne_zero 2, rfl⟩
    · rw [hinfo, hinfo', hinfo'']
      exact ⟨rfl, rfl, rfl, rfl⟩
  obtain ⟨frame, hframe, hframelen, hpacket⟩ := Packet_ethernetFrame hdst hsrc hdst' hsrc' hparse hall
  refine ⟨frame, _, chassis, port, [time, End], port_id, ?_, by rw [hframelen, hlen]; rfl, hpacket, by rw [hinfo],
    by rw [hinfo'], hport⟩
  exact bind_eq_ok.mpr ⟨chassis, hchassis, bind_eq_ok.mpr ⟨port_id, hport, bind_eq_ok.mpr ⟨port, hportTlv,
    bind_eq_ok.mpr ⟨time, htime, bind_eq_ok.mpr ⟨data, hdata, hframe⟩⟩⟩⟩⟩

theorem parse_frame {dpid port_no ttl : Nat} {dl_addr frame : Bytes} (hdpid : dpid < 2 ^ 64) (hport_no : port_no < 2 ^ 32)
    (httl : ttl < 2 ^ 16) (hconv : ∀ text bs, env.text_to_bin text = .ok bs → bs.length = 6)
    (h : lldp_packet env dpid port_no dl_addr ttl = .ok frame) : lldp_parse env frame = .ok (dpid, port_no) := by
  obtain ⟨_, -, h'⟩ := bind_eq_ok.mp h
  obtain ⟨_, -, h'⟩ := bind_eq_ok.mp h'
  obtain ⟨_, -, h'⟩ := bind_eq_ok.mp h'
  obtain ⟨_, -, h'⟩ := bind_eq_ok.mp h'
  obtain ⟨_, -, h'⟩ := bind_eq_ok.mp h'
  obtain ⟨dst, hdst, h'⟩ := bind_eq_ok.mp h'
  obtain ⟨src, hsrc, -⟩ := bind_eq_ok.mp h'
  obtain ⟨frame', eth, chassis, port, tlvs, port_id, hframe, -, hpacket, hinfo, hinfo', hport⟩ :=
    discovery_frame hdpid hport_no httl hdst hsrc (hconv _ _ hdst) (hconv _ _ hsrc)
  rw [h] at hframe
  cases hframe
  unfold lldp_parse
  rw [hpacket]
  obtain ⟨_, _, _⟩ := chassis
  obtain ⟨_, _, _⟩ := port
  cases hinfo
  cases hinfo'
  exact readPort_packed hdpid hport

/-- **A switch and a port come back from their discovery packet**: the frame has
the least size of an Ethernet frame, and its receiver, whatever the addresses,
finds the sender's switch and port in it. -/
theorem lldp_parse_lldp_packet {dpid port_no ttl : Nat} {dl_addr dst src : Bytes} (hdpid : dpid < 2 ^ 64)
    (hport_no : port_no < 2 ^ 32) (httl : ttl < 2 ^ 16) (hdst : env.text_to_bin LLDP_MAC_NEAREST_BRIDGE = .ok dst)
    (hsrc : env.text_to_bin dl_addr = .ok src) (hdst' : dst.length = 6) (hsrc' : src.length = 6) :
    ∃ frame, lldp_packet env dpid port_no dl_addr ttl = .ok frame ∧ frame.length = 60 ∧
      lldp_parse env frame = .ok (dpid, port_no) := by
  obtain ⟨frame, eth, chassis, port, tlvs, port_id, hframe, hlen, hpacket, hinfo, hinfo', hport⟩ :=
    discovery_frame hdpid hport_no httl hdst hsrc hdst' hsrc'
  refine ⟨frame, hframe, hlen, ?_⟩
  unfold lldp_parse
  rw [hpacket]
  obtain ⟨_, _, _⟩ := chassis
  obtain ⟨_, _, _⟩ := port
  cases hinfo
  cases hinfo'
  exact readPort_packed hdpid hport

end

def sampleConv : Env where
  text_to_bin text :=
    if text = LLDP_MAC_NEAREST_BRIDGE then .ok [0x01, 0x80, 0xc2, 0x00, 0x00, 0x0e]
    else if text = asciiText "02:00:00:00:00:01" then .ok [0x02, 0x00, 0x00, 0x00, 0x00, 0x01]
    else .error .ValueError
  bin_to_text addr :=
    if addr = [0x01, 0x80, 0xc2, 0x00, 0x00, 0x0e] then LLDP_MAC_NEAREST_BRIDGE else asciiText "02:00:00:00:00:01"
  packet_types _ := none

theorem lldp_parse_lldp_packet_port : ∃ frame, lldp_packet sampleConv 0xab 3 (asciiText "02:00:00:00:00:01") 120 = .ok frame ∧
    frame.length = 60 ∧ lldp_parse sampleConv frame = .ok (0xab, 3) :=
  have hdst : sampleConv.text_to_bin LLDP_MAC_NEAREST_BRIDGE = .ok [0x01, 0x80, 0xc2, 0x00, 0x00, 0x0e] := by decide +kernel
  have hsrc : sampleConv.text_to_bin (asciiText "02:00:00:00:00:01") = .ok [0x02, 0x00, 0x00, 0x00, 0x00, 0x01] := by
    decide +kernel
  lldp_parse_lldp_packet (by decide) (by decide) (by decide) hdst hsrc rfl rfl

end Lldp

end VnfDockerNet
