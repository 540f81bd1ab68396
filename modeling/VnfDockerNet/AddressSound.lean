import VnfDockerNet.DockerTopo

/-!
# VNF addresses

Every address that `startNetwork` gives is `net + s + i * 2 ^ 16`: `net` is the
network of `vnfIpBase`, `s` numbers the VNFs below `2 ^ (32 - p)`, and `i` is 0 or
1 for the two interfaces. The texts are turned into numbers once, at the
functions of mininet; the rest is about numbers.
-/

namespace VnfDockerNet

open Python Ipv4

/-! ## mininet -/

namespace Mininet

theorem ipStr_eq {n : Nat} (hn : n < 2 ^ 32) : ipStr n = dotted n := by
  have hff : (0xff : Nat) = 2 ^ 8 - 1 := rfl
  unfold ipStr dotted
  simp only [hff, Nat.and_two_pow_sub_one_eq_mod, Nat.shiftRight_eq_div_pow]
  congr 1
  omega

theorem ipNum_eq {w x y z : Nat} (hx : x < 256) (hy : y < 256) (hz : z < 256) : ipNum w x y z = value w x y z := by
  have hz' : z < 2 ^ 8 := hz
  have hyz : y <<< 8 + z < 2 ^ 16 := by
    rw [Nat.shiftLeft_eq]
    omega
  have hxyz : x <<< 16 + (y <<< 8 + z) < 2 ^ 24 := by
    rw [Nat.shiftLeft_eq]
    omega
  unfold ipNum value
  rw [Nat.or_assoc, Nat.or_assoc, ← Nat.shiftLeft_add_eq_or_of_lt hz', ← Nat.shiftLeft_add_eq_or_of_lt hyz,
    ← Nat.shiftLeft_add_eq_or_of_lt hxyz, Nat.shiftLeft_eq, Nat.shiftLeft_eq, Nat.shiftLeft_eq]
  omega

theorem ipParse_quad {a b c d : Nat} (hb : b < 256) (hc : c < 256) (hd : d < 256) :
    ipParse (quad a b c d) = .ok (value a b c d) := by
  unfold ipParse
  rw [splitOn_quad]
  simp only [List.mapM_cons, List.mapM_nil, int_str]
  rw [← ipNum_eq hb hc hd]
  rfl

theorem netParse_cidr {a b c d : Nat} (hb : b < 256) (hc : c < 256) (hd : d < 256) (p : Nat) :
    netParse (cidr a b c d p) = .ok (value a b c d, p) := by
  unfold netParse
  rw [if_pos (slash_mem_cidr a b c d p), splitOn_slash_cidr]
  simp only [int_str, ipParse_quad hb hc hd]
  rfl

theorem network_add_lt {h n i : Nat} (hh : h ≤ 32) (hn : n < 2 ^ 32) (hi : i < 2 ^ h) : n / 2 ^ h * 2 ^ h + i < 2 ^ 32 := by
  have hsplit : 2 ^ 32 = 2 ^ (32 - h) * 2 ^ h := by rw [← Nat.pow_add, Nat.sub_add_cancel hh]
  have hq : n / 2 ^ h < 2 ^ (32 - h) := (Nat.div_lt_iff_lt_mul (Nat.two_pow_pos h)).mpr (hsplit ▸ hn)
  calc n / 2 ^ h * 2 ^ h + i < n / 2 ^ h * 2 ^ h + 2 ^ h := Nat.add_lt_add_left hi _
    _ = (n / 2 ^ h + 1) * 2 ^ h := (Nat.succ_mul _ _).symm
    _ ≤ 2 ^ (32 - h) * 2 ^ h := Nat.mul_le_mul_right _ hq
    _ = 2 ^ 32 := hsplit.symm

theorem imax_eq : ∀ p ≤ 32, 0xffffffff >>> p = 2 ^ (32 - p) - 1 := by decide

theorem ipAdd_eq {i p n : Nat} (hp : p ≤ 32) (hn : n < 2 ^ 32) (hi : i ≤ 0xffffffff >>> p) :
    ipAdd i p n = .ok (dotted (n / 2 ^ (32 - p) * 2 ^ (32 - p) + i)) := by
  have hpos := Nat.two_pow_pos (32 - p)
  have hffff : (0xffffffff : Nat) = 2 ^ 32 - 1 := rfl
  unfold ipAdd
  rw [if_pos hi]
  show Except.ok (ipStr ((n &&& (0xffffffff ^^^ (0xffffffff >>> p))) + i)) = _
  rw [imax_eq p hp, hffff, and_high hn, ipStr_eq]
  rw [imax_eq p hp] at hi
  exact network_add_lt (Nat.sub_le 32 p) hn (by omega)

theorem setIP_eq {v : Node} {q : Nat} {intf : Intf} (hq : v.intfs.get q = some intf) (w x y z p : Nat) :
    v.setIP (cidr w x y z p) q = .ok { v with
      intfs := v.intfs.insert q { intf with ip := some (quad w x y z), prefixLen := some (str p) }
      cmds := v.cmds ++ ["ip address flush dev ".toList ++ intf.name,
        "ip address add ".toList ++ cidr w x y z p ++ " dev ".toList ++ intf.name] } := by
  have hset : intf.setIP (cidr w x y z p) = .ok { intf with ip := some (quad w x y z), prefixLen := some (str p) } := by
    unfold Intf.setIP
    rw [if_pos (slash_mem_cidr w x y z p), splitOn_slash_cidr]
  unfold Node.setIP
  rw [hq]
  simp only [hset]
  rfl

end Mininet

/-! ## The topology -/

namespace DockerTopo

open Mininet

theorem addToSecond_quad (w x y z i : Nat) : addToSecond (quad w x y z) i = .ok (quad w (x + i) y z) := by
  unfold addToSecond
  rw [splitOn_quad]
  simp only [int_str]
  rfl

theorem addToSecond_cidr (w x y z p i : Nat) : addToSecond (cidr w x y z p) i = .ok (cidr w (x + i) y z p) := by
  unfold addToSecond
  rw [splitOn_dot_cidr]
  simp only [int_str]
  show Except.ok _ = _
  unfold cidr quad
  simp only [List.intercalate_cons_cons, List.intercalate_singleton, List.append_assoc]

theorem dotted_add_second {n i : Nat} (hi : n / 2 ^ 16 % 256 + i < 256) :
    dotted (n + i * 2 ^ 16) = quad (n / 2 ^ 24) (n / 2 ^ 16 % 256 + i) (n / 2 ^ 8 % 256) (n % 256) := by
  unfold dotted
  congr 1
  all_goals omega

def withPrefix (n p : Nat) : List Char := dotted n ++ '/' :: str p

theorem addToSecond_dotted {n i : Nat} (hi : n / 2 ^ 16 % 256 + i < 256) :
    addToSecond (dotted n) i = .ok (dotted (n + i * 2 ^ 16)) := by
  rw [dotted_add_second hi]
  exact addToSecond_quad _ _ _ _ i

theorem addToSecond_withPrefix {n i : Nat} (hi : n / 2 ^ 16 % 256 + i < 256) (p : Nat) :
    addToSecond (withPrefix n p) i = .ok (withPrefix (n + i * 2 ^ 16) p) := by
  unfold withPrefix
  rw [dotted_add_second hi]
  exact addToSecond_cidr _ _ _ _ p i

/-- A network whose second octet leaves room for one more. -/
structure VnfIpBase where
  (a b c d p : Nat)
  a_lt : a < 256
  b_lt : b < 255
  c_lt : c < 256
  d_lt : d < 256
  le_p : 16 ≤ p
  p_le : p ≤ 32

namespace VnfIpBase

variable (base : VnfIpBase)

def text : List Char := cidr base.a base.b base.c base.d base.p

def val : Nat := value base.a base.b base.c base.d

def size : Nat := 2 ^ (32 - base.p)

def net : Nat := base.val / base.size * base.size

theorem val_lt : base.val < 2 ^ 32 := (isAddress_quad base.a_lt (Nat.lt_succ_of_lt base.b_lt) base.c_lt base.d_lt).1

theorem size_pos : 0 < base.size := Nat.two_pow_pos _

theorem size_dvd : base.size ∣ 2 ^ 16 := Nat.pow_dvd_pow 2 (by have := base.le_p; omega)

/-- The address of the `s`-th VNF at interface `i`. -/
def address (s i : Nat) : Nat := base.net + s + i * 2 ^ 16

section
variable {base : VnfIpBase} {s i : Nat}

theorem block_div (hs : s < base.size) : (base.net + s) / base.size = base.val / base.size := by
  unfold net
  rw [Nat.add_comm, Nat.add_mul_div_right _ _ base.size_pos, Nat.div_eq_of_lt hs, Nat.zero_add]

theorem octets_div (hs : s < base.size) : (base.net + s) / 2 ^ 16 = base.a * 256 + base.b := by
  have hval : base.val / 2 ^ 16 = base.a * 256 + base.b := by
    have hc := base.c_lt
    have hd := base.d_lt
    unfold val value
    omega
  obtain ⟨k, hk⟩ := base.size_dvd
  rw [← hval, hk, ← Nat.div_div_eq_div_mul, ← Nat.div_div_eq_div_mul, block_div hs]

theorem second_octet (hs : s < base.size) : (base.net + s) / 2 ^ 16 % 256 = base.b := by
  have hb := base.b_lt
  rw [octets_div hs]
  omega

theorem address_lt (hs : s < base.size) (hi : i < 2) : base.address s i < 2 ^ 32 := by
  have hdiv := octets_div hs
  have ha := base.a_lt
  have hb := base.b_lt
  unfold address
  omega

theorem address_network (hs : s < base.size) : base.address s i / base.size * base.size = base.address 0 i := by
  obtain ⟨k, hk⟩ := base.size_dvd
  have hdiv : base.address s i / base.size = base.val / base.size + i * k := by
    unfold address
    rw [hk, Nat.mul_comm base.size k, ← Nat.mul_assoc, Nat.add_mul_div_right _ _ base.size_pos, block_div hs]
  rw [hdiv, Nat.add_mul]
  unfold address net
  rw [Nat.add_zero, Nat.mul_assoc, Nat.mul_comm k, ← hk]

theorem address_inj {s' i' : Nat} (hs : s < base.size) (hs' : s' < base.size) (h : base.address s i = base.address s' i') :
    s = s' ∧ i = i' := by
  have hle := Nat.le_of_dvd (by decide) base.size_dvd
  unfold address at h
  omega

theorem dotted_address_inj {s' i' : Nat} (hs : s < base.size) (hs' : s' < base.size) (hi : i < 2) (hi' : i' < 2)
    (h : dotted (base.address s i) = dotted (base.address s' i')) : s = s' ∧ i = i' := by
  have hnum : base.address s i = base.address s' i' := IsAddress.unique ⟨address_lt hs hi, rfl⟩ ⟨address_lt hs' hi', h⟩
  exact address_inj hs hs' hnum

end

end VnfIpBase

/-! ### One VNF -/

theorem setIP_withPrefix {v : Node} {q : Nat} {intf : Intf} (hq : v.intfs.get q = some intf) (n p : Nat) :
    v.setIP (withPrefix n p) q = .ok { v with
      intfs := v.intfs.insert q { intf with ip := some (dotted n), prefixLen := some (str p) }
      cmds := v.cmds ++ ["ip address flush dev ".toList ++ intf.name,
        "ip address add ".toList ++ withPrefix n p ++ " dev ".toList ++ intf.name] } :=
  setIP_eq hq _ _ _ _ p

theorem setIntfIps_ok {n p : Nat} (ports : List Nat) : ∀ (i : Nat) (v : Node), ports.Nodup → (∀ q ∈ ports, q ∈ v.intfs) →
    n / 2 ^ 16 % 256 + i + ports.length ≤ 256 →
    ∃ v', setIntfIps (withPrefix n p) i ports v = .ok v' ∧ v'.name = v.name ∧ (∀ q, q ∈ v'.intfs ↔ q ∈ v.intfs) ∧
      (∀ q, q ∉ ports → v'.intfs.get q = v.intfs.get q) ∧
      ∀ (j : Nat) q, ports[j]? = some q → ∃ intf, v'.intfs.get q = some intf ∧ intf.ip = some (dotted (n + (i + j) * 2 ^ 16)) := by
  induction ports with
  | nil =>
    intro i v _ _ _
    exact ⟨v, rfl, rfl, fun _ => Iff.rfl, fun _ _ => rfl, fun j q hq => by cases hq⟩
  | cons q ports ih =>
    intro i v hnodup hmem hroom
    obtain ⟨hq, hnodup'⟩ := List.nodup_cons.mp hnodup
    obtain ⟨intf, hintf⟩ := Dict.mem_iff_get.mp (hmem q (List.mem_cons_self ..))
    rw [List.length_cons] at hroom
    have hset := setIP_withPrefix hintf (n + i * 2 ^ 16) p
    -- the rest of the loop starts from `v₁`
    generalize hv₁ : ({ v with
      intfs := v.intfs.insert q { intf with ip := some (dotted (n + i * 2 ^ 16)), prefixLen := some (str p) }
      cmds := v.cmds ++ ["ip address flush dev ".toList ++ intf.name,
        "ip address add ".toList ++ withPrefix (n + i * 2 ^ 16) p ++ " dev ".toList ++ intf.name] } : Node) = v₁ at hset
    have hname : v₁.name = v.name := by rw [← hv₁]
    have hget : ∀ q', Dict.get v₁.intfs q' =
        if q' = q then some { intf with ip := some (dotted (n + i * 2 ^ 16)), prefixLen := some (str p) } else v.intfs.get q' := by
      intro q'
      rw [← hv₁, Dict.get_insert]
    have hkeys : ∀ q', q' ∈ v₁.intfs ↔ q' ∈ v.intfs := by
      intro q'
      rw [← hv₁]
      exact Dict.mem_insert_of_mem (hmem q (List.mem_cons_self ..)) _ q'
    obtain ⟨v', hok, hname', hkeys', hframe, hips⟩ := ih (i + 1) v₁ hnodup'
      (fun q' hq' => (hkeys q').mpr (hmem q' (List.mem_cons_of_mem q hq'))) (by omega)
    refine ⟨v', ?_, hname'.trans hname, fun q' => (hkeys' q').trans (hkeys q'), fun q' hq' => ?_, fun j q' hj => ?_⟩
    · rw [setIntfIps, addToSecond_withPrefix (by omega)]
      show (v.setIP (withPrefix (n + i * 2 ^ 16) p) q >>= fun v => setIntfIps (withPrefix n p) (i + 1) ports v) = _
      rw [hset]
      exact hok
    · rw [List.mem_cons, not_or] at hq'
      rw [hframe q' hq'.2, hget, if_neg hq'.1]
    · cases j with
      | zero =>
        cases hj
        exact ⟨_, by rw [hframe q hq, hget, if_pos rfl], rfl⟩
      | succ j =>
        obtain ⟨intf', hintf', hip⟩ := hips j q' hj
        rw [Nat.add_assoc, Nat.add_comm 1 j] at hip
        exact ⟨intf', hintf', hip⟩

def TwoPorts (v : Node) : Prop := ∀ q, q ∈ v.intfs ↔ q < 2

theorem twoPorts_addIntf (name : List Char) : TwoPorts (Node.addIntf (Node.addIntf { name })) := by
  intro q
  have hkeys : (Node.addIntf (Node.addIntf { name })).intfs.keys = [1, 0] := rfl
  rw [AList.mem_keys, hkeys]
  simp only [List.mem_cons, List.not_mem_nil, or_false]
  omega

/-- The interfaces have the `s`-th addresses in the two networks, one each. -/
structure Given (base : VnfIpBase) (s : Nat) (v : Node) : Prop where
  ports : TwoPorts v
  ip : ∀ q intf, v.intfs.get q = some intf → ∃ i < 2, intf.ip = some (dotted (base.address s i))
  distinct : ∀ q q' intf intf', v.intfs.get q = some intf → v.intfs.get q' = some intf' → intf.ip = intf'.ip → q = q'

theorem given_of_twoPorts (o : DictOrder) {base : VnfIpBase} {s : Nat} (hs : s < base.size) {v : Node} (hv : TwoPorts v) :
    ∃ v', setIntfIps (withPrefix (base.net + s) base.p) 0 (o.order v.intfs) v = .ok v' ∧ v'.name = v.name ∧
      Given base s v' := by
  have hperm := o.order_perm v.intfs
  have hnodup : (o.order v.intfs).Nodup := hperm.nodup_iff.mpr v.intfs.nodupKeys
  have hmem : ∀ q, q ∈ o.order v.intfs ↔ q < 2 := fun q => o.mem.trans (hv q)
  have hlen : (o.order v.intfs).length = 2 := by
    have htwo : (o.order v.intfs).Perm [0, 1] := by
      rw [List.perm_ext_iff_of_nodup hnodup (by decide)]
      intro q
      rw [hmem]
      simp only [List.mem_cons, List.not_mem_nil, or_false]
      omega
    exact htwo.length_eq
  have hroom : (base.net + s) / 2 ^ 16 % 256 + 0 + (o.order v.intfs).length ≤ 256 := by
    have hb := base.b_lt
    rw [VnfIpBase.second_octet hs, hlen]
    omega
  obtain ⟨v', hok, hname, hkeys, _, hips⟩ :=
    setIntfIps_ok (p := base.p) (o.order v.intfs) 0 v hnodup (fun q hq => o.mem.mp hq) hroom
  have hports : TwoPorts v' := fun q => (hkeys q).trans (hv q)
  -- the address of a port is told by the place of the port in the loop
  have hip : ∀ q intf, v'.intfs.get q = some intf → q ∈ o.order v.intfs ∧ (o.order v.intfs).idxOf q < 2 ∧
      intf.ip = some (dotted (base.address s ((o.order v.intfs).idxOf q))) := by
    intro q intf hintf
    have hq : q ∈ o.order v.intfs := (hmem q).mpr ((hports q).mp (Dict.mem_iff_get.mpr ⟨intf, hintf⟩))
    obtain ⟨intf', hintf', hip⟩ := hips _ q (List.getElem?_idxOf hq)
    rw [hintf] at hintf'
    cases hintf'
    rw [Nat.zero_add] at hip
    exact ⟨hq, hlen ▸ List.idxOf_lt_length_of_mem hq, hip⟩
  refine ⟨v', hok, hname, hports, fun q intf hintf => ?_, fun q q' intf intf' hintf hintf' heq => ?_⟩
  · obtain ⟨_, hlt, hip⟩ := hip q intf hintf
    exact ⟨_, hlt, hip⟩
  · obtain ⟨hq, hlt, hip₁⟩ := hip q intf hintf
    obtain ⟨_, hlt', hip₂⟩ := hip q' intf' hintf'
    rw [hip₁, hip₂] at heq
    obtain ⟨_, hidx⟩ := VnfIpBase.dotted_address_inj hs hs hlt hlt' (Option.some.inj heq)
    exact (List.idxOf_inj hq).mp hidx

/-! ### All VNFs -/

theorem wp_getNextVnfIp {base : VnfIpBase} {tree : ClosTree} (hbase : tree.vnfIpBase = base.text)
    (hs : tree.vnfNextIP < base.size) {Q : List Char → ClosTree → Prop} {E : Exn → ClosTree → Prop} :
    wp getNextVnfIp tree Q E ↔
      Q (withPrefix (base.net + tree.vnfNextIP) base.p) { tree with vnfNextIP := tree.vnfNextIP + 1 } := by
  have hparse : netParse tree.vnfIpBase = .ok (base.val, base.p) := by
    rw [hbase]
    exact netParse_cidr (Nat.lt_succ_of_lt base.b_lt) base.c_lt base.d_lt base.p
  have himax : tree.vnfNextIP ≤ 0xffffffff >>> base.p := by
    rw [imax_eq base.p base.p_le]
    exact Nat.le_sub_one_of_lt hs
  unfold getNextVnfIp getCurrVnfIp
  rw [wp_bind, wp_bind, wp_get, wp_bind, wp_orRaise_ok hparse, wp_bind, wp_orRaise_ok (ipAdd_eq base.p_le base.val_lt himax),
    wp_pure, wp_bind, wp_modify, wp_pure]
  rfl

def AllGiven (base : VnfIpBase) (s : Nat) (vnfs vnfs' : List (List Char × Node)) : Prop :=
  vnfs'.length = vnfs.length ∧ ∀ j (parentNode : List Char) (v' : Node), vnfs'[j]? = some (parentNode, v') →
    ∃ v, vnfs[j]? = some (parentNode, v) ∧ v'.name = v.name ∧ Given base (s + j) v'

theorem wp_configureVNFs (o : DictOrder) {base : VnfIpBase} : ∀ (vnfs : List (List Char × Node)) (tree : ClosTree),
    tree.vnfIpBase = base.text → (∀ pv ∈ vnfs, TwoPorts pv.2) → tree.vnfNextIP + vnfs.length ≤ base.size →
    wp (configureVNFs o vnfs) tree (fun vnfs' tree' =>
      AllGiven base tree.vnfNextIP vnfs vnfs' ∧ tree' = { tree with vnfNextIP := tree.vnfNextIP + vnfs.length })
      fun _ _ => False := by
  intro vnfs
  induction vnfs with
  | nil =>
    intro tree _ _ _
    exact ⟨⟨rfl, fun j _ _ hj => by cases hj⟩, rfl⟩
  | cons pv vnfs ih =>
    intro tree hbase htwo hroom
    obtain ⟨parentNode, v⟩ := pv
    rw [List.length_cons] at hroom
    have hs : tree.vnfNextIP < base.size := by omega
    obtain ⟨v', hok, hname, hgiven⟩ := given_of_twoPorts o hs (htwo _ (List.mem_cons_self ..))
    unfold configureVNFs
    rw [wp_bind, wp_getNextVnfIp hbase hs, wp_bind, wp_orRaise_ok hok, wp_bind]
    refine wp_mono (ih { tree with vnfNextIP := tree.vnfNextIP + 1 } hbase (fun pv hpv => htwo pv (List.mem_cons_of_mem _ hpv))
      (by show tree.vnfNextIP + 1 + vnfs.length ≤ base.size; omega)) (fun vnfs' tree' h => ?_) fun _ _ hf => hf
    obtain ⟨⟨hlen, hall⟩, rfl⟩ := h
    rw [wp_pure]
    refine ⟨⟨by rw [List.length_cons, List.length_cons, hlen], fun j parentNode' v'' hj => ?_⟩, ?_⟩
    · cases j with
      | zero =>
        cases hj
        exact ⟨v, rfl, hname, hgiven⟩
      | succ j =>
        obtain ⟨w, hw, hname', hgiven'⟩ := hall j parentNode' v'' hj
        rw [show tree.vnfNextIP + 1 + j = tree.vnfNextIP + (j + 1) by omega] at hgiven'
        exact ⟨w, hw, hname', hgiven'⟩
    · rw [List.length_cons, Nat.add_assoc, Nat.add_comm 1 vnfs.length]

/-! ### The routes -/

/-- The host has got these two routes, and nothing else of it has changed. -/
def Routed (ipBase ipBase2 subNetMask : List Char) (h h' : Node) : Prop :=
  ∃ intf, h.intfs.get 0 = some intf ∧ h' = { h with
    cmds := h.cmds ++ [routeAdd ipBase subNetMask intf.name, routeAdd ipBase2 subNetMask intf.name] }

theorem setRoutes_ok (ipBase ipBase2 subNetMask : List Char) {h : Node} (h0 : 0 ∈ h.intfs) :
    ∃ h', setRoutes ipBase ipBase2 subNetMask h = .ok h' ∧ Routed ipBase ipBase2 subNetMask h h' := by
  obtain ⟨intf, hintf⟩ := Dict.mem_iff_get.mp h0
  refine ⟨_, ?_, intf, hintf, rfl⟩
  unfold setRoutes
  rw [hintf]

/-! ### The network -/

structure Built (base : VnfIpBase) (tree : ClosTree) : Prop where
  vnfIpBase : tree.vnfIpBase = base.text
  vnfNextIP : tree.vnfNextIP = 1
  vnfs : ∀ pv ∈ tree.VNFs, TwoPorts pv.2
  hosts : ∀ h ∈ tree.hosts, 0 ∈ h.intfs

theorem built_init (base : VnfIpBase) (racks hostsPerRack : Nat) : Built base (ClosTree.init racks hostsPerRack base.text) := by
  refine ⟨rfl, rfl, fun pv hpv => absurd hpv List.not_mem_nil, fun h hh => ?_⟩
  obtain ⟨rack_id, _, hh⟩ := List.mem_flatMap.mp hh
  obtain ⟨x, _, rfl⟩ := List.mem_map.mp hh
  exact AList.mem_keys.mpr (List.mem_singleton_self 0)

theorem Built.addVNF {base : VnfIpBase} {tree : ClosTree} (h : Built base tree) (name : List Char)
    (parentNode : Option (List Char)) : Built base (tree.addVNF name parentNode) := by
  cases parentNode with
  | none => exact h
  | some parent =>
    refine ⟨h.vnfIpBase, h.vnfNextIP, fun pv hpv => ?_, h.hosts⟩
    rcases List.mem_append.mp hpv with hold | hnew
    · exact h.vnfs pv hold
    · rw [List.mem_singleton.mp hnew]
      exact twoPorts_addIntf name

def addVNFs (tree : ClosTree) (calls : List (List Char × Option (List Char))) : ClosTree :=
  calls.foldl (fun tree call => tree.addVNF call.1 call.2) tree

theorem Built.addVNFs {base : VnfIpBase} {tree : ClosTree} (h : Built base tree)
    (calls : List (List Char × Option (List Char))) : Built base (addVNFs tree calls) :=
  List.foldlRecOn calls _ h fun _ hb call _ => hb.addVNF call.1 call.2

/-- The parent and the name that a call keeps, if it has a parent. -/
def kept (call : List Char × Option (List Char)) : Option (List Char × List Char) :=
  call.2.map fun parent => (parent, call.1)

theorem vnfs_addVNF (tree : ClosTree) (call : List Char × Option (List Char)) :
    (tree.addVNF call.1 call.2).VNFs.map (Prod.map id Node.name) =
      tree.VNFs.map (Prod.map id Node.name) ++ (kept call).toList := by
  unfold kept
  cases call.2 with
  | none => simp [ClosTree.addVNF]
  | some parent =>
    have hname : (Node.addIntf (Node.addIntf { name := call.1 })).name = call.1 := rfl
    simp [ClosTree.addVNF, hname]

theorem vnfs_addVNFs (calls : List (List Char × Option (List Char))) : ∀ tree : ClosTree,
    (addVNFs tree calls).VNFs.map (Prod.map id Node.name) = tree.VNFs.map (Prod.map id Node.name) ++ calls.filterMap kept := by
  unfold addVNFs
  induction calls with
  | nil => simp
  | cons call calls ih =>
    intro tree
    rw [List.foldl_cons, ih, vnfs_addVNF, List.append_assoc]
    cases hkept : kept call with
    | none => simp [hkept]
    | some pv => simp [hkept]

def HasInterface (tree : ClosTree) (j q : Nat) : Prop := ∃ parentNode v, tree.VNFs[j]? = some (parentNode, v) ∧ q ∈ v.intfs

/-- Interface `q` of the `j`-th VNF has this address. -/
def Assigned (tree : ClosTree) (j q : Nat) (ip : List Char) : Prop :=
  ∃ parentNode v intf, tree.VNFs[j]? = some (parentNode, v) ∧ v.intfs.get q = some intf ∧ intf.ip = some ip

/-- Every VNF interface has an address of its own, in a network for which each host has got a route. -/
structure Addressed (netaddr : Netaddr) (tree tree' : ClosTree) : Prop where
  assigned : ∀ j q, HasInterface tree j q → ∃ ip, Assigned tree' j q ip
  wellFormed : ∀ j q ip, Assigned tree' j q ip → ∃ n, IsAddress ip n
  distinct : ∀ j q j' q' ip, Assigned tree' j q ip → Assigned tree' j' q' ip → j = j' ∧ q = q'
  routed : ∃ ipBase2, addToSecond (netaddr.network tree.vnfIpBase) 1 = .ok ipBase2 ∧
    (∀ j q ip, Assigned tree' j q ip → InNetwork ip (netaddr.network tree.vnfIpBase) (netaddr.netmask tree.vnfIpBase) ∨
      InNetwork ip ipBase2 (netaddr.netmask tree.vnfIpBase)) ∧
    List.Forall₂ (Routed (netaddr.network tree.vnfIpBase) ipBase2 (netaddr.netmask tree.vnfIpBase)) tree.hosts tree'.hosts

theorem AllGiven.assigned {base : VnfIpBase} {s : Nat} {tree tree' : ClosTree} (h : AllGiven base s tree.VNFs tree'.VNFs) {j q : Nat}
    {ip : List Char} (ha : Assigned tree' j q ip) :
    j < tree.VNFs.length ∧ ∃ i < 2, ip = dotted (base.address (s + j) i) := by
  obtain ⟨parentNode, v', intf, hj, hq, hip⟩ := ha
  obtain ⟨v, hv, _, hgiven⟩ := h.2 j parentNode v' hj
  obtain ⟨hlt, _⟩ := List.getElem?_eq_some_iff.mp hv
  obtain ⟨i, hi, hip'⟩ := hgiven.ip q intf hq
  rw [hip] at hip'
  exact ⟨hlt, i, hi, Option.some.inj hip'⟩

theorem AllGiven.exists_assigned {base : VnfIpBase} {s : Nat} {tree tree' : ClosTree} (h : AllGiven base s tree.VNFs tree'.VNFs)
    (htwo : ∀ pv ∈ tree.VNFs, TwoPorts pv.2) {j q : Nat} (hj : HasInterface tree j q) : ∃ ip, Assigned tree' j q ip := by
  obtain ⟨parentNode, v, hj, hq⟩ := hj
  obtain ⟨hlt, _⟩ := List.getElem?_eq_some_iff.mp hj
  obtain ⟨⟨parentNode', v'⟩, hget⟩ : ∃ pv, tree'.VNFs[j]? = some pv := ⟨_, List.getElem?_eq_getElem (by rw [h.1]; exact hlt)⟩
  obtain ⟨_, _, _, hgiven⟩ := h.2 j parentNode' v' hget
  have hq2 : q < 2 := (htwo _ (List.mem_of_getElem? hj) q).mp hq
  obtain ⟨intf, hintf⟩ := Dict.mem_iff_get.mp ((hgiven.ports q).mpr hq2)
  obtain ⟨i, _, hip⟩ := hgiven.ip q intf hintf
  exact ⟨_, parentNode', v', intf, hget, hintf, hip⟩

theorem AllGiven.distinct {base : VnfIpBase} {s : Nat} {tree tree' : ClosTree} (h : AllGiven base s tree.VNFs tree'.VNFs)
    (hroom : s + tree.VNFs.length ≤ base.size) {j q j' q' : Nat} {ip : List Char} (ha : Assigned tree' j q ip)
    (ha' : Assigned tree' j' q' ip) : j = j' ∧ q = q' := by
  obtain ⟨hlt, i, hi, rfl⟩ := h.assigned ha
  obtain ⟨hlt', i', hi', hip⟩ := h.assigned ha'
  obtain ⟨hj, _⟩ := VnfIpBase.dotted_address_inj (by omega) (by omega) hi hi' hip
  have hjj : j = j' := by omega
  subst hjj
  -- both are interfaces of one VNF
  obtain ⟨parentNode, v, intf, hv, hq, hip₁⟩ := ha
  obtain ⟨_, _, intf', hv', hq', hip₂⟩ := ha'
  rw [hv] at hv'
  cases hv'
  obtain ⟨_, _, _, hgiven⟩ := h.2 j parentNode v hv
  exact ⟨rfl, hgiven.distinct q q' intf intf' hq hq' (hip₁.trans hip₂.symm)⟩

theorem AllGiven.inNetwork {base : VnfIpBase} {s : Nat} {tree tree' : ClosTree} (h : AllGiven base s tree.VNFs tree'.VNFs)
    (hroom : s + tree.VNFs.length ≤ base.size) {j q : Nat} {ip : List Char} (ha : Assigned tree' j q ip) :
    InNetwork ip (dotted (base.address 0 0)) (dotted (maskOf base.p)) ∨
      InNetwork ip (dotted (base.address 0 1)) (dotted (maskOf base.p)) := by
  obtain ⟨hlt, i, hi, rfl⟩ := h.assigned ha
  have hs : s + j < base.size := by omega
  have hin : InNetwork (dotted (base.address (s + j) i)) (dotted (base.address 0 i)) (dotted (maskOf base.p)) :=
    inNetwork_dotted (VnfIpBase.address_lt hs hi) base.p_le (VnfIpBase.address_network hs)
  rcases Nat.lt_succ_iff_lt_or_eq.mp hi with hzero | rfl
  · rw [Nat.lt_one_iff.mp hzero] at hin ⊢
    exact Or.inl hin
  · exact Or.inr hin

section
variable (netaddr : Netaddr) {base : VnfIpBase} {tree : ClosTree}

theorem network_eq (hbuilt : Built base tree) : netaddr.network tree.vnfIpBase = dotted (base.address 0 0) := by
  rw [hbuilt.vnfIpBase]
  exact netaddr.network_cidr base.a_lt (Nat.lt_succ_of_lt base.b_lt) base.c_lt base.d_lt base.p_le

theorem netmask_eq (hbuilt : Built base tree) : netaddr.netmask tree.vnfIpBase = dotted (maskOf base.p) := by
  rw [hbuilt.vnfIpBase]
  exact netaddr.netmask_cidr base.a_lt (Nat.lt_succ_of_lt base.b_lt) base.c_lt base.d_lt base.p_le

theorem ipBase2_eq (base : VnfIpBase) : addToSecond (dotted (base.address 0 0)) 1 = .ok (dotted (base.address 0 1)) := by
  have hb := base.b_lt
  refine addToSecond_dotted ?_
  unfold VnfIpBase.address
  rw [Nat.zero_mul, Nat.add_zero, VnfIpBase.second_octet base.size_pos]
  omega

theorem wp_startNetwork (o : DictOrder) (hbuilt : Built base tree) (hroom : 1 + tree.VNFs.length ≤ base.size) :
    wp (startNetwork o netaddr) tree (fun _ tree' => Addressed netaddr tree tree') fun _ _ => False := by
  obtain ⟨hosts, hhosts, hrouted⟩ := mapM_ok (f := setRoutes (dotted (base.address 0 0)) (dotted (base.address 0 1)) (dotted (maskOf base.p)))
    _ tree.hosts fun h hh => setRoutes_ok _ _ _ (hbuilt.hosts h hh)
  unfold startNetwork
  rw [wp_bind, wp_get, wp_bind]
  refine wp_mono (wp_configureVNFs o tree.VNFs tree hbuilt.vnfIpBase hbuilt.vnfs (hbuilt.vnfNextIP ▸ hroom)) (fun vnfs' tree' h => ?_)
    fun _ _ hf => hf
  obtain ⟨hall, rfl⟩ := h
  rw [hbuilt.vnfNextIP] at hall
  rw [wp_bind, wp_modify, network_eq netaddr hbuilt, netmask_eq netaddr hbuilt, wp_bind, wp_orRaise_ok (ipBase2_eq base), wp_bind,
    wp_orRaise_ok hhosts, wp_modify]
  refine ⟨fun j q hj => hall.exists_assigned hbuilt.vnfs hj, fun j q ip ha => ?_, fun j q j' q' ip ha ha' => hall.distinct hroom ha ha',
    dotted (base.address 0 1), ?_, fun j q ip ha => ?_, ?_⟩
  · obtain ⟨hlt, i, hi, rfl⟩ := hall.assigned ha
    exact ⟨_, VnfIpBase.address_lt (by omega) hi, rfl⟩
  · rw [network_eq netaddr hbuilt]
    exact ipBase2_eq base
  · rw [network_eq netaddr hbuilt, netmask_eq netaddr hbuilt]
    exact hall.inNetwork hroom ha
  · rw [network_eq netaddr hbuilt, netmask_eq netaddr hbuilt]
    exact hrouted

end

/-- **VNF addresses.** The VNFs are those that were added with a parent, with two
interfaces each. In every network of at most `2 ^ 16` addresses, for any VNFs
whose number the network has addresses for, `startNetwork` gives the interfaces
different addresses, in the two networks that every host has got routes for. -/
theorem startNetwork_addresses (o : DictOrder) (netaddr : Netaddr) (base : VnfIpBase) (racks hostsPerRack : Nat)
    (calls : List (List Char × Option (List Char)))
    (hroom : (addVNFs (ClosTree.init racks hostsPerRack base.text) calls).VNFs.length ≤ 0xffffffff >>> base.p) :
    let tree := addVNFs (ClosTree.init racks hostsPerRack base.text) calls
    tree.VNFs.map (Prod.map id Node.name) = calls.filterMap kept ∧ (∀ pv ∈ tree.VNFs, TwoPorts pv.2) ∧
      ∃ tree', startNetwork o netaddr tree = .ok () tree' ∧ Addressed netaddr tree tree' := by
  have hbuilt := (built_init base racks hostsPerRack).addVNFs calls
  rw [imax_eq base.p base.p_le] at hroom
  have hpos := base.size_pos
  obtain ⟨⟨⟩, tree', hok, haddr⟩ := ok_of_wp (wp_startNetwork netaddr o hbuilt (by unfold VnfIpBase.size at *; omega))
  exact ⟨vnfs_addVNFs calls _, hbuilt.vnfs, tree', hok, haddr⟩

def netaddrOf : Netaddr where
  network text :=
    match netParse text with
    | .ok (n, p) => dotted (n / 2 ^ (32 - p) * 2 ^ (32 - p))
    | .error _ => []
  netmask text :=
    match netParse text with
    | .ok (_, p) => dotted (maskOf p)
    | .error _ => []
  network_cidr _ hb hc hd _ := by rw [netParse_cidr hb hc hd]
  netmask_cidr _ hb hc hd _ := by rw [netParse_cidr hb hc hd]

def defaultBase : VnfIpBase := ⟨11, 1, 0, 0, 24, by decide, by decide, by decide, by decide, by decide, by decide⟩

def defaultVNFs : List (List Char × Option (List Char)) :=
  [(['v', '1'], some "s.rack4".toList), (['v', '2'], some "s.rack4".toList), (['v', '3'], some "s.rack5".toList),
    (['v', '4'], some "s.rack5".toList)]

theorem startNetwork_addresses_default :
    let tree := addVNFs (ClosTree.init 6 2 defaultBase.text) defaultVNFs
    tree.VNFs.map (Prod.map id Node.name) = defaultVNFs.filterMap kept ∧ (∀ pv ∈ tree.VNFs, TwoPorts pv.2) ∧
      ∃ tree', startNetwork .byEntries netaddrOf tree = .ok () tree' ∧ Addressed netaddrOf tree tree' :=
  startNetwork_addresses .byEntries netaddrOf defaultBase 6 2 defaultVNFs (by decide)

end DockerTopo

end VnfDockerNet
