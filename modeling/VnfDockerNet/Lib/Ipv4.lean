import VnfDockerNet.Lib.Text

/-!
# IPv4 addresses

An address is a number below `2 ^ 32`, written as four decimal octets; a network
is an address and a prefix length, whose mask keeps the first bits. `Netaddr` is
the package that reads such a network.
-/

namespace Ipv4

open Python

/-! ## Dotted texts -/

def quad (w x y z : Nat) : List Char := ['.'].intercalate [str w, str x, str y, str z]

def dotted (n : Nat) : List Char := quad (n / 2 ^ 24) (n / 2 ^ 16 % 256) (n / 2 ^ 8 % 256) (n % 256)

/-- `a.b.c.d/p` -/
def cidr (a b c d p : Nat) : List Char := quad a b c d ++ '/' :: str p

/-- The text has four octets, and the number is their value. -/
def IsAddress (text : List Char) (n : Nat) : Prop := n < 2 ^ 32 ∧ text = dotted n

theorem splitOn_quad (w x y z : Nat) : (quad w x y z).splitOn '.' = [str w, str x, str y, str z] := by
  refine List.splitOn_intercalate '.' (fun l hl => ?_) (by simp)
  simp only [List.mem_cons, List.not_mem_nil, or_false] at hl
  rcases hl with rfl | rfl | rfl | rfl
  all_goals exact notMem_str (by decide) _

theorem quad_injective {w x y z w' x' y' z' : Nat} (h : quad w x y z = quad w' x' y' z') :
    w = w' ∧ x = x' ∧ y = y' ∧ z = z' := by
  have hsplit := splitOn_quad w x y z
  rw [h, splitOn_quad] at hsplit
  simp only [List.cons.injEq, and_true] at hsplit
  obtain ⟨hw, hx, hy, hz⟩ := hsplit
  exact ⟨(str_injective hw).symm, (str_injective hx).symm, (str_injective hy).symm, (str_injective hz).symm⟩

theorem slash_notMem_quad (w x y z : Nat) : '/' ∉ quad w x y z := by
  have hstr : ∀ n, '/' ∉ str n := notMem_str (by decide)
  unfold quad
  simp only [List.intercalate_cons_cons, List.intercalate_singleton, List.mem_append, List.mem_singleton, hstr, false_or, or_false]
  decide

theorem slash_mem_cidr (a b c d p : Nat) : '/' ∈ cidr a b c d p := List.mem_append_right _ (List.mem_cons_self ..)

theorem splitOn_slash_cidr (a b c d p : Nat) : (cidr a b c d p).splitOn '/' = [quad a b c d, str p] := by
  unfold cidr
  rw [List.splitOn_append_cons_self_of_not_mem (slash_notMem_quad a b c d), List.splitOn_eq_singleton (notMem_str (by decide) p)]

theorem splitOn_dot_cidr (a b c d p : Nat) : (cidr a b c d p).splitOn '.' = [str a, str b, str c, str d ++ '/' :: str p] := by
  have hparts : cidr a b c d p = ['.'].intercalate [str a, str b, str c, str d ++ '/' :: str p] := by
    unfold cidr quad
    simp only [List.intercalate_cons_cons, List.intercalate_singleton, List.append_assoc]
  have hstr : ∀ n, '.' ∉ str n := notMem_str (by decide)
  rw [hparts]
  refine List.splitOn_intercalate '.' (fun l hl => ?_) (by simp)
  simp only [List.mem_cons, List.not_mem_nil, or_false] at hl
  rcases hl with rfl | rfl | rfl | rfl
  · exact hstr a
  · exact hstr b
  · exact hstr c
  · simp only [List.mem_append, List.mem_cons, hstr, false_or, or_false]
    decide

/-- The number with these octets. -/
def value (a b c d : Nat) : Nat := a * 2 ^ 24 + b * 2 ^ 16 + c * 2 ^ 8 + d

theorem dotted_value {a b c d : Nat} (hb : b < 256) (hc : c < 256) (hd : d < 256) : dotted (value a b c d) = quad a b c d := by
  unfold dotted value
  congr 1
  all_goals omega

theorem isAddress_quad {a b c d : Nat} (ha : a < 256) (hb : b < 256) (hc : c < 256) (hd : d < 256) :
    IsAddress (quad a b c d) (value a b c d) := by
  refine ⟨?_, (dotted_value hb hc hd).symm⟩
  unfold value
  omega

theorem IsAddress.unique {text : List Char} {n m : Nat} (h : IsAddress text n) (h' : IsAddress text m) : n = m := by
  have heq : dotted n = dotted m := h.2.symm.trans h'.2
  obtain ⟨h24, h16, h8, h0⟩ := quad_injective heq
  omega

/-! ## Networks -/

/-- The first `p` of 32 bits. -/
def maskOf (p : Nat) : Nat := 2 ^ 32 - 2 ^ (32 - p)

theorem and_high {n h : Nat} (hn : n < 2 ^ 32) : n &&& ((2 ^ 32 - 1) ^^^ (2 ^ h - 1)) = n / 2 ^ h * 2 ^ h := by
  refine Nat.eq_of_testBit_eq fun i => ?_
  rw [Nat.testBit_and, Nat.testBit_xor, Nat.testBit_two_pow_sub_one, Nat.testBit_two_pow_sub_one, Nat.testBit_mul_two_pow,
    Nat.testBit_div_two_pow]
  by_cases h32 : i < 32
  · by_cases hi : h ≤ i
    · simp [hi, h32, Nat.sub_add_cancel hi]
    · simp [hi, h32, Nat.lt_of_not_le hi]
  · have hzero : n.testBit i = false :=
      Nat.testBit_lt_two_pow (Nat.lt_of_lt_of_le hn (Nat.pow_le_pow_right (by decide) (by omega)))
    by_cases hi : h ≤ i
    · simp [hi, hzero, Nat.sub_add_cancel hi]
    · simp [hi, hzero]

theorem xor_eq_maskOf : ∀ h ≤ 32, (2 ^ 32 - 1) ^^^ (2 ^ h - 1) = maskOf (32 - h) := by decide

theorem and_maskOf {n p : Nat} (hn : n < 2 ^ 32) (hp : p ≤ 32) : n &&& maskOf p = n / 2 ^ (32 - p) * 2 ^ (32 - p) := by
  have hmask := xor_eq_maskOf (32 - p) (Nat.sub_le 32 p)
  rw [Nat.sub_sub_self hp] at hmask
  rw [← hmask, and_high hn]

theorem maskOf_lt {p : Nat} : maskOf p < 2 ^ 32 := Nat.sub_lt (by decide) (Nat.two_pow_pos _)

/-- The address is in the network: its masked bits are those of the network. -/
def InNetwork (ip net netmask : List Char) : Prop :=
  ∃ n m k, IsAddress ip n ∧ IsAddress net m ∧ IsAddress netmask k ∧ n &&& k = m

theorem inNetwork_dotted {n m p : Nat} (hn : n < 2 ^ 32) (hp : p ≤ 32) (hm : n / 2 ^ (32 - p) * 2 ^ (32 - p) = m) :
    InNetwork (dotted n) (dotted m) (dotted (maskOf p)) := by
  have hlt : m < 2 ^ 32 := by
    rw [← hm]
    exact Nat.lt_of_le_of_lt (Nat.div_mul_le_self _ _) hn
  exact ⟨n, m, maskOf p, ⟨hn, rfl⟩, ⟨hlt, rfl⟩, ⟨maskOf_lt, rfl⟩, (and_maskOf hn hp).trans hm⟩

/-- `netaddr.IPNetwork(text)`: the texts of its network address and of its mask. -/
structure Netaddr where
  network : List Char → List Char
  netmask : List Char → List Char
  network_cidr : ∀ {a b c d p : Nat}, a < 256 → b < 256 → c < 256 → d < 256 → p ≤ 32 →
    network (cidr a b c d p) = dotted (value a b c d / 2 ^ (32 - p) * 2 ^ (32 - p))
  netmask_cidr : ∀ {a b c d p : Nat}, a < 256 → b < 256 → c < 256 → d < 256 → p ≤ 32 →
    netmask (cidr a b c d p) = dotted (maskOf p)

end Ipv4
