import Mathlib.Data.Nat.Basic
import Mathlib.Data.List.Basic
import Mathlib.Tactic.Ring

/-!
# Packed binary data: Python's `struct`

A format is a byte order and a list of format characters. `pack` fails, as
`struct.error` does, on a wrong number of arguments, on an argument of the
wrong type and on an integer that does not fit its width; `unpack_from` fails
on a short buffer. `unpack_pack` is the round trip: values that fit a format
are read back from their packed bytes, whatever follows these.

Formats in native order stand for native formats without alignment gaps.
-/

namespace Python

/-- A Python 2 `str`, or a `bytearray`. -/
abbrev Bytes := List UInt8

def asciiText (text : String) : Bytes := text.toList.map fun c => c.toNat.toUInt8

inductive ByteOrder where
  | big
  | little
  deriving DecidableEq, Repr

/-- Format characters, with the repeat count where the character takes one. -/
inductive Code where
  | B
  | H
  | I
  | Q
  | bool
  | s (n : Nat)
  | x (n : Nat)
  deriving DecidableEq, Repr

/-- A format string: `!` asks for network order, no prefix for the host's. -/
structure Format where
  network : Bool
  codes : List Code
  deriving DecidableEq, Repr

/-- The values a format can meet; `obj` is an instance of any class. -/
inductive Val where
  | none
  | obj
  | int (n : Nat)
  | bool (b : Bool)
  | str (s : Bytes)
  deriving DecidableEq, Repr

def Val.ofOption : Option Nat → Val
  | some n => .int n
  | .none => .none

def Val.truth : Val → Bool
  | .none => false
  | .obj => true
  | .int n => n != 0
  | .bool b => b
  | .str s => !s.isEmpty

def Code.size : Code → Nat
  | .B => 1
  | .H => 2
  | .I => 4
  | .Q => 8
  | .bool => 1
  | .s n => n
  | .x n => n

def codesSize (cs : List Code) : Nat := (cs.map Code.size).sum

def calcsize (fmt : Format) : Nat := codesSize fmt.codes

def Format.order (host : ByteOrder) (fmt : Format) : ByteOrder := if fmt.network then .big else host

/-! ## Integers -/

/-- The low `n` bytes of `v`, most significant first. -/
def bytesBE : Nat → Nat → Bytes
  | 0, _ => []
  | n + 1, v => UInt8.ofNat (v / 256 ^ n) :: bytesBE n v

def natBE : Bytes → Nat
  | [] => 0
  | b :: bs => b.toNat * 256 ^ bs.length + natBE bs

def intBytes (o : ByteOrder) (n v : Nat) : Bytes :=
  match o with
  | .big => bytesBE n v
  | .little => (bytesBE n v).reverse

def intOf (o : ByteOrder) (bs : Bytes) : Nat :=
  match o with
  | .big => natBE bs
  | .little => natBE bs.reverse

@[simp] theorem bytesBE_length (n v : Nat) : (bytesBE n v).length = n := by
  induction n with
  | zero => rfl
  | succ n ih => simp [bytesBE, ih]

@[simp] theorem intBytes_length (o : ByteOrder) (n v : Nat) : (intBytes o n v).length = n := by
  cases o <;> simp [intBytes]

theorem natBE_lt : ∀ bs : Bytes, natBE bs < 256 ^ bs.length
  | [] => Nat.one_pos
  | b :: bs => by
    have hb : b.toNat + 1 ≤ 256 := b.toNat_lt
    rw [natBE, List.length_cons, Nat.pow_succ']
    calc b.toNat * 256 ^ bs.length + natBE bs
      _ < b.toNat * 256 ^ bs.length + 256 ^ bs.length := Nat.add_lt_add_left (natBE_lt bs) _
      _ = (b.toNat + 1) * 256 ^ bs.length := (Nat.succ_mul _ _).symm
      _ ≤ 256 * 256 ^ bs.length := Nat.mul_le_mul_right _ hb

theorem natBE_bytesBE (n v : Nat) : natBE (bytesBE n v) = v % 256 ^ n := by
  induction n with
  | zero => simp [bytesBE, natBE, Nat.mod_one]
  | succ n ih =>
    have hb : (UInt8.ofNat (v / 256 ^ n)).toNat = v / 256 ^ n % 256 := by simp
    rw [bytesBE, natBE, hb, ih, bytesBE_length, Nat.mod_pow_succ]
    ring

theorem intOf_intBytes (o : ByteOrder) {n v : Nat} (h : v < 256 ^ n) : intOf o (intBytes o n v) = v := by
  cases o <;> simp [intOf, intBytes, natBE_bytesBE, Nat.mod_eq_of_lt h]

/-! ## Packing -/

def zeros (n : Nat) : Bytes := List.replicate n 0

@[simp] theorem zeros_length (n : Nat) : (zeros n).length = n := List.length_replicate ..

def packInt (o : ByteOrder) (n : Nat) : Val → Option Bytes
  | .int v => if v < 256 ^ n then some (intBytes o n v) else none
  | .bool b => some (intBytes o n (if b then 1 else 0))
  | _ => none

/-- The bytes of one argument; a string is cut or zero padded to its width. -/
def packVal (o : ByteOrder) : Code → Val → Option Bytes
  | .B, v => packInt o 1 v
  | .H, v => packInt o 2 v
  | .I, v => packInt o 4 v
  | .Q, v => packInt o 8 v
  | .bool, v => some [if v.truth then 1 else 0]
  | .s n, .str t => some (t.take n ++ zeros (n - t.length))
  | .s _, _ => none
  | .x _, _ => none

def packCodes (o : ByteOrder) : List Code → List Val → Option Bytes
  | [], [] => some []
  | [], _ :: _ => none
  | .x n :: cs, vs => do
    let rest ← packCodes o cs vs
    return zeros n ++ rest
  | _ :: _, [] => none
  | c :: cs, v :: vs => do
    let first ← packVal o c v
    let rest ← packCodes o cs vs
    return first ++ rest

def pack (host : ByteOrder) (fmt : Format) (args : List Val) : Option Bytes :=
  packCodes (fmt.order host) fmt.codes args

/-- Overwrite `calcsize fmt` bytes of the buffer from `offset` on. -/
def pack_into (host : ByteOrder) (fmt : Format) (buf : Bytes) (offset : Nat) (args : List Val) :
    Option Bytes :=
  if offset + calcsize fmt ≤ buf.length then do
    let packed ← pack host fmt args
    return buf.take offset ++ packed ++ buf.drop (offset + calcsize fmt)
  else none

/-! ## Unpacking -/

def unpackVal (o : ByteOrder) (c : Code) (bs : Bytes) : Val :=
  match c with
  | .bool => .bool (natBE bs != 0)
  | .s _ => .str bs
  | _ => .int (intOf o bs)

def unpackCodes (o : ByteOrder) : List Code → Bytes → List Val
  | [], _ => []
  | .x n :: cs, bs => unpackCodes o cs (bs.drop n)
  | c :: cs, bs => unpackVal o c (bs.take c.size) :: unpackCodes o cs (bs.drop c.size)

def unpack_from (host : ByteOrder) (fmt : Format) (buf : Bytes) (offset : Nat) : Option (List Val) :=
  if offset + calcsize fmt ≤ buf.length then
    some (unpackCodes (fmt.order host) fmt.codes (buf.drop offset))
  else none

/-! ## Reading from a longer buffer -/

/-- The characters of a format only look at as many bytes as they ask for. -/
theorem unpackCodes_append (o : ByteOrder) : ∀ (cs : List Code) (bs rest : Bytes), codesSize cs ≤ bs.length →
    unpackCodes o cs (bs ++ rest) = unpackCodes o cs bs
  | [], _, _, _ => rfl
  | c :: cs, bs, rest, h => by
    have hc : c.size ≤ bs.length := by simp [codesSize] at h; omega
    have hd : codesSize cs ≤ (bs.drop c.size).length := by simp [codesSize] at h ⊢; omega
    have ih := unpackCodes_append o cs (bs.drop c.size) rest hd
    cases c <;>
      simp only [unpackCodes, Code.size] at hc ih ⊢ <;>
      simp only [List.take_append_of_le_length hc, List.drop_append_of_le_length hc, ih]

theorem unpack_from_longer {host : ByteOrder} {fmt : Format} {buf : Bytes} {offset : Nat}
    (h : offset + calcsize fmt ≤ buf.length) (rest : Bytes) :
    unpack_from host fmt (buf ++ rest) offset = unpack_from host fmt buf offset := by
  have hroom : offset + calcsize fmt ≤ (buf ++ rest).length := by rw [List.length_append]; omega
  have hdrop : (buf ++ rest).drop offset = buf.drop offset ++ rest := List.drop_append_of_le_length (by omega)
  have hlen : codesSize fmt.codes ≤ (buf.drop offset).length := by
    rw [List.length_drop]
    exact Nat.le_sub_of_add_le' h
  rw [unpack_from, unpack_from, if_pos h, if_pos hroom, hdrop, unpackCodes_append _ _ _ _ hlen]

theorem unpack_from_short {host : ByteOrder} {fmt : Format} {buf : Bytes} {offset : Nat}
    (h : buf.length < offset + calcsize fmt) : unpack_from host fmt buf offset = none := if_neg (not_le.mpr h)

/-! ## Round trip -/

/-- The value is what unpacking its own packed form gives. -/
def Val.fits : Val → Code → Bool
  | .int v, .B => v < 2 ^ 8
  | .int v, .H => v < 2 ^ 16
  | .int v, .I => v < 2 ^ 32
  | .int v, .Q => v < 2 ^ 64
  | .bool _, .bool => true
  | .str t, .s n => t.length == n
  | _, _ => false

def fitsCodes : List Code → List Val → Bool
  | [], [] => true
  | .x _ :: cs, vs => fitsCodes cs vs
  | c :: cs, v :: vs => v.fits c && fitsCodes cs vs
  | _, _ => false

def Code.isInt : Code → Bool
  | .B | .H | .I | .Q => true
  | _ => false

/-- What an integer character packs and does not fit is a `bool`. -/
theorem packVal_of_not_fits (o : ByteOrder) {c : Code} {v : Val} (hc : c.isInt = true) (hv : ∀ b, v ≠ .bool b)
    (h : v.fits c = false) : packVal o c v = none := by
  cases v with
  | bool b => exact absurd rfl (hv b)
  | int n => cases c <;> simp_all [Val.fits, packVal, packInt, Code.isInt]
  | none | obj | str t => cases c <;> simp_all [packVal, packInt, Code.isInt]

/-- Numbers, or nothing, in place of numbers are packed only if they fit. -/
theorem packCodes_of_not_fits (o : ByteOrder) : ∀ (cs : List Code) (vs : List Val), (∀ c ∈ cs, c.isInt = true) →
    (∀ v ∈ vs, ∀ b, v ≠ .bool b) → fitsCodes cs vs = false → packCodes o cs vs = none
  | [], [], _, _, h => by simp [fitsCodes] at h
  | [], _ :: _, _, _, _ => rfl
  | c :: cs, vs, hc, hv, h => by
    have hint := hc c List.mem_cons_self
    cases vs with
    | nil => cases c <;> simp_all [packCodes, Code.isInt]
    | cons v vs =>
      have hfirst : fitsCodes (c :: cs) (v :: vs) = (v.fits c && fitsCodes cs vs) := by
        cases c <;> first | rfl | cases hint
      have hpack : packCodes o (c :: cs) (v :: vs) = (packVal o c v).bind fun b => (packCodes o cs vs).map (b ++ ·) := by
        cases c <;> first | (cases hint; done) | (simp only [packCodes]; cases packVal o _ v <;> cases packCodes o cs vs <;> rfl)
      rw [hfirst, Bool.and_eq_false_iff] at h
      rw [hpack]
      rcases h with h | h
      · rw [packVal_of_not_fits o hint (hv v List.mem_cons_self) h]
        rfl
      · rw [packCodes_of_not_fits o cs vs (fun c h => hc c (List.mem_cons_of_mem _ h))
          (fun v h => hv v (List.mem_cons_of_mem _ h)) h]
        cases packVal o c v <;> rfl

theorem packVal_of_fits (o : ByteOrder) {c : Code} {v : Val} (h : v.fits c = true) :
    ∃ bs, packVal o c v = some bs ∧ bs.length = c.size ∧ unpackVal o c bs = v := by
  cases v with
  | none | obj => cases c <;> simp [Val.fits] at h
  | int n =>
    cases c with
    | B | H | I | Q =>
      simp only [Val.fits, decide_eq_true_eq] at h
      refine ⟨_, by simp only [packVal, packInt]; rw [if_pos (by simpa using h)], by simp [Code.size], ?_⟩
      simp only [unpackVal]
      rw [intOf_intBytes o (by simpa using h)]
    | _ => simp [Val.fits] at h
  | bool b =>
    cases c with
    | bool => exact ⟨_, rfl, rfl, by cases b <;> rfl⟩
    | _ => simp [Val.fits] at h
  | str t =>
    cases c with
    | s n =>
      simp only [Val.fits, beq_iff_eq] at h
      subst h
      exact ⟨t, by simp [packVal, zeros], rfl, rfl⟩
    | _ => simp [Val.fits] at h

/-- Values that fit a list of format characters are packed into as many bytes
as the characters ask for, and read back from them. -/
theorem packCodes_of_fits (o : ByteOrder) : ∀ (cs : List Code) (vs : List Val), fitsCodes cs vs = true →
    ∃ bs, packCodes o cs vs = some bs ∧ bs.length = codesSize cs ∧
      ∀ rest, unpackCodes o cs (bs ++ rest) = vs
  | [], [], _ => ⟨[], rfl, rfl, fun _ => rfl⟩
  | [], _ :: _, h => by simp [fitsCodes] at h
  | c :: cs, vs, h => by
    -- a pad takes no argument, every other character takes one
    by_cases hx : ∃ n, c = .x n
    · obtain ⟨n, rfl⟩ := hx
      obtain ⟨bs, hp, hl, hu⟩ := packCodes_of_fits o cs vs (by simpa [fitsCodes] using h)
      refine ⟨zeros n ++ bs, by simp [packCodes, hp], by simp [hl, codesSize, Code.size], fun rest => ?_⟩
      rw [unpackCodes, List.append_assoc, List.drop_left' (zeros_length n), hu]
    · cases vs with
      | nil => cases c <;> simp_all [fitsCodes]
      | cons v vs =>
        have hf : v.fits c = true ∧ fitsCodes cs vs = true := by cases c <;> simp_all [fitsCodes]
        obtain ⟨b, hb, hbl, hbu⟩ := packVal_of_fits o hf.1
        obtain ⟨bs, hp, hl, hu⟩ := packCodes_of_fits o cs vs hf.2
        refine ⟨b ++ bs, ?_, by simp [hl, hbl, codesSize], fun rest => ?_⟩
        · cases c <;> simp_all [packCodes]
        · have : unpackCodes o (c :: cs) (b ++ bs ++ rest) =
              unpackVal o c ((b ++ bs ++ rest).take c.size) :: unpackCodes o cs ((b ++ bs ++ rest).drop c.size) := by
            cases c <;> simp_all [unpackCodes]
          rw [this, List.append_assoc, List.take_left' hbl, List.drop_left' hbl, hbu, hu]

/-- **Round trip of a packed record** at any place of a buffer. -/
theorem unpack_pack (host : ByteOrder) (fmt : Format) (args : List Val)
    (h : fitsCodes fmt.codes args = true) :
    ∃ bs, pack host fmt args = some bs ∧ bs.length = calcsize fmt ∧
      ∀ pre rest, unpack_from host fmt (pre ++ bs ++ rest) pre.length = some args := by
  obtain ⟨bs, hp, hl, hu⟩ := packCodes_of_fits (fmt.order host) fmt.codes args h
  refine ⟨bs, hp, hl, fun pre rest => ?_⟩
  have hlen : pre.length + calcsize fmt ≤ (pre ++ bs ++ rest).length := by
    simp [calcsize, hl]
  rw [unpack_from, if_pos hlen, List.append_assoc, List.drop_left, hu]

end Python
