import VnfDockerNet.Lib.Python

/-!
# Decimal texts

`str` of a number, `int` of a text with spaces and a sign, and texts that are
put together with a separator and split at it again.
-/

namespace Python

/-- `str(n)` -/
def str (n : Nat) : List Char := Nat.toDigits 10 n

theorem str_ne_nil (n : Nat) : str n ≠ [] := Nat.toDigits_ne_nil

theorem isDigit_of_mem_str {n : Nat} {c : Char} (h : c ∈ str n) : c.isDigit = true :=
  Nat.isDigit_of_mem_toDigits (by decide) (by decide) h

theorem notMem_str {c : Char} (hc : c.isDigit = false) (n : Nat) : c ∉ str n := by
  intro h
  rw [isDigit_of_mem_str h] at hc
  cases hc

theorem int_str (n : Nat) : int (str n) = .ok n := by
  rw [int_eq_ok]
  refine ⟨str_ne_nil n, ?_, Nat.ofDigitChars_ten_toDigits⟩
  rw [List.all_eq_true]
  exact fun c hc => isDigit_of_mem_str hc

theorem str_injective {n m : Nat} (h : str n = str m) : n = m := by
  have hn := int_str n
  rw [h, int_str m] at hn
  cases hn
  rfl

/-! ## Spaces and signs -/

def isSpace (c : Char) : Bool := c.toNat ∈ [9, 10, 11, 12, 13, 32]

/-- `text.strip()` -/
def strip (text : List Char) : List Char := ((text.dropWhile isSpace).reverse.dropWhile isSpace).reverse

/-- `int(text)` of a text with spaces around it and a sign in front. -/
def intText (text : List Char) : Except Exn Int :=
  match strip text with
  | '-' :: digits => (int digits).map fun n => -(n : Int)
  | '+' :: digits => (int digits).map fun n => (n : Int)
  | digits => (int digits).map fun n => (n : Int)

theorem dropWhile_isSpace {text : List Char} (h : ∀ c ∈ text, isSpace c = false) : text.dropWhile isSpace = text := by
  cases text with
  | nil => rfl
  | cons c text =>
    rw [List.dropWhile_cons_of_neg]
    rw [h c (List.mem_cons_self ..)]
    decide

theorem strip_of_noSpaces {text : List Char} (h : ∀ c ∈ text, isSpace c = false) : strip text = text := by
  unfold strip
  rw [dropWhile_isSpace h, dropWhile_isSpace, List.reverse_reverse]
  exact fun c hc => h c (List.mem_reverse.mp hc)

theorem isSpace_of_isDigit {c : Char} (h : c.isDigit = true) : isSpace c = false := by
  unfold Char.isDigit at h
  simp only [Bool.and_eq_true, decide_eq_true_eq, ge_iff_le, UInt32.le_iff_toNat_le] at h
  unfold isSpace
  simp only [List.mem_cons, List.not_mem_nil, or_false, decide_eq_false_iff_not, not_or]
  have h48 : 48 ≤ c.toNat := h.1
  omega

theorem intText_str (n : Nat) : intText (str n) = .ok n := by
  have hstrip : strip (str n) = str n := strip_of_noSpaces fun c hc => isSpace_of_isDigit (isDigit_of_mem_str hc)
  have hminus := notMem_str (c := '-') (by decide) n
  have hplus := notMem_str (c := '+') (by decide) n
  unfold intText
  rw [hstrip]
  split
  · rename_i digits heq
    rw [heq] at hminus
    exact absurd (List.mem_cons_self ..) hminus
  · rename_i digits heq
    rw [heq] at hplus
    exact absurd (List.mem_cons_self ..) hplus
  · rw [int_str]
    rfl

end Python
