import Mathlib.Data.PEquiv

/-!
# Things at places

A partial bijection says where things are, one thing at a place: a thing enters
a place and drives out what was there, or leaves, or a whole region is cleared.
-/

namespace PEquiv

variable {α β : Type} {f : α ≃. β} {a x : α} {b y : β}

/-- What is at a place with `p` leaves. -/
def clear (f : α ≃. β) (p : β → Prop) [DecidablePred p] : α ≃. β := f.trans (PEquiv.ofSet {y | ¬ p y})

theorem clear_eq_some {p : β → Prop} [DecidablePred p] : f.clear p x = some y ↔ f x = some y ∧ ¬ p y := by
  unfold clear
  rw [PEquiv.trans_eq_some]
  constructor
  · intro hx
    obtain ⟨z, hf, hz⟩ := hx
    obtain ⟨rfl, hn⟩ := PEquiv.ofSet_eq_some_iff.mp hz
    exact ⟨hf, hn⟩
  · intro h
    exact ⟨y, h.1, PEquiv.ofSet_eq_some_iff.mpr ⟨rfl, h.2⟩⟩

variable [DecidableEq α]

def erase (f : α ≃. β) (a : α) : α ≃. β := (PEquiv.ofSet {x | x ≠ a}).trans f

theorem erase_eq_some : f.erase a x = some y ↔ x ≠ a ∧ f x = some y := by
  unfold erase
  rw [PEquiv.trans_eq_some]
  constructor
  · intro hx
    obtain ⟨z, hz, hf⟩ := hx
    obtain ⟨rfl, hne⟩ := PEquiv.ofSet_eq_some_iff.mp hz
    exact ⟨hne, hf⟩
  · intro h
    exact ⟨x, PEquiv.ofSet_eq_some_iff.mpr ⟨rfl, h.1⟩, h.2⟩

variable [DecidableEq β]

/-- `a` moves to `b`, and what was there leaves. -/
def put (f : α ≃. β) (a : α) (b : β) : α ≃. β where
  toFun x := if x = a then some b else (f x).filter (· ≠ b)
  invFun y := if y = b then some a else (f.symm y).filter (· ≠ a)
  inv x y := by
    by_cases hx : x = a
    · by_cases hy : y = b
      · simp [hx, hy]
      · simp [hx, hy, Ne.symm hy]
    · by_cases hy : y = b
      · simp [hx, hy, Ne.symm hx]
      · simp [hx, hy, f.eq_some_iff]

theorem put_eq_some : f.put a b x = some y ↔ (x = a ∧ y = b) ∨ (x ≠ a ∧ y ≠ b ∧ f x = some y) := by
  show (if x = a then some b else (f x).filter (· ≠ b)) = some y ↔ _
  by_cases hx : x = a
  · simp [hx, eq_comm]
  · simp [hx, and_comm]

theorem put_erase {c : α} (hc : f c = some b) : (f.erase c).put a b = f.put a b := by
  apply PEquiv.ext
  intro x
  apply Option.ext
  intro y
  rw [put_eq_some, put_eq_some, erase_eq_some]
  constructor
  · intro hex
    rcases hex with h | ⟨hx, hy, _, hf⟩
    · exact Or.inl h
    · exact Or.inr ⟨hx, hy, hf⟩
  · intro hex
    rcases hex with h | ⟨hx, hy, hf⟩
    · exact Or.inl h
    · refine Or.inr ⟨hx, hy, ?_, hf⟩
      intro hxc
      rw [hxc, hc] at hf
      exact hy (Option.some.inj hf).symm

end PEquiv
