import Mathlib.Data.List.Nodup

/-!
# An index kept beside the lists it indexes

Things are listed at places, and an index says something of every thing that is
listed. Both are updated by hand; what the index has without a list is `stale`.
A list from which a loop removes what it visits loses every other element.
-/

namespace Index

section
variable {κ : Type}

/-- What a loop over `l` sees when it removes each element it sees from `l`. -/
def visited : List κ → List κ
  | a :: _ :: l => a :: visited l
  | l => l

/-- What is left of `l` then. -/
def skipped : List κ → List κ
  | _ :: b :: l => b :: skipped l
  | _ => []

theorem mem_visited_or_skipped {k : κ} : ∀ {l : List κ}, k ∈ l ↔ k ∈ visited l ∨ k ∈ skipped l
  | [] => by simp [visited, skipped]
  | [a] => by simp [visited, skipped]
  | a :: b :: l => by
    have ih := mem_visited_or_skipped (k := k) (l := l)
    simp only [visited, skipped, List.mem_cons, ih]
    tauto

theorem skipped_sublist : ∀ l : List κ, (skipped l).Sublist l
  | [] => .slnil
  | [_] => List.nil_sublist _
  | a :: b :: l => ((skipped_sublist l).cons_cons b).cons a

theorem mem_skipped_iff {k : κ} : ∀ {l : List κ}, l.Nodup → (k ∈ skipped l ↔ k ∈ l ∧ k ∉ visited l)
  | [], _ => by simp [skipped]
  | [a], _ => by simp [skipped, visited]
  | a :: b :: l, h => by
    obtain ⟨ha, hb, hl⟩ : a ∉ b :: l ∧ b ∉ l ∧ l.Nodup := by
      rw [List.nodup_cons, List.nodup_cons] at h
      exact ⟨h.1, h.2.1, h.2.2⟩
    have ih := mem_skipped_iff (k := k) hl
    have hav : a ∉ b :: skipped l := fun h => ha (((skipped_sublist l).cons_cons b).subset h)
    have hbv : b ∉ visited l := fun h => hb (mem_visited_or_skipped.mpr (Or.inl h))
    simp only [skipped, visited, List.mem_cons, not_or] at hav ⊢
    constructor
    · intro hx
      rcases hx with rfl | hk
      · exact ⟨Or.inr (Or.inl rfl), fun h => hav.1 h.symm, hbv⟩
      · obtain ⟨hkl, hkv⟩ := ih.mp hk
        exact ⟨Or.inr (Or.inr hkl), fun h => hav.2 (h ▸ hk), hkv⟩
    · intro hx
      obtain ⟨rfl | rfl | hkl, hka, hkv⟩ := hx
      · exact absurd rfl hka
      · exact Or.inl rfl
      · exact Or.inr (ih.mpr ⟨hkl, hkv⟩)

theorem skipped_eq_nil_iff : ∀ {l : List κ}, skipped l = [] ↔ l.length ≤ 1
  | [] => by simp [skipped]
  | [_] => by simp [skipped]
  | _ :: _ :: l => by simp [skipped]

end

section
variable {δ κ ο : Type}

structure Indexed (lists : δ → List κ) (index : κ → Option ο) (stale : κ → Prop) : Prop where
  nodup : ∀ d, (lists d).Nodup
  single : ∀ d d' k, k ∈ lists d → k ∈ lists d' → d = d'
  known : ∀ k, index k ≠ none ↔ (∃ d, k ∈ lists d) ∨ stale k
  unlisted : ∀ k, stale k → ∀ d, k ∉ lists d

variable {lists lists' : δ → List κ} {index index' : κ → Option ο} {stale stale' : κ → Prop}

theorem Indexed.forget (h : Indexed lists index stale) (gone : κ → Prop)
    (hnd : ∀ d, (lists' d).Nodup) (hmem : ∀ d k, k ∈ lists' d ↔ k ∈ lists d ∧ ¬ gone k)
    (hgone : ∀ k, gone k → index' k = none) (hkeep : ∀ k, ¬ gone k → index' k = index k)
    (hstale : ∀ k, stale' k ↔ stale k ∧ ¬ gone k) : Indexed lists' index' stale' where
  nodup := hnd
  single d d' k hk hk' := h.single d d' k ((hmem d k).mp hk).1 ((hmem d' k).mp hk').1
  known k := by
    by_cases hg : gone k
    · simp [hgone k hg, hmem, hstale, hg]
    · simp [hkeep k hg, h.known, hmem, hstale, hg]
  unlisted k hk d hkd := h.unlisted k ((hstale k).mp hk).1 d ((hmem d k).mp hkd).1

theorem Indexed.unlisted_of_none (h : Indexed lists index stale) {k : κ} (hk : index k = none) :
    (∀ d, k ∉ lists d) ∧ ¬ stale k :=
  ⟨fun d hd => (h.known k).mpr (Or.inl ⟨d, hd⟩) hk, fun hs => (h.known k).mpr (Or.inr hs) hk⟩

theorem Indexed.put (h : Indexed lists index stale) (d₀ : δ) (k₀ : κ) (hnew : index k₀ = none)
    (hnd : ∀ d, (lists' d).Nodup) (hmem : ∀ d k, k ∈ lists' d ↔ k ∈ lists d ∨ d = d₀ ∧ k = k₀)
    (hput : index' k₀ ≠ none) (hkeep : ∀ k, k ≠ k₀ → index' k = index k) : Indexed lists' index' stale := by
  obtain ⟨hnot, hns⟩ := h.unlisted_of_none hnew
  refine ⟨hnd, fun d d' k hk hk' => ?_, fun k => ?_, fun k hk d hkd => ?_⟩
  · rcases (hmem d k).mp hk with hk | ⟨rfl, rfl⟩
    · rcases (hmem d' k).mp hk' with hk' | ⟨rfl, rfl⟩
      · exact h.single d d' k hk hk'
      · exact absurd hk (hnot d)
    · rcases (hmem d' k).mp hk' with hk' | ⟨rfl, _⟩
      · exact absurd hk' (hnot d')
      · rfl
  · by_cases hk : k = k₀
    · subst hk
      exact ⟨fun _ => Or.inl ⟨d₀, (hmem d₀ k).mpr (Or.inr ⟨rfl, rfl⟩)⟩, fun _ => hput⟩
    · simp [hkeep k hk, h.known, hmem, hk]
  · rcases (hmem d k).mp hkd with hkd | ⟨_, rfl⟩
    · exact h.unlisted k hk d hkd
    · exact hns hk

theorem Indexed.drop [DecidableEq δ] (h : Indexed lists index stale) (d₀ : δ)
    (hlists : ∀ d, lists' d = if d = d₀ then [] else lists d) (hstale : ∀ k, stale' k ↔ stale k ∨ k ∈ lists d₀) :
    Indexed lists' index stale' := by
  have hmem : ∀ d k, k ∈ lists' d ↔ d ≠ d₀ ∧ k ∈ lists d := fun d k => by
    rw [hlists]
    by_cases hd : d = d₀ <;> simp [hd]
  refine ⟨fun d => ?_, fun d d' k hk hk' => ?_, fun k => ?_, fun k hk d hkd => ?_⟩
  · rw [hlists]
    split
    · exact List.nodup_nil
    · exact h.nodup d
  · exact h.single d d' k ((hmem d k).mp hk).2 ((hmem d' k).mp hk').2
  · rw [h.known, hstale]
    constructor
    · intro hx
      rcases hx with ⟨d, hd⟩ | hs
      · by_cases hd₀ : d = d₀
        · exact Or.inr (Or.inr (hd₀ ▸ hd))
        · exact Or.inl ⟨d, (hmem d k).mpr ⟨hd₀, hd⟩⟩
      · exact Or.inr (Or.inl hs)
    · intro hx
      rcases hx with ⟨d, hd⟩ | hs | hd
      · exact Or.inl ⟨d, ((hmem d k).mp hd).2⟩
      · exact Or.inr hs
      · exact Or.inl ⟨d₀, hd⟩
  · obtain ⟨hne, hkd⟩ := (hmem d k).mp hkd
    rcases (hstale k).mp hk with hs | hk₀
    · exact h.unlisted k hs d hkd
    · exact hne (h.single d d₀ k hkd hk₀)

theorem Indexed.existsUnique (h : Indexed lists index fun _ => False) (k : κ) :
    index k ≠ none ↔ ∃! d, k ∈ lists d := by
  rw [h.known, or_false]
  exact ⟨fun ⟨d, hd⟩ => ⟨d, hd, fun d' hd' => h.single d' d k hd' hd⟩, fun ⟨d, hd, _⟩ => ⟨d, hd⟩⟩

end

end Index
