import Mathlib.Data.List.Basic
import Mathlib.Data.List.Induction

/-!
# Runs of a state machine

A run is a list of messages; `Allowed` asks a condition of each message in the
state it arrives in.
-/

namespace Runs

variable {σ μ : Type} {step : σ → μ → σ} {ok : σ → μ → Prop}

def Allowed (step : σ → μ → σ) (ok : σ → μ → Prop) : σ → List μ → Prop
  | _, [] => True
  | s, m :: ms => ok s m ∧ Allowed step ok (step s m) ms

instance Allowed.decidable [∀ s m, Decidable (ok s m)] : ∀ (s : σ) (ms : List μ), Decidable (Allowed step ok s ms)
  | _, [] => isTrue trivial
  | s, m :: ms => @instDecidableAnd _ _ _ (Allowed.decidable (step s m) ms)

theorem allowed_append : ∀ {ms ms' : List μ} {s : σ},
    Allowed step ok s (ms ++ ms') ↔ Allowed step ok s ms ∧ Allowed step ok (ms.foldl step s) ms'
  | [], _, _ => ⟨fun h => ⟨trivial, h⟩, And.right⟩
  | m :: ms, ms', s => by
    have ih : Allowed step ok (step s m) (ms ++ ms') ↔ _ := allowed_append
    show ok s m ∧ Allowed step ok (step s m) (ms ++ ms') ↔
      (ok s m ∧ Allowed step ok (step s m) ms) ∧ Allowed step ok (ms.foldl step (step s m)) ms'
    rw [ih, and_assoc]

theorem snoc_split {ms before after : List μ} {m m' : μ} (h : ms ++ [m] = before ++ m' :: after) :
    (ms = before ∧ m = m' ∧ after = []) ∨ ∃ after', after = after' ++ [m] ∧ ms = before ++ m' :: after' := by
  rcases List.eq_nil_or_concat after with rfl | ⟨after', last, rfl⟩
  · obtain ⟨hms, hm⟩ := List.append_inj' h rfl
    exact Or.inl ⟨hms, (List.cons.inj hm).1, rfl⟩
  · rw [List.concat_eq_append, ← List.cons_append, ← List.append_assoc] at h
    obtain ⟨hms, hm⟩ := List.append_inj' h rfl
    refine Or.inr ⟨after', ?_, hms⟩
    rw [List.concat_eq_append, hm]

theorem Allowed.invariant (I : σ → Prop) (hstep : ∀ s m, I s → ok s m → I (step s m)) :
    ∀ {ms : List μ} {s : σ}, I s → Allowed step ok s ms → I (ms.foldl step s)
  | [], _, hs, _ => hs
  | m :: ms, s, hs, h => by
    rw [List.foldl_cons]
    exact Allowed.invariant I hstep (hstep s m hs h.1) h.2

theorem allowed_iff_before : ∀ {ms : List μ} {s : σ},
    Allowed step ok s ms ↔ ∀ before m, before ++ [m] <+: ms → ok (before.foldl step s) m
  | [], s => by
    refine ⟨fun _ before m hpre => ?_, fun _ => trivial⟩
    cases List.append_eq_nil_iff.mp (List.prefix_nil.mp hpre) with
    | intro _ hm => cases hm
  | m :: ms, s => by
    constructor
    · intro h before m' hpre
      cases before with
      | nil =>
        cases (List.cons_prefix_cons.mp hpre).1
        exact h.1
      | cons b before =>
        obtain ⟨rfl, hrest⟩ := List.cons_prefix_cons.mp hpre
        exact allowed_iff_before.mp h.2 before m' hrest
    · intro h
      refine ⟨h [] m (List.cons_prefix_cons.mpr ⟨rfl, List.nil_prefix⟩), allowed_iff_before.mpr fun before m' hpre => ?_⟩
      exact h (m :: before) m' (List.cons_prefix_cons.mpr ⟨rfl, hpre⟩)

/-- A condition that is exactly what one step needs is exactly what a run needs. -/
theorem allowed_iff_invariant (I : σ → Prop) (hstep : ∀ s m, I s → (I (step s m) ↔ ok s m)) :
    ∀ {ms : List μ} {s : σ}, I s → (Allowed step ok s ms ↔ ∀ ms', ms' <+: ms → I (ms'.foldl step s))
  | [], s, hs => by
    refine ⟨fun _ ms' hpre => ?_, fun _ => trivial⟩
    rw [List.prefix_nil.mp hpre]
    exact hs
  | m :: ms, s, hs => by
    constructor
    · intro h ms' hpre
      rcases List.prefix_cons_iff.mp hpre with rfl | ⟨ms'', rfl, hpre'⟩
      · exact hs
      · exact (allowed_iff_invariant I hstep ((hstep s m hs).mpr h.1)).mp h.2 ms'' hpre'
    · intro h
      have hnext : I (step s m) := h [m] ⟨ms, rfl⟩
      refine ⟨(hstep s m hs).mp hnext, (allowed_iff_invariant I hstep hnext).mpr fun ms' hpre => ?_⟩
      exact h (m :: ms') (List.cons_prefix_cons.mpr ⟨rfl, hpre⟩)

/-- A machine that is followed by another one, as long as its steps are `good`:
they all are exactly when the other one allows the run. -/
theorem good_iff_allowed {τ : Type} {step' : τ → μ → τ} {ok' : τ → μ → Prop} (I : σ → τ → Prop)
    (good : σ → τ → μ → Prop) (hiff : ∀ s t m, I s t → (good s t m ↔ ok' t m))
    (hstep : ∀ s t m, I s t → good s t m → I (step s m) (step' t m)) :
    ∀ {ms : List μ} {s : σ} {t : τ}, I s t →
      ((∀ before m, before ++ [m] <+: ms → good (before.foldl step s) (before.foldl step' t) m) ↔
        Allowed step' ok' t ms)
  | [], s, t, _ => by
    refine ⟨fun _ => trivial, fun _ before m hpre => ?_⟩
    exact absurd (List.prefix_nil.mp hpre) (List.append_ne_nil_of_right_ne_nil before (List.cons_ne_nil m []))
  | m :: ms, s, t, hI => by
    constructor
    · intro h
      have hgood : good s t m := h [] m (List.cons_prefix_cons.mpr ⟨rfl, List.nil_prefix⟩)
      refine ⟨(hiff s t m hI).mp hgood, (good_iff_allowed I good hiff hstep (hstep s t m hI hgood)).mp ?_⟩
      exact fun before m' hpre => h (m :: before) m' (List.cons_prefix_cons.mpr ⟨rfl, hpre⟩)
    · intro h before m' hpre
      have hgood : good s t m := (hiff s t m hI).mpr h.1
      cases before with
      | nil =>
        cases (List.cons_prefix_cons.mp hpre).1
        exact hgood
      | cons b before =>
        obtain ⟨rfl, hrest⟩ := List.cons_prefix_cons.mp hpre
        exact (good_iff_allowed I good hiff hstep (hstep s t b hI hgood)).mpr h.2 before m' hrest

/-! ## The last message that sets a value -/

/-- Of the messages with a property there is a last one. -/
theorem exists_last {p : μ → Prop} : ∀ {ms : List μ}, (∃ m ∈ ms, p m) →
    ∃ before m after, ms = before ++ m :: after ∧ p m ∧ ∀ m' ∈ after, ¬ p m'
  | [], h => by
    obtain ⟨_, hm, _⟩ := h
    cases hm
  | m :: ms, h => by
    by_cases hrest : ∃ m' ∈ ms, p m'
    · obtain ⟨before, m', after, rfl, hm', hafter⟩ := exists_last hrest
      exact ⟨m :: before, m', after, rfl, hm', hafter⟩
    · obtain ⟨m', hm', hp⟩ := h
      rcases List.mem_cons.mp hm' with rfl | hin
      · exact ⟨[], m', ms, rfl, hp, fun m'' hm'' hp'' => hrest ⟨m'', hm'', hp''⟩⟩
      · exact absurd ⟨m', hin, hp⟩ hrest

section
variable {α : Type} {sets : μ → α → Prop} {touches : μ → Prop}

/-- A message of the run sets `x`, and nothing touches it afterwards. -/
def LastSet (sets : μ → α → Prop) (touches : μ → Prop) (ms : List μ) (x : α) : Prop :=
  ∃ before m after, ms = before ++ m :: after ∧ sets m x ∧ ∀ m' ∈ after, ¬ touches m'

theorem not_lastSet_nil (x : α) : ¬ LastSet sets touches [] x := by
  intro h
  obtain ⟨before, m, after, hms, _⟩ := h
  exact List.append_ne_nil_of_right_ne_nil before (List.cons_ne_nil m after) hms.symm

theorem lastSet_snoc {ms : List μ} {m : μ} {x : α} :
    LastSet sets touches (ms ++ [m]) x ↔ sets m x ∨ ¬ touches m ∧ LastSet sets touches ms x := by
  constructor
  · intro h
    obtain ⟨before, m', after, hms, hset, hrest⟩ := h
    rcases snoc_split hms with ⟨rfl, rfl, rfl⟩ | ⟨after', rfl, rfl⟩
    · exact Or.inl hset
    · have hm := hrest m (List.mem_append_right _ (List.mem_singleton_self m))
      exact Or.inr ⟨hm, before, m', after', rfl, hset, fun m'' hm'' => hrest m'' (List.mem_append_left _ hm'')⟩
  · intro h
    rcases h with hset | ⟨hm, before, m', after, rfl, hset, hrest⟩
    · exact ⟨ms, m, [], rfl, hset, fun _ hm' => absurd hm' List.not_mem_nil⟩
    · refine ⟨before, m', after ++ [m], by rw [List.append_assoc, List.cons_append], hset, fun m'' hm'' => ?_⟩
      rcases List.mem_append.mp hm'' with hin | hin
      · exact hrest m'' hin
      · rw [List.mem_singleton.mp hin]
        exact hm

/-- A value that only the messages that touch it change has been set by the last
of them. `I` is what the steps need of the state, `ok` of the message. -/
theorem lastSet_run {s₀ : σ} (I : σ → Prop) (ok : μ → Prop) (read : σ → Option α) (hI : I s₀) (hread : read s₀ = none)
    (hstep : ∀ s m, ok m → I s → I (step s m))
    (hkeep : ∀ s m, ok m → I s → ¬ touches m → read (step s m) = read s) (hsets : ∀ m x, sets m x → touches m)
    (hset : ∀ s m, ok m → I s → touches m → (∀ x, read (step s m) = some x → sets m x) ∧
      ∀ x, sets m x → (read (step s m)).isSome = true) {ms : List μ} (hms : ∀ m ∈ ms, ok m) :
    (∀ x, read (ms.foldl step s₀) = some x → LastSet sets touches ms x) ∧
      ∀ x, LastSet sets touches ms x → (read (ms.foldl step s₀)).isSome = true := by
  induction ms using List.reverseRecOn with
  | nil =>
    refine ⟨fun x hx => ?_, fun x hx => absurd hx (not_lastSet_nil x)⟩
    rw [List.foldl_nil, hread] at hx
    cases hx
  | append_singleton ms m ih =>
    obtain ⟨hms, hm⟩ := List.forall_mem_append.mp hms
    have hok : ok m := hm m (List.mem_singleton_self m)
    have hbefore : I (ms.foldl step s₀) := List.foldlRecOn ms step hI fun s hs m hin => hstep s m (hms m hin) hs
    obtain ⟨hfound, hkept⟩ := ih hms
    rw [List.foldl_append, List.foldl_cons, List.foldl_nil]
    by_cases htouch : touches m
    · obtain ⟨hfound', hkept'⟩ := hset _ m hok hbefore htouch
      refine ⟨fun x hx => lastSet_snoc.mpr (Or.inl (hfound' x hx)), fun x hx => ?_⟩
      rcases lastSet_snoc.mp hx with hm | ⟨hnot, _⟩
      · exact hkept' x hm
      · exact absurd htouch hnot
    · rw [hkeep _ m hok hbefore htouch]
      refine ⟨fun x hx => lastSet_snoc.mpr (Or.inr ⟨htouch, hfound x hx⟩), fun x hx => ?_⟩
      rcases lastSet_snoc.mp hx with hm | ⟨_, hlast⟩
      · exact absurd (hsets m x hm) htouch
      · exact hkept x hlast

end

end Runs
