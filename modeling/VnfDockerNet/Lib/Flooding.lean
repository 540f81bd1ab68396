import Mathlib.Algebra.BigOperators.Ring.List
import Mathlib.Algebra.Order.BigOperators.Group.List
import Mathlib.Algebra.Order.Ring.Nat
import Mathlib.Data.List.Nodup
import Mathlib.Data.List.Count
import Mathlib.Logic.Function.Basic
import Mathlib.Logic.Relation

/-!
# Flooding over learnt ports

The nodes of a network learn the port at which the first frame of a source came
in, send a frame that comes in there out of all their ports, and drop what comes
in elsewhere. Frames in flight arrive in any order.
-/

namespace Flooding

structure Topology (V P : Type) where
  ports : V → List P
  peer : V × P → Option (V × P)
  /-- The port that the source is at. -/
  source : V × P
  nodup : ∀ v, (ports v).Nodup
  symm : ∀ a b, peer a = some b → peer b = some a
  mem : ∀ a b, peer a = some b → a.2 ∈ ports a.1
  free : peer source = none

structure State (V P F : Type) where
  learned : V → Option P
  inflight : List ((V × P) × F)
  flooded : V → List F
  entered : List F
  /-- How many frames have come in at nodes. -/
  arrived : Nat

variable {V P F : Type} [DecidableEq V] [DecidableEq P] [DecidableEq F]
variable {T : Topology V P} {s : State V P F} {v w : V} {p q : P} {f g : F}

def Topology.copies (T : Topology V P) (v : V) (f : F) : List ((V × P) × F) :=
  (T.ports v).filterMap fun p => (T.peer (v, p)).map fun b => (b, f)

def State.enter (T : Topology V P) (s : State V P F) (f : F) : State V P F :=
  { s with inflight := s.inflight ++ [(T.source, f)], entered := s.entered ++ [f] }

/-- The frames without one of these. -/
def without (frames : List ((V × P) × F)) (x : (V × P) × F) : List ((V × P) × F) := frames.erase x

theorem mem_of_mem_without {frames : List ((V × P) × F)} {x y : (V × P) × F} (h : y ∈ without frames x) : y ∈ frames :=
  List.mem_of_mem_erase h

def State.accept (T : Topology V P) (s : State V P F) (v : V) (p : P) (f : F) : State V P F :=
  { s with
    learned := Function.update s.learned v (some p)
    inflight := without s.inflight ((v, p), f) ++ T.copies v f
    flooded := Function.update s.flooded v (s.flooded v ++ [f])
    arrived := s.arrived + 1 }

def State.drop (s : State V P F) (v : V) (p : P) (f : F) : State V P F :=
  { s with inflight := without s.inflight ((v, p), f), arrived := s.arrived + 1 }

inductive Step (T : Topology V P) : State V P F → State V P F → Prop where
  | enter {s : State V P F} {f : F} : Step T s (s.enter T f)
  | learn {s : State V P F} {v : V} {p : P} {f : F} (hf : ((v, p), f) ∈ s.inflight) (hnew : s.learned v = none) :
      Step T s (s.accept T v p f)
  | forward {s : State V P F} {v : V} {p : P} {f : F} (hf : ((v, p), f) ∈ s.inflight) (hport : s.learned v = some p) :
      Step T s (s.accept T v p f)
  | drop {s : State V P F} {v : V} {p q : P} {f : F} (hf : ((v, p), f) ∈ s.inflight) (hport : s.learned v = some q) (hne : q ≠ p) :
      Step T s (s.drop v p f)

def init : State V P F := ⟨fun _ => none, [], fun _ => [], [], 0⟩

/-! ## Copies -/

theorem count_copies {b : V × P} : (T.copies v f).count (b, g) = if g = f ∧ (T.peer b).map Prod.fst = some v then 1 else 0 := by
  have hiff : ∀ p, (T.peer (v, p)).map (fun b => (b, f)) = some (b, g) ↔ g = f ∧ T.peer b = some (v, p) := by
    intro p
    rw [Option.map_eq_some_iff]
    constructor
    · rintro ⟨a, ha, heq⟩
      cases heq
      exact ⟨rfl, T.symm _ _ ha⟩
    · rintro ⟨rfl, hb⟩
      exact ⟨b, T.symm _ _ hb, rfl⟩
  unfold Topology.copies
  rw [List.count_filterMap]
  by_cases hg : g = f ∧ (T.peer b).map Prod.fst = some v
  · rw [if_pos hg]
    obtain ⟨hgf, hpeer⟩ := hg
    obtain ⟨a, ha, hv⟩ := Option.map_eq_some_iff.mp hpeer
    obtain ⟨v', p⟩ := a
    cases hv
    have hcount : (T.ports v').count p = 1 := List.count_eq_one_of_mem (T.nodup v') (T.mem _ _ (T.symm _ _ ha))
    rw [← hcount, List.count_eq_countP]
    refine List.countP_congr fun p' _ => ?_
    rw [beq_iff_eq, beq_iff_eq, hiff, ha]
    constructor
    · rintro ⟨-, heq⟩
      cases heq
      rfl
    · rintro rfl
      exact ⟨hgf, rfl⟩
  · rw [if_neg hg, List.countP_eq_zero]
    intro p _ hp
    rw [beq_iff_eq, hiff] at hp
    exact hg ⟨hp.1, by rw [hp.2, Option.map_some]⟩

omit [DecidableEq V] [DecidableEq P] [DecidableEq F] in
theorem length_copies_le : (T.copies v f).length ≤ (T.ports v).length := List.length_filterMap_le _ _

/-! ## What a port has been supplied with -/

def State.supply (T : Topology V P) (s : State V P F) (b : V × P) (f : F) : Nat :=
  if b = T.source then s.entered.count f
  else match T.peer b with
    | none => 0
    | some a => (s.flooded a.1).count f

theorem supply_enter {b : V × P} :
    (s.enter T f).supply T b g = s.supply T b g + if b = T.source ∧ g = f then 1 else 0 := by
  unfold State.supply State.enter
  by_cases hb : b = T.source
  · rw [if_pos hb, if_pos hb, List.count_append, List.count_singleton]
    by_cases hg : g = f
    · simp [hb, hg]
    · simp [hg, Ne.symm hg]
  · rw [if_neg hb, if_neg hb, if_neg fun h => hb h.1]
    rfl

theorem supply_accept {b : V × P} :
    (s.accept T v p f).supply T b g = s.supply T b g + if g = f ∧ (T.peer b).map Prod.fst = some v then 1 else 0 := by
  unfold State.supply State.accept
  by_cases hb : b = T.source
  · rw [if_pos hb, if_pos hb, hb, T.free]
    simp
  · rw [if_neg hb, if_neg hb]
    cases hpeer : T.peer b with
    | none => simp
    | some a =>
      simp only [Option.map_some, Option.some.injEq]
      by_cases ha : a.1 = v
      · subst ha
        rw [Function.update_self, List.count_append, List.count_singleton]
        by_cases hg : g = f
        · simp [hg]
        · simp [hg, Ne.symm hg]
      · rw [Function.update_of_ne ha, if_neg fun h => ha h.2]
        rfl

/-! ## The invariant -/

/-- The port of a node leads to the source over ports of others. -/
inductive Rooted (T : Topology V P) (learned : V → Option P) : V → Prop where
  | source {v : V} {p : P} (hport : learned v = some p) (hsrc : (v, p) = T.source) : Rooted T learned v
  | step {v w : V} {p q : P} (hport : learned v = some p) (hpeer : T.peer (v, p) = some (w, q)) (hw : Rooted T learned w) : Rooted T learned v

/-- Where a node has its port, what came in there it has flooded, and the rest is in flight. -/
structure Inv (T : Topology V P) (s : State V P F) : Prop where
  balance : ∀ v p f, s.learned v = none ∨ s.learned v = some p →
    (s.flooded v).count f + s.inflight.count ((v, p), f) = s.supply T (v, p) f
  fresh : ∀ v, s.learned v = none → s.flooded v = []
  rooted : ∀ v p, s.learned v = some p → Rooted T s.learned v

theorem inv_init : Inv T (init : State V P F) := by
  refine ⟨fun v p f _ => ?_, fun _ _ => rfl, fun v p h => by cases h⟩
  unfold State.supply init
  split
  · rfl
  · split <;> rfl

omit [DecidableEq V] [DecidableEq P] in
theorem Rooted.mono {learned learned' : V → Option P} (hle : ∀ v p, learned v = some p → learned' v = some p)
    (h : Rooted T learned v) : Rooted T learned' v := by
  induction h with
  | source hport hsrc => exact .source (hle _ _ hport) hsrc
  | step hport hpeer _ ih => exact .step (hle _ _ hport) hpeer ih

theorem Inv.enter (h : Inv T s) (f : F) : Inv T (s.enter T f) := by
  refine ⟨fun v p g hl => ?_, h.fresh, h.rooted⟩
  have hbal := h.balance v p g hl
  rw [supply_enter, ← hbal]
  show (s.flooded v).count g + (s.inflight ++ [(T.source, f)]).count ((v, p), g) = _
  rw [List.count_append, List.count_singleton, Nat.add_assoc]
  congr 2
  by_cases hg : g = f
  · by_cases hb : (v, p) = T.source
    · simp [hb, hg]
    · simp [hb, hg, Ne.symm hb]
  · simp [hg, Ne.symm hg]

theorem Inv.accept (h : Inv T s) (hf : ((v, p), f) ∈ s.inflight) (hl : s.learned v = none ∨ s.learned v = some p) :
    Inv T (s.accept T v p f) := by
  have hle : ∀ w q, s.learned w = some q → Function.update s.learned v (some p) w = some q := by
    intro w q hw
    by_cases hwv : w = v
    · subst hwv
      rw [Function.update_self]
      rcases hl with hl | hl
      · rw [hl] at hw
        cases hw
      · exact hl.symm.trans hw
    · rw [Function.update_of_ne hwv]
      exact hw
  have hpos : 0 < s.inflight.count ((v, p), f) := List.count_pos_iff.mpr hf
  refine ⟨fun w q g hw => ?_, fun w hw => ?_, fun w q hw => ?_⟩
  · rw [supply_accept]
    show (Function.update s.flooded v (s.flooded v ++ [f]) w).count g + (s.inflight.erase ((v, p), f) ++ T.copies v f).count ((w, q), g) = _
    have hw₀ : s.learned w = none ∨ s.learned w = some q := by
      by_cases hwv : w = v
      · subst hwv
        have hw' : Function.update s.learned w (some p) w = none ∨ Function.update s.learned w (some p) w = some q := hw
        rw [Function.update_self] at hw'
        rcases hw' with hw' | hw'
        · cases hw'
        · rwa [← hw']
      · have hsame : (s.accept T v p f).learned w = s.learned w := Function.update_of_ne hwv _ _
        rwa [hsame] at hw
    rw [List.count_append, count_copies, ← Nat.add_assoc]
    congr 1
    rw [List.count_erase]
    by_cases hwv : w = v
    · subst hwv
      have hq : q = p := by
        rcases hw with hw | hw
        · have hw' : Function.update s.learned w (some p) w = none := hw
          rw [Function.update_self] at hw'
          cases hw'
        · have hw' : Function.update s.learned w (some p) w = some q := hw
          rw [Function.update_self] at hw'
          exact (Option.some.inj hw').symm
      subst hq
      have hbal := h.balance w q g hl
      rw [Function.update_self, List.count_append, List.count_singleton]
      by_cases hg : f = g
      · subst hg
        simp only [beq_self_eq_true, if_true]
        omega
      · simp [hg, hbal]
    · have hne : ¬ v = w := fun heq => hwv heq.symm
      rw [Function.update_of_ne hwv]
      simp [hne, h.balance w q g hw₀]
  · have hwv : w ≠ v := by
      rintro rfl
      have hw' : Function.update s.learned w (some p) w = none := hw
      rw [Function.update_self] at hw'
      cases hw'
    have hw' : s.learned w = none := by
      rw [← hw]
      exact (Function.update_of_ne hwv _ _).symm
    show Function.update s.flooded v _ w = []
    rw [Function.update_of_ne hwv]
    exact h.fresh w hw'
  · show Rooted T (Function.update s.learned v (some p)) w
    by_cases hwv : w = v
    · subst hwv
      rcases hl with hl | hl
      · -- the node learns; what it got came from the source or from a node that has learnt
        have hbal := h.balance w p f (Or.inl hl)
        rw [h.fresh w hl] at hbal
        have hsupply : 0 < s.supply T (w, p) f := by
          rw [← hbal]
          simpa using hpos
        unfold State.supply at hsupply
        split at hsupply
        · rename_i hsrc
          exact .source (Function.update_self ..) hsrc
        · split at hsupply
          · exact absurd hsupply (Nat.lt_irrefl 0)
          · rename_i a ha
            have hlearned : s.learned a.1 ≠ none := by
              intro hnone
              rw [h.fresh _ hnone] at hsupply
              exact absurd hsupply (Nat.lt_irrefl 0)
            obtain ⟨p', hp'⟩ := Option.ne_none_iff_exists'.mp hlearned
            exact .step (Function.update_self ..) ha ((h.rooted _ _ hp').mono hle)
      · exact (h.rooted _ _ hl).mono hle
    · have hw' : s.learned w = some q := by
        rw [← hw]
        exact (Function.update_of_ne hwv _ _).symm
      exact (h.rooted _ _ hw').mono hle

theorem Inv.drop (h : Inv T s) (hport : s.learned v = some q) (hne : q ≠ p) : Inv T (s.drop v p f) := by
  refine ⟨fun w r g hw => ?_, h.fresh, h.rooted⟩
  have hbal := h.balance w r g hw
  show (s.flooded w).count g + (s.inflight.erase ((v, p), f)).count ((w, r), g) = s.supply T (w, r) g
  rw [List.count_erase_of_ne]
  · exact hbal
  · rintro heq
    cases heq
    rcases hw with hw | hw
    · rw [show s.learned v = none from hw] at hport
      cases hport
    · rw [show s.learned v = some p from hw] at hport
      exact hne (Option.some.inj hport).symm

theorem Inv.step {s' : State V P F} (h : Inv T s) (hs : Step T s s') : Inv T s' := by
  cases hs with
  | enter => exact h.enter _
  | learn hf hnew => exact h.accept hf (Or.inl hnew)
  | forward hf hport => exact h.accept hf (Or.inr hport)
  | drop hf hport hne => exact h.drop hport hne

/-! ## What follows from it -/

theorem Rooted.count_flooded_le (h : Inv T s) (hv : Rooted T s.learned v) : (s.flooded v).count f ≤ s.entered.count f := by
  induction hv with
  | @source v p hport hsrc =>
    have hbal := h.balance v p f (Or.inr hport)
    rw [State.supply, if_pos hsrc] at hbal
    omega
  | @step v w p q hport hpeer _ ih =>
    have hbal := h.balance v p f (Or.inr hport)
    have hsrc : (v, p) ≠ T.source := by
      intro hsrc
      rw [hsrc, T.free] at hpeer
      cases hpeer
    rw [State.supply, if_neg hsrc, hpeer] at hbal
    simp only at hbal
    omega

theorem Inv.count_flooded_le (h : Inv T s) (v : V) (f : F) : (s.flooded v).count f ≤ s.entered.count f := by
  cases hv : s.learned v with
  | none => simp [h.fresh v hv]
  | some p => exact (h.rooted v p hv).count_flooded_le h

theorem Inv.flooded_subperm (h : Inv T s) (v : V) : (s.flooded v).Subperm s.entered :=
  List.subperm_ext_iff.mpr fun f _ => h.count_flooded_le v f

/-- With nothing in flight a node has flooded what the source sent. -/
theorem Rooted.count_flooded (h : Inv T s) (hquiet : s.inflight = []) (hv : Rooted T s.learned v) :
    (s.flooded v).count f = s.entered.count f := by
  have hbal : ∀ v p, s.learned v = none ∨ s.learned v = some p → (s.flooded v).count f = s.supply T (v, p) f := by
    intro v p hl
    have hbal := h.balance v p f hl
    rwa [hquiet, List.count_nil, Nat.add_zero] at hbal
  induction hv with
  | @source v p hport hsrc => rw [hbal v p (Or.inr hport), State.supply, if_pos hsrc]
  | @step v w p q hport hpeer _ ih =>
    have hsrc : (v, p) ≠ T.source := by
      intro hsrc
      rw [hsrc, T.free] at hpeer
      cases hpeer
    rw [hbal v p (Or.inr hport), State.supply, if_neg hsrc, hpeer]
    exact ih

def Topology.Adjacent (T : Topology V P) (v w : V) : Prop := ∃ p q, T.peer (v, p) = some (w, q)

theorem Inv.learned_of_adjacent (h : Inv T s) (hquiet : s.inflight = []) (hf : f ∈ s.entered) (hadj : T.Adjacent v w)
    (hv : s.learned v ≠ none) : s.learned w ≠ none := by
  obtain ⟨p, q, hpeer⟩ := hadj
  obtain ⟨p', hp'⟩ := Option.ne_none_iff_exists'.mp hv
  have hcount : (s.flooded v).count f = s.entered.count f := (h.rooted v p' hp').count_flooded h hquiet
  intro hw
  have hbal := h.balance w q f (Or.inl hw)
  have hback := T.symm _ _ hpeer
  have hsrc : (w, q) ≠ T.source := by
    intro hsrc
    rw [hsrc, T.free] at hback
    cases hback
  rw [State.supply, if_neg hsrc, hback, h.fresh w hw, hquiet] at hbal
  have hpos : 0 < s.entered.count f := List.count_pos_iff.mpr hf
  simp only [List.count_nil] at hbal
  omega

theorem Inv.learned_of_reachable (h : Inv T s) (hquiet : s.inflight = []) (hf : f ∈ s.entered)
    (hv : Relation.ReflTransGen T.Adjacent T.source.1 v) : s.learned v ≠ none := by
  induction hv with
  | refl =>
    intro hnone
    have hbal := h.balance T.source.1 T.source.2 f (Or.inl hnone)
    have hpos : 0 < s.entered.count f := List.count_pos_iff.mpr hf
    rw [State.supply, if_pos rfl, h.fresh _ hnone, hquiet] at hbal
    simp only [List.count_nil] at hbal
    omega
  | tail _ hadj ih => exact h.learned_of_adjacent hquiet hf hadj ih

/-- Each node that the source can reach has flooded what the source sent, each frame once. -/
theorem Inv.complete (h : Inv T s) (hquiet : s.inflight = []) (hv : Relation.ReflTransGen T.Adjacent T.source.1 v) :
    (s.flooded v).Perm s.entered := by
  refine List.perm_iff_count.mpr fun f => ?_
  by_cases hne : s.entered = []
  · have hle := h.count_flooded_le v f
    rw [hne] at hle ⊢
    exact Nat.le_zero.mp hle
  · obtain ⟨g, hg⟩ := List.exists_mem_of_ne_nil _ hne
    obtain ⟨p, hp⟩ := Option.ne_none_iff_exists'.mp (h.learned_of_reachable hquiet hg hv)
    exact (h.rooted v p hp).count_flooded h hquiet

/-! ## How much there is to do -/

/-- The floods at these nodes, each counted with the ports it goes out of. -/
def State.work (T : Topology V P) (s : State V P F) (nodes : List V) : Nat :=
  (nodes.map fun v => (s.flooded v).length * (T.ports v).length).sum

theorem sum_map_update_le {nodes : List V} {a b : V → Nat} {n : Nat} (hv : v ∈ nodes) (h : ∀ w ∈ nodes, a w ≤ b w) (hn : a v + n ≤ b v) :
    (nodes.map a).sum + n ≤ (nodes.map b).sum := by
  induction nodes with
  | nil => cases hv
  | cons w nodes ih =>
    rw [List.forall_mem_cons] at h
    simp only [List.map_cons, List.sum_cons]
    have hrest := List.sum_le_sum (f := a) (g := b) h.2
    by_cases hw : v ∈ nodes
    · have := ih hw h.2
      omega
    · have hvw : v = w := (List.mem_cons.mp hv).resolve_right hw
      subst hvw
      omega

theorem work_accept {nodes : List V} (hv : v ∈ nodes) :
    s.work T nodes + (T.ports v).length ≤ (s.accept T v p f).work T nodes := by
  have hself : (s.accept T v p f).flooded v = s.flooded v ++ [f] := Function.update_self ..
  refine sum_map_update_le hv (fun w _ => ?_) ?_
  · by_cases hw : w = v
    · subst hw
      rw [hself, List.length_append]
      exact Nat.mul_le_mul_right _ (Nat.le_add_right _ _)
    · have hsame : (s.accept T v p f).flooded w = s.flooded w := Function.update_of_ne hw _ _
      rw [hsame]
  · rw [hself, List.length_append, List.length_singleton, Nat.add_mul, Nat.one_mul]

theorem Inv.work_le (h : Inv T s) (nodes : List V) :
    s.work T nodes ≤ s.entered.length * (nodes.map fun v => (T.ports v).length).sum := by
  rw [← List.sum_map_mul_left]
  exact List.sum_le_sum fun v _ => Nat.mul_le_mul_right _ (h.flooded_subperm v).length_le

structure Spent (T : Topology V P) (nodes : List V) (s : State V P F) : Prop where
  inside : ∀ x ∈ s.inflight, x.1.1 ∈ nodes
  spent : s.arrived + s.inflight.length ≤ s.entered.length + s.work T nodes

omit [DecidableEq V] [DecidableEq P] [DecidableEq F] in
theorem Spent.enter {nodes : List V} (h : Spent T nodes s) (hsource : T.source.1 ∈ nodes) : Spent T nodes (s.enter T f) := by
  have hspent := h.spent
  refine ⟨fun x hx => ?_, ?_⟩
  · rcases List.mem_append.mp hx with hx | hx
    · exact h.inside x hx
    · rw [List.mem_singleton.mp hx]
      exact hsource
  · show s.arrived + (s.inflight ++ [(T.source, f)]).length ≤ (s.entered ++ [f]).length + s.work T nodes
    rw [List.length_append, List.length_append, List.length_singleton, List.length_singleton]
    omega

theorem Spent.accept {nodes : List V} (h : Spent T nodes s) (hf : ((v, p), f) ∈ s.inflight)
    (hpeers : ∀ a b, T.peer a = some b → b.1 ∈ nodes) : Spent T nodes (s.accept T v p f) := by
  refine ⟨fun x hx => ?_, ?_⟩
  · rcases List.mem_append.mp hx with hx | hx
    · exact h.inside x (mem_of_mem_without hx)
    · obtain ⟨p', -, hp'⟩ := List.mem_filterMap.mp hx
      obtain ⟨b, hb, rfl⟩ := Option.map_eq_some_iff.mp hp'
      exact hpeers _ _ hb
  · have hspent := h.spent
    have hwork : s.work T nodes + (T.ports v).length ≤ (s.accept T v p f).work T nodes := work_accept (h.inside _ hf)
    have hcopies : (T.copies v f).length ≤ (T.ports v).length := length_copies_le
    have hpos : 0 < s.inflight.length := List.length_pos_of_mem hf
    show s.arrived + 1 + (s.inflight.erase ((v, p), f) ++ T.copies v f).length ≤ s.entered.length + _
    rw [List.length_append, List.length_erase_of_mem hf]
    omega

theorem Spent.drop {nodes : List V} (h : Spent T nodes s) (hf : ((v, p), f) ∈ s.inflight) : Spent T nodes (s.drop v p f) := by
  refine ⟨fun x hx => h.inside x (mem_of_mem_without hx), ?_⟩
  have hspent := h.spent
  have hpos : 0 < s.inflight.length := List.length_pos_of_mem hf
  show s.arrived + 1 + (s.inflight.erase ((v, p), f)).length ≤ s.entered.length + s.work T nodes
  rw [List.length_erase_of_mem hf]
  omega

theorem Spent.step {nodes : List V} {s' : State V P F} (h : Spent T nodes s) (hs : Step T s s') (hsource : T.source.1 ∈ nodes)
    (hpeers : ∀ a b, T.peer a = some b → b.1 ∈ nodes) : Spent T nodes s' := by
  cases hs with
  | enter => exact h.enter hsource
  | learn hf => exact h.accept hf hpeers
  | forward hf => exact h.accept hf hpeers
  | drop hf => exact h.drop hf

omit [DecidableEq V] [DecidableEq P] [DecidableEq F] in
theorem spent_init {nodes : List V} : Spent T nodes (init : State V P F) :=
  ⟨fun _ hx => absurd hx List.not_mem_nil, Nat.zero_le _⟩

/-- However frames go round, their number is bounded by what the source sent. -/
theorem Inv.arrived_le {nodes : List V} (h : Inv T s) (hspent : Spent T nodes s) :
    s.arrived ≤ s.entered.length * (1 + (nodes.map fun v => (T.ports v).length).sum) := by
  have hwork := h.work_le nodes
  have hle := hspent.spent
  rw [Nat.mul_add, Nat.mul_one]
  omega

end Flooding
