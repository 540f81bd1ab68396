import VnfDockerNet.HelperFunction
import Mathlib.Algebra.BigOperators.Group.Finset.Piecewise
import Mathlib.Data.List.GetD

/-!
# What the feasibility check checks

Constraint 2 is the sum of the needs against the capacity, in floats. Constraint 1
reads the vector in rows of `no_of_fog_nodes` entries, counts the ones of row `i`
in `cnt[i]`, and wants a one for each fog node; this is the constraint on the
micro-services only where the sizes coincide.
-/

namespace VnfDockerNet

open Python

namespace HelperFunction

/-! ## Indices and sums -/

theorem mul_add_lt {a b m p : Nat} (ha : a < m) (hb : b < p) : a * p + b < m * p := by
  calc a * p + b < a * p + p := Nat.add_lt_add_left hb _
    _ = (a + 1) * p := (Nat.succ_mul a p).symm
    _ ≤ m * p := Nat.mul_le_mul_right p ha

theorem getD_set (xs : List Nat) (i x a : Nat) : (xs.set i a).getD x 0 = if x = i ∧ i < xs.length then a else xs.getD x 0 := by
  rw [List.getD_eq_getElem?_getD, List.getD_eq_getElem?_getD, List.getElem?_set]
  by_cases hx : i = x
  · subst hx
    by_cases hi : i < xs.length
    · simp [hi]
    · simp [hi]
  · simp [hx, Ne.symm hx]

theorem countP_range_eq_one {p : Nat → Prop} [DecidablePred p] (m : Nat) :
    (List.range m).countP (fun j => p j) = 1 ↔ ∃! j, j < m ∧ p j := by
  rw [List.countP_eq_length_filter]
  have hmem : ∀ j, j ∈ (List.range m).filter (fun j => p j) ↔ j < m ∧ p j := by
    intro j
    rw [List.mem_filter, List.mem_range, decide_eq_true_iff]
  constructor
  · intro hone
    obtain ⟨j, hj⟩ := List.length_eq_one_iff.mp hone
    simp only [hj, List.mem_singleton] at hmem
    exact ⟨j, (hmem j).mp rfl, fun j' hj' => (hmem j').mpr hj'⟩
  · intro hex
    obtain ⟨j, hj, huniq⟩ := hex
    have hperm : ((List.range m).filter fun j => p j).Perm [j] := by
      rw [List.perm_ext_iff_of_nodup (List.nodup_range.filter _) (List.nodup_singleton j)]
      intro j'
      rw [hmem, List.mem_singleton]
      exact ⟨huniq j', fun heq => heq ▸ hj⟩
    exact hperm.length_eq

theorem foldlM_range {α : Type} {m : Nat} {f : α → Nat → Except Exn α} {g : α → Nat → α}
    (h : ∀ i < m, ∀ acc, f acc i = .ok (g acc i)) (acc : α) : (List.range m).foldlM f acc = .ok ((List.range m).foldl g acc) := by
  induction m with
  | zero => rfl
  | succ m ih =>
    rw [List.range_succ, List.foldlM_append, ih fun i hi => h i (Nat.lt_succ_of_lt hi), List.foldl_append]
    show List.foldlM f _ [m] = _
    rw [List.foldlM_cons, h m (Nat.lt_succ_self m)]
    rfl

theorem index_map_range {α : Type} {m k : Nat} (hk : k < m) (g : Nat → α) : index ((List.range m).map g) k = .ok (g k) := by
  unfold index
  rw [List.getElem?_map, List.getElem?_range hk]
  rfl

section
variable {n : Sizes} (tables : Tables n) (vec : List Nat)

/-! ## The constraints -/

/-- Whether micro-service `j` of service `k` is on fog node `i` in slot `t`: a one or not. -/
def cell (n : Sizes) (vec : List Nat) (k j i t : Nat) : Nat :=
  vec.getD (((k * n.max_no_of_micro_services + j) * n.no_of_fog_nodes + i) * n.no_of_time_slots + t) 0

/-- In every slot each micro-service is on exactly one fog node. -/
def AllocatedOnce (n : Sizes) (vec : List Nat) : Prop :=
  ∀ t < n.no_of_time_slots, ∀ k < n.no_of_services, ∀ j < n.max_no_of_micro_services,
    ∃! i, i < n.no_of_fog_nodes ∧ cell n vec k j i t = 1

instance : Decidable (AllocatedOnce n vec) :=
  decidable_of_iff (∀ t < n.no_of_time_slots, ∀ k < n.no_of_services, ∀ j < n.max_no_of_micro_services,
    (List.range n.no_of_fog_nodes).countP (fun i => cell n vec k j i t = 1) = 1) (by simp only [countP_range_eq_one]; rfl)

def capacity (i q : Nat) : ℚ := (tables.total_available_quantity_of_resource.getD i []).getD q 0

def need (x y q : Nat) : ℚ := ((tables.total_quantity_of_resource_needed.getD x []).getD y []).getD q 0

def taken (i q t k j : Nat) : ℚ := if cell n vec k j i t = 1 then need tables k j q else 0

def load (i q t : Nat) : ℚ :=
  ∑ k ∈ Finset.range n.no_of_services, ∑ j ∈ Finset.range n.max_no_of_micro_services, taken tables vec i q t k j

def partialLoad (i q t k j : Nat) : ℚ :=
  ∑ k' ∈ Finset.range k, ∑ j' ∈ Finset.range n.max_no_of_micro_services, taken tables vec i q t k' j' +
    ∑ j' ∈ Finset.range (j + 1), taken tables vec i q t k j'

def WithinCapacity : Prop :=
  ∀ i < n.no_of_fog_nodes, ∀ q < n.no_of_resource_type, ∀ t < n.no_of_time_slots, load tables vec i q t ≤ capacity tables i q

instance : Decidable (WithinCapacity tables vec) :=
  inferInstanceAs (Decidable (∀ i < n.no_of_fog_nodes, ∀ q < n.no_of_resource_type, ∀ t < n.no_of_time_slots,
    load tables vec i q t ≤ capacity tables i q))

/-! ### In floats -/

def takenRounded (i q t k j : Nat) : ℚ := if cell n vec k j i t = 1 then Float64.round (Float64.round (need tables k j q)) else 0

def loadRounded (i q t : Nat) : ℚ :=
  (List.range n.no_of_services).foldl (fun sum k => (List.range n.max_no_of_micro_services).foldl
    (fun sum j => Float64.round (sum + takenRounded tables vec i q t k j)) sum) 0

def WithinRounded : Prop :=
  ∀ i < n.no_of_fog_nodes, ∀ q < n.no_of_resource_type, ∀ t < n.no_of_time_slots,
    loadRounded tables vec i q t ≤ Float64.round (capacity tables i q)

/-- Nothing that is added up or compared has to be rounded: the capacities, the
needs of what is allocated, and each sum on the way. -/
def Unrounded : Prop :=
  ∀ i < n.no_of_fog_nodes, ∀ q < n.no_of_resource_type, Float64.IsFloat (capacity tables i q) ∧
    ∀ t < n.no_of_time_slots, ∀ k < n.no_of_services, ∀ j < n.max_no_of_micro_services,
      (cell n vec k j i t = 1 → Float64.IsFloat (need tables k j q)) ∧ Float64.IsFloat (partialLoad tables vec i q t k j)

theorem withinRounded_iff {tables : Tables n} {vec : List Nat} (h : Unrounded tables vec) :
    WithinRounded tables vec ↔ WithinCapacity tables vec := by
  have hload : ∀ i < n.no_of_fog_nodes, ∀ q < n.no_of_resource_type, ∀ t < n.no_of_time_slots,
      loadRounded tables vec i q t = load tables vec i q t := by
    intro i hi q hq t ht
    have hcells := (h i hi q hq).2 t ht
    have htaken : ∀ k < n.no_of_services, ∀ j < n.max_no_of_micro_services,
        takenRounded tables vec i q t k j = taken tables vec i q t k j := by
      intro k hk j hj
      unfold takenRounded taken
      by_cases hone : cell n vec k j i t = 1
      · have hneed := Float64.round_eq_self ((hcells k hk j hj).1 hone)
        rw [if_pos hone, if_pos hone, hneed, hneed]
      · rw [if_neg hone, if_neg hone]
    have hsum := Float64.foldl_foldl_round_eq (w := taken tables vec i q t) fun k hk j hj => (hcells k hk j hj).2
    unfold load
    rw [← hsum]
    refine List.foldl_ext _ _ 0 fun sum k hk => List.foldl_ext _ _ sum fun sum j hj => ?_
    rw [htaken k (List.mem_range.mp hk) j (List.mem_range.mp hj)]
  unfold WithinRounded WithinCapacity
  refine forall₂_congr fun i hi => forall₂_congr fun q hq => forall₂_congr fun t ht => ?_
  rw [hload i hi q hq t ht, Float64.round_eq_self (h i hi q hq).1]

/-! ## The helpers -/

theorem getD_mem {α : Type} {xs : List α} {i : Nat} (h : i < xs.length) (x : α) : xs.getD i x ∈ xs := by
  rw [List.getD_eq_getElem?_getD, List.getElem?_eq_getElem h, Option.getD_some]
  exact List.getElem_mem h

theorem RFi_eq {i q : Nat} (hi : i < n.no_of_fog_nodes) (hq : q < n.no_of_resource_type) :
    RFi tables i q = .ok (capacity tables i q) := by
  have hi' : i < tables.total_available_quantity_of_resource.length := tables.available_shape.1 ▸ hi
  have hq' := tables.available_shape.2 _ (getD_mem hi' [])
  unfold RFi
  rw [index_eq_getD hi' []]
  exact index_eq_getD (hq' ▸ hq) 0

theorem GammaPxy_eq {x y q : Nat} (hx : x < n.no_of_services) (hy : y < n.max_no_of_micro_services) (hq : q < n.no_of_resource_type) :
    GammaPxy tables x y q = .ok (need tables x y q) := by
  have hx' : x < tables.total_quantity_of_resource_needed.length := tables.needed_shape.1 ▸ hx
  obtain ⟨hlen, hrows⟩ := tables.needed_shape.2 _ (getD_mem hx' [])
  have hy' := hlen.symm ▸ hy
  have hq' := hrows _ (getD_mem hy' [])
  unfold GammaPxy
  rw [index_eq_getD hx' []]
  show (index (tables.total_quantity_of_resource_needed.getD x []) y >>= fun row => index row q) = _
  rw [index_eq_getD hy' []]
  exact index_eq_getD (hq' ▸ hq) 0

def Reshaped (n : Sizes) (vec : List Nat) (arr : Array4) : Prop :=
  ∀ k < n.no_of_services, ∀ j < n.max_no_of_micro_services, ∀ i < n.no_of_fog_nodes, ∀ t < n.no_of_time_slots,
    arr k j i t = .ok (cell n vec k j i t)

theorem rowMajorTo2D_ok (hlen : vec.length =
    n.no_of_services * n.max_no_of_micro_services * n.no_of_fog_nodes * n.no_of_time_slots) :
    ∃ arr, rowMajorTo2D n vec = .ok arr ∧ Reshaped n vec arr := by
  refine ⟨_, if_pos hlen, fun k hk j hj i hi t ht => ?_⟩
  have hlt := mul_add_lt (mul_add_lt (mul_add_lt hk hj) hi) ht
  show (if _ then _ else _) = _
  rw [if_pos ⟨hk, hj, hi, ht⟩]
  exact index_eq_getD (hlen ▸ hlt) 0

variable {vec} {arr : Array4} (harr : Reshaped n vec arr) {i q t : Nat} (hi : i < n.no_of_fog_nodes) (hq : q < n.no_of_resource_type)
  (ht : t < n.no_of_time_slots)
include harr hi ht

theorem exe_ms_vector_eq : exe_ms_vector n arr i t = .ok ((List.range n.no_of_services).map fun k =>
    (List.range n.max_no_of_micro_services).map fun j => if cell n vec k j i t = 1 then (1 : ℚ) else 0) := by
  unfold exe_ms_vector
  refine mapM_eq_map fun k hk => mapM_eq_map fun j hj => ?_
  rw [harr k (List.mem_range.mp hk) j (List.mem_range.mp hj) i hi t ht]
  show Except.ok _ = _
  by_cases hone : cell n vec k j i t = 1
  · rw [if_pos hone, if_pos hone, hone, Nat.cast_one]
  · rw [if_neg hone, if_neg hone]

include hq

theorem amount_eq : amount_of_resource_type_occupied tables arr i q t = .ok (loadRounded tables vec i q t) := by
  have hcell : ∀ k < n.no_of_services, ∀ j < n.max_no_of_micro_services, ∀ sum : ℚ,
      (do
        let Omega ← exe_ms_vector n arr i t
        let row ← index Omega k
        let executed ← index row j
        let needed ← GammaPxy tables k j q
        pure (Float64.round (sum + Float64.round (executed * Float64.round needed))) : Except Exn ℚ) =
      .ok (Float64.round (sum + takenRounded tables vec i q t k j)) := by
    intro k hk j hj sum
    rw [exe_ms_vector_eq harr hi ht]
    show (index _ k >>= _) = _
    rw [index_map_range hk]
    show (index _ j >>= _) = _
    rw [index_map_range hj]
    show (GammaPxy tables k j q >>= _) = _
    rw [GammaPxy_eq tables hk hj hq]
    show Except.ok (Float64.round (sum + Float64.round ((if cell n vec k j i t = 1 then 1 else 0) * Float64.round (need tables k j q)))) = _
    unfold takenRounded
    by_cases hone : cell n vec k j i t = 1
    · rw [if_pos hone, if_pos hone, one_mul]
    · rw [if_neg hone, if_neg hone, zero_mul, Float64.round_zero]
  unfold amount_of_resource_type_occupied loadRounded
  exact foldlM_range (fun k hk sum => foldlM_range (fun j hj sum => hcell k hk j hj sum) sum) 0

end

/-! ## Constraint 1 -/

section
variable (n : Sizes) (vec : List Nat)

/-- The vector has the entry, and a one there is in one of the first rows, as many as fog nodes. -/
def CellOk (i j : Nat) : Prop :=
  i * n.no_of_fog_nodes + j < vec.length ∧ (vec.getD (i * n.no_of_fog_nodes + j) 0 = 1 → i < n.no_of_fog_nodes)

def NoStray : Prop := ∀ i < n.max_no_of_micro_services, ∀ j < n.no_of_fog_nodes, CellOk n vec i j

/-- Each fog node has its row, and each row one 1. -/
def RowsOnce : Prop :=
  ∀ i < n.no_of_fog_nodes, i < n.max_no_of_micro_services ∧
    ∃! j, j < n.no_of_fog_nodes ∧ vec.getD (i * n.no_of_fog_nodes + j) 0 = 1

def ones (i : Nat) (js : List Nat) : Nat := js.countP fun j => vec.getD (i * n.no_of_fog_nodes + j) 0 = 1

def Counts (f : Nat → Nat) (s : Locals) : Prop :=
  s.cnt.length = n.no_of_fog_nodes ∧ ∀ x < n.no_of_fog_nodes, s.cnt.getD x 0 = f x

variable {n vec}

theorem wp_countCell {i j : Nat} (hi : i < n.max_no_of_micro_services) (hj : j < n.no_of_fog_nodes) {before : List Nat} {f : Nat → Nat}
    {s : Locals} (hs : Counts n (Function.update f i (ones n vec i before)) s) :
    wp (countCell n vec i j) s (fun _ s' => Counts n (Function.update f i (ones n vec i (before ++ [j]))) s' ∧ CellOk n vec i j)
      fun _ _ => ¬ NoStray n vec := by
  have hcell : NoStray n vec → CellOk n vec i j := fun h => h i hi j hj
  obtain ⟨hlen, hcnt⟩ := hs
  unfold countCell
  by_cases hidx : i * n.no_of_fog_nodes + j < vec.length
  · rw [wp_bind, wp_orRaise_ok (index_eq_getD hidx 0)]
    have hones : ones n vec i (before ++ [j]) =
        ones n vec i before + if vec.getD (i * n.no_of_fog_nodes + j) 0 = 1 then 1 else 0 := by
      unfold ones
      rw [List.countP_append, List.countP_singleton]
      simp only [decide_eq_true_eq]
    by_cases hone : vec.getD (i * n.no_of_fog_nodes + j) 0 = 1
    · rw [if_pos hone, wp_bind, wp_get, wp_bind]
      rw [if_pos hone] at hones
      by_cases hrow : i < n.no_of_fog_nodes
      · rw [wp_orRaise_ok (index_eq_getD (hlen.symm ▸ hrow) 0), wp_modify]
        refine ⟨⟨by rw [List.length_set, hlen], fun x hx => ?_⟩, hidx, fun _ => hrow⟩
        rw [getD_set, hlen, hcnt x hx, hcnt i hrow, Function.update_self]
        by_cases hxi : x = i
        · rw [if_pos ⟨hxi, hrow⟩, hxi, Function.update_self, hones]
        · rw [if_neg fun h => hxi h.1, Function.update_of_ne hxi, Function.update_of_ne hxi]
      · -- `cnt[i]` is out of range
        have hnone : index s.cnt i = .error .IndexError := by
          unfold index
          rw [List.getElem?_eq_none (by omega)]
        rw [hnone]
        exact fun h => hrow ((hcell h).2 hone)
    · rw [if_neg hone, wp_pure]
      rw [if_neg hone, Nat.add_zero] at hones
      refine ⟨⟨hlen, fun x hx => ?_⟩, hidx, fun h => absurd h hone⟩
      rw [hcnt x hx, hones]
  · have hnone : index vec (i * n.no_of_fog_nodes + j) = .error .IndexError := by
      unfold index
      rw [List.getElem?_eq_none (by omega)]
    rw [wp_bind, hnone]
    exact fun h => hidx (hcell h).1

theorem wp_countRow {i : Nat} (hi : i < n.max_no_of_micro_services) {f : Nat → Nat} (hf : f i = 0) {s : Locals} (hs : Counts n f s) :
    wp (forEach (fun j => countCell n vec i j) (List.range n.no_of_fog_nodes)) s
      (fun _ s' => Counts n (Function.update f i (ones n vec i (List.range n.no_of_fog_nodes))) s' ∧
        ∀ j < n.no_of_fog_nodes, CellOk n vec i j)
      fun _ _ => ¬ NoStray n vec := by
  refine wp_mono (wp_forEach_mem (fun before s' => Counts n (Function.update f i (ones n vec i before)) s' ∧
    ∀ j ∈ before, CellOk n vec i j) (fun before j hj s' hs' => ?_) ⟨⟨hs.1, fun x hx => ?_⟩, fun j hj => by cases hj⟩)
    (fun _ s' hs' => ⟨hs'.1, fun j hj => hs'.2 j (List.mem_range.mpr hj)⟩) fun _ _ h => h
  · refine wp_mono (wp_countCell hi (List.mem_range.mp hj) hs'.1) (fun _ s'' hs'' => ⟨hs''.1, fun j' hj' => ?_⟩) fun _ _ h => h
    rcases List.mem_append.mp hj' with hold | hnew
    · exact hs'.2 j' hold
    · rw [List.mem_singleton.mp hnew]
      exact hs''.2
  · rw [hs.2 x hx]
    by_cases hxi : x = i
    · rw [hxi, Function.update_self, hf]
      rfl
    · rw [Function.update_of_ne hxi]

theorem wp_countRows {s : Locals} (hs : Counts n (fun _ => 0) s) :
    wp (forEach (fun i => forEach (fun j => countCell n vec i j) (List.range n.no_of_fog_nodes)) (List.range n.max_no_of_micro_services)) s
      (fun _ s' => NoStray n vec ∧ Counts n (fun x => if x < n.max_no_of_micro_services then
        ones n vec x (List.range n.no_of_fog_nodes) else 0) s')
      fun _ _ => ¬ NoStray n vec := by
  refine wp_mono (wp_forEach (fun rows s' => Counts n (fun x => if x ∈ rows then ones n vec x (List.range n.no_of_fog_nodes) else 0) s' ∧
    ∀ i ∈ rows, ∀ j < n.no_of_fog_nodes, CellOk n vec i j) (fun rows i after s' hsplit hs' => ?_) ⟨⟨hs.1, fun x hx => ?_⟩, nofun⟩)
    (fun _ s' hs' => ?_) fun _ _ h => h
  · have hi : i < n.max_no_of_micro_services := List.mem_range.mp (hsplit ▸ List.mem_append_right _ (List.mem_cons_self ..))
    -- row `i` has not been counted before
    have hnew : i ∉ rows := by
      have hnodup := hsplit ▸ List.nodup_range (n := n.max_no_of_micro_services)
      intro hmem
      exact (List.nodup_append.mp hnodup).2.2 i hmem i (List.mem_cons_self ..) rfl
    refine wp_mono (wp_countRow hi (if_neg hnew) hs'.1) (fun _ s'' hs'' => ⟨⟨hs''.1.1, fun x hx => ?_⟩, fun i' hi' => ?_⟩) fun _ _ h => h
    · rw [hs''.1.2 x hx]
      by_cases hxi : x = i
      · simp [hxi]
      · simp [hxi]
    · rcases List.mem_append.mp hi' with hold | heq
      · exact hs'.2 i' hold
      · rw [List.mem_singleton.mp heq]
        exact hs''.2
  · rw [hs.2 x hx]
    exact (if_neg List.not_mem_nil).symm
  · obtain ⟨⟨hlen, hcnt⟩, hcells⟩ := hs'
    refine ⟨fun i hi => hcells i (List.mem_range.mpr hi), hlen, fun x hx => ?_⟩
    rw [hcnt x hx]
    simp only [List.mem_range]

theorem rowsOnce_iff {s : Locals} (hs : Counts n (fun x => if x < n.max_no_of_micro_services then
    ones n vec x (List.range n.no_of_fog_nodes) else 0) s) :
    ¬ 0 < (s.cnt.filter (· ≠ 1)).length ↔ RowsOnce n vec := by
  obtain ⟨hlen, hcnt⟩ := hs
  have hall : ¬ 0 < (s.cnt.filter (· ≠ 1)).length ↔ ∀ x < n.no_of_fog_nodes, s.cnt.getD x 0 = 1 := by
    constructor
    · intro h x hx
      by_contra hne
      exact h (List.length_pos_of_mem (List.mem_filter.mpr ⟨getD_mem (hlen.symm ▸ hx) 0, decide_eq_true hne⟩))
    · intro h hpos
      obtain ⟨c, hc⟩ := List.exists_mem_of_length_pos hpos
      obtain ⟨hmem, hne⟩ := List.mem_filter.mp hc
      obtain ⟨x, hx, rfl⟩ := List.getElem_of_mem hmem
      have hone := h x (hlen ▸ hx)
      rw [List.getD_eq_getElem?_getD, List.getElem?_eq_getElem hx, Option.getD_some] at hone
      exact of_decide_eq_true hne hone
  rw [hall]
  unfold RowsOnce
  refine forall_congr' fun x => forall_congr' fun hx => ?_
  rw [hcnt x hx, ← countP_range_eq_one]
  show (if x < n.max_no_of_micro_services then ones n vec x (List.range n.no_of_fog_nodes) else 0) = 1 ↔ _
  by_cases hxm : x < n.max_no_of_micro_services
  · rw [if_pos hxm, and_iff_right hxm]
    rfl
  · rw [if_neg hxm]
    exact iff_of_false (by decide) fun h => hxm h.1

end

/-! ## Constraint 2 -/

/-- A loop that only lowers the flag: it is up at the end if it was and every item lets it be. -/
theorem wp_forEach_flag {α : Type} {body : α → EStateM Exn Locals Unit} {P : α → Prop} {xs : List α}
    (hbody : ∀ x ∈ xs, ∀ s, wp (body x) s (fun _ s' => s'.var_flag = true ↔ s.var_flag = true ∧ P x) fun _ _ => False) (s : Locals) :
    wp (forEach body xs) s (fun _ s' => s'.var_flag = true ↔ s.var_flag = true ∧ ∀ x ∈ xs, P x) fun _ _ => False := by
  refine wp_forEach_mem (fun before (s' : Locals) => s'.var_flag = true ↔ s.var_flag = true ∧ ∀ x ∈ before, P x)
    (fun before x hx s' hs' => ?_) (by simp)
  refine wp_mono (hbody x hx s') (fun _ s'' hs'' => ?_) fun _ _ hf => hf
  rw [hs'', hs', and_assoc]
  simp only [List.mem_append, List.mem_singleton, or_imp, forall_and, forall_eq]

section
variable {n : Sizes} (tables : Tables n) {vec : List Nat} {arr : Array4}

theorem wp_checkCell (harr : Reshaped n vec arr) {i q t : Nat} (hi : i < n.no_of_fog_nodes) (hq : q < n.no_of_resource_type)
    (ht : t < n.no_of_time_slots) (s : Locals) :
    wp (checkCell tables arr i q t) s
      (fun _ s' => s'.var_flag = true ↔ s.var_flag = true ∧ loadRounded tables vec i q t ≤ Float64.round (capacity tables i q))
      fun _ _ => False := by
  unfold checkCell
  rw [wp_bind, wp_orRaise_ok (amount_eq tables harr hi hq ht), wp_bind, wp_orRaise_ok (RFi_eq tables hi hq)]
  by_cases hgt : loadRounded tables vec i q t > Float64.round (capacity tables i q)
  · rw [if_pos hgt, wp_modify]
    exact iff_of_false (by simp) fun h => absurd h.2 (not_le_of_gt hgt)
  · rw [if_neg hgt, wp_pure]
    exact (and_iff_left (not_lt.mp hgt)).symm

theorem wp_checkAll (harr : Reshaped n vec arr) (s : Locals) (hs : s.var_flag = true) :
    wp (forEach (fun i => forEach (fun j => forEach (fun k => checkCell tables arr i j k)
      (List.range n.no_of_time_slots)) (List.range n.no_of_resource_type)) (List.range n.no_of_fog_nodes)) s
      (fun _ s' => s'.var_flag = true ↔ WithinRounded tables vec) fun _ _ => False := by
  refine wp_mono (wp_forEach_flag (P := fun i => ∀ q ∈ List.range n.no_of_resource_type, ∀ t ∈ List.range n.no_of_time_slots,
    loadRounded tables vec i q t ≤ Float64.round (capacity tables i q)) (fun i hi s => wp_forEach_flag (fun q hq s => wp_forEach_flag
      (fun t ht s => wp_checkCell tables harr (List.mem_range.mp hi) (List.mem_range.mp hq) (List.mem_range.mp ht) s) s) s) s)
    (fun _ s' hs' => ?_) fun _ _ hf => hf
  rw [hs', and_iff_right hs]
  unfold WithinRounded
  simp only [List.mem_range]

/-! ## The check -/

theorem wp_isFeasible (hlen : vec.length =
    n.no_of_services * n.max_no_of_micro_services * n.no_of_fog_nodes * n.no_of_time_slots) :
    wp (IsFeasible tables vec) {} (fun b _ => NoStray n vec ∧ (b = true ↔ RowsOnce n vec ∧ WithinRounded tables vec))
      fun _ _ => ¬ NoStray n vec := by
  obtain ⟨arr, harr, hshape⟩ := rowMajorTo2D_ok vec hlen
  have hstart : Counts n (fun _ => 0) ({ cnt := List.replicate n.no_of_fog_nodes 0 } : Locals) := by
    refine ⟨List.length_replicate, fun x hx => ?_⟩
    show (List.replicate n.no_of_fog_nodes 0).getD x 0 = 0
    rw [List.getD_eq_getElem?_getD, List.getElem?_replicate, if_pos hx]
    rfl
  unfold IsFeasible
  rw [wp_bind, wp_orRaise_ok harr, wp_bind, wp_modify, wp_bind]
  refine wp_mono (wp_countRows hstart) (fun _ s hs => ?_) fun _ _ h => h
  obtain ⟨hstray, hcounts⟩ := hs
  have hrows := rowsOnce_iff hcounts
  rw [wp_bind, wp_get]
  by_cases hbad : 0 < (s.cnt.filter (· ≠ 1)).length
  · rw [if_pos hbad, wp_pure]
    exact ⟨hstray, iff_of_false (by decide) fun h => (hrows.mpr h.1) hbad⟩
  · rw [if_neg hbad, wp_bind, wp_modify, wp_bind]
    refine wp_mono (wp_checkAll tables hshape _ rfl) (fun _ s' hs' => ?_) fun _ _ hf => hf.elim
    rw [wp_bind, wp_get, wp_pure]
    exact ⟨hstray, hs'.trans (and_iff_right (hrows.mp hbad)).symm⟩

end

/-! ## One vector -/

structure Allocation (n : Sizes) where
  vec : List Nat
  length_eq : vec.length = n.no_of_services * n.max_no_of_micro_services * n.no_of_fog_nodes * n.no_of_time_slots
  zero_one : ∀ a ∈ vec, a = 0 ∨ a = 1

section
variable {n : Sizes} (tables : Tables n)

/-- The check returns, and what it returns says whether the allocation is exact and fits. -/
def Checks (vec : List Nat) : Prop :=
  ∃ b s, IsFeasible tables vec {} = .ok b s ∧ (b = true ↔ AllocatedOnce n vec ∧ WithinCapacity tables vec)

theorem checks_iff (a : Allocation n) : Checks tables a.vec ↔
    NoStray n a.vec ∧ (RowsOnce n a.vec ∧ WithinRounded tables a.vec ↔ AllocatedOnce n a.vec ∧ WithinCapacity tables a.vec) := by
  have hrun := wp_isFeasible tables a.length_eq
  unfold wp at hrun
  unfold Checks
  cases hx : IsFeasible tables a.vec {} with
  | ok b s =>
    rw [hx] at hrun
    obtain ⟨hstray, hb⟩ := hrun
    rw [and_iff_right hstray, ← hb]
    constructor
    · intro hchecks
      obtain ⟨b', s', heq, hb'⟩ := hchecks
      obtain ⟨rfl, rfl⟩ := EStateM.Result.ok.inj heq
      exact hb'
    · exact fun h => ⟨b, s, rfl, h⟩
  | error e s =>
    rw [hx] at hrun
    constructor
    · intro hchecks
      obtain ⟨b, s', heq, -⟩ := hchecks
      cases heq
    · exact fun h => absurd h.1 hrun

end

/-! ## All vectors of given sizes -/

section
variable {n : Sizes}

/-- The vector with a one at the marked entries. -/
def marked (n : Sizes) (p : Nat → Prop) [DecidablePred p] : Allocation n where
  vec := (List.range (n.no_of_services * n.max_no_of_micro_services * n.no_of_fog_nodes * n.no_of_time_slots)).map
    fun idx => if p idx then 1 else 0
  length_eq := by rw [List.length_map, List.length_range]
  zero_one := by
    intro a ha
    obtain ⟨idx, -, rfl⟩ := List.mem_map.mp ha
    by_cases hp : p idx
    · exact Or.inr (if_pos hp)
    · exact Or.inl (if_neg hp)

variable {p : Nat → Prop} [DecidablePred p]

theorem marked_getD {idx : Nat} (h : idx < (marked n p).vec.length) : (marked n p).vec.getD idx 0 = 1 ↔ p idx := by
  have hidx := (marked n p).length_eq ▸ h
  unfold marked
  rw [List.getD_eq_getElem?_getD, List.getElem?_map, List.getElem?_range hidx]
  show (if p idx then 1 else 0) = 1 ↔ _
  by_cases hp : p idx
  · exact iff_of_true (if_pos hp) hp
  · rw [if_neg hp]
    exact iff_of_false (by decide) hp

theorem marked_cell {k j i t : Nat} (hk : k < n.no_of_services) (hj : j < n.max_no_of_micro_services) (hi : i < n.no_of_fog_nodes)
    (ht : t < n.no_of_time_slots) : cell n (marked n p).vec k j i t = 1 ↔
      p (((k * n.max_no_of_micro_services + j) * n.no_of_fog_nodes + i) * n.no_of_time_slots + t) := by
  refine marked_getD ?_
  rw [(marked n p).length_eq]
  exact mul_add_lt (mul_add_lt (mul_add_lt hk hj) hi) ht

/-- One service and one slot, with as many micro-services as fog nodes, or no fog node and nothing to place. -/
def SizesCoincide (n : Sizes) : Prop :=
  n.no_of_services = 1 ∧ n.no_of_time_slots = 1 ∧ n.max_no_of_micro_services = n.no_of_fog_nodes ∨
  n.no_of_fog_nodes = 0 ∧ (n.no_of_services = 0 ∨ n.max_no_of_micro_services = 0 ∨ n.no_of_time_slots = 0)

def RowsAgree (n : Sizes) (vec : List Nat) : Prop := NoStray n vec ∧ (RowsOnce n vec ↔ AllocatedOnce n vec)

theorem rowsAgree_of_square (h : n.no_of_services = 1 ∧ n.no_of_time_slots = 1 ∧ n.max_no_of_micro_services = n.no_of_fog_nodes)
    (a : Allocation n) : RowsAgree n a.vec := by
  obtain ⟨hservice, hslot, hsquare⟩ := h
  have hcell : ∀ j i, cell n a.vec 0 j i 0 = a.vec.getD (j * n.no_of_fog_nodes + i) 0 := by
    intro j i
    unfold cell
    rw [hslot, Nat.zero_mul, Nat.zero_add, Nat.mul_one, Nat.add_zero]
  constructor
  · intro i hi j hj
    refine ⟨?_, fun _ => hsquare ▸ hi⟩
    rw [a.length_eq, hservice, hslot, Nat.one_mul, Nat.mul_one]
    exact mul_add_lt hi hj
  · constructor
    · intro hrows t ht k hk j hj
      obtain rfl : t = 0 := by omega
      obtain rfl : k = 0 := by omega
      simp only [hcell]
      exact (hrows j (hsquare ▸ hj)).2
    · intro honce i hi
      have hi' : i < n.max_no_of_micro_services := hsquare ▸ hi
      have hrow := honce 0 (by omega) 0 (by omega) i hi'
      simp only [hcell] at hrow
      exact ⟨hi', hrow⟩

theorem rowsAgree_of_nothing (h : n.no_of_fog_nodes = 0 ∧
    (n.no_of_services = 0 ∨ n.max_no_of_micro_services = 0 ∨ n.no_of_time_slots = 0)) (vec : List Nat) : RowsAgree n vec := by
  obtain ⟨hfog, hnone⟩ := h
  refine ⟨fun i _ j hj => by omega, iff_of_true (fun i hi => by omega) fun t ht k hk j hj => by omega⟩

/-! The other sizes have a vector that the rows misread. -/

theorem stray_of_no_cell (hfog : 0 < n.no_of_fog_nodes) (hms : 0 < n.max_no_of_micro_services)
    (hnone : n.no_of_services = 0 ∨ n.no_of_time_slots = 0) (a : Allocation n) : ¬ NoStray n a.vec := by
  intro hstray
  have hlt := (hstray 0 hms 0 hfog).1
  rw [a.length_eq] at hlt
  rcases hnone with h | h <;> simp [h] at hlt

theorem not_allocated_of_no_fog (hfog : n.no_of_fog_nodes = 0) (hservice : 0 < n.no_of_services) (hms : 0 < n.max_no_of_micro_services)
    (hslot : 0 < n.no_of_time_slots) (vec : List Nat) : RowsOnce n vec ∧ ¬ AllocatedOnce n vec := by
  refine ⟨fun i hi => by omega, fun honce => ?_⟩
  obtain ⟨i, hi, -⟩ := honce 0 hslot 0 hservice 0 hms
  omega

def onFirst (n : Sizes) : Allocation n := marked n fun idx => idx / n.no_of_time_slots % n.no_of_fog_nodes = 0

theorem rows_missing (h : n.max_no_of_micro_services < n.no_of_fog_nodes) :
    ¬ RowsOnce n (onFirst n).vec ∧ AllocatedOnce n (onFirst n).vec := by
  refine ⟨fun hrows => absurd (hrows _ h).1 (Nat.lt_irrefl _), fun t ht k hk j hj => ?_⟩
  have hcell : ∀ i < n.no_of_fog_nodes, (cell n (onFirst n).vec k j i t = 1 ↔ i = 0) := by
    intro i hi
    have hpos : 0 < n.no_of_time_slots := by omega
    unfold onFirst
    rw [marked_cell hk hj hi ht, Nat.mul_comm _ n.no_of_time_slots, Nat.mul_add_div hpos, Nat.div_eq_of_lt ht, Nat.add_zero,
      Nat.mul_comm _ n.no_of_fog_nodes, Nat.mul_add_mod, Nat.mod_eq_of_lt hi]
  exact ⟨0, ⟨by omega, (hcell 0 (by omega)).mpr rfl⟩, fun i hi => (hcell i hi.1).mp hi.2⟩

/-- More micro-services than fog nodes: `cnt` has no place for row `no_of_fog_nodes`. -/
theorem stray_of_more (hfog : 0 < n.no_of_fog_nodes) (h : n.no_of_fog_nodes < n.max_no_of_micro_services) :
    ¬ NoStray n (marked n fun _ => True).vec := by
  intro hstray
  obtain ⟨hlt, hone⟩ := hstray _ h 0 hfog
  exact Nat.lt_irrefl _ (hone ((marked_getD hlt).mpr trivial))

def firstOfRows (n : Sizes) : Allocation n :=
  marked n fun idx => idx < n.no_of_fog_nodes * n.no_of_fog_nodes ∧ idx % n.no_of_fog_nodes = 0

/-- A square, with more cells than the rows: the ones stop where the rows do. -/
theorem cells_beyond_rows (hsquare : n.max_no_of_micro_services = n.no_of_fog_nodes) {k j t : Nat} (hk : k < n.no_of_services)
    (hj : j < n.no_of_fog_nodes) (ht : t < n.no_of_time_slots)
    (hbeyond : ∀ i, n.no_of_fog_nodes * n.no_of_fog_nodes ≤
      ((k * n.max_no_of_micro_services + j) * n.no_of_fog_nodes + i) * n.no_of_time_slots + t) :
    RowsOnce n (firstOfRows n).vec ∧ ¬ AllocatedOnce n (firstOfRows n).vec := by
  constructor
  · intro i hi
    refine ⟨hsquare ▸ hi, ?_⟩
    have hentry : ∀ i' < n.no_of_fog_nodes, ((firstOfRows n).vec.getD (i * n.no_of_fog_nodes + i') 0 = 1 ↔ i' = 0) := by
      intro i' hi'
      have hlt := mul_add_lt hi hi'
      unfold firstOfRows
      rw [marked_getD, and_iff_right hlt, Nat.mul_comm, Nat.mul_add_mod, Nat.mod_eq_of_lt hi']
      rw [(marked n _).length_eq, hsquare]
      calc i * n.no_of_fog_nodes + i' < n.no_of_fog_nodes * n.no_of_fog_nodes := hlt
        _ ≤ n.no_of_services * (n.no_of_fog_nodes * n.no_of_fog_nodes) := Nat.le_mul_of_pos_left _ (by omega)
        _ ≤ n.no_of_services * (n.no_of_fog_nodes * n.no_of_fog_nodes) * n.no_of_time_slots := Nat.le_mul_of_pos_right _ (by omega)
        _ = n.no_of_services * n.no_of_fog_nodes * n.no_of_fog_nodes * n.no_of_time_slots := by simp only [Nat.mul_assoc]
    exact ⟨0, ⟨by omega, (hentry 0 (by omega)).mpr rfl⟩, fun i' hi' => (hentry i' hi'.1).mp hi'.2⟩
  · intro honce
    obtain ⟨i, hi, -⟩ := honce t ht k hk j (hsquare ▸ hj)
    have hmark := (marked_cell hk (hsquare ▸ hj) hi.1 ht).mp hi.2
    exact absurd hmark.1 (Nat.not_lt.mpr (hbeyond i))

theorem beyond_of_slots {f m t : Nat} (hf : 0 < f) (ht : 1 < t) (i : Nat) : f * f ≤ ((0 * m + (f - 1)) * f + i) * t + (t - 1) := by
  obtain ⟨g, rfl⟩ : ∃ g, f = g + 1 := ⟨f - 1, by omega⟩
  have hsquare : (g + 1) * (g + 1) = g * (g + 1) + g + 1 := Nat.succ_mul g (g + 1)
  have hle : g ≤ g * (g + 1) := Nat.le_mul_of_pos_right g (Nat.succ_pos g)
  calc (g + 1) * (g + 1) ≤ g * (g + 1) * 2 + 1 := by omega
    _ ≤ (g * (g + 1) + i) * t + (t - 1) := Nat.add_le_add (Nat.mul_le_mul (Nat.le_add_right _ i) ht) (by omega)
    _ = ((0 * m + (g + 1 - 1)) * (g + 1) + i) * t + (t - 1) := by rw [Nat.zero_mul, Nat.zero_add, Nat.add_sub_cancel]

theorem beyond_of_services {f m t : Nat} (hm : m = f) (ht : 0 < t) (i : Nat) : f * f ≤ ((1 * m + 0) * f + i) * t + 0 := by
  rw [hm, Nat.one_mul, Nat.add_zero, Nat.add_zero]
  exact (Nat.le_add_right _ i).trans (Nat.le_mul_of_pos_right _ ht)

theorem exists_not_rowsAgree (h : ¬ SizesCoincide n) : ∃ a : Allocation n, ¬ RowsAgree n a.vec := by
  unfold SizesCoincide at h
  by_cases hfog : n.no_of_fog_nodes = 0
  · have hbad := not_allocated_of_no_fog hfog (by omega) (by omega) (by omega) (marked n fun _ => True).vec
    exact ⟨marked n fun _ => True, fun hsay => hbad.2 (hsay.2.mp hbad.1)⟩
  · rcases Nat.lt_trichotomy n.max_no_of_micro_services n.no_of_fog_nodes with hlt | heq | hgt
    · have hbad := rows_missing hlt
      exact ⟨_, fun hsay => hbad.1 (hsay.2.mpr hbad.2)⟩
    · by_cases hnone : n.no_of_services = 0 ∨ n.no_of_time_slots = 0
      · exact ⟨marked n fun _ => True, fun hsay => stray_of_no_cell (by omega) (by omega) hnone _ hsay.1⟩
      · have hbad : RowsOnce n (firstOfRows n).vec ∧ ¬ AllocatedOnce n (firstOfRows n).vec := by
          by_cases hservice : n.no_of_services = 1
          · exact cells_beyond_rows heq (by omega) (by omega) (by omega) (beyond_of_slots (by omega) (by omega))
          · exact cells_beyond_rows heq (by omega) (by omega) (by omega) (beyond_of_services heq (by omega))
        exact ⟨firstOfRows n, fun hsay => hbad.2 (hsay.2.mp hbad.1)⟩
    · exact ⟨_, fun hsay => stray_of_more (by omega) hgt hsay.1⟩

end

/-! ## Tables of equal numbers -/

def Tables.uniform (n : Sizes) (c w : ℚ) : Tables n where
  total_available_quantity_of_resource := List.replicate n.no_of_fog_nodes (List.replicate n.no_of_resource_type c)
  total_quantity_of_resource_needed :=
    List.replicate n.no_of_services (List.replicate n.max_no_of_micro_services (List.replicate n.no_of_resource_type w))
  available_shape := by
    refine ⟨List.length_replicate, fun row hrow => ?_⟩
    rw [List.eq_of_mem_replicate hrow, List.length_replicate]
  needed_shape := by
    refine ⟨List.length_replicate, fun service hservice => ?_⟩
    rw [List.eq_of_mem_replicate hservice]
    refine ⟨List.length_replicate, fun row hrow => ?_⟩
    rw [List.eq_of_mem_replicate hrow, List.length_replicate]

section
variable {n : Sizes} {c w : ℚ} {q : Nat} (hq : q < n.no_of_resource_type)
include hq

theorem capacity_uniform {i : Nat} (hi : i < n.no_of_fog_nodes) : capacity (Tables.uniform n c w) i q = c := by
  show ((List.replicate n.no_of_fog_nodes (List.replicate n.no_of_resource_type c)).getD i []).getD q 0 = c
  rw [List.getD_replicate _ hi, List.getD_replicate _ hq]

theorem need_uniform {k j : Nat} (hk : k < n.no_of_services) (hj : j < n.max_no_of_micro_services) :
    need (Tables.uniform n c w) k j q = w := by
  show (((List.replicate n.no_of_services (List.replicate n.max_no_of_micro_services
    (List.replicate n.no_of_resource_type w))).getD k []).getD j []).getD q 0 = w
  rw [List.getD_replicate _ hk, List.getD_replicate _ hj, List.getD_replicate _ hq]

end

section
variable {n : Sizes}

/-- Nobody needs anything, so that no allocation is excluded and no number rounded. -/
theorem unrounded_zero (vec : List Nat) : Unrounded (Tables.uniform n 0 0) vec ∧ WithinCapacity (Tables.uniform n 0 0) vec := by
  have hzero : Float64.IsFloat 0 := Float64.isFloat_intCast (k := 0) (by decide)
  have htaken : ∀ i t k j, ∀ q < n.no_of_resource_type, k < n.no_of_services → j < n.max_no_of_micro_services →
      taken (Tables.uniform n 0 0) vec i q t k j = 0 := by
    intro i t k j q hq hk hj
    unfold taken
    rw [need_uniform hq hk hj, ite_self]
  constructor
  · intro i hi q hq
    rw [capacity_uniform hq hi]
    refine ⟨hzero, fun t ht k hk j hj => ⟨fun _ => (need_uniform hq hk hj).symm ▸ hzero, ?_⟩⟩
    have hsum : partialLoad (Tables.uniform n 0 0) vec i q t k j = 0 := by
      unfold partialLoad
      rw [Finset.sum_eq_zero, Finset.sum_eq_zero, add_zero]
      · exact fun j' hj' => htaken i t k j' q hq hk (by have := Finset.mem_range.mp hj'; omega)
      · refine fun k' hk' => Finset.sum_eq_zero fun j' hj' => htaken i t k' j' q hq ?_ (Finset.mem_range.mp hj')
        exact (Finset.mem_range.mp hk').trans hk
    rw [hsum]
    exact hzero
  · intro i hi q hq t ht
    have hload : load (Tables.uniform n 0 0) vec i q t = 0 :=
      Finset.sum_eq_zero fun k hk => Finset.sum_eq_zero fun j hj =>
        htaken i t k j q hq (Finset.mem_range.mp hk) (Finset.mem_range.mp hj)
    rw [capacity_uniform hq hi, hload]

def onOwn (n : Sizes) : Allocation n := marked n fun idx => idx / n.no_of_fog_nodes = idx % n.no_of_fog_nodes

section
variable (hservice : n.no_of_services = 1) (hslot : n.no_of_time_slots = 1)
  (hsquare : n.max_no_of_micro_services = n.no_of_fog_nodes)
include hservice hslot hsquare

theorem cell_onOwn {i j : Nat} (hi : i < n.no_of_fog_nodes) (hj : j < n.no_of_fog_nodes) :
    cell n (onOwn n).vec 0 j i 0 = 1 ↔ j = i := by
  unfold onOwn
  rw [marked_cell (hservice ▸ Nat.one_pos) (hsquare ▸ hj) hi (hslot ▸ Nat.one_pos), hslot, Nat.zero_mul, Nat.zero_add, Nat.mul_one,
    Nat.add_zero, Nat.mul_comm, Nat.mul_add_div (by omega), Nat.mul_add_mod, Nat.div_eq_of_lt hi, Nat.add_zero, Nat.mod_eq_of_lt hi]

theorem allocatedOnce_onOwn : AllocatedOnce n (onOwn n).vec := by
  intro t ht k hk j hj
  obtain rfl : t = 0 := by omega
  obtain rfl : k = 0 := by omega
  have hj' := hsquare ▸ hj
  exact ⟨j, ⟨hj', (cell_onOwn hservice hslot hsquare hj' hj').mpr rfl⟩,
    fun i hi => ((cell_onOwn hservice hslot hsquare hi.1 hj').mp hi.2).symm⟩

/-- The need is one more than the capacity, and the same as a float. -/
theorem withinRounded_onOwn : WithinRounded (Tables.uniform n (2 ^ 53) (2 ^ 53 + 1)) (onOwn n).vec := by
  intro i hi q hq t ht
  obtain rfl : t = 0 := by omega
  have hcap : Float64.round (2 ^ 53) = 2 ^ 53 := Float64.round_eq_self Float64.isFloat_two_pow
  have htaken : ∀ j < n.no_of_fog_nodes,
      takenRounded (Tables.uniform n (2 ^ 53) (2 ^ 53 + 1)) (onOwn n).vec i q 0 0 j = if j = i then 2 ^ 53 else 0 := by
    intro j hj
    unfold takenRounded
    rw [need_uniform hq (hservice ▸ Nat.one_pos) (hsquare ▸ hj), Float64.round_two_pow_add_one, hcap]
    exact if_congr (cell_onOwn hservice hslot hsquare hi hj) rfl rfl
  have hsum : ∀ m, ∑ j ∈ Finset.range m, (if j = i then (2 ^ 53 : ℚ) else 0) = if i < m then 2 ^ 53 else 0 := by
    intro m
    rw [Finset.sum_ite_eq' (Finset.range m) i fun _ => (2 ^ 53 : ℚ)]
    exact if_congr Finset.mem_range rfl rfl
  have hfold : loadRounded (Tables.uniform n (2 ^ 53) (2 ^ 53 + 1)) (onOwn n).vec i q 0 =
      0 + ∑ j ∈ Finset.range n.no_of_fog_nodes, if j = i then (2 ^ 53 : ℚ) else 0 := by
    unfold loadRounded
    rw [hservice, hsquare, ← Float64.foldl_round_eq fun j hj => ?_]
    · rw [List.range_one, List.foldl_cons, List.foldl_nil]
      refine List.foldl_ext _ _ 0 fun sum j hj => ?_
      rw [htaken j (List.mem_range.mp hj)]
    · rw [hsum, zero_add]
      by_cases hle : i < j + 1
      · rw [if_pos hle]
        exact Float64.isFloat_two_pow
      · rw [if_neg hle]
        exact Float64.isFloat_intCast (k := 0) (by decide)
  rw [hfold, hsum, if_pos hi, zero_add, capacity_uniform hq hi, hcap]

theorem not_withinCapacity_onOwn (hfog : 0 < n.no_of_fog_nodes) (hres : 0 < n.no_of_resource_type) :
    ¬ WithinCapacity (Tables.uniform n (2 ^ 53) (2 ^ 53 + 1)) (onOwn n).vec := by
  intro hfits
  have hle := hfits 0 hfog 0 hres 0 (by omega)
  have hload : load (Tables.uniform n (2 ^ 53) (2 ^ 53 + 1)) (onOwn n).vec 0 0 0 = 2 ^ 53 + 1 := by
    have htaken : ∀ j ∈ Finset.range n.no_of_fog_nodes,
        taken (Tables.uniform n (2 ^ 53) (2 ^ 53 + 1)) (onOwn n).vec 0 0 0 0 j = if j = 0 then 2 ^ 53 + 1 else 0 := by
      intro j hj
      have hj := Finset.mem_range.mp hj
      unfold taken
      rw [need_uniform hres (hservice ▸ Nat.one_pos) (hsquare ▸ hj)]
      exact if_congr (cell_onOwn hservice hslot hsquare hfog hj) rfl rfl
    unfold load
    rw [hservice, hsquare, Finset.sum_range_one, Finset.sum_congr rfl htaken,
      Finset.sum_ite_eq' (Finset.range n.no_of_fog_nodes) 0 fun _ => (2 ^ 53 + 1 : ℚ), if_pos (Finset.mem_range.mpr hfog)]
  rw [hload, capacity_uniform hres hfog] at hle
  norm_num at hle

end

/-! ## Where the check is exact -/

theorem rowsAgree_of_coincide (hsizes : SizesCoincide n) (a : Allocation n) : RowsAgree n a.vec := by
  rcases hsizes with hsquare | hnothing
  · exact rowsAgree_of_square hsquare a
  · exact rowsAgree_of_nothing hnothing a.vec

theorem coincide_of_checks (hall : ∀ a : Allocation n, Checks (Tables.uniform n 0 0) a.vec) : SizesCoincide n := by
  by_contra hsizes
  obtain ⟨a, ha⟩ := exists_not_rowsAgree hsizes
  obtain ⟨hunrounded, hfits⟩ := unrounded_zero (n := n) a.vec
  obtain ⟨hstray, hrows⟩ := (checks_iff _ a).mp (hall a)
  rw [withinRounded_iff hunrounded] at hrows
  exact ha ⟨hstray, (and_congr_left_iff.mp hrows) hfits⟩

theorem checks_of_coincide (hsizes : SizesCoincide n) {tables : Tables n} {a : Allocation n}
    (hfits : WithinRounded tables a.vec ↔ WithinCapacity tables a.vec) : Checks tables a.vec := by
  obtain ⟨hstray, hrows⟩ := rowsAgree_of_coincide hsizes a
  exact (checks_iff tables a).mpr ⟨hstray, and_congr hrows hfits⟩

end

/-! Two micro-services on three fog nodes, each on one that has room. -/

def spread : Sizes where
  no_of_services := 1
  max_no_of_micro_services := 2
  no_of_fog_nodes := 3
  no_of_resource_type := 1
  no_of_time_slots := 1

def spreadTables : Tables spread where
  total_available_quantity_of_resource := [[1], [1], [1]]
  total_quantity_of_resource_needed := [[[1], [1]]]
  available_shape := by decide
  needed_shape := by decide

def spreadAllocation : Allocation spread where
  vec := [1, 0, 0, 0, 1, 0]
  length_eq := rfl
  zero_one := by decide

end HelperFunction

end VnfDockerNet
