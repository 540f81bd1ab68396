import Mathlib.Algebra.Order.BigOperators.Group.List
import Mathlib.Algebra.GroupWithZero.Nat
import Mathlib.Algebra.Order.Group.Nat
import VnfDockerNet.Lib.Networkx

/-!
# Graph classes that compute

A graph as its attribute functions, with a list of the pairs of nodes that may
have an edge. `search` looks for a path of each length in turn, so the first
one it finds is a shortest one.
-/

namespace Networkx

open Python

/-! ## Searching by length -/

section
variable {ν : Type} (succ : ν → List ν)

/-- The paths with `n` edges from a node. -/
def pathsOf : Nat → ν → List (List ν)
  | 0, u => [[u]]
  | n + 1, u => (succ u).flatMap fun v => (pathsOf n v).map (u :: ·)

theorem mem_pathsOf : ∀ {n : Nat} {u : ν} {p : List ν}, p ∈ pathsOf succ n u ↔
    p.length = n + 1 ∧ p.head? = some u ∧ p.IsChain (fun a b => b ∈ succ a)
  | 0, u, p => by
    simp only [pathsOf, List.mem_singleton]
    constructor
    · rintro rfl; exact ⟨rfl, rfl, .singleton u⟩
    · intro h
      obtain ⟨hl, hh, _⟩ := h
      obtain ⟨a, rfl⟩ := List.length_eq_one_iff.mp hl
      cases hh; rfl
  | n + 1, u, p => by
    simp only [pathsOf, List.mem_flatMap, List.mem_map]
    constructor
    · intro h
      obtain ⟨v, hv, q, hq, rfl⟩ := h
      obtain ⟨hl, hh, hc⟩ := mem_pathsOf.mp hq
      refine ⟨by rw [List.length_cons, hl], rfl, ?_⟩
      cases q with
      | nil => cases hh
      | cons a q => cases hh; exact .cons_cons hv hc
    · intro h
      obtain ⟨hl, hh, hc⟩ := h
      match p, hc with
      | a :: b :: q, hc =>
        cases hh
        rw [List.isChain_cons_cons] at hc
        refine ⟨b, hc.1, b :: q, mem_pathsOf.mpr ⟨?_, rfl, hc.2⟩, rfl⟩
        simpa using hl

variable [DecidableEq ν]

def search (bound : Nat) (s t : ν) : Option (List ν) :=
  (List.range bound).findSome? fun n => (pathsOf succ n s).find? fun p => p.getLast? = some t

theorem search_isShortest {bound : Nat} {s t : ν} {p : List ν} (h : search succ bound s t = some p) :
    IsShortest (fun a b => b ∈ succ a) s t p := by
  obtain ⟨l₁, n, l₂, hrange, hfind, hnone⟩ := List.findSome?_eq_some_iff.mp h
  have hp := mem_pathsOf succ |>.mp (List.mem_of_find?_eq_some hfind)
  have hlast : p.getLast? = some t := by simpa using List.find?_some hfind
  refine ⟨⟨hp.2.2, hp.2.1, hlast⟩, fun q hq => ?_⟩
  by_contra hlt
  -- a shorter path has a length tried before
  obtain ⟨m, hm⟩ : ∃ m, q.length = m + 1 := by
    cases q with
    | nil => cases hq.head
    | cons a q => exact ⟨q.length, rfl⟩
  have hmn : m < n := by omega
  have hmem : m ∈ l₁ := by
    have hsorted : (l₁ ++ n :: l₂).Pairwise (· < ·) := hrange ▸ List.pairwise_lt_range
    have hn : n ∈ List.range bound := by rw [hrange]; simp
    have hm' : m ∈ l₁ ++ n :: l₂ := by
      rw [← hrange, List.mem_range]
      exact lt_trans hmn (List.mem_range.mp hn)
    rcases List.mem_append.mp hm' with h' | h'
    · exact h'
    · have hafter := (List.pairwise_cons.mp (List.pairwise_append.mp hsorted).2.1).1
      rcases List.mem_cons.mp h' with rfl | h'
      · exact absurd hmn (lt_irrefl _)
      · exact absurd (hafter m h') (by omega)
  have := List.find?_eq_none.mp (hnone m hmem) q (mem_pathsOf succ |>.mpr ⟨hm, hq.head, hq.chain⟩)
  exact this (decide_eq_true hq.last)

theorem search_eq_none {bound : Nat} {s t : ν} (h : search succ bound s t = none) {p : List ν}
    (hp : IsPath (fun a b => b ∈ succ a) s t p) : bound < p.length := by
  by_contra hle
  obtain ⟨n, hn⟩ : ∃ n, p.length = n + 1 := by
    cases p with
    | nil => cases hp.head
    | cons a p => exact ⟨p.length, rfl⟩
  have hnone := List.findSome?_eq_none_iff.mp h n (List.mem_range.mpr (by omega))
  have := List.find?_eq_none.mp hnone p (mem_pathsOf succ |>.mpr ⟨hn, hp.head, hp.chain⟩)
  exact this (decide_eq_true hp.last)

end

theorem length_le_of_nodup {ν : Type} {pairs : List (ν × ν)} {p : List ν} (hnodup : p.Nodup)
    (hp : p.IsChain fun a b => (a, b) ∈ pairs) : p.length ≤ pairs.length + 1 := by
  have hall : ∀ l : List ν, l.Nodup → l.IsChain (fun a b => (a, b) ∈ pairs) →
      ∃ q : List (ν × ν), q.Nodup ∧ q ⊆ pairs ∧ l.length ≤ q.length + 1 ∧ ∀ x ∈ q, x.1 ∈ l := by
    intro l
    induction l with
    | nil => exact fun _ _ => ⟨[], List.nodup_nil, List.nil_subset _, by simp, by simp⟩
    | cons a l ih =>
      intro hnodup hl
      obtain ⟨ha, hnodup⟩ := List.nodup_cons.mp hnodup
      obtain ⟨q, hq, hsub, hlen, hfst⟩ := ih hnodup hl.tail
      cases l with
      | nil => exact ⟨[], List.nodup_nil, List.nil_subset _, by simp, by simp⟩
      | cons b l =>
        have hab := (List.isChain_cons_cons.mp hl).1
        refine ⟨(a, b) :: q, List.nodup_cons.mpr ⟨fun hmem => ha (hfst _ hmem), hq⟩, ?_, ?_, fun x hx => ?_⟩
        · exact List.cons_subset.mpr ⟨hab, hsub⟩
        · simpa using hlen
        · rcases List.mem_cons.mp hx with rfl | hx
          · exact List.mem_cons_self
          · exact List.mem_cons_of_mem _ (hfst x hx)
  obtain ⟨q, hq, hsub, hlen, _⟩ := hall p hnodup hp
  have := (hq.subperm hsub).length_le
  omega

/-! ## MultiDiGraph -/

structure FnMultiDiGraph (ν β α : Type) where
  node : ν → Option β
  edge : ν → ν → Dict Nat α
  pairs : List (ν × ν)
  nodup : pairs.Nodup
  mem_pairs : ∀ u v, edge u v ≠ ∅ → (u, v) ∈ pairs

/-- `len(keydict)`, or a larger key when that one is taken. -/
def newKey {α : Type} (d : Dict Nat α) : Nat :=
  if d.keys.length ∈ d then d.keys.sum + 1 else d.keys.length

theorem newKey_notMem {α : Type} (d : Dict Nat α) : newKey d ∉ d := by
  unfold newKey
  split
  · intro h
    have := List.le_sum_of_mem (AList.mem_keys.mp h)
    omega
  · assumption

namespace FnMultiDiGraph

variable {ν β α : Type} [DecidableEq ν]

def edges (g : FnMultiDiGraph ν β α) : List (ν × ν × α) :=
  g.pairs.flatMap fun p => (g.edge p.1 p.2).entries.map fun e => (p.1, p.2, e.2)

/-- Gives the pair `(u, v)` other edges. -/
def withEdge (g : FnMultiDiGraph ν β α) (u v : ν) (d : Dict Nat α) : FnMultiDiGraph ν β α where
  node := g.node
  edge u' v' := if u' = u ∧ v' = v then d else g.edge u' v'
  pairs := if (u, v) ∈ g.pairs then g.pairs else g.pairs ++ [(u, v)]
  nodup := by
    split
    · exact g.nodup
    · rename_i h
      exact List.nodup_append'.mpr ⟨g.nodup, List.nodup_singleton _, by simpa using h⟩
  mem_pairs := by
    intro u' v' hne
    by_cases h : u' = u ∧ v' = v
    · obtain ⟨rfl, rfl⟩ := h
      split
      · assumption
      · simp
    · rw [if_neg h] at hne
      have := g.mem_pairs u' v' hne
      split
      · exact this
      · exact List.mem_append_left _ this

def withNode (g : FnMultiDiGraph ν β α) (n : ν) (b : β) : FnMultiDiGraph ν β α :=
  { g with node := fun m => if m = n then some b else g.node m }

def succ (g : FnMultiDiGraph ν β α) (u : ν) : List ν :=
  (g.pairs.filter fun p => p.1 = u ∧ (g.edge p.1 p.2).entries ≠ []).map Prod.snd

theorem entries_eq_nil {α : Type} {d : Dict Nat α} : d.entries = [] ↔ d = ∅ :=
  ⟨fun h => AList.ext h, fun h => by rw [h]; rfl⟩

theorem mem_succ {g : FnMultiDiGraph ν β α} {u v : ν} : v ∈ g.succ u ↔ g.edge u v ≠ ∅ := by
  unfold succ
  simp only [List.mem_map, List.mem_filter, decide_eq_true_eq]
  constructor
  · intro hx
    obtain ⟨⟨u', v'⟩, ⟨_, rfl, hne⟩, rfl⟩ := hx
    exact fun h => hne (entries_eq_nil.mpr h)
  · intro hne
    exact ⟨(u, v), ⟨g.mem_pairs u v hne, rfl, fun h => hne (entries_eq_nil.mp h)⟩, rfl⟩

theorem filter_edges (f : ν × ν → List α) (u v : ν) : ∀ {l : List (ν × ν)}, l.Nodup →
    ((l.flatMap fun p => (f p).map fun a => (p.1, p.2, a)).filter fun e : ν × ν × α => e.1 = u ∧ e.2.1 = v).map
      (fun e => e.2.2) = if (u, v) ∈ l then f (u, v) else []
  | [], _ => rfl
  | p :: l, hn => by
    have hhead : (((f p).map fun a => (p.1, p.2, a)).filter fun e : ν × ν × α => e.1 = u ∧ e.2.1 = v).map
        (fun e => e.2.2) = if p = (u, v) then f p else [] := by
      by_cases hp : p = (u, v)
      · subst hp; simp [List.filter_map, Function.comp_def]
      · have : ¬ (p.1 = u ∧ p.2 = v) := fun h => hp (Prod.ext h.1 h.2)
        simp [List.filter_map, Function.comp_def, this, hp]
    rw [List.flatMap_cons, List.filter_append, List.map_append, hhead, filter_edges f u v (List.nodup_cons.mp hn).2]
    by_cases hp : p = (u, v)
    · subst hp
      simp [(List.nodup_cons.mp hn).1]
    · simp [hp, Ne.symm hp]

end FnMultiDiGraph

open FnMultiDiGraph

/-- The graph class of these graphs. `remove_edge` takes the oldest of several
edges out. -/
def fnMultiDiGraph (ν β α : Type) [DecidableEq ν] [Inhabited β] : MultiDiGraph ν β α where
  Graph := FnMultiDiGraph ν β α
  empty := ⟨fun _ => none, fun _ _ => ∅, [], List.nodup_nil, fun _ _ h => absurd rfl h⟩
  node := FnMultiDiGraph.node
  edge := FnMultiDiGraph.edge
  edges := FnMultiDiGraph.edges
  add_node g n f := g.withNode n (f ((g.node n).getD default))
  add_edge g u v a :=
    let g' := (g.withNode u ((g.node u).getD default)).withNode v ((g.node v).getD default)
    g'.withEdge u v ((g.edge u v).insert (newKey (g.edge u v)) a)
  remove_edge g u v :=
    match (g.edge u v).keys.getLast? with
    | some k => .ok (g.withEdge u v ((g.edge u v).erase k))
    | none => .error .NetworkXError
  shortest_path g s t :=
    match search g.succ (g.pairs.length + 1) s t with
    | some p => .ok p
    | none => .error .NetworkXNoPath
  node_empty _ := rfl
  edge_empty _ _ := rfl
  node_add_node _ _ _ _ := rfl
  edge_add_node _ _ _ _ _ := rfl
  node_add_edge g u v a n := by
    show (if n = v then some ((g.node v).getD default)
      else if n = u then some ((g.node u).getD default) else g.node n) = _
    by_cases hv : n = v
    · subst hv; simp
    · by_cases hu : n = u
      · subst hu; simp [hv]
      · simp [hu, hv]
  edge_add_edge g u v a := by
    refine ⟨newKey (g.edge u v), newKey_notMem _, fun u' v' k' => ?_⟩
    show Dict.get (if u' = u ∧ v' = v then (g.edge u v).insert (newKey (g.edge u v)) a else g.edge u' v') k' = _
    by_cases h : u' = u ∧ v' = v
    · obtain ⟨rfl, rfl⟩ := h
      rw [if_pos ⟨rfl, rfl⟩, Dict.get_insert]
      simp
    · rw [if_neg h, if_neg (fun h' => h ⟨h'.1, h'.2.1⟩)]
  remove_edge_ok g u v hne := by
    have : (g.edge u v).keys ≠ [] := fun h => hne (entries_eq_nil.mp (List.map_eq_nil_iff.mp h))
    rw [List.getLast?_eq_some_getLast this]
    exact ⟨_, rfl⟩
  node_remove_edge g u v g' n h := by
    split at h <;> cases h
    rfl
  edge_remove_edge g u v g' h := by
    split at h
    · rename_i k hk
      cases h
      refine ⟨k, AList.mem_keys.mpr (List.mem_of_getLast? hk), fun u' v' k' => ?_⟩
      show Dict.get (if u' = u ∧ v' = v then (g.edge u v).erase k else g.edge u' v') k' = _
      by_cases h : u' = u ∧ v' = v
      · obtain ⟨rfl, rfl⟩ := h
        rw [if_pos ⟨rfl, rfl⟩, Dict.get_erase]
        simp
      · rw [if_neg h, if_neg (fun h' => h ⟨h'.1, h'.2.1⟩)]
    · cases h
  edges_perm g u v := by
    have h := filter_edges (fun p => (g.edge p.1 p.2).entries.map fun e => e.2) u v g.nodup
    have hedges : g.edges = g.pairs.flatMap fun p =>
        ((g.edge p.1 p.2).entries.map fun e => e.2).map fun a => (p.1, p.2, a) := by
      unfold FnMultiDiGraph.edges
      simp [Function.comp_def]
    rw [hedges, h]
    split
    · exact .refl _
    · rename_i hno
      have : (g.edge u v).entries = [] :=
        entries_eq_nil.mpr (not_not.mp fun hne => hno (g.mem_pairs u v hne))
      rw [this]
      exact .refl _
  shortest_path_ok g s t p h := by
    split at h
    · rename_i q hq
      cases h
      have := search_isShortest _ hq
      simpa only [mem_succ] using this
    · cases h

/-! ### Choosing the edge to remove -/

section
variable {ν β α : Type} [DecidableEq ν]

/-- A graph of any class as attribute functions. -/
def FnMultiDiGraph.copy [Inhabited β] (nx : MultiDiGraph ν β α) (g : nx.Graph) : FnMultiDiGraph ν β α where
  node := nx.node g
  edge := nx.edge g
  pairs := ((nx.edges g).map fun e => (e.1, e.2.1)).dedup
  nodup := List.nodup_dedup _
  mem_pairs u v hne := by
    obtain ⟨⟨k, a⟩, hka⟩ := List.exists_mem_of_ne_nil _ fun h => hne (entries_eq_nil.mp h)
    have hedge : nx.HasEdge g u v a := ⟨k, Dict.mem_entries.mp hka⟩
    exact List.mem_dedup.mpr (List.mem_map.mpr ⟨(u, v, a), nx.mem_edges.mpr hedge, rfl⟩)

/-- Any key but `k₀`, as long as there is one. -/
def otherKey (k₀ : Nat) (d : Dict Nat α) : Nat := (d.keys.find? (· ≠ k₀)).getD k₀

theorem otherKey_mem {k₀ : Nat} {d : Dict Nat α} (h : d.keys ≠ []) : otherKey k₀ d ∈ d := by
  unfold otherKey
  cases hfind : d.keys.find? (· ≠ k₀) with
  | some k => exact AList.mem_keys.mpr (List.mem_of_find?_eq_some hfind)
  | none =>
    obtain ⟨k, hk⟩ := List.exists_mem_of_ne_nil _ h
    have hall := List.find?_eq_none.mp hfind k hk
    simp only [ne_eq, decide_not, Bool.not_eq_eq_eq_not, Bool.not_true, decide_eq_false_iff_not, not_not] at hall
    rw [Option.getD_none, ← hall]
    exact AList.mem_keys.mpr hk

theorem otherKey_ne {k₀ : Nat} {d : Dict Nat α} (h : 2 ≤ d.keys.length) : otherKey k₀ d ≠ k₀ := by
  unfold otherKey
  cases hfind : d.keys.find? (· ≠ k₀) with
  | some k => simpa using List.find?_some hfind
  | none =>
    have hall : ∀ k ∈ d.keys, k = k₀ := fun k hk => by simpa using List.find?_eq_none.mp hfind k hk
    have hsub : d.keys ⊆ [k₀] := fun k hk => List.mem_singleton.mpr (hall k hk)
    have hlen := (List.subperm_of_subset d.keys_nodup hsub).length_le
    rw [List.length_singleton] at hlen
    omega

def FnMultiDiGraph.removeSparing (k₀ : Nat) (g : FnMultiDiGraph ν β α) (u v : ν) : Except Exn (FnMultiDiGraph ν β α) :=
  if (g.edge u v).keys = [] then .error .NetworkXError
  else .ok (g.withEdge u v ((g.edge u v).erase (otherKey k₀ (g.edge u v))))

/-- Graphs whose `remove_edge` spares the edge with key `k₀` as long as it can. -/
def sparingMultiDiGraph (ν β α : Type) [DecidableEq ν] [Inhabited β] (k₀ : Nat) : MultiDiGraph ν β α :=
  { fnMultiDiGraph ν β α with
    remove_edge := FnMultiDiGraph.removeSparing k₀
    remove_edge_ok := fun g u v hne =>
      ⟨_, if_neg fun h => hne (entries_eq_nil.mp (List.map_eq_nil_iff.mp h))⟩
    node_remove_edge := fun g u v g' n h => by
      unfold FnMultiDiGraph.removeSparing at h
      split at h <;> cases h
      rfl
    edge_remove_edge := fun g u v g' h => by
      unfold FnMultiDiGraph.removeSparing at h
      split at h
      · cases h
      · rename_i hkeys
        cases h
        refine ⟨otherKey k₀ (g.edge u v), otherKey_mem hkeys, fun u' v' k' => ?_⟩
        show Dict.get (if u' = u ∧ v' = v then (g.edge u v).erase _ else g.edge u' v') k' = _
        by_cases h : u' = u ∧ v' = v
        · obtain ⟨rfl, rfl⟩ := h
          rw [if_pos ⟨rfl, rfl⟩, Dict.get_erase]
          simp only [true_and]
          rfl
        · rw [if_neg h, if_neg (fun h' => h ⟨h'.1, h'.2.1⟩)]
          rfl }

theorem sparing_remove_edge {k₀ : Nat} {g g' : FnMultiDiGraph ν β α} {u v : ν}
    (h : g.removeSparing k₀ u v = .ok g') (htwo : 2 ≤ (g.edge u v).keys.length) (u' v' : ν) :
    (g'.edge u' v').get k₀ = (g.edge u' v').get k₀ := by
  unfold FnMultiDiGraph.removeSparing at h
  split at h
  · cases h
  · cases h
    show Dict.get (if u' = u ∧ v' = v then (g.edge u v).erase _ else g.edge u' v') k₀ = _
    split
    · rename_i huv
      obtain ⟨rfl, rfl⟩ := huv
      rw [Dict.get_erase, if_neg (otherKey_ne htwo).symm]
    · rfl

end

/-! ## DiGraph -/

structure FnDiGraph (ν α : Type) where
  has_node : ν → Bool
  edge : ν → ν → Option α
  pairs : List (ν × ν)
  mem_pairs : ∀ u v, (edge u v).isSome = true → (u, v) ∈ pairs

namespace FnDiGraph

variable {ν α : Type} [DecidableEq ν]

def succ (g : FnDiGraph ν α) (u : ν) : List ν :=
  (g.pairs.filter fun p => p.1 = u ∧ (g.edge p.1 p.2).isSome = true).map Prod.snd

theorem mem_succ {g : FnDiGraph ν α} {u v : ν} : v ∈ g.succ u ↔ (g.edge u v).isSome = true := by
  unfold succ
  simp only [List.mem_map, List.mem_filter, decide_eq_true_eq]
  constructor
  · intro h
    obtain ⟨⟨u', v'⟩, ⟨_, rfl, hs⟩, rfl⟩ := h
    exact hs
  · intro hs
    exact ⟨(u, v), ⟨g.mem_pairs u v hs, rfl, hs⟩, rfl⟩

def withNode (g : FnDiGraph ν α) (n : ν) : FnDiGraph ν α :=
  { g with has_node := fun m => decide (m = n) || g.has_node m }

def withEdge (g : FnDiGraph ν α) (u v : ν) (a : α) : FnDiGraph ν α where
  has_node n := decide (n = u ∨ n = v) || g.has_node n
  edge u' v' := if u' = u ∧ v' = v then some a else g.edge u' v'
  pairs := (u, v) :: g.pairs
  mem_pairs := by
    intro u' v' hs
    by_cases h : u' = u ∧ v' = v
    · obtain ⟨rfl, rfl⟩ := h
      exact List.mem_cons_self ..
    · rw [if_neg h] at hs
      exact List.mem_cons_of_mem _ (g.mem_pairs u' v' hs)

def without (g : FnDiGraph ν α) (n : ν) : FnDiGraph ν α where
  has_node m := decide (m ≠ n) && g.has_node m
  edge u v := if u = n ∨ v = n then none else g.edge u v
  pairs := g.pairs
  mem_pairs := by
    intro u v hs
    split at hs
    · cases hs
    · exact g.mem_pairs u v hs

end FnDiGraph

def fnDiGraph (ν α : Type) [DecidableEq ν] [Inhabited α] : DiGraph ν α where
  Graph := FnDiGraph ν α
  empty := ⟨fun _ => false, fun _ _ => none, [], fun _ _ h => by cases h⟩
  has_node := FnDiGraph.has_node
  edge := FnDiGraph.edge
  add_node := FnDiGraph.withNode
  add_edge g u v f := g.withEdge u v (f ((g.edge u v).getD default))
  remove_node g n := if g.has_node n = true then .ok (g.without n) else .error .NetworkXError
  shortest_path g s t :=
    match search g.succ (g.pairs.length + 1) s t with
    | some p => .ok p
    | none => .error .NetworkXNoPath
  has_node_empty _ := rfl
  edge_empty _ _ := rfl
  has_node_add_node _ _ _ := rfl
  edge_add_node _ _ _ _ := rfl
  has_node_add_edge _ _ _ _ _ := rfl
  edge_add_edge _ _ _ _ _ _ := rfl
  remove_node_ok g n h := ⟨g.without n, if_pos h⟩
  has_node_remove_node g n g' m h := by
    split at h <;> cases h
    rfl
  edge_remove_node g n g' u v h := by
    split at h <;> cases h
    rfl
  shortest_path_ok g s t p h := by
    split at h
    · rename_i q hq
      cases h
      have := search_isShortest _ hq
      simpa only [FnDiGraph.mem_succ] using this
    · cases h

/-! ## DiGraph with node attributes -/

structure FnAttrDiGraph (ν β α : Type) where
  node : ν → Option β
  edge : ν → ν → Option α

def fnAttrDiGraph (ν β α : Type) [DecidableEq ν] [Inhabited β] [Inhabited α] : AttrDiGraph ν β α where
  Graph := FnAttrDiGraph ν β α
  empty := ⟨fun _ => none, fun _ _ => none⟩
  node := FnAttrDiGraph.node
  edge := FnAttrDiGraph.edge
  add_node g n f := { g with node := fun m => if m = n then some (f ((g.node n).getD default)) else g.node m }
  add_edge g u v f := {
    node := fun n => if n = u ∨ n = v then some ((g.node n).getD default) else g.node n
    edge := fun u' v' => if u' = u ∧ v' = v then some (f ((g.edge u v).getD default)) else g.edge u' v' }
  remove_node g n :=
    if (g.node n).isSome = true then
      .ok {
        node := fun m => if m = n then none else g.node m
        edge := fun u v => if u = n ∨ v = n then none else g.edge u v }
    else .error .NetworkXError
  node_empty _ := rfl
  edge_empty _ _ := rfl
  node_add_node _ _ _ _ := rfl
  edge_add_node _ _ _ _ _ := rfl
  node_add_edge _ _ _ _ _ := rfl
  edge_add_edge _ _ _ _ _ _ := rfl
  remove_node_ok _ _ h := ⟨_, if_pos h⟩
  node_remove_node g n g' m h := by
    split at h <;> cases h
    rfl
  edge_remove_node g n g' u v h := by
    split at h <;> cases h
    rfl

/-! ## MultiGraph -/

structure FnMultiGraph (ν α : Type) where
  nodes : List ν
  edge : ν → ν → Option α
  pairs : List (ν × ν)
  mem_pairs : ∀ u v, (edge u v).isSome = true → (u, v) ∈ pairs
  comm : ∀ u v, edge u v = edge v u

namespace FnMultiGraph

variable {ν α : Type} [DecidableEq ν]

def succ (g : FnMultiGraph ν α) (u : ν) : List ν :=
  (g.pairs.filter fun p => p.1 = u ∧ (g.edge p.1 p.2).isSome).map Prod.snd

theorem mem_succ {g : FnMultiGraph ν α} {u v : ν} : v ∈ g.succ u ↔ (g.edge u v).isSome = true := by
  unfold succ
  simp only [List.mem_map, List.mem_filter, decide_eq_true_eq]
  constructor
  · intro h
    obtain ⟨⟨u', v'⟩, ⟨_, rfl, hs⟩, rfl⟩ := h
    exact hs
  · intro hs
    exact ⟨(u, v), ⟨g.mem_pairs u v hs, rfl, hs⟩, rfl⟩

/-- Adds a node at the end, if it is not there. -/
def addTo (l : List ν) (n : ν) : List ν := if n ∈ l then l else l ++ [n]

theorem addTo_of_mem {l : List ν} {n : ν} (h : n ∈ l) : addTo l n = l := if_pos h

theorem mem_addTo {l : List ν} {n m : ν} : m ∈ addTo l n ↔ m = n ∨ m ∈ l := by
  unfold addTo
  split
  · rename_i h
    exact ⟨Or.inr, fun hm => hm.elim (fun he => he ▸ h) fun hm => hm⟩
  · simp [or_comm]

def withEdge (g : FnMultiGraph ν α) (u v : ν) (a : α) : FnMultiGraph ν α where
  nodes := addTo (addTo g.nodes u) v
  edge u' v' := if (u' = u ∧ v' = v) ∨ (u' = v ∧ v' = u) then some a else g.edge u' v'
  pairs := (u, v) :: (v, u) :: g.pairs
  mem_pairs := by
    intro u' v' hs
    by_cases h : (u' = u ∧ v' = v) ∨ (u' = v ∧ v' = u)
    · rcases h with ⟨rfl, rfl⟩ | ⟨rfl, rfl⟩
      · simp
      · simp
    · rw [if_neg h] at hs
      exact List.mem_cons_of_mem _ (List.mem_cons_of_mem _ (g.mem_pairs u' v' hs))
  comm := by
    intro u' v'
    by_cases h : (u' = u ∧ v' = v) ∨ (u' = v ∧ v' = u)
    · rw [if_pos h, if_pos (h.symm.imp And.symm And.symm)]
    · rw [if_neg h, if_neg fun h' => h (h'.symm.imp And.symm And.symm), g.comm]

end FnMultiGraph

/-- A search that meets `None` fails. -/
def fnMultiGraph (ν α : Type) [DecidableEq ν] [Inhabited α] (null : ν → Prop) [DecidablePred null] : MultiGraph ν α null where
  Graph := FnMultiGraph ν α
  empty := ⟨[], fun _ _ => none, [], fun _ _ h => (by cases h), fun _ _ => rfl⟩
  nodes := FnMultiGraph.nodes
  edge := FnMultiGraph.edge
  add_node g n := { g with nodes := FnMultiGraph.addTo g.nodes n }
  add_edge g u v f := g.withEdge u v (f ((g.edge u v).getD default))
  shortest_path g s t :=
    match search g.succ (g.pairs.length + 1) s t with
    | some p => if ∃ n ∈ p, null n then .error .IndexError else .ok p
    | none => .error .NetworkXNoPath
  nodes_empty := rfl
  mem_nodes_add_node _ _ _ := FnMultiGraph.mem_addTo
  mem_nodes_add_edge g u v f m := by
    show m ∈ FnMultiGraph.addTo (FnMultiGraph.addTo g.nodes u) v ↔ _
    rw [FnMultiGraph.mem_addTo, FnMultiGraph.mem_addTo, or_left_comm]
  nodes_add_edge g u v f hu hv := by
    show FnMultiGraph.addTo (FnMultiGraph.addTo g.nodes u) v = g.nodes
    rw [FnMultiGraph.addTo_of_mem hu, FnMultiGraph.addTo_of_mem hv]
  edge_empty _ _ := rfl
  edge_comm g := g.comm
  edge_add_node _ _ _ _ := rfl
  edge_add_edge _ _ _ _ _ _ := rfl
  shortest_path_ok g s t p h := by
    split at h
    · rename_i q hq
      split at h
      · cases h
      · cases h
        have := search_isShortest _ hq
        exact ⟨p, by simpa only [FnMultiGraph.mem_succ] using this, Or.inl rfl⟩
    · cases h
  shortest_path_error g s t e q _ h hq := by
    split at h
    · rename_i q' hq'
      split at h
      · rename_i hnull
        have := search_isShortest _ hq'
        exact ⟨q', by simpa only [FnMultiGraph.mem_succ] using this, hnull⟩
      · cases h
    · rename_i hnone
      have hlen := length_le_of_nodup hq.nodup (hq.1.chain.imp fun u v huv => g.mem_pairs u v huv)
      have hlt := search_eq_none _ hnone (p := q) (by simpa only [FnMultiGraph.mem_succ] using hq.1)
      omega

end Networkx
