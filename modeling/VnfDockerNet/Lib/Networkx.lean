import Mathlib.Data.List.Chain
import Mathlib.Order.Lattice.Nat
import VnfDockerNet.Lib.Python

/-!
# Directed graphs in the way of networkx

A graph class is given by its operations and by what the documentation says of
them. Left open are the key of a new edge, the edge that `remove_edge` takes
out of several parallel ones, the order in which edges are listed, and which of
the shortest paths is returned. Attributes of a node or of an edge are updated
by a function, `default` standing for no attributes.
-/

namespace Networkx

open Python

/-! ## Shortest paths -/

/-- A path by the list of its nodes. -/
structure IsPath {ν : Type} (R : ν → ν → Prop) (s t : ν) (p : List ν) : Prop where
  chain : p.IsChain R
  head : p.head? = some s
  last : p.getLast? = some t

def IsShortest {ν : Type} (R : ν → ν → Prop) (s t : ν) (p : List ν) : Prop :=
  IsPath R s t p ∧ ∀ q, IsPath R s t q → p.length ≤ q.length

section
variable {ν : Type} {R : ν → ν → Prop} {s t x : ν}

theorem IsPath.cut {l₁ l₂ l₃ : List ν} (h : IsPath R s t (l₁ ++ x :: (l₂ ++ x :: l₃))) :
    IsPath R s t (l₁ ++ x :: l₃) := by
  have htail : (x :: l₃).IsChain R := by
    have := (List.isChain_append.mp h.chain).2.1
    rw [← List.cons_append] at this
    exact (List.isChain_append.mp this).2.1
  refine ⟨?_, ?_, ?_⟩
  · refine List.isChain_append.mpr ⟨(List.isChain_append.mp h.chain).1, htail, fun a ha b hb => ?_⟩
    have hb' : b ∈ (x :: (l₂ ++ x :: l₃)).head? := hb
    exact (List.isChain_append.mp h.chain).2.2 a ha b hb'
  · have := h.head
    cases l₁ with
    | nil => exact this
    | cons a l₁ => exact this
  · have := h.last
    rw [← List.cons_append, ← List.append_assoc, List.getLast?_append_of_ne_nil _ (by simp)] at this
    rw [List.getLast?_append_of_ne_nil _ (by simp)]
    exact this

theorem exists_split_of_not_nodup {l : List ν} (h : ¬ l.Nodup) :
    ∃ l₁ x l₂ l₃, l = l₁ ++ x :: (l₂ ++ x :: l₃) := by
  induction l with
  | nil => exact absurd List.nodup_nil h
  | cons a l ih =>
    by_cases ha : a ∈ l
    · obtain ⟨l₂, l₃, rfl⟩ := List.append_of_mem ha
      exact ⟨[], a, l₂, l₃, rfl⟩
    · obtain ⟨l₁, x, l₂, l₃, rfl⟩ := ih fun hn => h (List.nodup_cons.mpr ⟨ha, hn⟩)
      exact ⟨a :: l₁, x, l₂, l₃, rfl⟩

/-- **A shortest path visits no node twice.** -/
theorem IsShortest.nodup {p : List ν} (h : IsShortest R s t p) : p.Nodup := by
  by_contra hn
  obtain ⟨l₁, x, l₂, l₃, rfl⟩ := exists_split_of_not_nodup hn
  have hle := h.2 _ h.1.cut
  simp only [List.length_append, List.length_cons] at hle
  omega

theorem IsPath.first_hop {p : List ν} (h : IsPath R s t p) (hne : s ≠ t) : ∃ v rest, p = s :: v :: rest := by
  obtain ⟨tail, rfl⟩ := List.head?_eq_some_iff.mp h.head
  cases tail with
  | nil => exact absurd (Option.some.inj h.last) hne
  | cons v rest => exact ⟨v, rest, rfl⟩

theorem IsPath.from_node {p l₁ l₂ : List ν} (h : IsPath R s t p) (hp : p = l₁ ++ x :: l₂) : IsPath R x t (x :: l₂) := by
  subst hp
  refine ⟨(List.isChain_append.mp h.chain).2.1, rfl, ?_⟩
  have := h.last
  rw [List.getLast?_append_of_ne_nil _ (by simp)] at this
  exact this

theorem IsPath.join {l₁ l₂ q : List ν} (h : IsPath R s t (l₁ ++ x :: l₂)) (hq : IsPath R x t (x :: q)) :
    IsPath R s t (l₁ ++ x :: q) := by
  refine ⟨?_, ?_, ?_⟩
  · refine List.isChain_append.mpr ⟨(List.isChain_append.mp h.chain).1, hq.chain, fun a ha b hb => ?_⟩
    exact (List.isChain_append.mp h.chain).2.2 a ha b hb
  · have := h.head
    cases l₁ with
    | nil => exact this
    | cons a l₁ => exact this
  · rw [List.getLast?_append_of_ne_nil _ (by simp)]
    exact hq.last

theorem IsShortest.from_node {p l₁ l₂ : List ν} (h : IsShortest R s t p) (hp : p = l₁ ++ x :: l₂) :
    IsShortest R x t (x :: l₂) := by
  refine ⟨h.1.from_node hp, fun q hq => ?_⟩
  subst hp
  obtain ⟨q, rfl⟩ : ∃ l, q = x :: l := by
    cases q with
    | nil => cases hq.head
    | cons a q =>
      cases hq.head
      exact ⟨q, rfl⟩
  have hle := h.2 _ (h.1.join hq)
  simp only [List.length_append, List.length_cons] at hle ⊢
  omega

/-- A path without repetitions goes through no dead end. -/
theorem IsPath.through {dead : ν → Prop} (hturn : ∀ u v w, dead v → R u v → R v w → w = u) {p l₁ l₂ : List ν} {u v : ν}
    (h : IsPath R s t p) (hnodup : p.Nodup) (hs : ¬ dead s) (hsplit : p = l₁ ++ u :: v :: l₂) : ¬ dead u := by
  intro hu
  subst hsplit
  have huv := List.isChain_iff_forall_rel_of_append_cons_cons.mp h.chain rfl
  rcases List.eq_nil_or_concat l₁ with rfl | ⟨l, w, rfl⟩
  · have hhead := h.head
    cases hhead
    exact hs hu
  · rw [List.concat_eq_append, List.append_assoc] at h hnodup
    have hwu := List.isChain_iff_forall_rel_of_append_cons_cons.mp h.chain rfl
    have hvw := hturn w u v hu hwu huv
    subst hvw
    have := (List.nodup_append.mp hnodup).2.1
    simp at this

theorem IsShortest.restrict {R' : ν → ν → Prop} {p : List ν} (h : IsShortest R s t p) (hsub : ∀ u v, R' u v → R u v)
    (hp : p.IsChain R') : IsShortest R' s t p :=
  ⟨⟨hp, h.1.head, h.1.last⟩, fun q hq => h.2 q ⟨hq.chain.imp fun u v => hsub u v, hq.head, hq.last⟩⟩

/-- The number of nodes on a shortest path, if there is one. -/
noncomputable def dist (R : ν → ν → Prop) (t s : ν) : ℕ := sInf {n | ∃ p, IsPath R s t p ∧ p.length = n}

theorem IsPath.exists_isShortest {p : List ν} (h : IsPath R s t p) : ∃ q, IsShortest R s t q := by
  obtain ⟨q, hq, hlen⟩ := Nat.sInf_mem (s := {n | ∃ p, IsPath R s t p ∧ p.length = n}) ⟨_, p, h, rfl⟩
  refine ⟨q, hq, fun q' hq' => ?_⟩
  rw [hlen]
  exact Nat.sInf_le ⟨q', hq', rfl⟩

theorem IsShortest.dist_eq {p : List ν} (h : IsShortest R s t p) : dist R t s = p.length := by
  apply le_antisymm
  · exact Nat.sInf_le ⟨p, h.1, rfl⟩
  · obtain ⟨q, hq, hlen⟩ := Nat.sInf_mem (s := {n | ∃ p, IsPath R s t p ∧ p.length = n}) ⟨_, p, h.1, rfl⟩
    show p.length ≤ sInf {n | ∃ p, IsPath R s t p ∧ p.length = n}
    rw [← hlen]
    exact h.2 q hq

theorem IsShortest.dist_lt {p l₁ l₂ : List ν} {u v : ν} (h : IsShortest R s t p) (hp : p = l₁ ++ u :: v :: l₂) :
    dist R t v < dist R t u := by
  have hu := h.from_node hp
  have hcons : u :: v :: l₂ = [u] ++ v :: l₂ := rfl
  have hv := hu.from_node hcons
  rw [hu.dist_eq, hv.dist_eq]
  simp

end

/-! ## Graph classes -/

/-- `networkx.MultiDiGraph` with node attributes `β` and edge attributes `α`.
An absent entry of `edge[u]` and an empty one are both `∅`. -/
structure MultiDiGraph (ν β α : Type) [DecidableEq ν] [Inhabited β] where
  Graph : Type
  empty : Graph
  node : Graph → ν → Option β
  edge : Graph → ν → ν → Dict Nat α
  edges : Graph → List (ν × ν × α)
  add_node : Graph → ν → (β → β) → Graph
  add_edge : Graph → ν → ν → α → Graph
  remove_edge : Graph → ν → ν → Except Exn Graph
  shortest_path : Graph → ν → ν → Except Exn (List ν)
  node_empty : ∀ n, node empty n = none
  edge_empty : ∀ u v, edge empty u v = ∅
  node_add_node : ∀ g n f m, node (add_node g n f) m = if m = n then some (f ((node g n).getD default)) else node g m
  edge_add_node : ∀ g n f u v, edge (add_node g n f) u v = edge g u v
  node_add_edge : ∀ g u v a n,
    node (add_edge g u v a) n = if n = u ∨ n = v then some ((node g n).getD default) else node g n
  edge_add_edge : ∀ g u v a, ∃ k ∉ edge g u v, ∀ u' v' k', (edge (add_edge g u v a) u' v').get k' =
    if u' = u ∧ v' = v ∧ k' = k then some a else (edge g u' v').get k'
  remove_edge_ok : ∀ g u v, edge g u v ≠ ∅ → ∃ g', remove_edge g u v = .ok g'
  node_remove_edge : ∀ g u v g' n, remove_edge g u v = .ok g' → node g' n = node g n
  edge_remove_edge : ∀ g u v g', remove_edge g u v = .ok g' → ∃ k ∈ edge g u v, ∀ u' v' k',
    (edge g' u' v').get k' = if u' = u ∧ v' = v ∧ k' = k then none else (edge g u' v').get k'
  edges_perm : ∀ g u v, (((edges g).filter fun e => e.1 = u ∧ e.2.1 = v).map fun e => e.2.2).Perm
    ((edge g u v).entries.map fun e => e.2)
  shortest_path_ok : ∀ g s t p, shortest_path g s t = .ok p → IsShortest (fun u v => edge g u v ≠ ∅) s t p

/-- `networkx.DiGraph` with edge attributes `α` and no node attributes. -/
structure DiGraph (ν α : Type) [DecidableEq ν] [Inhabited α] where
  Graph : Type
  empty : Graph
  has_node : Graph → ν → Bool
  edge : Graph → ν → ν → Option α
  add_node : Graph → ν → Graph
  add_edge : Graph → ν → ν → (α → α) → Graph
  remove_node : Graph → ν → Except Exn Graph
  shortest_path : Graph → ν → ν → Except Exn (List ν)
  has_node_empty : ∀ n, has_node empty n = false
  edge_empty : ∀ u v, edge empty u v = none
  has_node_add_node : ∀ g n m, has_node (add_node g n) m = (decide (m = n) || has_node g m)
  edge_add_node : ∀ g n u v, edge (add_node g n) u v = edge g u v
  has_node_add_edge : ∀ g u v f n, has_node (add_edge g u v f) n = (decide (n = u ∨ n = v) || has_node g n)
  edge_add_edge : ∀ g u v f u' v', edge (add_edge g u v f) u' v' =
    if u' = u ∧ v' = v then some (f ((edge g u v).getD default)) else edge g u' v'
  remove_node_ok : ∀ g n, has_node g n = true → ∃ g', remove_node g n = .ok g'
  has_node_remove_node : ∀ g n g' m, remove_node g n = .ok g' → has_node g' m = (decide (m ≠ n) && has_node g m)
  edge_remove_node : ∀ g n g' u v, remove_node g n = .ok g' →
    edge g' u v = if u = n ∨ v = n then none else edge g u v
  shortest_path_ok : ∀ g s t p, shortest_path g s t = .ok p → IsShortest (fun u v => (edge g u v).isSome) s t p

/-- `networkx.DiGraph` with node attributes `β` and edge attributes `α`. -/
structure AttrDiGraph (ν β α : Type) [DecidableEq ν] [Inhabited β] [Inhabited α] where
  Graph : Type
  empty : Graph
  node : Graph → ν → Option β
  edge : Graph → ν → ν → Option α
  add_node : Graph → ν → (β → β) → Graph
  add_edge : Graph → ν → ν → (α → α) → Graph
  remove_node : Graph → ν → Except Exn Graph
  node_empty : ∀ n, node empty n = none
  edge_empty : ∀ u v, edge empty u v = none
  node_add_node : ∀ g n f m, node (add_node g n f) m = if m = n then some (f ((node g n).getD default)) else node g m
  edge_add_node : ∀ g n f u v, edge (add_node g n f) u v = edge g u v
  node_add_edge : ∀ g u v f n,
    node (add_edge g u v f) n = if n = u ∨ n = v then some ((node g n).getD default) else node g n
  edge_add_edge : ∀ g u v f u' v', edge (add_edge g u v f) u' v' =
    if u' = u ∧ v' = v then some (f ((edge g u v).getD default)) else edge g u' v'
  remove_node_ok : ∀ g n, (node g n).isSome = true → ∃ g', remove_node g n = .ok g'
  node_remove_node : ∀ g n g' m, remove_node g n = .ok g' → node g' m = if m = n then none else node g m
  edge_remove_node : ∀ g n g' u v, remove_node g n = .ok g' →
    edge g' u v = if u = n ∨ v = n then none else edge g u v

/-- `networkx.MultiGraph` without node attributes. Of several parallel edges only
the first, with key 0, is looked at and updated. `null` is what stands for
Python's `None`: the documentation excludes it as a node, but `add_edge` takes it,
and a path that is searched ends where it is met, so that a part of it comes back,
or an error. -/
structure MultiGraph (ν α : Type) [DecidableEq ν] [Inhabited α] (null : ν → Prop) where
  Graph : Type
  empty : Graph
  nodes : Graph → List ν
  edge : Graph → ν → ν → Option α
  add_node : Graph → ν → Graph
  add_edge : Graph → ν → ν → (α → α) → Graph
  shortest_path : Graph → ν → ν → Except Exn (List ν)
  nodes_empty : nodes empty = []
  mem_nodes_add_node : ∀ g n m, m ∈ nodes (add_node g n) ↔ m = n ∨ m ∈ nodes g
  mem_nodes_add_edge : ∀ g u v f m, m ∈ nodes (add_edge g u v f) ↔ m = u ∨ m = v ∨ m ∈ nodes g
  nodes_add_edge : ∀ g u v f, u ∈ nodes g → v ∈ nodes g → nodes (add_edge g u v f) = nodes g
  edge_empty : ∀ u v, edge empty u v = none
  edge_comm : ∀ g u v, edge g u v = edge g v u
  edge_add_node : ∀ g n u v, edge (add_node g n) u v = edge g u v
  edge_add_edge : ∀ g u v f u' v', edge (add_edge g u v f) u' v' =
    if (u' = u ∧ v' = v) ∨ (u' = v ∧ v' = u) then some (f ((edge g u v).getD default)) else edge g u' v'
  shortest_path_ok : ∀ g s t p, shortest_path g s t = .ok p → ∃ q, IsShortest (fun u v => (edge g u v).isSome) s t q ∧
    (p = q ∨ (∃ n ∈ q, null n) ∧ p ≠ [] ∧ p <:+: q)
  shortest_path_error : ∀ g s t e q, s ∈ nodes g → shortest_path g s t = .error e →
    IsShortest (fun u v => (edge g u v).isSome) s t q →
    ∃ q', IsShortest (fun u v => (edge g u v).isSome) s t q' ∧ ∃ n ∈ q', null n

namespace MultiDiGraph

variable {ν β α : Type} [DecidableEq ν] [Inhabited β] (nx : MultiDiGraph ν β α) {g g' : nx.Graph} {u v : ν} {a : α}

def HasEdge (g : nx.Graph) (u v : ν) (a : α) : Prop := ∃ k, (nx.edge g u v).get k = some a

theorem mem_edges : (u, v, a) ∈ nx.edges g ↔ nx.HasEdge g u v a := by
  have hperm := nx.edges_perm g u v
  constructor
  · intro h
    have : a ∈ ((nx.edges g).filter fun e => e.1 = u ∧ e.2.1 = v).map fun e => e.2.2 :=
      List.mem_map.mpr ⟨(u, v, a), List.mem_filter.mpr ⟨h, by simp⟩, rfl⟩
    obtain ⟨⟨k, b⟩, hb, rfl⟩ := List.mem_map.mp (hperm.mem_iff.mp this)
    exact ⟨k, Dict.mem_entries.mp hb⟩
  · intro hx
    obtain ⟨k, hk⟩ := hx
    have hb := Dict.mem_entries.mpr hk
    obtain ⟨⟨u', v', b⟩, hmem, rfl⟩ :=
      List.mem_map.mp (hperm.mem_iff.mpr (List.mem_map.mpr ⟨⟨k, a⟩, hb, rfl⟩))
    obtain ⟨hmem', hcond⟩ := List.mem_filter.mp hmem
    obtain ⟨rfl, rfl⟩ := of_decide_eq_true hcond
    exact hmem'

theorem not_hasEdge_empty : ¬ nx.HasEdge nx.empty u v a := by
  intro h
  obtain ⟨k, hk⟩ := h
  rw [nx.edge_empty, Dict.get_empty] at hk
  cases hk

theorem hasEdge_add_node {n : ν} {f : β → β} : nx.HasEdge (nx.add_node g n f) u v a ↔ nx.HasEdge g u v a := by
  unfold HasEdge; rw [nx.edge_add_node]

theorem hasEdge_add_edge {u' v' : ν} {b : α} :
    nx.HasEdge (nx.add_edge g u v a) u' v' b ↔ (u' = u ∧ v' = v ∧ b = a) ∨ nx.HasEdge g u' v' b := by
  obtain ⟨k, hk, hl⟩ := nx.edge_add_edge g u v a
  constructor
  · intro hx
    obtain ⟨k', hk'⟩ := hx
    rw [hl] at hk'
    split at hk'
    · rename_i h
      cases hk'
      exact Or.inl ⟨h.1, h.2.1, rfl⟩
    · exact Or.inr ⟨k', hk'⟩
  · intro hx
    rcases hx with ⟨rfl, rfl, rfl⟩ | ⟨k', hk'⟩
    · exact ⟨k, by rw [hl, if_pos ⟨rfl, rfl, rfl⟩]⟩
    · refine ⟨k', ?_⟩
      rw [hl, if_neg]
      · exact hk'
      · intro hx
        obtain ⟨rfl, rfl, rfl⟩ := hx
        exact hk (Dict.mem_iff_get.mpr ⟨b, hk'⟩)

def NoTwins (g : nx.Graph) : Prop :=
  ∀ u v k k' a, (nx.edge g u v).get k = some a → (nx.edge g u v).get k' = some a → k = k'

theorem noTwins_empty : nx.NoTwins nx.empty := by
  intro u v k k' a h
  rw [nx.edge_empty, Dict.get_empty] at h
  cases h

theorem noTwins_add_edge (h : nx.NoTwins g) (hn : ¬ nx.HasEdge g u v a) : nx.NoTwins (nx.add_edge g u v a) := by
  obtain ⟨k₀, _, hl⟩ := nx.edge_add_edge g u v a
  intro u' v' k k' b hk hk'
  rw [hl] at hk hk'
  by_cases h₁ : u' = u ∧ v' = v ∧ k = k₀
  · by_cases h₂ : u' = u ∧ v' = v ∧ k' = k₀
    · exact h₁.2.2.trans h₂.2.2.symm
    · rw [if_pos h₁] at hk
      rw [if_neg h₂] at hk'
      obtain ⟨rfl, rfl, _⟩ := h₁
      cases hk
      exact absurd ⟨k', hk'⟩ hn
  · rw [if_neg h₁] at hk
    by_cases h₂ : u' = u ∧ v' = v ∧ k' = k₀
    · rw [if_pos h₂] at hk'
      obtain ⟨rfl, rfl, _⟩ := h₂
      cases hk'
      exact absurd ⟨k, hk⟩ hn
    · rw [if_neg h₂] at hk'
      exact h u' v' k k' b hk hk'

def parallel (g : nx.Graph) (u v : ν) : Nat := (nx.edge g u v).keys.length

theorem edge_ne_empty_of_parallel (h : 0 < nx.parallel g u v) : nx.edge g u v ≠ ∅ := by
  intro he
  unfold parallel at h
  rw [he] at h
  exact absurd h (lt_irrefl 0)

theorem length_filter_edges (g : nx.Graph) (u v : ν) :
    ((nx.edges g).filter fun e => e.1 = u ∧ e.2.1 = v).length = nx.parallel g u v := by
  have h := (nx.edges_perm g u v).length_eq
  rw [List.length_map, List.length_map] at h
  unfold parallel AList.keys List.keys
  rw [List.length_map, h]

theorem parallel_remove_edge (h : nx.remove_edge g u v = .ok g') (u' v' : ν) :
    nx.parallel g' u' v' = if u' = u ∧ v' = v then nx.parallel g u v - 1 else nx.parallel g u' v' := by
  obtain ⟨k, hk, hl⟩ := nx.edge_remove_edge g u v g' h
  have hkeys : ∀ d d' : Dict Nat α, (∀ k, d.get k = d'.get k) → d.keys.length = d'.keys.length := fun d d' hd => by
    have hperm : d.entries.Perm d'.entries :=
      List.lookup_ext d.nodupKeys d'.nodupKeys fun x y => by
        have : List.dlookup x d.entries = List.dlookup x d'.entries := hd x
        rw [this]
    exact (hperm.map Sigma.fst).length_eq
  unfold parallel
  split
  · rename_i huv
    obtain ⟨rfl, rfl⟩ := huv
    rw [hkeys (nx.edge g' u' v') ((nx.edge g u' v').erase k) fun k' => ?_, AList.keys_erase,
      List.length_erase_of_mem (AList.mem_keys.mp hk)]
    rw [hl, Dict.get_erase]
    simp
  · rename_i huv
    apply hkeys
    intro k'
    rw [hl, if_neg fun h' => huv ⟨h'.1, h'.2.1⟩]

/-- `g'` is `g` without `n u v` of its edges from `u` to `v`. -/
def Thinned (n : ν → ν → Nat) (g' g : nx.Graph) : Prop :=
  ∀ u v, nx.parallel g' u v + n u v = nx.parallel g u v ∧
    (n u v = 0 → ∀ k, (nx.edge g' u v).get k = (nx.edge g u v).get k)

theorem thinned_refl (g : nx.Graph) : nx.Thinned (fun _ _ => 0) g g := fun _ _ => ⟨rfl, fun _ _ => rfl⟩

theorem Thinned.trans {n n' : ν → ν → Nat} {g g' g'' : nx.Graph} (h : nx.Thinned n g' g) (h' : nx.Thinned n' g'' g') :
    nx.Thinned (fun u v => n u v + n' u v) g'' g := by
  intro u v
  have hcount := (h u v).1
  have hcount' := (h' u v).1
  show nx.parallel g'' u v + (n u v + n' u v) = nx.parallel g u v ∧ (n u v + n' u v = 0 → _)
  refine ⟨by omega, fun hzero k => ?_⟩
  rw [(h' u v).2 (by omega) k, (h u v).2 (by omega) k]

theorem thinned_remove_edge (h : nx.remove_edge g u v = .ok g') :
    nx.Thinned (fun u' v' => if u' = u ∧ v' = v then 1 else 0) g' g := by
  intro u' v'
  obtain ⟨k, hk, hl⟩ := nx.edge_remove_edge g u v g' h
  have hpos : 0 < nx.parallel g u v := List.length_pos_of_mem (AList.mem_keys.mp hk)
  rw [nx.parallel_remove_edge h]
  by_cases huv : u' = u ∧ v' = v
  · obtain ⟨rfl, rfl⟩ := huv
    simp only [and_self, if_true, one_ne_zero, false_implies, and_true]
    omega
  · simp only [huv, if_false, add_zero, true_implies, true_and]
    intro k'
    rw [hl, if_neg fun h' => huv ⟨h'.1, h'.2.1⟩]

def Mirrored (flip : α → α) (g : nx.Graph) : Prop := ∀ u v a, nx.HasEdge g u v a → nx.HasEdge g v u (flip a)

section
variable {flip : α → α} (hflip : ∀ a, flip (flip a) = a)

include hflip in
theorem Mirrored.iff (h : nx.Mirrored flip g) : nx.HasEdge g u v a ↔ nx.HasEdge g v u (flip a) :=
  ⟨h u v a, fun hm => hflip a ▸ h v u (flip a) hm⟩

include hflip in
theorem Mirrored.add_pair (h : nx.Mirrored flip g) :
    nx.Mirrored flip (nx.add_edge (nx.add_edge g u v a) v u (flip a)) := by
  intro u' v' b hb
  simp only [nx.hasEdge_add_edge] at hb ⊢
  rcases hb with ⟨rfl, rfl, rfl⟩ | ⟨rfl, rfl, rfl⟩ | hb
  · exact Or.inr (Or.inl ⟨rfl, rfl, hflip a⟩)
  · exact Or.inl ⟨rfl, rfl, rfl⟩
  · exact Or.inr (Or.inr (h u' v' b hb))

include hflip in
theorem Mirrored.noTwins_add_pair (h : nx.Mirrored flip g) (ht : nx.NoTwins g) (hne : u ≠ v)
    (hn : ¬ nx.HasEdge g u v a) : nx.NoTwins (nx.add_edge (nx.add_edge g u v a) v u (flip a)) := by
  apply nx.noTwins_add_edge (nx.noTwins_add_edge ht hn)
  intro hm
  rcases nx.hasEdge_add_edge.mp hm with ⟨hvu, _⟩ | hm
  · exact hne hvu.symm
  · exact hn ((h.iff nx hflip).mpr hm)

end

/-- The nodes of `g` with some of its edges. -/
def Spanning (g' g : nx.Graph) : Prop :=
  (∀ n, nx.node g' n = nx.node g n) ∧ ∀ u v a, nx.HasEdge g' u v a → nx.HasEdge g u v a

theorem Spanning.refl (g : nx.Graph) : nx.Spanning g g := ⟨fun _ => rfl, fun _ _ _ h => h⟩

theorem Spanning.trans {g g' g'' : nx.Graph} (h : nx.Spanning g'' g') (h' : nx.Spanning g' g) : nx.Spanning g'' g :=
  ⟨fun n => (h.1 n).trans (h'.1 n), fun u v a he => h'.2 u v a (h.2 u v a he)⟩

theorem spanning_remove_edge (h : nx.remove_edge g u v = .ok g') : nx.Spanning g' g := by
  obtain ⟨k, _, hl⟩ := nx.edge_remove_edge g u v g' h
  refine ⟨fun n => nx.node_remove_edge g u v g' n h, fun u' v' b hb => ?_⟩
  obtain ⟨k', hk'⟩ := hb
  rw [hl] at hk'
  split at hk'
  · cases hk'
  · exact ⟨k', hk'⟩

end MultiDiGraph

namespace MultiGraph

variable {ν α : Type} [DecidableEq ν] [Inhabited α] {null : ν → Prop} (nx : MultiGraph ν α null) {g : nx.Graph} {s t : ν} {p : List ν}

def Joined (g : nx.Graph) (u v : ν) : Prop := (nx.edge g u v).isSome = true

/-- No shortest path between the two leads over `None`. -/
def Clear (g : nx.Graph) (s t : ν) : Prop := ∀ q, IsShortest (nx.Joined g) s t q → ∀ n ∈ q, ¬ null n

/-- A path that is found is a part of a shortest one. -/
theorem part_of_found (h : nx.shortest_path g s t = .ok p) : p.IsChain (nx.Joined g) ∧ p.Nodup ∧ p ≠ [] := by
  obtain ⟨q, hq, hpart⟩ := nx.shortest_path_ok g s t p h
  rcases hpart with rfl | ⟨_, hne, hpart⟩
  · refine ⟨hq.1.chain, hq.nodup, fun hnil => ?_⟩
    have hhead := hq.1.head
    rw [hnil] at hhead
    cases hhead
  · have hchain := List.IsChain.infix hq.1.chain hpart
    exact ⟨hchain, hq.nodup.sublist hpart.sublist, hne⟩

theorem shortest_of_found (hclear : nx.Clear g s t) (h : nx.shortest_path g s t = .ok p) : IsShortest (nx.Joined g) s t p := by
  obtain ⟨q, hq, hpart⟩ := nx.shortest_path_ok g s t p h
  rcases hpart with rfl | ⟨⟨n, hn, hnull⟩, _⟩
  · exact hq
  · exact absurd hnull (hclear q hq n hn)

theorem not_path_of_error (hclear : nx.Clear g s t) (hs : s ∈ nx.nodes g) {e : Exn} (h : nx.shortest_path g s t = .error e) :
    ¬ IsPath (nx.Joined g) s t p := by
  intro hp
  obtain ⟨q, hq⟩ := hp.exists_isShortest
  obtain ⟨q', hq', n, hn, hnull⟩ := nx.shortest_path_error g s t e q hs h hq
  exact hclear q' hq' n hn hnull

end MultiGraph

/-! ## Leaves of a directed graph -/

namespace DiGraph

section
variable {ν α : Type} [DecidableEq ν] [Inhabited α] (nx : DiGraph ν α)

/-- The nodes with `leaf` that are in `g` are those with `present`. Each is
joined to its home, if it has one, by an edge with the attributes `home` gives
and one the other way, and to nothing else. -/
structure Leaves (leaf present : ν → Prop) (home : ν → Option (ν × α)) (g : nx.Graph) : Prop where
  hub : ∀ n u a, leaf n → home n = some (u, a) → ¬ leaf u
  node : ∀ n, leaf n → (nx.has_node g n = true ↔ present n)
  into : ∀ n u a, leaf n → (nx.edge g u n = some a ↔ home n = some (u, a))
  back : ∀ n u, leaf n → ((nx.edge g n u).isSome = true ↔ ∃ a, home n = some (u, a))

variable {nx} {leaf present : ν → Prop} {home : ν → Option (ν × α)} {g g' : nx.Graph} {n u v : ν}

theorem leaves_empty : nx.Leaves leaf (fun _ => False) (fun _ => none) nx.empty where
  hub n u a _ h := by cases h
  node n _ := by simp [nx.has_node_empty]
  into n u a _ := by simp [nx.edge_empty]
  back n u _ := by simp [nx.edge_empty]

theorem Leaves.add_hub (h : nx.Leaves leaf present home g) (hu : ¬ leaf u) :
    nx.Leaves leaf present home (nx.add_node g u) where
  hub := h.hub
  node n hn := by
    have hne : n ≠ u := fun he => hu (he ▸ hn)
    simp [nx.has_node_add_node, hne, h.node n hn]
  into n w a hn := by rw [nx.edge_add_node]; exact h.into n w a hn
  back n w hn := by rw [nx.edge_add_node]; exact h.back n w hn

theorem Leaves.join_hubs (h : nx.Leaves leaf present home g) (hu : ¬ leaf u) (hv : ¬ leaf v) (f : α → α) :
    nx.Leaves leaf present home (nx.add_edge g u v f) where
  hub := h.hub
  node n hn := by
    have hne : ¬ (n = u ∨ n = v) := fun he => he.elim (fun he => hu (he ▸ hn)) fun he => hv (he ▸ hn)
    simp [nx.has_node_add_edge, hne, h.node n hn]
  into n w a hn := by
    have hne : ¬ (w = u ∧ n = v) := fun he => hv (he.2 ▸ hn)
    rw [nx.edge_add_edge, if_neg hne]
    exact h.into n w a hn
  back n w hn := by
    have hne : ¬ (n = u ∧ w = v) := fun he => hu (he.1 ▸ hn)
    rw [nx.edge_add_edge, if_neg hne]
    exact h.back n w hn

theorem Leaves.attach (h : nx.Leaves leaf present home g) (hn : leaf n) (hu : ¬ leaf u) (hhome : home n = none)
    (a : α) (f : α → α) :
    nx.Leaves leaf (fun m => m = n ∨ present m) (Function.update home n (some (u, a)))
      (nx.add_edge (nx.add_edge (nx.add_node g n) u n fun _ => a) n u f) := by
  have hnu : n ≠ u := fun he => hu (he ▸ hn)
  have hedge : ∀ v w, nx.edge (nx.add_edge (nx.add_edge (nx.add_node g n) u n fun _ => a) n u f) v w =
      if v = n ∧ w = u then some (f ((nx.edge g n u).getD default))
      else if v = u ∧ w = n then some a else nx.edge g v w := fun v w => by
    have hinner : ∀ v w, nx.edge (nx.add_edge (nx.add_node g n) u n fun _ => a) v w =
        if v = u ∧ w = n then some a else nx.edge g v w := fun v w => by
      rw [nx.edge_add_edge]
      simp only [nx.edge_add_node]
    have hback : nx.edge (nx.add_edge (nx.add_node g n) u n fun _ => a) n u = nx.edge g n u := by
      rw [hinner, if_neg fun he => hnu he.1]
    rw [nx.edge_add_edge, hback, hinner v w]
  refine ⟨fun m w b hm hb => ?_, fun m hm => ?_, fun m w b hm => ?_, fun m w hm => ?_⟩
  · by_cases hmn : m = n
    · rw [hmn, Function.update_self] at hb
      cases hb
      exact hu
    · rw [Function.update_of_ne hmn] at hb
      exact h.hub m w b hm hb
  · have hmu : m ≠ u := fun he => hu (he ▸ hm)
    simp [nx.has_node_add_edge, nx.has_node_add_node, hmu, h.node m hm]
  · have hmu : m ≠ u := fun he => hu (he ▸ hm)
    rw [hedge, if_neg fun he => hmu he.2]
    by_cases hmn : m = n
    · subst hmn
      rw [Function.update_self]
      by_cases hw : w = u
      · simp [hw]
      · have hno : nx.edge g w m ≠ some b := fun he => by
          have := (h.into m w b hm).mp he
          rw [hhome] at this
          cases this
        simp [hw, hno, Ne.symm hw]
    · rw [if_neg fun he => hmn he.2, Function.update_of_ne hmn]
      exact h.into m w b hm
  · have hmu : m ≠ u := fun he => hu (he ▸ hm)
    rw [hedge]
    by_cases hmn : m = n
    · subst hmn
      rw [Function.update_self]
      by_cases hw : w = u
      · simp [hw]
      · have hno : (nx.edge g m w).isSome ≠ true := fun he => by
          obtain ⟨b, hb⟩ := (h.back m w hm).mp he
          rw [hhome] at hb
          cases hb
        simp [hw, hmu, hno, Ne.symm hw]
    · rw [if_neg fun he => hmn he.1, if_neg fun he => hmu he.1, Function.update_of_ne hmn]
      exact h.back m w hm

theorem Leaves.detach (h : nx.Leaves leaf present home g) (hn : leaf n) (hg : nx.remove_node g n = .ok g') :
    nx.Leaves leaf (fun m => m ≠ n ∧ present m) (Function.update home n none) g' := by
  refine ⟨fun m w b hm hb => ?_, fun m hm => ?_, fun m w b hm => ?_, fun m w hm => ?_⟩
  · by_cases hmn : m = n
    · rw [hmn, Function.update_self] at hb
      cases hb
    · rw [Function.update_of_ne hmn] at hb
      exact h.hub m w b hm hb
  · simp [nx.has_node_remove_node g n g' m hg, h.node m hm]
  · rw [nx.edge_remove_node g n g' w m hg]
    by_cases hmn : m = n
    · simp [hmn]
    · rw [Function.update_of_ne hmn]
      by_cases hw : w = n
      · have hno : home m ≠ some (w, b) := fun hb => h.hub m w b hm hb (hw ▸ hn)
        simp [hw, hw ▸ hno]
      · rw [if_neg (not_or.mpr ⟨hw, hmn⟩)]
        exact h.into m w b hm
  · rw [nx.edge_remove_node g n g' m w hg]
    by_cases hmn : m = n
    · simp [hmn]
    · rw [Function.update_of_ne hmn]
      by_cases hw : w = n
      · have hno : ∀ b, home m ≠ some (w, b) := fun b hb => h.hub m w b hm hb (hw ▸ hn)
        simp [hw, hw ▸ hno]
      · rw [if_neg (not_or.mpr ⟨hmn, hw⟩)]
        exact h.back m w hm

theorem Leaves.remove_hub (h : nx.Leaves leaf present home g) (hu : ¬ leaf u) (hg : nx.remove_node g u = .ok g') :
    nx.Leaves leaf present (fun n => (home n).filter fun x => x.1 ≠ u) g' := by
  have hhome : ∀ n w a, (home n).filter (fun x => x.1 ≠ u) = some (w, a) ↔ home n = some (w, a) ∧ w ≠ u :=
    fun n w a => by simp
  refine ⟨fun m w b hm hb => ?_, fun m hm => ?_, fun m w b hm => ?_, fun m w hm => ?_⟩
  · exact h.hub m w b hm ((hhome m w b).mp hb).1
  · have hmu : m ≠ u := fun he => hu (he ▸ hm)
    simp [nx.has_node_remove_node g u g' m hg, hmu, h.node m hm]
  · have hmu : m ≠ u := fun he => hu (he ▸ hm)
    rw [nx.edge_remove_node g u g' w m hg, hhome]
    by_cases hw : w = u
    · simp [hw]
    · rw [if_neg (not_or.mpr ⟨hw, hmu⟩), h.into m w b hm]
      simp [hw]
  · have hmu : m ≠ u := fun he => hu (he ▸ hm)
    rw [nx.edge_remove_node g u g' m w hg]
    by_cases hw : w = u
    · simp [hw]
    · rw [if_neg (not_or.mpr ⟨hmu, hw⟩), h.back m w hm]
      simp [hw]

/-- From a leaf there is only the way back. -/
theorem Leaves.turn {w : ν} (h : nx.Leaves leaf present home g) (hv : leaf v) (huv : (nx.edge g u v).isSome = true)
    (hvw : (nx.edge g v w).isSome = true) : w = u := by
  obtain ⟨a, ha⟩ := Option.isSome_iff_exists.mp huv
  obtain ⟨b, hb⟩ := (h.back v w hv).mp hvw
  have hu := (h.into v u a hv).mp ha
  rw [hb] at hu
  cases hu
  rfl

/-- On a path without repetitions that starts at a hub, every node but the last is a hub. -/
theorem Leaves.hub_of_path {s t : ν} {p l₁ l₂ : List ν} (h : nx.Leaves leaf present home g)
    (hp : IsPath (fun u v => (nx.edge g u v).isSome) s t p) (hnodup : p.Nodup) (hs : ¬ leaf s)
    (hsplit : p = l₁ ++ u :: v :: l₂) : ¬ leaf u :=
  hp.through (fun _ _ _ hv huv hvw => h.turn hv huv hvw) hnodup hs hsplit

end

end DiGraph

end Networkx
