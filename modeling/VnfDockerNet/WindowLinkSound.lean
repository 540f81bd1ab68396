import VnfDockerNet.FailSound

/-!
# Which window links a switch takes along

When a switch leaves, the loop over the edges looks at their data, and asks for
some edge between the same controllers to be removed. The right edges go,
whichever one `remove_edge` takes, exactly when no two controllers have both a
link that ends at the switch and one that does not.
-/

namespace VnfDockerNet

open Python Networkx

namespace AppManager

section
variable {env : Env} {s : AppManager env.nx.Graph}

/-- The loop returns, and leaves exactly the edges that do not end at `dpid`. -/
def UnlinksExactly (env : Env) (s : AppManager env.nx.Graph) (dpid : Nat) : Prop :=
  wp (removeWindowEdges env dpid (env.nx.edges s.LC_LEVEL_TOPO)) s (fun _ s' => ∀ u v a,
    env.nx.HasEdge s'.LC_LEVEL_TOPO u v a ↔
      env.nx.HasEdge s.LC_LEVEL_TOPO u v a ∧ a.left_dpid ≠ dpid ∧ a.right_dpid ≠ dpid) fun _ _ => False

/-- The two topologies have the same edges under the same keys. -/
def SameLinks (env : Env) (s : AppManager env.nx.Graph) (env' : Env) (s' : AppManager env'.nx.Graph) : Prop :=
  ∀ u v k, (env'.nx.edge s'.LC_LEVEL_TOPO u v).get k = (env.nx.edge s.LC_LEVEL_TOPO u v).get k

/-- No edge from `u` to `v` ends at `dpid`, or each does, with one end. -/
def Unmixed (env : Env) (s : AppManager env.nx.Graph) (dpid : Nat) (u v : Lcid) : Prop :=
  (∀ a, env.nx.HasEdge s.LC_LEVEL_TOPO u v a → a.left_dpid ≠ dpid ∧ a.right_dpid ≠ dpid) ∨
    ∀ a, env.nx.HasEdge s.LC_LEVEL_TOPO u v a → (a.left_dpid = dpid ↔ a.right_dpid ≠ dpid)

/-! ## What the loop removes -/

/-- A relation between topologies that counts the removals, and that each
removal keeps, holds over the loop. -/
theorem wp_removeWindowEdges_counting {R : (Lcid → Lcid → Nat) → env.nx.Graph → env.nx.Graph → Prop}
    (hrefl : ∀ g, R (fun _ _ => 0) g g)
    (hstep : ∀ g g' u v, env.nx.remove_edge g u v = .ok g' → R (fun u' v' => if u' = u ∧ v' = v then 1 else 0) g' g)
    (htrans : ∀ n n' g g' g'', R n g' g → R n' g'' g' → R (fun u v => n u v + n' u v) g'' g) (dpid : Nat) :
    ∀ (es : List (Lcid × Lcid × LinkData)) (s : AppManager env.nx.Graph), wp (removeWindowEdges env dpid es) s
      (fun _ s' => R (fun u v => asked dpid u v es) s'.LC_LEVEL_TOPO s.LC_LEVEL_TOPO) fun _ _ => True
  | [], s => hrefl s.LC_LEVEL_TOPO
  | (u, v, data) :: es, s => by
    have hif : ∀ (hit : Bool) (s : AppManager env.nx.Graph), wp (removeEdgeIf env hit u v) s (fun _ s' =>
        R (fun u' v' => if hit = true ∧ u' = u ∧ v' = v then 1 else 0) s'.LC_LEVEL_TOPO s.LC_LEVEL_TOPO)
        fun _ _ => True := by
      intro hit s
      unfold removeEdgeIf
      cases hit with
      | false => simpa using hrefl s.LC_LEVEL_TOPO
      | true =>
        simp only [wp_bind, wp_get, wp_modify, wp_orRaise, if_true, true_and, implies_true, and_true]
        exact fun g hg => hstep _ _ _ _ hg
    have hsum : (fun u' v' => asked dpid u' v' ((u, v, data) :: es)) = fun u' v' =>
        (if decide (data.left_dpid = dpid) = true ∧ u' = u ∧ v' = v then 1 else 0) +
          ((if decide (data.right_dpid = dpid) = true ∧ u' = u ∧ v' = v then 1 else 0) + asked dpid u' v' es) := by
      funext u' v'
      have hl : (data.left_dpid = dpid ∧ u' = u ∧ v' = v) ↔ (u = u' ∧ v = v' ∧ data.left_dpid = dpid) := by tauto
      have hr : (data.right_dpid = dpid ∧ u' = u ∧ v' = v) ↔ (u = u' ∧ v = v' ∧ data.right_dpid = dpid) := by tauto
      unfold asked
      simp only [List.countP_cons, decide_eq_true_eq, hl, hr]
      omega
    rw [hsum, removeWindowEdges, wp_bind]
    refine wp_mono (hif _ s) (fun _ s₁ h₁ => ?_) fun _ _ _ => trivial
    rw [wp_bind]
    refine wp_mono (hif _ s₁) (fun _ s₂ h₂ => ?_) fun _ _ _ => trivial
    refine wp_mono (wp_removeWindowEdges_counting hrefl hstep htrans dpid es s₂) (fun _ s₃ h₃ => ?_) fun _ _ h => h
    exact htrans _ _ _ _ _ h₁ (htrans _ _ _ _ _ h₂ h₃)

theorem wp_removeWindowEdges_thinned (dpid : Nat) (es : List (Lcid × Lcid × LinkData)) (s : AppManager env.nx.Graph) :
    wp (removeWindowEdges env dpid es) s
      (fun _ s' => env.nx.Thinned (fun u v => asked dpid u v es) s'.LC_LEVEL_TOPO s.LC_LEVEL_TOPO) fun _ _ => True :=
  wp_removeWindowEdges_counting (R := fun n g' g => env.nx.Thinned n g' g) env.nx.thinned_refl
    (fun _ _ _ _ hg => env.nx.thinned_remove_edge hg) (fun _ _ _ _ _ h h' => h.trans env.nx h') dpid es s

/-! ## Edges and removals -/

variable {dpid : Nat} {u v : Lcid}

theorem asked_eq_zero_iff : asked dpid u v (env.nx.edges s.LC_LEVEL_TOPO) = 0 ↔
    ∀ a, env.nx.HasEdge s.LC_LEVEL_TOPO u v a → a.left_dpid ≠ dpid ∧ a.right_dpid ≠ dpid := by
  unfold asked
  rw [Nat.add_eq_zero_iff, List.countP_eq_zero, List.countP_eq_zero]
  simp only [decide_eq_true_eq]
  constructor
  · intro h a ha
    have hmem := env.nx.mem_edges.mpr ha
    exact ⟨fun hl => h.1 _ hmem ⟨rfl, rfl, hl⟩, fun hr => h.2 _ hmem ⟨rfl, rfl, hr⟩⟩
  · intro h
    refine ⟨fun e he hat => ?_, fun e he hat => ?_⟩
    · obtain ⟨rfl, rfl, hl⟩ := hat
      exact (h e.2.2 (env.nx.mem_edges.mp he)).1 hl
    · obtain ⟨rfl, rfl, hr⟩ := hat
      exact (h e.2.2 (env.nx.mem_edges.mp he)).2 hr

/-- What the loop asks for between `u` and `v`, counted over the edges between them. -/
theorem asked_eq : asked dpid u v (env.nx.edges s.LC_LEVEL_TOPO) =
    ((env.nx.edges s.LC_LEVEL_TOPO).filter fun e => e.1 = u ∧ e.2.1 = v).countP (fun e => e.2.2.left_dpid = dpid) +
      ((env.nx.edges s.LC_LEVEL_TOPO).filter fun e => e.1 = u ∧ e.2.1 = v).countP fun e => e.2.2.right_dpid = dpid := by
  unfold asked
  rw [List.countP_filter, List.countP_filter]
  simp only [← Bool.decide_and]
  congr 3
  · funext e
    simp only [decide_eq_decide]
    tauto
  · funext e
    simp only [decide_eq_decide]
    tauto

theorem asked_eq_parallel
    (h : ∀ a, env.nx.HasEdge s.LC_LEVEL_TOPO u v a → (a.left_dpid = dpid ↔ a.right_dpid ≠ dpid)) :
    asked dpid u v (env.nx.edges s.LC_LEVEL_TOPO) = env.nx.parallel s.LC_LEVEL_TOPO u v := by
  rw [asked_eq, ← env.nx.length_filter_edges]
  have hpoint : ∀ e ∈ (env.nx.edges s.LC_LEVEL_TOPO).filter fun e => e.1 = u ∧ e.2.1 = v,
      (e.2.2.left_dpid = dpid ↔ e.2.2.right_dpid ≠ dpid) := by
    intro e he
    obtain ⟨hmem, hat⟩ := List.mem_filter.mp he
    obtain ⟨rfl, rfl⟩ := of_decide_eq_true hat
    exact h e.2.2 (env.nx.mem_edges.mp hmem)
  rw [List.length_eq_countP_add_countP fun e => decide (e.2.2.right_dpid = dpid), Nat.add_comm]
  congr 1
  refine List.countP_congr fun e he => ?_
  have := hpoint e he
  simp [this]

/-- A list that two properties cover is no longer than both counts together, and
they exclude each other where it is as long. -/
theorem cover_countP {α : Type} {p q : α → Prop} [DecidablePred p] [DecidablePred q] : ∀ l : List α,
    (∀ e ∈ l, p e ∨ q e) → l.length ≤ l.countP (p ·) + l.countP (q ·) ∧
      (l.countP (p ·) + l.countP (q ·) = l.length → ∀ e ∈ l, (p e ↔ ¬ q e))
  | [], _ => ⟨le_rfl, fun _ _ he => absurd he List.not_mem_nil⟩
  | e :: l, h => by
    obtain ⟨hhere, hrest⟩ := List.forall_mem_cons.mp h
    obtain ⟨hle, heq⟩ := cover_countP l hrest
    simp only [List.countP_cons, List.length_cons, decide_eq_true_eq, List.forall_mem_cons]
    by_cases hp : p e
    · by_cases hq : q e
      · simp only [hp, hq, if_true]
        exact ⟨by omega, fun hn => by omega⟩
      · simp only [hp, hq, if_true, if_false, not_false_eq_true, true_and]
        exact ⟨by omega, fun hn => heq (by omega)⟩
    · have hq := hhere.resolve_left hp
      simp only [hp, hq, if_true, if_false, not_true_eq_false, true_and]
      exact ⟨by omega, fun hn => heq (by omega)⟩

/-- If all edges go, one end for each removal, then no edge has two ends at the switch when none has no end there. -/
theorem one_end_of_asked (hall : asked dpid u v (env.nx.edges s.LC_LEVEL_TOPO) = env.nx.parallel s.LC_LEVEL_TOPO u v)
    (hends : ∀ a, env.nx.HasEdge s.LC_LEVEL_TOPO u v a → a.left_dpid = dpid ∨ a.right_dpid = dpid) :
    ∀ a, env.nx.HasEdge s.LC_LEVEL_TOPO u v a → (a.left_dpid = dpid ↔ a.right_dpid ≠ dpid) := by
  rw [asked_eq, ← env.nx.length_filter_edges] at hall
  have hcover : ∀ e ∈ (env.nx.edges s.LC_LEVEL_TOPO).filter fun e => e.1 = u ∧ e.2.1 = v,
      e.2.2.left_dpid = dpid ∨ e.2.2.right_dpid = dpid := by
    intro e he
    obtain ⟨hmem, hat⟩ := List.mem_filter.mp he
    obtain ⟨rfl, rfl⟩ := of_decide_eq_true hat
    exact hends e.2.2 (env.nx.mem_edges.mp hmem)
  intro a ha
  exact (cover_countP _ hcover).2 hall (u, v, a) (List.mem_filter.mpr ⟨env.nx.mem_edges.mpr ha, by simp⟩)

/-! ## Whichever edge is taken -/

/-- The edge under `k₀` is still there, if fewer edges were asked for than there are. -/
def Spared (k₀ : Nat) (nx : MultiDiGraph Lcid LcNode LinkData) (n : Lcid → Lcid → Nat) (g' g : nx.Graph) : Prop :=
  nx.Thinned n g' g ∧ ∀ u v, n u v < nx.parallel g u v → (nx.edge g' u v).get k₀ = (nx.edge g u v).get k₀

def sparingEnv (env : Env) (k₀ : Nat) : Env := { env with nx := sparingMultiDiGraph Lcid LcNode LinkData k₀ }

theorem wp_removeWindowEdges_spared (dpid k₀ : Nat) (es : List (Lcid × Lcid × LinkData))
    (s : AppManager (sparingEnv env k₀).nx.Graph) : wp (removeWindowEdges (sparingEnv env k₀) dpid es) s
      (fun _ s' => Spared k₀ (sparingEnv env k₀).nx (fun u v => asked dpid u v es) s'.LC_LEVEL_TOPO s.LC_LEVEL_TOPO)
      fun _ _ => True := by
  refine wp_removeWindowEdges_counting (R := fun n g' g => Spared k₀ (sparingEnv env k₀).nx n g' g)
    (fun g => ⟨(sparingEnv env k₀).nx.thinned_refl g, fun _ _ _ => rfl⟩) (fun g g' u v hg => ?_)
    (fun n n' g g' g'' h h' => ?_) dpid es s
  · refine ⟨(sparingEnv env k₀).nx.thinned_remove_edge hg, fun u' v' hlt => ?_⟩
    by_cases huv : u' = u ∧ v' = v
    · obtain ⟨rfl, rfl⟩ := huv
      have htwo : (if u' = u' ∧ v' = v' then 1 else 0) < (sparingEnv env k₀).nx.parallel g u' v' := hlt
      rw [if_pos ⟨rfl, rfl⟩] at htwo
      exact sparing_remove_edge hg htwo u' v'
    · exact ((sparingEnv env k₀).nx.thinned_remove_edge hg u' v').2 (if_neg huv) k₀
  · refine ⟨h.1.trans _ h'.1, fun u v hlt => ?_⟩
    have hcount := (h.1 u v).1
    have hlt' : n u v + n' u v < (sparingEnv env k₀).nx.parallel g u v := hlt
    rw [h'.2 u v (by omega), h.2 u v (by omega)]

def sparing (s : AppManager env.nx.Graph) (k₀ : Nat) : AppManager (sparingEnv env k₀).nx.Graph :=
  { LC_LEVEL_TOPO := FnMultiDiGraph.copy env.nx s.LC_LEVEL_TOPO, lcs := s.lcs }

theorem sameLinks_sparing (k₀ : Nat) : SameLinks env s (sparingEnv env k₀) (sparing s k₀) := fun _ _ _ => rfl

theorem SameLinks.hasEdge {env' : Env} {s' : AppManager env'.nx.Graph} (h : SameLinks env s env' s') {a : LinkData} :
    env'.nx.HasEdge s'.LC_LEVEL_TOPO u v a ↔ env.nx.HasEdge s.LC_LEVEL_TOPO u v a := by
  unfold MultiDiGraph.HasEdge
  simp only [h u v]

theorem Unmixed.congr {env' : Env} {s' : AppManager env'.nx.Graph} (h : SameLinks env s env' s')
    (hu : Unmixed env s dpid u v) : Unmixed env' s' dpid u v := by
  unfold Unmixed
  simp only [h.hasEdge]
  exact hu

theorem unlinks_of_unmixed (h : ∀ u v, Unmixed env s dpid u v) : UnlinksExactly env s dpid := by
  have hasked : ∀ u v, asked dpid u v (env.nx.edges s.LC_LEVEL_TOPO) = 0 ∨
      asked dpid u v (env.nx.edges s.LC_LEVEL_TOPO) = env.nx.parallel s.LC_LEVEL_TOPO u v :=
    fun u v => (h u v).imp asked_eq_zero_iff.mpr asked_eq_parallel
  have hcompletes : Completes (removeWindowEdges env dpid (env.nx.edges s.LC_LEVEL_TOPO)) s := by
    refine (removeWindowEdges_completes_iff dpid _ s).mpr fun u v => ?_
    rcases hasked u v with hzero | hall
    · omega
    · exact hall.le
  refine hcompletes.wp (wp_mono (wp_removeWindowEdges_thinned dpid _ s) (fun _ s' hthin u v a => ?_) fun _ _ _ => trivial)
  rcases h u v with hout | hone
  · have hsame := (hthin u v).2 (asked_eq_zero_iff.mpr hout)
    have hiff : env.nx.HasEdge s'.LC_LEVEL_TOPO u v a ↔ env.nx.HasEdge s.LC_LEVEL_TOPO u v a := by
      unfold MultiDiGraph.HasEdge
      simp only [hsame]
    rw [hiff]
    exact ⟨fun ha => ⟨ha, hout a ha⟩, And.left⟩
  · have hcount : env.nx.parallel s'.LC_LEVEL_TOPO u v + asked dpid u v (env.nx.edges s.LC_LEVEL_TOPO) = _ := (hthin u v).1
    have hnone : env.nx.parallel s'.LC_LEVEL_TOPO u v = 0 := by
      have := asked_eq_parallel hone
      omega
    constructor
    · intro ha
      obtain ⟨k, hk⟩ := ha
      have hpos : 0 < env.nx.parallel s'.LC_LEVEL_TOPO u v :=
        List.length_pos_of_mem (AList.mem_keys.mp (Dict.mem_iff_get.mpr ⟨a, hk⟩))
      omega
    · intro ha
      obtain ⟨hedge, hl, hr⟩ := ha
      exact absurd ((hone a hedge).mpr hr) hl

theorem unmixed_of_unlinks {k₀ : Nat} {a₀ : LinkData} (hget : (env.nx.edge s.LC_LEVEL_TOPO u v).get k₀ = some a₀)
    (hend : a₀.left_dpid = dpid ∨ a₀.right_dpid = dpid)
    (h : UnlinksExactly (sparingEnv env k₀) (sparing s k₀) dpid) : Unmixed env s dpid u v := by
  have hpost := wp_mono (wp_and h (wp_removeWindowEdges_spared dpid k₀ _ _)) (fun _ _ h => h) fun _ _ h => h.1
  obtain ⟨_, s', hok, hexact, hthin, hspared⟩ := ok_of_wp hpost
  have hle := (removeWindowEdges_completes_iff dpid _ _).mp (wp_of_ok hok trivial) u v
  have hsame := sameLinks_sparing (s := s) k₀
  have hcount : (sparingEnv env k₀).nx.parallel s'.LC_LEVEL_TOPO u v +
      asked dpid u v ((sparingEnv env k₀).nx.edges (sparing s k₀).LC_LEVEL_TOPO) = _ := (hthin u v).1
  have hall : asked dpid u v ((sparingEnv env k₀).nx.edges (sparing s k₀).LC_LEVEL_TOPO) =
      (sparingEnv env k₀).nx.parallel (sparing s k₀).LC_LEVEL_TOPO u v := by
    refine hle.antisymm (not_lt.mp fun hlt => ?_)
    have hkept : (sparingEnv env k₀).nx.HasEdge s'.LC_LEVEL_TOPO u v a₀ := ⟨k₀, (hspared u v hlt).trans hget⟩
    obtain ⟨_, hl, hr⟩ := (hexact u v a₀).mp hkept
    exact hend.elim hl hr
  have hends : ∀ a, (sparingEnv env k₀).nx.HasEdge (sparing s k₀).LC_LEVEL_TOPO u v a →
      a.left_dpid = dpid ∨ a.right_dpid = dpid := by
    intro a ha
    by_contra hout
    obtain ⟨k, hk⟩ := (hexact u v a).mpr ⟨ha, fun hl => hout (Or.inl hl), fun hr => hout (Or.inr hr)⟩
    have hpos : 0 < (sparingEnv env k₀).nx.parallel s'.LC_LEVEL_TOPO u v :=
      List.length_pos_of_mem (AList.mem_keys.mp (Dict.mem_iff_get.mpr ⟨a, hk⟩))
    omega
  exact Or.inr fun a ha => one_end_of_asked hall hends a (hsame.hasEdge.mpr ha)

/-- **The links of the switch go, and no others, whichever edge `remove_edge`
takes, exactly when the links between two controllers all end at it or none does.** -/
theorem window_links_removed_iff (env : Env) (s : AppManager env.nx.Graph) (dpid : Nat) :
    (∀ (env' : Env) (s' : AppManager env'.nx.Graph), SameLinks env s env' s' → UnlinksExactly env' s' dpid) ↔
      ∀ u v, Unmixed env s dpid u v := by
  constructor
  · intro h u v
    by_cases hout : ∀ a, env.nx.HasEdge s.LC_LEVEL_TOPO u v a → a.left_dpid ≠ dpid ∧ a.right_dpid ≠ dpid
    · exact Or.inl hout
    · push Not at hout
      obtain ⟨a₀, ⟨k₀, hget⟩, hend⟩ := hout
      have hend' : a₀.left_dpid = dpid ∨ a₀.right_dpid = dpid := by
        by_cases hl : a₀.left_dpid = dpid
        · exact Or.inl hl
        · exact Or.inr (hend hl)
      exact unmixed_of_unlinks hget hend' (h _ _ (sameLinks_sparing k₀))
  · exact fun h env' s' hsame => unlinks_of_unmixed fun u v => (h u v).congr hsame

/-- Two links between the same controllers, from switch 5 to 6 and from 7 to 8. -/
def twoLinks : AppManager (sampleEnv []).nx.Graph :=
  { LC_LEVEL_TOPO := (sampleEnv []).nx.add_edge ((sampleEnv []).nx.add_edge
      ((sampleEnv []).nx.add_edge ((sampleEnv []).nx.add_edge (sampleEnv []).nx.empty
        (some 1) (some 2) ⟨5, 1, 6, 1⟩) (some 2) (some 1) ⟨6, 1, 5, 1⟩)
        (some 1) (some 2) ⟨7, 1, 8, 1⟩) (some 2) (some 1) ⟨8, 1, 7, 1⟩
    lcs := fun lc => { address := ("10.0.0.1", 40000 + lc), xid := lc } }

/-- Switch 7 leaves, and the link between 5 and 6 is removed for it. -/
theorem window_links_wrong_one :
    (sampleEnv []).nx.Mirrored LinkData.flip twoLinks.LC_LEVEL_TOPO ∧ (sampleEnv []).nx.NoTwins twoLinks.LC_LEVEL_TOPO ∧
      ¬ UnlinksExactly (sampleEnv []) twoLinks 7 := by
  have hflip : ∀ a : LinkData, a.flip.flip = a := fun _ => rfl
  have hempty : (sampleEnv []).nx.Mirrored LinkData.flip (sampleEnv []).nx.empty := fun _ _ _ h =>
    absurd h ((sampleEnv []).nx.not_hasEdge_empty)
  have hone := hempty.add_pair (sampleEnv []).nx hflip (u := some 1) (v := some 2) (a := ⟨5, 1, 6, 1⟩)
  have hnew : ¬ (sampleEnv []).nx.HasEdge ((sampleEnv []).nx.add_edge ((sampleEnv []).nx.add_edge (sampleEnv []).nx.empty
      (some 1) (some 2) ⟨5, 1, 6, 1⟩) (some 2) (some 1) ⟨6, 1, 5, 1⟩) (some 1) (some 2) ⟨7, 1, 8, 1⟩ := by
    rw [(sampleEnv []).nx.hasEdge_add_edge, (sampleEnv []).nx.hasEdge_add_edge]
    simp [(sampleEnv []).nx.not_hasEdge_empty]
  have hapart := hempty.noTwins_add_pair (sampleEnv []).nx hflip (sampleEnv []).nx.noTwins_empty (u := some 1) (v := some 2)
    (a := ⟨5, 1, 6, 1⟩) (by decide) (sampleEnv []).nx.not_hasEdge_empty
  refine ⟨hone.add_pair _ hflip, hone.noTwins_add_pair _ hflip hapart (by decide) hnew, fun h => ?_⟩
  have hkept : wp (removeWindowEdges (sampleEnv []) 7 ((sampleEnv []).nx.edges twoLinks.LC_LEVEL_TOPO)) twoLinks
      (fun _ s' => (some 1, some 2, (⟨5, 1, 6, 1⟩ : LinkData)) ∈ (sampleEnv []).nx.edges s'.LC_LEVEL_TOPO)
      (fun _ _ => False) := by
    refine wp_mono h (fun _ s' hs' => ?_) fun _ _ hf => hf
    have hlive : (sampleEnv []).nx.HasEdge twoLinks.LC_LEVEL_TOPO (some 1) (some 2) ⟨5, 1, 6, 1⟩ :=
      (sampleEnv []).nx.mem_edges.mp (by decide)
    exact (sampleEnv []).nx.mem_edges.mpr ((hs' _ _ _).mpr ⟨hlive, by decide, by decide⟩)
  exact absurd hkept (by decide)

end

end AppManager

end VnfDockerNet
