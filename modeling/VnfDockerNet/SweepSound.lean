import VnfDockerNet.TopoSound

/-!
# The check of the window links

The links of `LC_LEVEL_TOPO` have the attributes that the handler of GRAPH_INFO
gives them. The check looks each link up under the names of a window record
instead, and its first lookup fails.
-/

namespace VnfDockerNet

open Python Networkx

namespace AppManager

section
variable {env : Env} {s : AppManager env.nx.Graph}

/-- Both ends of the link have the same home controller now. -/
def Stale (s : AppManager env.nx.Graph) (a : LinkData) : Prop :=
  ∃ ctrl ∈ homeOf s a.left_dpid, homeOf s a.right_dpid = some ctrl

instance (s : AppManager env.nx.Graph) (a : LinkData) : Decidable (Stale s a) := Option.decidableExistsMem _

/-- The pass returns, and leaves of each edge list the edges that are not stale. -/
def SweepsStale (env : Env) (s : AppManager env.nx.Graph) : Prop :=
  wp (_check_window_link_validity env) s (fun _ s' => ∀ u v k a,
    (env.nx.edge s'.LC_LEVEL_TOPO u v).get k = some a ↔ (env.nx.edge s.LC_LEVEL_TOPO u v).get k = some a ∧ ¬ Stale s a)
    fun _ _ => False

/-- Every link was given attributes, but none under the name the check asks for. -/
theorem no_src_dpid (a : LinkData) : a.attribute "src_dpid" = none := rfl

theorem checkWindowLinks_raises (e : Lcid × Lcid × LinkData) (edges : List (Lcid × Lcid × LinkData)) :
    Raises (checkWindowLinks env (e :: edges)) s fun s' => s' = s := by
  unfold checkWindowLinks
  rw [no_src_dpid]
  exact rfl

theorem not_sweeps_of_links (h : env.nx.edges s.LC_LEVEL_TOPO ≠ []) : ¬ SweepsStale env s := by
  unfold SweepsStale _check_window_link_validity
  simp only [wp_bind, wp_get]
  obtain ⟨e, edges, hedges⟩ := List.exists_cons_of_ne_nil h
  rw [hedges]
  exact not_wp_of_raises (wp_mono (checkWindowLinks_raises e edges) (fun _ _ h => h) fun _ _ _ _ h => h)

/-- **The check removes the stale links, and no others, exactly when there are
no links at all**, whoever owns the switches. -/
theorem validity_check_iff (env : Env) (s : AppManager env.nx.Graph) :
    SweepsStale env s ↔ env.nx.edges s.LC_LEVEL_TOPO = [] := by
  refine ⟨not_imp_not.mp not_sweeps_of_links, fun hnone => ?_⟩
  unfold SweepsStale _check_window_link_validity
  simp only [wp_bind, wp_get, hnone]
  refine fun u v k a => ⟨fun h => ⟨h, fun _ => ?_⟩, And.left⟩
  have hmem : (u, v, a) ∈ env.nx.edges s.LC_LEVEL_TOPO := env.nx.mem_edges.mpr ⟨k, h⟩
  rw [hnone] at hmem
  cases hmem

end

/-- Both ends of a link report it, and then its one end gets the other's switch. -/
def takeoverRun : List Received := linkRun ++ [received 0 4 (.DPConnected 12 true)]

/-- A link that two GRAPH_INFO made is stale, and the check raises. -/
theorem validity_check_fails :
    let s := takeoverRun.foldl (receive (sampleEnv linkReports)) (sampleInit linkReports)
    (sampleEnv linkReports).nx.edges s.LC_LEVEL_TOPO ≠ [] ∧
      (∀ e ∈ (sampleEnv linkReports).nx.edges s.LC_LEVEL_TOPO, Stale s e.2.2) ∧ ¬ SweepsStale (sampleEnv linkReports) s := by
  intro s
  have hlinks : (sampleEnv linkReports).nx.edges s.LC_LEVEL_TOPO ≠ [] := by decide +kernel
  exact ⟨hlinks, by decide +kernel, not_sweeps_of_links hlinks⟩

end AppManager

end VnfDockerNet
