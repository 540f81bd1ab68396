import VnfDockerNet.TopoSound

/-!
# The window switches of a controller

The first window between two controllers sets `win_dpid` at both of them, every
later one appends to it. What a controller has recorded for its other neighbours
is lost, unless all its links leave from one switch.
-/

namespace VnfDockerNet

open Python Networkx Runs

namespace AppManager

section
variable (env : Env)

def win (g : env.nx.Graph) (c : Lcid) : Option (List Nat) := (env.nx.node g c).bind LcNode.win_dpid

def LeftEnd (g : env.nx.Graph) (c : Lcid) (d : Nat) : Prop := ∃ v a, env.nx.HasEdge g c v a ∧ a.left_dpid = d

def Joined (g : env.nx.Graph) (c : Lcid) : Prop := ∃ v a, env.nx.HasEdge g c v a ∨ env.nx.HasEdge g v c a

def RecordedAt (g : env.nx.Graph) (c : Lcid) : Prop :=
  Joined env g c → ∃ ds, win env g c = some ds ∧ ∀ d, d ∈ ds ↔ LeftEnd env g c d

/-- A controller with links has recorded the switches at its ends of them, and no others. -/
def Recorded (g : env.nx.Graph) : Prop := ∀ c, RecordedAt env g c

def Only (g : env.nx.Graph) (c : Lcid) (d : Nat) : Prop := ∀ e ∈ env.nx.edges g, e.1 = c → e.2.2.left_dpid = d

instance (g : env.nx.Graph) (c : Lcid) (d : Nat) : Decidable (Only env g c d) := List.decidableBAll _ _

def opened (s : AppManager env.nx.Graph) (w : Window) : Option (Lcid × Nat × Lcid × Nat) := do
  let src_dpid ← w.src_dpid
  let dst_dpid ← w.dst_dpid
  let src_ctrl ← homeOf s src_dpid
  let dst_ctrl ← homeOf s dst_dpid
  if src_ctrl ≠ dst_ctrl ∧ (env.nx.node s.LC_LEVEL_TOPO src_ctrl).isSome ∧
      hasEdges env s.LC_LEVEL_TOPO src_ctrl dst_ctrl = false then
    some (src_ctrl, src_dpid, dst_ctrl, dst_dpid)
  else none

/-- A window opens a pair only if all links of either side leave from the switch it names there. -/
def OneDoor (s : AppManager env.nx.Graph) (w : Window) : Prop :=
  ∀ p ∈ opened env s w, Only env s.LC_LEVEL_TOPO p.1 p.2.1 ∧ Only env s.LC_LEVEL_TOPO p.2.2.1 p.2.2.2

instance (s : AppManager env.nx.Graph) (w : Window) : Decidable (OneDoor env s w) := Option.decidableForallMem _

/-- Every window, in the state in which the loop reaches it. -/
def EachOneDoor : List Window → AppManager env.nx.Graph → Prop
  | [], _ => True
  | w :: ws, s => OneDoor env s w ∧ wp (handleWindow env w) s (fun _ => EachOneDoor ws) fun _ _ => True

instance EachOneDoor.decidable : ∀ (ws : List Window) (s : AppManager env.nx.Graph), Decidable (EachOneDoor env ws s)
  | [], _ => isTrue trivial
  | w :: ws, s =>
    have : ∀ s', Decidable (EachOneDoor env ws s') := EachOneDoor.decidable ws
    inferInstanceAs (Decidable (OneDoor env s w ∧ wp (handleWindow env w) s (fun _ => EachOneDoor env ws) fun _ _ => True))

def Wires (r : Received) : Prop :=
  match r.ev.msg with
  | .HelloUp | .DPConnected .. | .GraphInfo _ => True
  | _ => False

instance : ∀ r, Decidable (Wires r)
  | ⟨_, _, .HelloUp⟩ | ⟨_, _, .DPConnected ..⟩ | ⟨_, _, .GraphInfo _⟩ => isTrue trivial
  | ⟨_, _, .DatapathLeave _⟩ | ⟨_, _, .GidRequest _⟩ | ⟨_, _, .PacketIn ..⟩ | ⟨_, _, .LoadReport ..⟩
  | ⟨_, _, .RoleNotify ..⟩ | ⟨_, _, .EchoReply _⟩ | ⟨_, _, .Error ..⟩ | ⟨_, _, .BarrierReply⟩
  | ⟨_, _, .HostConnected ..⟩ | ⟨_, _, .HostLeave ..⟩ => isFalse not_false

def windowsOf (r : Received) : List Window :=
  match r.ev.msg with
  | .GraphInfo text => (env.json_loads text).toOption.getD []
  | _ => []

def listed (s : AppManager env.nx.Graph) (r : Received) : AppManager env.nx.Graph :=
  { s with local_windows := s.local_windows.insert r.lc (windowsOf env r) }

def afterWindow (s : AppManager env.nx.Graph) (w : Window) : AppManager env.nx.Graph :=
  match handleWindow env w s with
  | .ok _ s' => s'
  | .error _ s' => s'

end

section
variable {env : Env} {s : AppManager env.nx.Graph} {g g' : env.nx.Graph}

/-! ## The two changes of the graph -/

def rewin (g : env.nx.Graph) (c : Lcid) (ds : List Nat) : env.nx.Graph :=
  env.nx.add_node g c fun n => { n with win_dpid := some ds }

def link (g : env.nx.Graph) (u v : Lcid) (a : LinkData) : env.nx.Graph :=
  env.nx.add_edge (env.nx.add_edge g u v a) v u a.flip

theorem win_rewin (u c : Lcid) (ds : List Nat) : win env (rewin g u ds) c = if c = u then some ds else win env g c := by
  unfold win rewin
  rw [env.nx.node_add_node]
  by_cases h : c = u
  · rw [if_pos h, if_pos h]
    rfl
  · rw [if_neg h, if_neg h]

theorem win_add_edge (u v c : Lcid) (a : LinkData) : win env (env.nx.add_edge g u v a) c = win env g c := by
  unfold win
  rw [env.nx.node_add_edge]
  by_cases h : c = u ∨ c = v
  · rw [if_pos h]
    cases env.nx.node g c <;> rfl
  · rw [if_neg h]

@[simp] theorem win_link (u v c : Lcid) (a : LinkData) : win env (link g u v a) c = win env g c := by
  unfold link
  rw [win_add_edge, win_add_edge]

@[simp] theorem hasEdge_rewin {c u v : Lcid} {ds : List Nat} {a : LinkData} :
    env.nx.HasEdge (rewin g c ds) u v a ↔ env.nx.HasEdge g u v a := env.nx.hasEdge_add_node

@[simp] theorem hasEdge_link {u v x y : Lcid} {a b : LinkData} : env.nx.HasEdge (link g u v a) x y b ↔
    (x = v ∧ y = u ∧ b = a.flip) ∨ (x = u ∧ y = v ∧ b = a) ∨ env.nx.HasEdge g x y b := by
  unfold link
  rw [env.nx.hasEdge_add_edge, env.nx.hasEdge_add_edge]

theorem leftEnd_rewin {u c : Lcid} {ds : List Nat} {d : Nat} : LeftEnd env (rewin g u ds) c d ↔ LeftEnd env g c d := by
  unfold LeftEnd
  simp only [hasEdge_rewin]

theorem joined_rewin {u c : Lcid} {ds : List Nat} : Joined env (rewin g u ds) c ↔ Joined env g c := by
  unfold Joined
  simp only [hasEdge_rewin]

theorem leftEnd_link {u v c : Lcid} {a : LinkData} {d : Nat} : LeftEnd env (link g u v a) c d ↔
    (c = u ∧ d = a.left_dpid) ∨ (c = v ∧ d = a.right_dpid) ∨ LeftEnd env g c d := by
  unfold LeftEnd
  simp only [hasEdge_link]
  constructor
  · rintro ⟨y, b, ⟨rfl, rfl, rfl⟩ | ⟨rfl, rfl, rfl⟩ | hb, rfl⟩
    · exact Or.inr (Or.inl ⟨rfl, rfl⟩)
    · exact Or.inl ⟨rfl, rfl⟩
    · exact Or.inr (Or.inr ⟨y, b, hb, rfl⟩)
  · rintro (⟨rfl, rfl⟩ | ⟨rfl, rfl⟩ | ⟨y, b, hb, rfl⟩)
    · exact ⟨v, a, Or.inr (Or.inl ⟨rfl, rfl, rfl⟩), rfl⟩
    · exact ⟨u, a.flip, Or.inl ⟨rfl, rfl, rfl⟩, rfl⟩
    · exact ⟨y, b, Or.inr (Or.inr hb), rfl⟩

theorem joined_link {u v c : Lcid} {a : LinkData} (hu : c ≠ u) (hv : c ≠ v) (h : Joined env (link g u v a) c) :
    Joined env g c := by
  obtain ⟨y, b, hb⟩ := h
  simp only [hasEdge_link, hu, hv, false_and, and_false, false_or] at hb
  exact ⟨y, b, hb⟩

theorem only_iff {c : Lcid} {d : Nat} : Only env g c d ↔ ∀ d', LeftEnd env g c d' → d' = d := by
  constructor
  · rintro h d' ⟨v, a, ha, rfl⟩
    exact h (c, v, a) (env.nx.mem_edges.mpr ha) rfl
  · rintro h ⟨u, v, a⟩ he rfl
    exact h _ ⟨v, a, env.nx.mem_edges.mp he, rfl⟩

theorem Joined.leftEnd {c : Lcid} (h : Joined env g c) (hm : env.nx.Mirrored LinkData.flip g) :
    ∃ d, LeftEnd env g c d := by
  obtain ⟨v, a, ha | ha⟩ := h
  · exact ⟨_, v, a, ha, rfl⟩
  · exact ⟨_, v, a.flip, hm v c a ha, rfl⟩

theorem recordedAt_single {c : Lcid} {d : Nat} (hm : env.nx.Mirrored LinkData.flip g) (hw : win env g c = some [d]) :
    RecordedAt env g c ↔ ∀ d', LeftEnd env g c d' → d' = d := by
  constructor
  · rintro h d' ⟨v, a, ha, rfl⟩
    obtain ⟨ds, hds, hmem⟩ := h ⟨v, a, Or.inl ha⟩
    rw [hw] at hds
    cases hds
    exact List.mem_singleton.mp ((hmem _).mpr ⟨v, a, ha, rfl⟩)
  · intro h hj
    obtain ⟨d₀, hd₀⟩ := hj.leftEnd hm
    have heq := h d₀ hd₀
    subst heq
    refine ⟨_, hw, fun d' => ?_⟩
    rw [List.mem_singleton]
    exact ⟨fun hd' => hd' ▸ hd₀, h d'⟩

theorem RecordedAt.congr {c : Lcid} (h : RecordedAt env g c) (hw : win env g' c = win env g c)
    (hj : Joined env g' c → Joined env g c) (hl : ∀ d, LeftEnd env g' c d ↔ LeftEnd env g c d) : RecordedAt env g' c := by
  intro hjoined
  obtain ⟨ds, hds, hmem⟩ := h (hj hjoined)
  exact ⟨ds, hw.trans hds, fun d => (hmem d).trans (hl d).symm⟩

/-! ## One window -/

/-- What the handling of a window leaves of the graph, returning or raising. -/
inductive Windowed (s : AppManager env.nx.Graph) (w : Window) : env.nx.Graph → Prop
  | same (h : opened env s w = none) : Windowed s w s.LC_LEVEL_TOPO
  | another {u v : Lcid} {a b : LinkData} {dsu dsv : List Nat} (h : opened env s w = none) (hne : u ≠ v)
      (hb : env.nx.HasEdge s.LC_LEVEL_TOPO u v b) (hu : win env s.LC_LEVEL_TOPO u = some dsu)
      (hv : win env s.LC_LEVEL_TOPO v = some dsv) :
      Windowed s w (link (rewin (rewin s.LC_LEVEL_TOPO u (dsu ++ [a.left_dpid])) v (dsv ++ [a.right_dpid])) u v a)
  | unknown {u v : Lcid} {src dst : Nat} (h : opened env s w = some (u, src, v, dst)) (hne : u ≠ v)
      (hv : env.nx.node s.LC_LEVEL_TOPO v = none) : Windowed s w (rewin s.LC_LEVEL_TOPO u [src])
  | cut {u v : Lcid} {src dst : Nat} (h : opened env s w = some (u, src, v, dst)) (hne : u ≠ v) :
      Windowed s w (rewin (rewin s.LC_LEVEL_TOPO u [src]) v [dst])
  | first {u v : Lcid} {a : LinkData} (h : opened env s w = some (u, a.left_dpid, v, a.right_dpid)) (hne : u ≠ v) :
      Windowed s w (link (rewin (rewin s.LC_LEVEL_TOPO u [a.left_dpid]) v [a.right_dpid]) u v a)

theorem wp_append_some {c : Lcid} {ds : List Nat} (h : win env s.LC_LEVEL_TOPO c = some ds) (d : Nat)
    {Q : Unit → AppManager env.nx.Graph → Prop} {E : Exn → AppManager env.nx.Graph → Prop} :
    wp (appendWinDpid env c d) s Q E ↔ Q () { s with LC_LEVEL_TOPO := rewin s.LC_LEVEL_TOPO c (ds ++ [d]) } := by
  unfold win at h
  obtain ⟨n, hn, hds⟩ := Option.bind_eq_some_iff.mp h
  obtain ⟨ty, wd⟩ := n
  cases hds
  unfold appendWinDpid
  simp only [wp_bind, wp_get, hn]
  rfl

theorem wp_set_iff {c : Lcid} {d : Nat} {Q : Unit → AppManager env.nx.Graph → Prop}
    {E : Exn → AppManager env.nx.Graph → Prop} : wp (setWinDpid env c d) s Q E ↔
      ((env.nx.node s.LC_LEVEL_TOPO c).isSome → Q () { s with LC_LEVEL_TOPO := rewin s.LC_LEVEL_TOPO c [d] }) ∧
      (env.nx.node s.LC_LEVEL_TOPO c = none → E .KeyError s) := by
  unfold setWinDpid
  simp only [wp_bind, wp_get]
  cases hn : env.nx.node s.LC_LEVEL_TOPO c with
  | none => simp
  | some n =>
    simp only [Option.isSome_some, forall_const, reduceCtorEq, IsEmpty.forall_iff, and_true]
    rfl

theorem opened_eq {w : Window} {src dst : Nat} {u v : Lcid} (hs : w.src_dpid = some src) (hd : w.dst_dpid = some dst)
    (hu : homeOf s src = some u) (hv : homeOf s dst = some v) : opened env s w =
      if u ≠ v ∧ (env.nx.node s.LC_LEVEL_TOPO u).isSome ∧ hasEdges env s.LC_LEVEL_TOPO u v = false then
        some (u, src, v, dst) else none := by
  unfold opened
  rw [hs, hd]
  simp only [Option.bind_eq_bind, Option.bind_some, hu, hv]

theorem opened_unknown {w : Window} {src : Nat} (hs : w.src_dpid = some src) (hu : homeOf s src = none) :
    opened env s w = none := by
  unfold opened
  rw [hs]
  cases w.dst_dpid with
  | none => rfl
  | some dst => simp [hu]

theorem windowed_linkWindow (hr : Recorded env s.LC_LEVEL_TOPO) {w : Window} {src dst : Nat} {u v : Lcid}
    (hs : w.src_dpid = some src) (hd : w.dst_dpid = some dst)
    (hu : homeOf s src = some u) (hv : homeOf s dst = some v) (hne : u ≠ v) :
    Always (linkWindow env w src dst u v) s fun s' =>
      ∃ g, s' = { s with LC_LEVEL_TOPO := g } ∧ Windowed s w g := by
  have hopen := opened_eq hs hd hu hv
  have hsaid : ∀ a : LinkData, w.Says a → a.left_dpid = src ∧ a.right_dpid = dst := fun a ha => by
    have hl := hs.symm.trans ha.1
    have hr := hd.symm.trans ha.2.2.1
    cases hl
    cases hr
    exact ⟨rfl, rfl⟩
  unfold linkWindow Always
  simp only [wp_bind, wp_get, wp_ite, Bool.not_eq_true']
  refine ⟨fun hedge => ?_, fun hno => ⟨fun _ => ?_, fun h => absurd (by simpa using hno) h⟩⟩
  -- the pair has links already: the switches are appended
  · have hsame : opened env s w = none := by
      rw [hopen, if_neg]
      rw [hedge]
      simp
    obtain ⟨b, hb⟩ := hasEdges_iff.mp hedge
    obtain ⟨dsu, hdsu, _⟩ := hr u ⟨v, b, Or.inl hb⟩
    obtain ⟨dsv, hdsv, _⟩ := hr v ⟨u, b, Or.inr hb⟩
    refine wp_linkData w (fun a ha => ?_) fun _ => ⟨_, rfl, .same hsame⟩
    obtain ⟨rfl, rfl⟩ := hsaid a ha
    simp only [mem_values_iff]
    refine ⟨fun _ => ?_, fun _ => ⟨fun h => ?_, fun _ => ⟨_, rfl, .same hsame⟩⟩⟩
    · rw [wp_append_some hdsu]
      have hdsv' : win env (rewin s.LC_LEVEL_TOPO u (dsu ++ [a.left_dpid])) v = some dsv := by
        rw [win_rewin, if_neg (Ne.symm hne), hdsv]
      rw [wp_append_some hdsv']
      simp only [addWindowEdges, wp_modify]
      refine ⟨fun h => ?_, fun _ => ⟨_, rfl, .another hsame hne hb hdsu hdsv⟩⟩
      have hin : hasEdges env (link (rewin (rewin s.LC_LEVEL_TOPO u (dsu ++ [a.left_dpid])) v
          (dsv ++ [a.right_dpid])) u v a) u v = true :=
        hasEdges_iff.mpr ⟨a, hasEdge_link.mpr (Or.inr (Or.inl ⟨rfl, rfl, rfl⟩))⟩
      exact absurd (hin.symm.trans h) (by decide)
    · rw [hedge] at h
      cases h
  -- the first window between the two: `win_dpid` is set before the ports are looked up
  · have hnone : hasEdges env s.LC_LEVEL_TOPO u v = false := by simpa using hno
    rw [wp_set_iff]
    refine ⟨fun hu' => ?_, fun hu' => ⟨_, rfl, .same ?_⟩⟩
    · rw [if_pos ⟨hne, hu', hnone⟩] at hopen
      rw [wp_set_iff]
      refine ⟨fun _ => ?_, fun hv' => ⟨_, rfl, .unknown hopen hne ?_⟩⟩
      · refine wp_linkData w (fun a ha => ?_) fun _ => ⟨_, rfl, .cut hopen hne⟩
        obtain ⟨rfl, rfl⟩ := hsaid a ha
        exact ⟨_, rfl, .first hopen hne⟩
      · have hnode : env.nx.node (rewin s.LC_LEVEL_TOPO u [src]) v = env.nx.node s.LC_LEVEL_TOPO v := by
          unfold rewin
          rw [env.nx.node_add_node, if_neg (Ne.symm hne)]
        exact hnode.symm.trans hv'
    · rw [hopen, if_neg]
      rw [hu']
      simp

theorem windowed_handleWindow (hr : Recorded env s.LC_LEVEL_TOPO) (w : Window) :
    Always (handleWindow env w) s fun s' => ∃ g, s' = { s with LC_LEVEL_TOPO := g } ∧ Windowed s w g := by
  have hsame : opened env s w = none → ∃ g, s = { s with LC_LEVEL_TOPO := g } ∧ Windowed s w g := fun h =>
    ⟨_, rfl, .same h⟩
  unfold handleWindow Always
  simp only [wp_bind, wp_key, wp_get, wp_ite, wp_pure]
  refine ⟨fun src hsrc => ⟨fun _ => ⟨fun dst hdst => ⟨fun _ => ?_, fun hout => hsame ?_⟩, fun h => hsame ?_⟩,
    fun hout => hsame ?_⟩, fun h => hsame ?_⟩
  · refine wp_homeId src (fun u hu => ?_) fun hn _ => hsame (opened_unknown hsrc hn)
    refine wp_homeId dst (fun v hv => ⟨fun hne => ?_, fun heq => hsame ?_⟩) fun hn _ => hsame ?_
    · exact windowed_linkWindow hr hsrc hdst hu hv hne
    · rw [opened_eq hsrc hdst hu hv, if_neg fun h => heq h.1]
    · simp [opened, hsrc, hdst, hn]
  · have hn : homeOf s dst = none := by
      unfold homeOf
      rw [Dict.get_eq_none.mpr hout]
      rfl
    simp [opened, hsrc, hdst, hn]
  · simp [opened, h]
  · refine opened_unknown hsrc ?_
    unfold homeOf
    rw [Dict.get_eq_none.mpr hout]
    rfl
  · simp [opened, h]

theorem Windowed.mirrored {w : Window} (h : Windowed s w g) (hm : env.nx.Mirrored LinkData.flip s.LC_LEVEL_TOPO) :
    env.nx.Mirrored LinkData.flip g := by
  have hrewin : ∀ (g : env.nx.Graph) c ds, env.nx.Mirrored LinkData.flip g → env.nx.Mirrored LinkData.flip (rewin g c ds) :=
    fun g c ds hm x y a ha => hasEdge_rewin.mpr (hm x y a (hasEdge_rewin.mp ha))
  cases h with
  | same => exact hm
  | unknown => exact hrewin _ _ _ hm
  | cut => exact hrewin _ _ _ (hrewin _ _ _ hm)
  | another | first => exact (hrewin _ _ _ (hrewin _ _ _ hm)).add_pair env.nx LinkData.flip_flip

theorem opened_none {w : Window} (h : opened env s w = none) : OneDoor env s w := by
  intro p hp
  rw [h] at hp
  cases hp

theorem oneDoor_iff {w : Window} {u v : Lcid} {src dst : Nat} (h : opened env s w = some (u, src, v, dst)) :
    OneDoor env s w ↔ Only env s.LC_LEVEL_TOPO u src ∧ Only env s.LC_LEVEL_TOPO v dst := by
  unfold OneDoor
  rw [h]
  simp

theorem recorded_another {u v : Lcid} {a b : LinkData} {dsu dsv : List Nat} (hr : Recorded env g) (hne : u ≠ v)
    (hb : env.nx.HasEdge g u v b) (hu : win env g u = some dsu) (hv : win env g v = some dsv) :
    Recorded env (link (rewin (rewin g u (dsu ++ [a.left_dpid])) v (dsv ++ [a.right_dpid])) u v a) := by
  have hold : ∀ c ds, Joined env g c → win env g c = some ds → ∀ d, d ∈ ds ↔ LeftEnd env g c d := fun c ds hj hw => by
    obtain ⟨ds', hds', hmem⟩ := hr c hj
    rw [hw] at hds'
    cases hds'
    exact hmem
  intro c
  by_cases hcv : c = v
  · subst hcv
    refine fun _ => ⟨dsv ++ [a.right_dpid], by rw [win_link, win_rewin, if_pos rfl], fun d => ?_⟩
    have hd := hold c dsv ⟨u, b, Or.inr hb⟩ hv d
    rw [leftEnd_link, leftEnd_rewin, leftEnd_rewin, List.mem_append, hd, List.mem_singleton]
    simp [Ne.symm hne, or_comm]
  · by_cases hcu : c = u
    · subst hcu
      refine fun _ => ⟨dsu ++ [a.left_dpid], by rw [win_link, win_rewin, if_neg hcv, win_rewin, if_pos rfl], fun d => ?_⟩
      have hd := hold c dsu ⟨v, b, Or.inl hb⟩ hu d
      rw [leftEnd_link, leftEnd_rewin, leftEnd_rewin, List.mem_append, hd, List.mem_singleton]
      simp [hcv, or_comm]
    · refine (hr c).congr ?_ (fun hj => ?_) fun d => ?_
      · rw [win_link, win_rewin, if_neg hcv, win_rewin, if_neg hcu]
      · exact joined_rewin.mp (joined_rewin.mp (joined_link hcu hcv hj))
      · rw [leftEnd_link, leftEnd_rewin, leftEnd_rewin]
        simp [hcu, hcv]

theorem recorded_set_iff {u v : Lcid} {src dst : Nat} (hr : Recorded env g) (hm : env.nx.Mirrored LinkData.flip g')
    (hwin : ∀ c, win env g' c = if c = v then some [dst] else if c = u then some [src] else win env g c) (hne : u ≠ v)
    (hold : ∀ c d, LeftEnd env g c d → LeftEnd env g' c d)
    (hnew : ∀ c d, LeftEnd env g' c d → (c = u ∧ d = src) ∨ (c = v ∧ d = dst) ∨ LeftEnd env g c d)
    (hjoin : ∀ c, c ≠ u → c ≠ v → Joined env g' c → Joined env g c) :
    Recorded env g' ↔ Only env g u src ∧ Only env g v dst := by
  have hu : RecordedAt env g' u ↔ Only env g u src := by
    rw [recordedAt_single hm (by rw [hwin, if_neg hne, if_pos rfl]), only_iff]
    refine ⟨fun h d hd => h d (hold u d hd), fun h d hd => ?_⟩
    rcases hnew u d hd with ⟨_, hd⟩ | ⟨huv, _⟩ | hd
    · exact hd
    · exact absurd huv hne
    · exact h d hd
  have hv : RecordedAt env g' v ↔ Only env g v dst := by
    rw [recordedAt_single hm (by rw [hwin, if_pos rfl]), only_iff]
    refine ⟨fun h d hd => h d (hold v d hd), fun h d hd => ?_⟩
    rcases hnew v d hd with ⟨hvu, _⟩ | ⟨_, hd⟩ | hd
    · exact absurd hvu.symm hne
    · exact hd
    · exact h d hd
  constructor
  · intro h
    exact ⟨hu.mp (h u), hv.mp (h v)⟩
  · intro h c
    by_cases hcu : c = u
    · exact hcu ▸ hu.mpr h.1
    · by_cases hcv : c = v
      · exact hcv ▸ hv.mpr h.2
      · refine (hr c).congr (by rw [hwin, if_neg hcv, if_neg hcu]) (hjoin c hcu hcv) fun d => ⟨fun hd => ?_, hold c d⟩
        rcases hnew c d hd with ⟨hc, _⟩ | ⟨hc, _⟩ | hd
        · exact absurd hc hcu
        · exact absurd hc hcv
        · exact hd

theorem win_rewin_rewin (u v : Lcid) (ds ds' : List Nat) (c : Lcid) : win env (rewin (rewin g u ds) v ds') c =
    if c = v then some ds' else if c = u then some ds else win env g c := by
  rw [win_rewin, win_rewin]

/-- **What a window keeps**: the record stays right exactly if no pair is opened beside other links. -/
theorem Windowed.recorded_iff {w : Window} (h : Windowed s w g) (hr : Recorded env s.LC_LEVEL_TOPO)
    (hm : env.nx.Mirrored LinkData.flip s.LC_LEVEL_TOPO) : Recorded env g ↔ OneDoor env s w := by
  have hmg := h.mirrored hm
  cases h with
  | same h => exact iff_of_true hr (opened_none h)
  | another h hne hb hu hv => exact iff_of_true (recorded_another hr hne hb hu hv) (opened_none h)
  | @unknown u v src dst h hne hv =>
    rw [oneDoor_iff h]
    -- without a node there is no link at `v`
    have hlone : ¬ Joined env s.LC_LEVEL_TOPO v := fun hj => by
      obtain ⟨ds, hds, _⟩ := hr v hj
      unfold win at hds
      rw [hv] at hds
      cases hds
    have honly : Only env s.LC_LEVEL_TOPO v dst := only_iff.mpr fun d' hd' => by
      obtain ⟨y, b, hb, _⟩ := hd'
      exact absurd ⟨y, b, Or.inl hb⟩ hlone
    have hu : RecordedAt env (rewin s.LC_LEVEL_TOPO u [src]) u ↔ Only env s.LC_LEVEL_TOPO u src := by
      rw [recordedAt_single hmg (by rw [win_rewin, if_pos rfl]), only_iff]
      simp only [leftEnd_rewin]
    refine ⟨fun h => ⟨hu.mp (h u), honly⟩, fun h c => ?_⟩
    by_cases hcu : c = u
    · exact hcu ▸ hu.mpr h.1
    · exact (hr c).congr (by rw [win_rewin, if_neg hcu]) joined_rewin.mp fun d => leftEnd_rewin
  | cut h hne =>
    rw [oneDoor_iff h]
    refine recorded_set_iff hr hmg (win_rewin_rewin _ _ _ _) hne (fun c d hd => ?_) (fun c d hd => ?_) fun c _ _ hj => ?_
    · exact leftEnd_rewin.mpr (leftEnd_rewin.mpr hd)
    · exact Or.inr (Or.inr (leftEnd_rewin.mp (leftEnd_rewin.mp hd)))
    · exact joined_rewin.mp (joined_rewin.mp hj)
  | first h hne =>
    rw [oneDoor_iff h]
    refine recorded_set_iff hr hmg (fun c => ?_) hne (fun c d hd => ?_) (fun c d hd => ?_) fun c hcu hcv hj => ?_
    · rw [win_link, win_rewin_rewin]
    · exact leftEnd_link.mpr (Or.inr (Or.inr (leftEnd_rewin.mpr (leftEnd_rewin.mpr hd))))
    · rw [leftEnd_link, leftEnd_rewin, leftEnd_rewin] at hd
      exact hd
    · exact joined_rewin.mp (joined_rewin.mp (joined_link hcu hcv hj))

/-! ## Runs -/

structure WinInv (s : AppManager env.nx.Graph) : Prop where
  recorded : Recorded env s.LC_LEVEL_TOPO
  mirrored : env.nx.Mirrored LinkData.flip s.LC_LEVEL_TOPO

theorem winInv_init (address : Nat → String × Nat) (xid : Nat → Nat) : WinInv (init env address xid) where
  recorded c hj := by
    obtain ⟨v, a, ha | ha⟩ := hj
    · exact absurd ha (env.nx.not_hasEdge_empty)
    · exact absurd ha (env.nx.not_hasEdge_empty)
  mirrored _ _ _ h := absurd h (env.nx.not_hasEdge_empty)

theorem always_handleWindows_winInv : ∀ (ws : List Window) (s : AppManager env.nx.Graph), WinInv s →
    EachOneDoor env ws s → Always (handleWindows env ws) s WinInv
  | [], _, hs, _ => hs
  | w :: ws, s, hs, hdoor => by
    unfold handleWindows Always
    rw [wp_bind]
    have hkept := wp_and (windowed_handleWindow hs.recorded w) hdoor.2
    refine wp_mono hkept (fun _ s' hs' => ?_) fun _ s' hs' => ?_
    · obtain ⟨⟨g, rfl, hg⟩, hrest⟩ := hs'
      exact always_handleWindows_winInv ws _ ⟨(hg.recorded_iff hs.recorded hs.mirrored).mpr hdoor.1, hg.mirrored hs.mirrored⟩ hrest
    · obtain ⟨⟨g, rfl, hg⟩, _⟩ := hs'
      exact ⟨(hg.recorded_iff hs.recorded hs.mirrored).mpr hdoor.1, hg.mirrored hs.mirrored⟩

theorem WinInv.helloed (h : WinInv s) (lc lcid : Nat) : WinInv (helloed s lc lcid) := by
  unfold AppManager.helloed
  by_cases hk : (s.lcs lc).address ∈ s.lcip_to_lcid
  · simp only [hk, if_true]
    exact ⟨h.recorded, h.mirrored⟩
  · simp only [hk, if_false]
    refine ⟨fun c => (h.recorded c).congr ?_ (fun hj => ?_) fun d => ?_, fun u v a ha => ?_⟩
    · unfold win
      rw [env.nx.node_add_node]
      split
      · rename_i hc
        subst hc
        cases env.nx.node s.LC_LEVEL_TOPO (some s.glcid) <;> rfl
      · rfl
    · simpa only [Joined, env.nx.hasEdge_add_node] using hj
    · simp only [LeftEnd, env.nx.hasEdge_add_node]
    · exact env.nx.hasEdge_add_node.mpr (h.mirrored u v a (env.nx.hasEdge_add_node.mp ha))

theorem winInv_step {r : Received} (h : WinInv s) (hw : Wires r) (hdoor : EachOneDoor env (windowsOf env r) (listed env s r)) :
    WinInv (receive env s r) := by
  refine receive_of_always WinInv (fun _ hs => ⟨hs.recorded, hs.mirrored⟩) ?_
  cases hmsg : r.ev.msg with
  | HelloUp =>
    unfold dispatch_event
    rw [hmsg]
    refine Always.mono (always_hello_up r.lc s) ?_
    intro _ hpost
    obtain ⟨lcid, x, msgs, _, rfl, _⟩ := hpost
    exact ⟨(h.helloed r.lc lcid).recorded, (h.helloed r.lc lcid).mirrored⟩
  | DPConnected dpid w =>
    have htopo := sameTopo_dispatch r.lc r.ev s (fun h => by rw [hmsg] at h; cases h)
      (fun _ h => by rw [hmsg] at h; cases h) fun _ h => by rw [hmsg] at h; cases h
    refine Always.mono htopo fun s' ht => ⟨?_, ?_⟩
    · rw [ht]
      exact h.recorded
    · rw [ht]
      exact h.mirrored
  | GraphInfo text =>
    unfold dispatch_event
    rw [hmsg]
    refine wp_graph_info (fun ws hws => ?_) fun _ _ => h
    have hlist : windowsOf env r = ws := by
      unfold windowsOf
      rw [hmsg]
      simp [hws, Except.toOption]
    unfold listed at hdoor
    rw [hlist] at hdoor
    exact always_handleWindows_winInv ws _ ⟨h.recorded, h.mirrored⟩ hdoor
  | _ =>
    unfold Wires at hw
    rw [hmsg] at hw
    exact hw.elim

end

section
variable (env : Env)

/-- HELLO_UP, DATAPATH_CONNECTED, or a GRAPH_INFO none of whose windows opens a pair beside other links. -/
def OpensAlone (s : AppManager env.nx.Graph) (r : Received) : Prop :=
  Wires r ∧ EachOneDoor env (windowsOf env r) (listed env s r)

instance (s : AppManager env.nx.Graph) (r : Received) : Decidable (OpensAlone env s r) :=
  inferInstanceAs (Decidable (_ ∧ _))

/-- **The window switches of every controller are recorded** as long as no
window opens a pair beside other links, and in every state so reached a window
keeps the record exactly if it does not. -/
theorem window_switches_recorded (address : Nat → String × Nat) (xid : Nat → Nat) (rs : List Received)
    (h : Allowed (receive env) (OpensAlone env) (init env address xid) rs) :
    let s := rs.foldl (receive env) (init env address xid)
    Recorded env s.LC_LEVEL_TOPO ∧ ∀ w, Recorded env (afterWindow env s w).LC_LEVEL_TOPO ↔ OneDoor env s w := by
  have hinv : WinInv (rs.foldl (receive env) (init env address xid)) :=
    Allowed.invariant WinInv (fun _ _ hs hr => winInv_step hs hr.1 hr.2) (winInv_init address xid) h
  refine ⟨hinv.recorded, fun w => ?_⟩
  have hwp := windowed_handleWindow hinv.recorded w
  unfold Always wp at hwp
  unfold afterWindow
  cases hx : handleWindow env w (rs.foldl (receive env) (init env address xid)) with
  | ok a s' | error e s' =>
    rw [hx] at hwp
    obtain ⟨g, rfl, hg⟩ := hwp
    exact hg.recorded_iff hinv.recorded hinv.mirrored

end

theorem window_switches_recorded_both_report :
    let s := linkRun.foldl (receive (sampleEnv linkReports)) (sampleInit linkReports)
    Recorded (sampleEnv linkReports) s.LC_LEVEL_TOPO ∧ ∀ w,
      Recorded (sampleEnv linkReports) (afterWindow (sampleEnv linkReports) s w).LC_LEVEL_TOPO ↔
        OneDoor (sampleEnv linkReports) s w :=
  window_switches_recorded (sampleEnv linkReports) _ _ linkRun (by decide)

/-- One controller reports its links to two others, from two switches. -/
def starReport : List (Bytes × List Window) :=
  [(asciiText "[\x7b\"src_dpid\": 11, \"src_port_no\": 1, \"dst_dpid\": 21, \"dst_port_no\": 1\x7d, " ++
      asciiText "\x7b\"src_dpid\": 12, \"src_port_no\": 1, \"dst_dpid\": 31, \"dst_port_no\": 1\x7d]",
      [⟨some 11, some 1, some 21, some 1⟩, ⟨some 12, some 1, some 31, some 1⟩])]

def starRun : List Received :=
  [received 0 1 .HelloUp, received 1 1 .HelloUp, received 2 1 .HelloUp, received 0 2 (.DPConnected 11 true),
    received 0 3 (.DPConnected 12 true), received 1 2 (.DPConnected 21 true), received 2 2 (.DPConnected 31 true),
    received 0 4 (.GraphInfo (starReport.map Prod.fst)[0])]

/-- The second window replaces what the first one recorded. -/
theorem window_switch_lost : (∀ r ∈ starRun, Wires r) ∧
    ¬ Recorded (sampleEnv starReport) (starRun.foldl (receive (sampleEnv starReport)) (sampleInit starReport)).LC_LEVEL_TOPO := by
  refine ⟨by decide, fun h => ?_⟩
  have hwin : win (sampleEnv starReport)
      (starRun.foldl (receive (sampleEnv starReport)) (sampleInit starReport)).LC_LEVEL_TOPO (some 1) = some [12] := by
    decide +kernel
  have hedge : (sampleEnv starReport).nx.HasEdge
      (starRun.foldl (receive (sampleEnv starReport)) (sampleInit starReport)).LC_LEVEL_TOPO (some 1) (some 2) ⟨11, 1, 21, 1⟩ :=
    ((sampleEnv starReport).nx.mem_edges).mp (by decide +kernel)
  obtain ⟨ds, hds, hmem⟩ := h (some 1) ⟨some 2, _, Or.inl hedge⟩
  rw [hwin] at hds
  cases hds
  exact absurd ((hmem 11).mpr ⟨some 2, _, hedge, rfl⟩) (by decide)

end AppManager

end VnfDockerNet
