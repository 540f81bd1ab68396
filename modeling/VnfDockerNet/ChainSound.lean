import VnfDockerNet.MirrorSound

/-!
# Service chains

The loop over the waypoints starts every leg one waypoint too early, and the
first one at the destination. The path it returns is still the right one when
the legs lead where the segments do, from the same switches: for waypoints that
differ from their neighbours, when everything hangs on one switch.
-/

namespace VnfDockerNet

open Python Networkx

namespace RyuNet

variable {nx : TopoGraph} {topo : nx.Graph}

/-! ## The actions of a path -/

def OverSwitches (path : List TopoNode) : Prop := path.IsChain fun u _ => ∃ s, u = .switch s

def Readable (topo : nx.Graph) (path : List TopoNode) : Prop :=
  path.IsChain fun u v => ∀ record, nx.edge topo u v = some (some record) → ∃ port, int record.dst.port_no = .ok port

section
variable {u v : TopoNode}

theorem record_of_joined (hh : Held topo) (huv : Joined topo u v) : ∃ record, nx.edge topo u v = some (some record) := by
  obtain ⟨data, hdata⟩ := Option.isSome_iff_exists.mp huv
  cases data with
  | none => exact absurd hdata (hh.record u v)
  | some record => exact ⟨record, hdata⟩

theorem joined_of_edge {record : Option LinkDict} (h : nx.edge topo u v = some record) : Joined topo u v := by
  unfold Joined MultiGraph.Joined
  rw [h]
  rfl

theorem actionTexts_stops {record : LinkDict} (hu : ¬ ∃ s, u = .switch s) (hedge : nx.edge topo u v = some (some record))
    (rest : List TopoNode) : actionTexts nx topo (u :: v :: rest) = .error .AttributeError := by
  unfold actionTexts
  rw [hedge]
  cases u with
  | switch s => exact absurd ⟨s, rfl⟩ hu
  | host h => rfl
  | noNode => rfl

theorem actionTexts_cases (hh : Held topo) : ∀ {path : List TopoNode}, path.IsChain (Joined topo) →
    (OverSwitches path ∧ ∃ texts, actionTexts nx topo path = .ok texts ∧
      (Readable topo path ↔ (readActions texts).isSome = true)) ∨
    ¬ OverSwitches path ∧ ∃ e, actionTexts nx topo path = .error e
  | [], _ => Or.inl ⟨.nil, [], rfl, iff_of_true .nil rfl⟩
  | [u], _ => Or.inl ⟨.singleton _, [], rfl, iff_of_true (.singleton _) rfl⟩
  | u :: v :: rest, hchain => by
    obtain ⟨huv, hrest⟩ := List.isChain_cons_cons.mp hchain
    obtain ⟨record, hedge⟩ := record_of_joined hh huv
    by_cases hu : ∃ s, u = .switch s
    · obtain ⟨s, rfl⟩ := hu
      rcases actionTexts_cases hh hrest with ⟨hover, texts, htexts, hread⟩ | ⟨hnot, e, herr⟩
      · refine Or.inl ⟨List.isChain_cons_cons.mpr ⟨⟨s, rfl⟩, hover⟩, (s.dp, record.dst.port_no) :: texts, ?_, ?_⟩
        · unfold actionTexts
          rw [hedge, htexts]
          rfl
        · have hhere : (∀ record', nx.edge topo (.switch s) v = some (some record') →
              ∃ port, int record'.dst.port_no = .ok port) ↔ ∃ port, int record.dst.port_no = .ok port := by
            simp [hedge]
          unfold Readable at hread ⊢
          unfold readActions
          rw [List.isChain_cons_cons, hhere, hread]
          cases int record.dst.port_no <;> simp
      · refine Or.inr ⟨fun hover => hnot (List.isChain_cons_cons.mp hover).2, e, ?_⟩
        unfold actionTexts
        rw [hedge, herr]
        rfl
    · exact Or.inr ⟨fun hover => hu (List.isChain_cons_cons.mp hover).1, _, actionTexts_stops hu hedge rest⟩

/-- Each switch of a path has the port that is read from the record of its edge. -/
def RouteActions (topo : nx.Graph) : List TopoNode → List Action → Prop
  | .switch s :: v :: rest, a :: actions =>
    (∃ record port, nx.edge topo (.switch s) v = some (some record) ∧ int record.dst.port_no = .ok port ∧
      a = ⟨s.dp, [port]⟩) ∧ RouteActions topo (v :: rest) actions
  | [_], [] => True
  | _, _ => False

theorem routeActions_of_path : ∀ {path : List TopoNode} {texts : List (OfDatapath × List Char)} {actions : List Action},
    path ≠ [] → actionTexts nx topo path = .ok texts → readActions texts = some actions → RouteActions topo path actions
  | [u], _, _, _, htexts, hread => by
    cases htexts
    cases hread
    cases u <;> trivial
  | u :: v :: rest, texts, actions, _, htexts, hread => by
    unfold actionTexts at htexts
    cases hedge : nx.edge topo u v with
    | none => rw [hedge] at htexts; cases htexts
    | some data =>
      cases data with
      | none => rw [hedge] at htexts; cases htexts
      | some record =>
        cases u with
        | host h => rw [hedge] at htexts; cases htexts
        | noNode => rw [hedge] at htexts; cases htexts
        | switch s =>
          rw [hedge] at htexts
          dsimp only at htexts
          cases hrest : actionTexts nx topo (v :: rest) with
          | error e => rw [hrest] at htexts; cases htexts
          | ok texts' =>
            rw [hrest] at htexts
            cases htexts
            unfold readActions at hread
            have hdst : (if isNumber record.src.dpid s.dp.id = true then record.src.port_no else record.dst.port_no) =
                record.dst.port_no := rfl
            rw [hdst] at hread
            cases hport : int record.dst.port_no with
            | error e => rw [hport] at hread; cases hread
            | ok port =>
              rw [hport] at hread
              obtain ⟨actions', hactions, rfl⟩ := Option.map_eq_some_iff.mp hread
              exact ⟨⟨record, port, hedge, hport, rfl⟩, routeActions_of_path (List.cons_ne_nil v rest) hrest hactions⟩

theorem route_cases {path : List TopoNode} {actions : List Action} (h : RouteActions topo path actions) :
    ((∃ u, path = [u]) ∧ actions = []) ∨ ∃ s v rest record port actions', path = .switch s :: v :: rest ∧
      actions = ⟨s.dp, [port]⟩ :: actions' ∧ nx.edge topo (.switch s) v = some (some record) ∧
      int record.dst.port_no = .ok port ∧ RouteActions topo (v :: rest) actions' := by
  unfold RouteActions at h
  split at h
  · obtain ⟨⟨record, port, hedge, hport, rfl⟩, hrest⟩ := h
    exact .inr ⟨_, _, _, record, port, _, rfl, rfl, hedge, hport, hrest⟩
  · exact .inl ⟨⟨_, rfl⟩, rfl⟩
  · exact h.elim

def senders : List TopoNode → List OfDatapath
  | .switch s :: v :: rest => s.dp :: senders (v :: rest)
  | _ => []

theorem senders_of_route {path : List TopoNode} {actions : List Action} (h : RouteActions topo path actions) :
    actions.map Action.datapath = senders path ∧ actions.length + 1 = path.length := by
  induction actions generalizing path with
  | nil =>
    rcases route_cases h with ⟨⟨u, rfl⟩, _⟩ | ⟨s, v, rest, record, port, actions', _, hcons, _⟩
    · cases u <;> exact ⟨rfl, rfl⟩
    · cases hcons
  | cons a actions ih =>
    rcases route_cases h with ⟨_, hnil⟩ | ⟨s, v, rest, record, port, actions', rfl, hcons, _, _, hrest⟩
    · cases hnil
    · cases hcons
      obtain ⟨hmap, hlen⟩ := ih hrest
      refine ⟨?_, ?_⟩
      · rw [List.map_cons, hmap]
        rfl
      · simp only [List.length_cons] at hlen ⊢
        omega

end

/-! ## Looking for a path -/

section
variable {X X' : Switch} {m n : TopoNode} {h : Host} {a : Source} {t : Bytes} {path : List TopoNode}

theorem mem_of_keys_to_node {key : Key} (hm : keys_to_node nx topo key = some m) : m ∈ nx.nodes topo :=
  (keys_to_node_some hm).1

theorem host_of_ipv4 (hm : keys_to_node nx topo (.ipv4 t) = some m) : ∃ h, m = .host h := by
  have hfound := (keys_to_node_some hm).2.2
  cases m with
  | switch s => cases hfound
  | host h => exact ⟨h, rfl⟩
  | noNode => cases hfound

theorem mem_of_sourceNode (hm : sourceNode nx topo a = some m) : m ∈ nx.nodes topo := by
  unfold sourceNode at hm
  cases a with
  | ip ip => exact mem_of_keys_to_node hm
  | dpid dpid =>
    dsimp only at hm
    split at hm
    · cases hm
    · exact List.mem_of_find?_eq_some hm

def tripActions (topo : nx.Graph) (m n : TopoNode) : Except Exn (Option (List Action)) :=
  match nx.shortest_path topo m n with
  | .ok path => pathActions nx topo (dropHost path)
  | .error _ => .ok none

theorem find_direct_eq (hm : sourceNode nx topo a = some m) (hn : keys_to_node nx topo (.ipv4 t) = some n) :
    find_direct nx topo a t = tripActions topo m n := by
  unfold find_direct
  rw [hm, hn]
  rfl

/-- A path is found, it leads over switches, and its ports are read. -/
def Answered (topo : nx.Graph) (leg : Source × Bytes) : Prop :=
  ∃ m n path, sourceNode nx topo leg.1 = some m ∧ keys_to_node nx topo (.ipv4 leg.2) = some n ∧
    nx.shortest_path topo m n = .ok path ∧ OverSwitches (dropHost path) ∧ Readable topo (dropHost path)

/-- No path is found, or it leads over switches and a port of it is not read. -/
def Unanswered (topo : nx.Graph) (leg : Source × Bytes) : Prop :=
  ∀ m n path, sourceNode nx topo leg.1 = some m → keys_to_node nx topo (.ipv4 leg.2) = some n →
    nx.shortest_path topo m n = .ok path → OverSwitches (dropHost path) ∧ ¬ Readable topo (dropHost path)

def Resolved (topo : nx.Graph) (leg : Source × Bytes) : Prop :=
  ∃ m n, sourceNode nx topo leg.1 = some m ∧ keys_to_node nx topo (.ipv4 leg.2) = some n

theorem Answered.resolved {leg : Source × Bytes} (h : Answered topo leg) : Resolved topo leg := by
  obtain ⟨m, n, _, hm, hn, _⟩ := h
  exact ⟨m, n, hm, hn⟩

theorem resolved_or_unanswered (topo : nx.Graph) (leg : Source × Bytes) : Resolved topo leg ∨
    find_direct nx topo leg.1 leg.2 = .ok none ∧ Unanswered topo leg := by
  unfold find_direct Unanswered
  cases hm : sourceNode nx topo leg.1 with
  | none => exact Or.inr ⟨rfl, nofun⟩
  | some m =>
    cases hn : keys_to_node nx topo (.ipv4 leg.2) with
    | none => exact Or.inr ⟨rfl, nofun⟩
    | some n => exact Or.inl ⟨m, n, hm, hn⟩

theorem chain_of_found (hpath : nx.shortest_path topo m n = .ok path) : (dropHost path).IsChain (Joined topo) := by
  have hchain := (nx.part_of_found hpath).1
  cases path with
  | nil => exact .nil
  | cons u rest =>
    cases u with
    | host h => exact hchain.tail
    | switch s => exact hchain
    | noNode => exact hchain

theorem nodup_of_found (hpath : nx.shortest_path topo m n = .ok path) : (dropHost path).Nodup := by
  have hnodup := (nx.part_of_found hpath).2.1
  cases path with
  | nil => exact .nil
  | cons u rest =>
    cases u with
    | host h => exact (List.nodup_cons.mp hnodup).2
    | switch s => exact hnodup
    | noNode => exact hnodup

theorem find_direct_cases (hh : Held topo) (leg : Source × Bytes) :
    (∃ A, find_direct nx topo leg.1 leg.2 = .ok (some A)) ∧ Answered topo leg ∧ ¬ Unanswered topo leg ∨
    find_direct nx topo leg.1 leg.2 = .ok none ∧ ¬ Answered topo leg ∧ Unanswered topo leg ∨
    (∃ e, find_direct nx topo leg.1 leg.2 = .error e) ∧ ¬ Answered topo leg ∧ ¬ Unanswered topo leg := by
  rcases resolved_or_unanswered topo leg with ⟨m, n, hm, hn⟩ | ⟨hnone, hno⟩
  · have hanswered : Answered topo leg ↔ ∃ path, nx.shortest_path topo m n = .ok path ∧ OverSwitches (dropHost path) ∧
        Readable topo (dropHost path) := by
      simp [Answered, hm, hn]
    have hunanswered : Unanswered topo leg ↔ ∀ path, nx.shortest_path topo m n = .ok path → OverSwitches (dropHost path) ∧
        ¬ Readable topo (dropHost path) := by
      refine ⟨fun hno path => hno m n path hm hn, fun hno m' n' path hm' hn' => ?_⟩
      rw [hm] at hm'
      rw [hn] at hn'
      cases hm'
      cases hn'
      exact hno path
    rw [hanswered, hunanswered, find_direct_eq hm hn]
    unfold tripActions pathActions
    cases hpath : nx.shortest_path topo m n with
    | error e => simp
    | ok path =>
      dsimp only
      rcases actionTexts_cases hh (chain_of_found hpath) with ⟨hover, texts, htexts, hread⟩ | ⟨hover, e, herr⟩
      · rw [htexts]
        cases hactions : readActions texts with
        | some A => simp [hover, hread, hactions, Except.map]
        | none => simp [hover, hread, hactions, Except.map]
      · rw [herr]
        simp [hover, Except.map]
  · refine Or.inr (Or.inl ⟨hnone, fun hans => ?_, hno⟩)
    obtain ⟨m, n, path, hm, hn, hpath, hover, hread⟩ := hans
    exact (hno m n path hm hn hpath).2 hread

theorem answered_iff (hh : Held topo) (leg : Source × Bytes) :
    Answered topo leg ↔ ∃ A, find_direct nx topo leg.1 leg.2 = .ok (some A) := by
  rcases find_direct_cases hh leg with ⟨hA, hyes, _⟩ | ⟨hnone, hno, _⟩ | ⟨⟨e, herr⟩, hno, _⟩
  · exact iff_of_true hyes hA
  · simp [hno, hnone]
  · simp [hno, herr]

theorem unanswered_iff (hh : Held topo) (leg : Source × Bytes) :
    Unanswered topo leg ↔ find_direct nx topo leg.1 leg.2 = .ok none := by
  rcases find_direct_cases hh leg with ⟨⟨A, hA⟩, _, hno⟩ | ⟨hnone, _, hyes⟩ | ⟨⟨e, herr⟩, _, hno⟩
  · simp [hno, hA]
  · exact iff_of_true hyes hnone
  · simp [hno, herr]

theorem pathActions_some {actions : List Action} (h : pathActions nx topo path = .ok (some actions)) :
    ∃ texts, actionTexts nx topo path = .ok texts ∧ readActions texts = some actions := by
  unfold pathActions at h
  cases htexts : actionTexts nx topo path with
  | error e => rw [htexts] at h; cases h
  | ok texts =>
    rw [htexts] at h
    exact ⟨texts, rfl, Except.ok.inj h⟩

theorem direct_some {actions : List Action} (h : find_direct nx topo a t = .ok (some actions)) :
    ∃ m n path, sourceNode nx topo a = some m ∧ keys_to_node nx topo (.ipv4 t) = some n ∧
      nx.shortest_path topo m n = .ok path ∧ pathActions nx topo (dropHost path) = .ok (some actions) := by
  rcases resolved_or_unanswered topo (a, t) with ⟨m, n, hm, hn⟩ | ⟨hnone, _⟩
  · have hm : sourceNode nx topo a = some m := hm
    have hn : keys_to_node nx topo (.ipv4 t) = some n := hn
    rw [find_direct_eq hm hn] at h
    unfold tripActions at h
    cases hpath : nx.shortest_path topo m n with
    | error e => rw [hpath] at h; cases h
    | ok path =>
      rw [hpath] at h
      exact ⟨m, n, path, hm, hn, hpath, h⟩
  · have hnone : find_direct nx topo a t = .ok none := hnone
    rw [hnone] at h
    cases h

theorem target_of_direct {A : List Action} (h : find_direct nx topo a t = .ok (some A)) :
    ∃ h, keys_to_node nx topo (.ipv4 t) = some (.host h) := by
  obtain ⟨m, n, path, _, hn, _⟩ := direct_some h
  obtain ⟨g, rfl⟩ := host_of_ipv4 hn
  exact ⟨g, hn⟩

theorem path_to_same {R : TopoNode → TopoNode → Prop} (hpath : IsShortest R m m path) : path = [m] := by
  have hle := hpath.2 [m] ⟨.singleton _, rfl, rfl⟩
  have hhead := hpath.1.head
  cases path with
  | nil => cases hhead
  | cons u rest =>
    cases hhead
    rw [List.length_cons, List.length_singleton] at hle
    have hrest : rest = [] := List.eq_nil_of_length_eq_zero (by omega)
    rw [hrest]

theorem shortest_path_same (hh : .host h ∈ nx.nodes topo) : nx.shortest_path topo (.host h) (.host h) = .ok [.host h] := by
  have hclear : nx.Clear topo (.host h) (.host h) := by
    intro q hq n hn hnull
    rw [path_to_same hq, List.mem_singleton] at hn
    cases hn.symm.trans hnull
  cases hpath : nx.shortest_path topo (.host h) (.host h) with
  | error e => exact absurd ⟨.singleton _, rfl, rfl⟩ (nx.not_path_of_error (p := [.host h]) hclear hh hpath)
  | ok path => rw [path_to_same (nx.shortest_of_found hclear hpath)]

theorem find_direct_same (hm : sourceNode nx topo a = some m) (ht : keys_to_node nx topo (.ipv4 t) = some m) :
    find_direct nx topo a t = .ok (some []) := by
  obtain ⟨h, rfl⟩ := host_of_ipv4 ht
  rw [find_direct_eq hm ht]
  unfold tripActions
  rw [shortest_path_same (mem_of_keys_to_node ht)]
  rfl

/-! ## Starting at a switch -/

/-- The switch itself, or a host that is joined to it and to nothing else. -/
def At (topo : nx.Graph) (X : Switch) (m : TopoNode) : Prop :=
  m = .switch X ∨ (∃ h, m = .host h) ∧ ∀ v, Joined topo m v ↔ v = .switch X

theorem dropHost_shortest (hat : At topo X m) (hne : m ≠ .host h) (hpath : IsShortest (Joined topo) m (.host h) path) :
    IsShortest (Joined topo) (.switch X) (.host h) (dropHost path) := by
  cases path with
  | nil => cases hpath.1.head
  | cons u rest =>
    cases hpath.1.head
    rcases hat with rfl | ⟨⟨h', rfl⟩, hX⟩
    · exact hpath
    · cases rest with
      | nil =>
        have := hpath.1.last
        cases this
        exact absurd rfl hne
      | cons v rest =>
        have hv := (hX v).mp (List.isChain_cons_cons.mp hpath.1.chain).1
        subst hv
        have hcons : .host h' :: .switch X :: rest = [.host h'] ++ .switch X :: rest := rfl
        exact hpath.from_node hcons

theorem path_from_at (hat : At topo X m) (hpath : IsPath (Joined topo) (.switch X) n path) :
    ∃ path, IsPath (Joined topo) m n path := by
  rcases hat with rfl | ⟨_, hX⟩
  · exact ⟨path, hpath⟩
  · obtain ⟨rest, rfl⟩ := List.head?_eq_some_iff.mp hpath.head
    refine ⟨m :: .switch X :: rest, List.isChain_cons_cons.mpr ⟨(hX _).mpr rfl, hpath.chain⟩, rfl, ?_⟩
    rw [List.getLast?_cons_cons]
    exact hpath.last

/-- There is at most one shortest path from the switch to the node, and none over `None`. -/
def OneWay (topo : nx.Graph) (X : Switch) (n : TopoNode) : Prop :=
  ∀ p q, IsShortest (Joined topo) (.switch X) n p → IsShortest (Joined topo) (.switch X) n q → p = q ∧ .noNode ∉ p

theorem mem_dropHost (h : .noNode ∈ path) : .noNode ∈ dropHost path := by
  cases path with
  | nil => cases h
  | cons u rest =>
    cases u with
    | host g => exact (List.mem_cons.mp h).resolve_left nofun
    | switch s => exact h
    | noNode => exact h

theorem clear_of_oneWay (hat : At topo X m) (hne : m ≠ .host h) (hone : OneWay topo X (.host h)) :
    nx.Clear topo m (.host h) := by
  intro q hq n hn hnull
  have hshort := dropHost_shortest hat hne hq
  refine (hone _ _ hshort hshort).2 (mem_dropHost ?_)
  rw [← hnull]
  exact hn

theorem tripActions_same {m' : TopoNode} (hm : m ∈ nx.nodes topo) (hm' : m' ∈ nx.nodes topo) (hat : At topo X m)
    (hat' : At topo X m') (hne : m ≠ .host h) (hne' : m' ≠ .host h) (hone : OneWay topo X (.host h)) :
    tripActions topo m (.host h) = tripActions topo m' (.host h) := by
  have hclear := clear_of_oneWay hat hne hone
  have hclear' := clear_of_oneWay hat' hne' hone
  unfold tripActions
  cases hpath : nx.shortest_path topo m (.host h) with
  | error e =>
    cases hpath' : nx.shortest_path topo m' (.host h) with
    | error e' => rfl
    | ok path' =>
      have hshort' := dropHost_shortest hat' hne' (nx.shortest_of_found hclear' hpath')
      obtain ⟨path, hex⟩ := path_from_at hat hshort'.1
      exact absurd hex (nx.not_path_of_error hclear hm hpath)
  | ok path =>
    have hshort := dropHost_shortest hat hne (nx.shortest_of_found hclear hpath)
    cases hpath' : nx.shortest_path topo m' (.host h) with
    | error e' =>
      obtain ⟨path', hex⟩ := path_from_at hat' hshort.1
      exact absurd hex (nx.not_path_of_error hclear' hm' hpath')
    | ok path' =>
      have hshort' := dropHost_shortest hat' hne' (nx.shortest_of_found hclear' hpath')
      dsimp only
      rw [(hone _ _ hshort hshort').1]

end

/-! ## The loop over the waypoints -/

/-- Each segment starts where the one before it ended. -/
def segmentsFrom : Source → List Bytes → List (Source × Bytes)
  | _, [] => []
  | cur, t :: ts => (cur, t) :: segmentsFrom (.ip t) ts

/-- Each leg starts where the one before it started its segment. -/
def legsFrom : Source → Source → List Bytes → List (Source × Bytes)
  | _, _, [] => []
  | prev, cur, t :: ts => (prev, t) :: legsFrom cur (.ip t) ts

def segments (src : Source) (dst : Bytes) (via : List Bytes) : List (Source × Bytes) := segmentsFrom src (via ++ [dst])

def legs (src : Source) (dst : Bytes) (via : List Bytes) : List (Source × Bytes) :=
  legsFrom (.ip dst) src (via ++ [dst])

/-- The answers to a list of legs, up to the first without one. -/
def answers (nx : TopoGraph) (topo : nx.Graph) :
    List (Source × Bytes) → Except Exn (Option (List (List Action)))
  | [] => .ok (some [])
  | leg :: rest =>
    match find_direct nx topo leg.1 leg.2 with
    | .error e => .error e
    | .ok none => .ok none
    | .ok (some A) => (answers nx topo rest).map fun As => As.map (A :: ·)

section
variable {src : Source} {dst : Bytes} {via : List Bytes}

theorem find_legs_eq {tot : List Source} : ∀ (rest : List Bytes) (idx : Nat),
    (∀ j, before tot src (idx + 2 + j) = (rest.map Source.ip).getD j src) →
    find_legs nx topo tot src idx rest =
      answers nx topo (legsFrom (before tot src idx) (before tot src (idx + 1)) rest)
  | [], _, _ => rfl
  | medium :: rest, idx, h => by
    have hnext : before tot src (idx + 1 + 1) = .ip medium := h 0
    have hrest : ∀ j, before tot src (idx + 1 + 2 + j) = (rest.map Source.ip).getD j src := by
      intro j
      have hj : idx + 1 + 2 + j = idx + 2 + (j + 1) := by omega
      rw [hj]
      exact h (j + 1)
    have ih := find_legs_eq rest (idx + 1) hrest
    rw [hnext] at ih
    unfold find_legs answers legsFrom
    cases hd : find_direct nx topo (before tot src idx) medium with
    | error e => simp only [hd]
    | ok A =>
      cases A with
      | none => simp only [hd]
      | some A => simp only [hd, ih]

/-- The loop asks for the legs, not for the segments. -/
theorem find_path_legs (hvia : via ≠ []) :
    find_path nx topo src dst via = (answers nx topo (legs src dst via)).map fun As => As.map List.flatten := by
  have htot : src :: via.map Source.ip ++ [.ip dst] = src :: (via ++ [dst]).map Source.ip := by simp
  have hbefore : ∀ j, before (src :: (via ++ [dst]).map Source.ip) src (j + 1) =
      (src :: (via ++ [dst]).map Source.ip).getD j src := by
    intro j
    unfold before
    rw [if_neg (by omega), Nat.add_sub_cancel]
  have hlast : before (src :: (via ++ [dst]).map Source.ip) src 0 = .ip dst := by
    unfold before
    rw [if_pos rfl, List.map_append, ← List.cons_append]
    exact List.getLastD_concat
  unfold find_path legs
  rw [if_neg hvia, htot, find_legs_eq (via ++ [dst]) 0 fun j => ?_, hlast, hbefore 0]
  · rfl
  · rw [show 0 + 2 + j = (j + 1) + 1 by omega, hbefore (j + 1)]
    rfl

/-- The chain follows its waypoints: the segments' paths in order, or `None` where one has none. -/
def FollowsWaypoints (nx : TopoGraph) (topo : nx.Graph) (src : Source) (dst : Bytes) (via : List Bytes) : Prop :=
  (∃ As, List.Forall₂ (fun seg A => find_path nx topo seg.1 seg.2 [] = .ok (some A)) (segments src dst via) As ∧
    find_path nx topo src dst via = .ok (some As.flatten)) ∨
  (∃ seg ∈ segments src dst via, find_path nx topo seg.1 seg.2 [] = .ok none) ∧ find_path nx topo src dst via = .ok none

def Paths (topo : nx.Graph) : List (Source × Bytes) → List (List Action) → Prop :=
  List.Forall₂ fun leg A => find_direct nx topo leg.1 leg.2 = .ok (some A)

theorem answers_of_paths {l : List (Source × Bytes)} {As : List (List Action)} (h : Paths topo l As) :
    answers nx topo l = .ok (some As) := by
  induction h with
  | nil => rfl
  | cons hA _ ih =>
    unfold answers
    rw [hA, ih]
    rfl

theorem paths_of_answers {l : List (Source × Bytes)} {As : List (List Action)} (h : answers nx topo l = .ok (some As)) :
    Paths topo l As := by
  induction l generalizing As with
  | nil =>
    cases h
    exact .nil
  | cons leg l ih =>
    unfold answers at h
    cases hA : find_direct nx topo leg.1 leg.2 with
    | error e => rw [hA] at h; cases h
    | ok A =>
      cases A with
      | none => rw [hA] at h; cases h
      | some A =>
        rw [hA] at h
        dsimp only at h
        cases hrest : answers nx topo l with
        | error e => rw [hrest] at h; cases h
        | ok Bs =>
          rw [hrest] at h
          obtain ⟨Bs, rfl, rfl⟩ := Option.map_eq_some_iff.mp (Except.ok.inj h)
          exact .cons hA (ih hrest)

theorem exists_paths (hh : Held topo) : ∀ {l : List (Source × Bytes)}, (∀ leg ∈ l, Answered topo leg) → ∃ As, Paths topo l As
  | [], _ => ⟨[], .nil⟩
  | leg :: l, h => by
    obtain ⟨As, hAs⟩ := exists_paths hh fun leg' hl => h leg' (List.mem_cons_of_mem _ hl)
    obtain ⟨A, hA⟩ := (answered_iff hh leg).mp (h leg List.mem_cons_self)
    exact ⟨A :: As, .cons hA hAs⟩

theorem answered_of_paths (hh : Held topo) {l : List (Source × Bytes)} {As : List (List Action)} (h : Paths topo l As) :
    ∀ leg ∈ l, Answered topo leg := by
  induction h with
  | nil => exact fun _ hmem => absurd hmem List.not_mem_nil
  | cons hA _ ih => exact List.forall_mem_cons.mpr ⟨(answered_iff hh _).mpr ⟨_, hA⟩, ih⟩

/-- The first leg that is not answered has no path. -/
def Stops (topo : nx.Graph) : List (Source × Bytes) → Prop
  | [] => False
  | leg :: rest => Unanswered topo leg ∨ Answered topo leg ∧ Stops topo rest

theorem answers_none_iff (hh : Held topo) (l : List (Source × Bytes)) : answers nx topo l = .ok none ↔ Stops topo l := by
  induction l with
  | nil => exact iff_of_false nofun id
  | cons leg l ih =>
    unfold answers Stops
    rcases find_direct_cases hh leg with ⟨⟨A, hA⟩, hyes, hno⟩ | ⟨hnone, _, hyes⟩ | ⟨⟨e, herr⟩, hno, hno'⟩
    · rw [hA, ← ih]
      dsimp only
      cases answers nx topo l with
      | error e => simp [hno, Except.map]
      | ok As => simp [hyes, hno, Except.map]
    · simp [hnone, hyes]
    · simp [herr, hno, hno']

/-! ### Waypoints at the destination -/

def AllSame (topo : nx.Graph) (dst : Bytes) (via : List Bytes) : Prop :=
  ∃ h, ∀ ip ∈ dst :: via, keys_to_node nx topo (.ipv4 ip) = some h

theorem find_direct_congr {a : Source} {t t' : Bytes}
    (h : keys_to_node nx topo (.ipv4 t) = keys_to_node nx topo (.ipv4 t')) :
    find_direct nx topo a t = find_direct nx topo a t' := by
  unfold find_direct
  rw [h]

theorem answers_same {m : TopoNode} : ∀ {l : List (Source × Bytes)},
    (∀ leg ∈ l, sourceNode nx topo leg.1 = some m ∧ keys_to_node nx topo (.ipv4 leg.2) = some m) →
    ∃ As, answers nx topo l = .ok (some As) ∧ As.flatten = []
  | [], _ => ⟨[], rfl, rfl⟩
  | leg :: l, h => by
    obtain ⟨As, hAs, hflat⟩ := answers_same fun leg' hl => h leg' (List.mem_cons_of_mem _ hl)
    obtain ⟨ha, ht⟩ := h leg List.mem_cons_self
    refine ⟨[] :: As, ?_, by rw [List.flatten_cons, hflat]; rfl⟩
    unfold answers
    rw [find_direct_same ha ht, hAs]
    rfl

theorem mem_legsFrom : ∀ {ts : List Bytes} {prev cur : Source} {leg : Source × Bytes}, leg ∈ legsFrom prev cur ts →
    leg.2 ∈ ts ∧ (leg.1 = prev ∨ leg.1 = cur ∨ ∃ t ∈ ts, leg.1 = .ip t)
  | [], _, _, _, h => absurd h List.not_mem_nil
  | t :: ts, prev, cur, leg, h => by
    rcases List.mem_cons.mp h with rfl | h
    · exact ⟨List.mem_cons_self, Or.inl rfl⟩
    · obtain ⟨ht, ha⟩ := mem_legsFrom h
      refine ⟨List.mem_cons_of_mem _ ht, Or.inr ?_⟩
      rcases ha with ha | ha | ⟨t', ht', ha⟩
      · exact Or.inl ha
      · exact Or.inr ⟨t, List.mem_cons_self, ha⟩
      · exact Or.inr ⟨t', List.mem_cons_of_mem _ ht', ha⟩

theorem find_path_same (hvia : via ≠ []) (h : AllSame topo dst via) :
    find_path nx topo src dst via = find_direct nx topo src dst := by
  obtain ⟨m, hall⟩ := h
  have hdst := hall dst List.mem_cons_self
  rw [find_path_legs hvia]
  unfold legs
  cases via with
  | nil => exact absurd rfl hvia
  | cons w via =>
    have hw := hall w (by simp)
    obtain ⟨t, ts, hts⟩ : ∃ t ts, via ++ [dst] = t :: ts := by
      cases via with
      | nil => exact ⟨dst, [], rfl⟩
      | cons t ts => exact ⟨t, ts ++ [dst], rfl⟩
    have hmem : ∀ t' ∈ t :: ts, keys_to_node nx topo (.ipv4 t') = some m := by
      intro t' ht'
      rw [← hts, List.mem_append, List.mem_singleton] at ht'
      rcases ht' with ht' | rfl
      · exact hall t' (by simp [ht'])
      · exact hdst
    obtain ⟨As, hAs, hflat⟩ : ∃ As, answers nx topo (legsFrom (.ip w) (.ip t) ts) = .ok (some As) ∧ As.flatten = [] := by
      refine answers_same (m := m) fun leg hleg => ?_
      obtain ⟨ht', ha⟩ := mem_legsFrom hleg
      refine ⟨?_, hmem _ (List.mem_cons_of_mem _ ht')⟩
      rcases ha with ha | ha | ⟨t', ht'', ha⟩
      · rw [ha]
        exact hw
      · rw [ha]
        exact hmem t List.mem_cons_self
      · rw [ha]
        exact hmem t' (List.mem_cons_of_mem _ ht'')
    rw [List.cons_append, hts]
    unfold legsFrom answers
    dsimp only
    rw [find_direct_same (a := .ip dst) hdst hw]
    dsimp only
    unfold legsFrom answers
    dsimp only
    rw [find_direct_congr ((hmem t List.mem_cons_self).trans hdst.symm), hAs]
    cases find_direct nx topo src dst with
    | error e => rfl
    | ok A =>
      cases A with
      | none => rfl
      | some A =>
        show Except.ok (some ([] :: A :: As).flatten) = _
        rw [List.flatten_cons, List.flatten_cons, hflat, List.append_nil]
        rfl

/-! ### Trips -/

def trips (topo : nx.Graph) (l : List (Source × Bytes)) : List (TopoNode × TopoNode) :=
  l.filterMap fun leg =>
    match sourceNode nx topo leg.1, keys_to_node nx topo (.ipv4 leg.2) with
    | some m, some n => if m = n then none else some (m, n)
    | _, _ => none

theorem trips_cons {a : Source} {t : Bytes} {m n : TopoNode} (hm : sourceNode nx topo a = some m)
    (hn : keys_to_node nx topo (.ipv4 t) = some n) (l : List (Source × Bytes)) :
    trips topo ((a, t) :: l) = if m = n then trips topo l else (m, n) :: trips topo l := by
  unfold trips
  rw [List.filterMap_cons]
  simp only [hm, hn]
  by_cases hmn : m = n
  · simp [hmn]
  · simp [hmn]

theorem mem_trips {l : List (Source × Bytes)} {trip : TopoNode × TopoNode} (h : trip ∈ trips topo l) :
    trip.1 ∈ nx.nodes topo ∧ (∃ g, trip.2 = .host g) ∧ trip.1 ≠ trip.2 := by
  obtain ⟨leg, _, hleg⟩ := List.mem_filterMap.mp h
  cases hm : sourceNode nx topo leg.1 with
  | none => simp [hm] at hleg
  | some m =>
    cases hn : keys_to_node nx topo (.ipv4 leg.2) with
    | none => simp [hm, hn] at hleg
    | some n =>
      by_cases hmn : m = n
      · simp [hm, hn, hmn] at hleg
      · simp only [hm, hn, hmn, if_false, Option.some.injEq] at hleg
        subst hleg
        exact ⟨mem_of_sourceNode hm, host_of_ipv4 hn, hmn⟩

def joinTrips (topo : nx.Graph) : List (TopoNode × TopoNode) → Except Exn (Option (List Action))
  | [] => .ok (some [])
  | trip :: rest =>
    match tripActions topo trip.1 trip.2 with
    | .error e => .error e
    | .ok none => .ok none
    | .ok (some A) => (joinTrips topo rest).map fun B => B.map (A ++ ·)

theorem answers_flatten : ∀ {l : List (Source × Bytes)}, (∀ leg ∈ l, Resolved topo leg) →
    (answers nx topo l).map (fun As => As.map List.flatten) = joinTrips topo (trips topo l)
  | [], _ => rfl
  | (a, t) :: l, h => by
    have ih := answers_flatten fun leg' hl => h leg' (List.mem_cons_of_mem _ hl)
    obtain ⟨m, n, hm, hn⟩ := h _ List.mem_cons_self
    have hm : sourceNode nx topo a = some m := hm
    have hn : keys_to_node nx topo (.ipv4 t) = some n := hn
    rw [trips_cons hm hn]
    unfold answers
    by_cases hmn : m = n
    · subst hmn
      rw [if_pos rfl, ← ih, find_direct_same hm hn]
      cases answers nx topo l with
      | error e => rfl
      | ok As => cases As <;> rfl
    · rw [if_neg hmn, find_direct_eq hm hn]
      unfold joinTrips
      dsimp only
      cases tripActions topo m n with
      | error e => rfl
      | ok A =>
        cases A with
        | none => rfl
        | some A =>
          dsimp only
          rw [← ih]
          cases answers nx topo l with
          | error e => rfl
          | ok As => cases As <;> rfl

theorem exists_segment {t : Bytes} : ∀ {ts : List Bytes} (cur : Source), t ∈ ts → ∃ a, (a, t) ∈ segmentsFrom cur ts
  | [], _, h => absurd h List.not_mem_nil
  | t' :: ts, cur, h => by
    rcases List.mem_cons.mp h with rfl | h
    · exact ⟨cur, List.mem_cons_self⟩
    · obtain ⟨a, ha⟩ := exists_segment (.ip t') h
      exact ⟨a, List.mem_cons_of_mem _ ha⟩

theorem resolved_legs (h : ∀ seg ∈ segments src dst via, Resolved topo seg) : ∀ leg ∈ legs src dst via, Resolved topo leg := by
  have htarget : ∀ t ∈ via ++ [dst], ∃ n, keys_to_node nx topo (.ipv4 t) = some n := by
    intro t ht
    obtain ⟨a, ha⟩ := exists_segment src ht
    obtain ⟨_, n, _, hn⟩ := h _ ha
    exact ⟨n, hn⟩
  have hsrc : ∃ m, sourceNode nx topo src = some m := by
    cases via with
    | nil =>
      obtain ⟨m, _, hm, _⟩ := h (src, dst) List.mem_cons_self
      exact ⟨m, hm⟩
    | cons w via =>
      obtain ⟨m, _, hm, _⟩ := h (src, w) List.mem_cons_self
      exact ⟨m, hm⟩
  intro leg hleg
  obtain ⟨ht, ha⟩ := mem_legsFrom hleg
  obtain ⟨n, hn⟩ := htarget _ ht
  have hm : ∃ m, sourceNode nx topo leg.1 = some m := by
    rcases ha with ha | ha | ⟨t, ht, ha⟩
    · rw [ha]
      exact htarget dst (by simp)
    · rw [ha]
      exact hsrc
    · rw [ha]
      exact htarget t ht
  obtain ⟨m, hm⟩ := hm
  exact ⟨m, n, hm, hn⟩

/-! ### Where the waypoints are followed -/

/-- The same end, and the same start or the same switch to start at, with such a way on. -/
def Alike (topo : nx.Graph) (way : Switch → TopoNode → Prop) (trip trip' : TopoNode × TopoNode) : Prop :=
  trip.2 = trip'.2 ∧ (trip.1 = trip'.1 ∨ ∃ X, At topo X trip.1 ∧ At topo X trip'.1 ∧ way X trip.2)

/-- Every segment has a path, and the loop's legs lead where the segments do, from the same switches. -/
def LegsAlike (topo : nx.Graph) (way : Switch → TopoNode → Prop) (src : Source) (dst : Bytes) (via : List Bytes) : Prop :=
  (∀ seg ∈ segments src dst via, Answered topo seg) ∧
    List.Forall₂ (Alike topo way) (trips topo (segments src dst via)) (trips topo (legs src dst via))

def Stuck (topo : nx.Graph) (src : Source) (dst : Bytes) (via : List Bytes) : Prop :=
  (∃ seg ∈ segments src dst via, Unanswered topo seg) ∧ Stops topo (legs src dst via)

theorem joinTrips_congr {l l' : List (TopoNode × TopoNode)} (hl : ∀ trip ∈ l,
      trip.1 ∈ nx.nodes topo ∧ (∃ g, trip.2 = .host g) ∧ trip.1 ≠ trip.2) (hl' : ∀ trip ∈ l',
      trip.1 ∈ nx.nodes topo ∧ (∃ g, trip.2 = .host g) ∧ trip.1 ≠ trip.2)
    (h : List.Forall₂ (Alike topo (OneWay topo)) l l') : joinTrips topo l = joinTrips topo l' := by
  induction h with
  | nil => rfl
  | @cons trip trip' l l' halike _ ih =>
    obtain ⟨⟨hm, ⟨g, hg⟩, hne⟩, hl⟩ := List.forall_mem_cons.mp hl
    obtain ⟨⟨hm', _, hne'⟩, hl'⟩ := List.forall_mem_cons.mp hl'
    obtain ⟨hend, hstart⟩ := halike
    have hactions : tripActions topo trip.1 trip.2 = tripActions topo trip'.1 trip'.2 := by
      rw [← hend] at hne' ⊢
      rcases hstart with hsame | ⟨X, hat, hat', hone⟩
      · rw [hsame]
      · rw [hg] at hne hne' hone ⊢
        exact tripActions_same hm hm' hat hat' hne hne' hone
    unfold joinTrips
    rw [hactions, ih hl hl']

theorem follows_of_stuck (hh : Held topo) (hvia : via ≠ []) (h : Stuck topo src dst via) :
    FollowsWaypoints nx topo src dst via := by
  obtain ⟨⟨seg, hseg, hnone⟩, hstops⟩ := h
  refine Or.inr ⟨⟨seg, hseg, (unanswered_iff hh seg).mp hnone⟩, ?_⟩
  rw [find_path_legs hvia, (answers_none_iff hh _).mpr hstops]
  rfl

theorem follows_of_alike (hh : Held topo) (hvia : via ≠ []) (h : LegsAlike topo (OneWay topo) src dst via) :
    FollowsWaypoints nx topo src dst via := by
  obtain ⟨hanswered, halike⟩ := h
  obtain ⟨As, hAs⟩ := exists_paths hh hanswered
  have hres : ∀ seg ∈ segments src dst via, Resolved topo seg := fun seg hseg => (hanswered seg hseg).resolved
  refine Or.inl ⟨As, hAs, ?_⟩
  rw [find_path_legs hvia, answers_flatten (resolved_legs hres),
    ← joinTrips_congr (fun _ => mem_trips) (fun _ => mem_trips) halike, ← answers_flatten hres, answers_of_paths hAs]
  rfl

theorem flatten_of_follows (hh : Held topo) (hvia : via ≠ []) (h : FollowsWaypoints nx topo src dst via) :
    Stuck topo src dst via ∨ ∃ As As', Paths topo (legs src dst via) As ∧
      Paths topo (segments src dst via) As' ∧ As.flatten = As'.flatten := by
  unfold FollowsWaypoints at h
  rw [find_path_legs hvia] at h
  rcases h with ⟨As', hAs', hfound⟩ | ⟨⟨seg, hseg, hnone⟩, hfound⟩
  · cases hlegs : answers nx topo (legs src dst via) with
    | error e => rw [hlegs] at hfound; cases hfound
    | ok As =>
      rw [hlegs] at hfound
      obtain ⟨As, rfl, hflat⟩ := Option.map_eq_some_iff.mp (Except.ok.inj hfound)
      exact Or.inr ⟨As, As', paths_of_answers hlegs, hAs', hflat⟩
  · refine Or.inl ⟨⟨seg, hseg, (unanswered_iff hh seg).mpr hnone⟩, (answers_none_iff hh _).mp ?_⟩
    cases hlegs : answers nx topo (legs src dst via) with
    | error e => rw [hlegs] at hfound; cases hfound
    | ok As =>
      rw [hlegs] at hfound
      rw [Option.map_eq_none_iff.mp (Except.ok.inj hfound)]

end

/-! ## Graphs that show what was reported -/

/-- `None` is no node, and every host is joined to one switch and to nothing else. -/
structure Proper (topo : nx.Graph) : Prop extends Held topo where
  real : .noNode ∉ nx.nodes topo
  homes : ∀ h, .host h ∈ nx.nodes topo → ∃ X, At topo X (.host h)

theorem at_home {r : Reported} (hm : Mirrors r (r.topo nx)) {h : Host} {s : Switch} (hh : h ∈ r.hosts) (hs : s ∈ r.switches)
    (hd : s.dp.id = h.port.dpid) : At (r.topo nx) s (.host h) := by
  refine Or.inr ⟨⟨h, rfl⟩, fun v => ?_⟩
  rw [hm.hosts h hh]
  constructor
  · intro hhome
    obtain ⟨s', hs', rfl, hd'⟩ := hhome
    rw [r.one s' hs' s hs (hd'.trans hd.symm)]
  · intro hv
    exact ⟨s, hs, hv, hd⟩

theorem proper_topo (nx : TopoGraph) {r : Reported} (hshow : r.Showable) : Proper (r.topo nx) := by
  have hm : Mirrors r (r.topo nx) := mirrors_of_showable hshow
  refine ⟨held_topo nx r, ?_, fun h hh => ?_⟩
  · rw [hm.nodes]
    simp [Reported.nodes]
  · have hmem : h ∈ r.hosts := (lists_topo nx r).host.mp hh
    obtain ⟨s, hs, hd⟩ := hshow.homes h hmem
    exact ⟨s, at_home hm hmem hs hd⟩

theorem oneWay_of_joined {X : Switch} {h : Host} (hXh : Joined topo (.switch X) (.host h)) : OneWay topo X (.host h) := by
  have hedge : IsPath (Joined topo) (.switch X) (.host h) [.switch X, .host h] := ⟨by simp [hXh], rfl, rfl⟩
  have hpath : ∀ p, IsShortest (Joined topo) (.switch X) (.host h) p → p = [.switch X, .host h] := by
    intro p hp
    obtain ⟨v, rest, rfl⟩ := hp.1.first_hop nofun
    have hle := hp.2 _ hedge
    rw [List.length_cons, List.length_cons, List.length_cons, List.length_singleton] at hle
    have hrest : rest = [] := List.eq_nil_of_length_eq_zero (by omega)
    subst hrest
    cases hp.1.last
    rfl
  intro p q hp hq
  rw [hpath p hp, hpath q hq]
  exact ⟨rfl, by simp⟩

section
variable {X X' : Switch} {m n : TopoNode} {h : Host} {a : Source} {t : Bytes} {path : List TopoNode}

/-- No segment and no leg ends at the host it starts from. -/
def Apart (topo : nx.Graph) (src : Source) (dst : Bytes) (via : List Bytes) : Prop :=
  ∀ leg ∈ segments src dst via ++ legs src dst via, ∀ h, keys_to_node nx topo (.ipv4 leg.2) = some h →
    sourceNode nx topo leg.1 ≠ some h

/-- What is read for a host of a switch is read for no other neighbour of the switch. -/
def PortsApart (topo : nx.Graph) : Prop :=
  ∀ s h v record record' port, nx.edge topo (.switch s) (.host h) = some (some record) →
    nx.edge topo (.switch s) v = some (some record') → int record.dst.port_no = .ok port →
    int record'.dst.port_no = .ok port → v = .host h

def OnOneSwitch (topo : nx.Graph) (src : Source) (dst : Bytes) (via : List Bytes) : Prop :=
  ∃ X, ∀ a ∈ src :: .ip dst :: via.map Source.ip, ∃ m, sourceNode nx topo a = some m ∧ At topo X m

variable (hp : Proper topo)
include hp

theorem exists_at (hm : m ∈ nx.nodes topo) : ∃ X, .switch X ∈ nx.nodes topo ∧ At topo X m := by
  cases m with
  | switch X => exact ⟨X, hm, Or.inl rfl⟩
  | host h =>
    obtain ⟨X, hat⟩ := hp.homes h hm
    refine ⟨X, ?_, hat⟩
    rcases hat with he | ⟨_, hX⟩
    · cases he
    · exact hp.ends _ _ (joined_comm ((hX _).mpr rfl))
  | noNode => exact absurd hm hp.real

theorem mem_of_chain : ∀ {path : List TopoNode}, path.IsChain (Joined topo) → (∀ u, path.head? = some u → u ∈ nx.nodes topo) →
    ∀ u ∈ path, u ∈ nx.nodes topo
  | [], _, _ => fun u hu => absurd hu List.not_mem_nil
  | u :: rest, hchain, hhead => by
    intro v hv
    rcases List.mem_cons.mp hv with rfl | hv
    · exact hhead _ rfl
    · refine mem_of_chain hchain.tail (fun w hw => ?_) v hv
      exact hp.ends _ _ (joined_comm ((List.isChain_cons.mp hchain).1 w hw))

theorem clear_of_real (hm : m ∈ nx.nodes topo) : nx.Clear topo m n := by
  intro q hq v hv hnull
  have hnull : v = .noNode := hnull
  subst hnull
  refine hp.real (mem_of_chain hp hq.1.chain (fun u hu => ?_) _ hv)
  rw [hq.1.head] at hu
  cases hu
  exact hm

theorem direct_route {A : List Action} (hm : sourceNode nx topo a = some m) (hat : At topo X m)
    (hn : keys_to_node nx topo (.ipv4 t) = some (.host h)) (hne : m ≠ .host h)
    (hA : find_direct nx topo a t = .ok (some A)) :
    ∃ path, IsShortest (Joined topo) (.switch X) (.host h) path ∧ RouteActions topo path A := by
  obtain ⟨m', n, path, hm', hn', hpath, hactions⟩ := direct_some hA
  rw [hm] at hm'
  rw [hn] at hn'
  cases hm'
  cases hn'
  have hshort := dropHost_shortest hat hne (nx.shortest_of_found (clear_of_real hp (mem_of_sourceNode hm)) hpath)
  obtain ⟨texts, htexts, hread⟩ := pathActions_some hactions
  refine ⟨dropHost path, hshort, routeActions_of_path (fun hnil => ?_) htexts hread⟩
  have hhead := hshort.1.head
  rw [hnil] at hhead
  cases hhead

omit hp in
theorem senders_head (hpath : IsShortest (Joined topo) (.switch X) (.host h) path) :
    ∃ rest, senders path = X.dp :: rest := by
  cases path with
  | nil => cases hpath.1.head
  | cons u rest =>
    cases hpath.1.head
    cases rest with
    | nil =>
      have := hpath.1.last
      cases this
    | cons v rest => exact ⟨_, rfl⟩

theorem direct_lengths {a' : Source} {m' : TopoNode} {A A' : List Action} (hm : sourceNode nx topo a = some m)
    (hm' : sourceNode nx topo a' = some m') (hat : At topo X m) (hat' : At topo X' m')
    (ht : keys_to_node nx topo (.ipv4 t) = some (.host h)) (hne : m ≠ .host h) (hne' : m' ≠ .host h)
    (hA : find_direct nx topo a t = .ok (some A)) (hA' : find_direct nx topo a' t = .ok (some A')) {L L' : List Action}
    (heq : A ++ L = A' ++ L') (hX : .switch X ∈ nx.nodes topo) (hX' : .switch X' ∈ nx.nodes topo) : X = X' ∧ L = L' := by
  obtain ⟨path, hpath, hroute⟩ := direct_route hp hm hat ht hne hA
  obtain ⟨path', hpath', hroute'⟩ := direct_route hp hm' hat' ht hne' hA'
  obtain ⟨hmap, hlen⟩ := senders_of_route hroute
  obtain ⟨hmap', hlen'⟩ := senders_of_route hroute'
  obtain ⟨rest, hhead⟩ := senders_head hpath
  obtain ⟨rest', hhead'⟩ := senders_head hpath'
  have hX : X = X' := by
    cases A with
    | nil => rw [hhead] at hmap; cases hmap
    | cons b A =>
      cases A' with
      | nil => rw [hhead'] at hmap'; cases hmap'
      | cons b' A' =>
        rw [hhead, List.map_cons] at hmap
        rw [hhead', List.map_cons] at hmap'
        injection hmap with hb _
        injection hmap' with hb' _
        rw [List.cons_append, List.cons_append] at heq
        injection heq with hbb _
        refine hp.unique X X' hX hX' ?_
        rw [← hb, ← hb', hbb]
  subst hX
  have hsame : A.length = A'.length := by
    have := hpath.dist_eq.symm.trans hpath'.dist_eq
    omega
  exact ⟨rfl, (List.append_inj heq hsame).2⟩

variable {src : Source} {dst : Bytes} {via : List Bytes}

theorem one_switch_of_flatten {dst : Bytes} : ∀ {ts : List Bytes} {prev cur : Source} {m m' : TopoNode} {X X' : Switch}
    {As As' : List (List Action)}, Paths topo (legsFrom prev cur (ts ++ [dst])) As →
    Paths topo (segmentsFrom cur (ts ++ [dst])) As' → As.flatten = As'.flatten →
    (∀ leg ∈ segmentsFrom cur (ts ++ [dst]) ++ legsFrom prev cur (ts ++ [dst]), ∀ h,
      keys_to_node nx topo (.ipv4 leg.2) = some h → sourceNode nx topo leg.1 ≠ some h) →
    sourceNode nx topo prev = some m → At topo X m → .switch X ∈ nx.nodes topo →
    sourceNode nx topo cur = some m' → At topo X' m' → .switch X' ∈ nx.nodes topo →
    X = X' ∧ ∀ t ∈ ts, ∃ n, sourceNode nx topo (.ip t) = some n ∧ At topo X n
  | [], prev, cur, m, m', X, X', As, As', hAs, hAs', hflat, hapart, hm, hat, hX, hm', hat', hX' => by
    cases hAs with
    | cons hA htail =>
      cases hAs' with
      | cons hA' htail' =>
        obtain ⟨h, ht⟩ := target_of_direct hA
        have hne : m ≠ .host h := fun he => hapart (prev, dst) (by simp [legsFrom]) _ ht (he ▸ hm)
        have hne' : m' ≠ .host h := fun he => hapart (cur, dst) (by simp [segmentsFrom]) _ ht (he ▸ hm')
        have hXX := (direct_lengths hp hm hm' hat hat' ht hne hne' hA hA' hflat hX hX').1
        exact ⟨hXX, fun t ht => absurd ht List.not_mem_nil⟩
  | t :: ts, prev, cur, m, m', X, X', As, As', hAs, hAs', hflat, hapart, hm, hat, hX, hm', hat', hX' => by
    cases hAs with
    | cons hA htail =>
      cases hAs' with
      | cons hA' htail' =>
        obtain ⟨h, ht⟩ := target_of_direct hA
        have hne : m ≠ .host h := fun he => hapart (prev, t) (by simp [legsFrom]) _ ht (he ▸ hm)
        have hne' : m' ≠ .host h := fun he => hapart (cur, t) (by simp [segmentsFrom]) _ ht (he ▸ hm')
        obtain ⟨hXX, hrest⟩ := direct_lengths hp hm hm' hat hat' ht hne hne' hA hA' hflat hX hX'
        obtain ⟨Y, hY, hatt⟩ := exists_at hp (mem_of_keys_to_node ht)
        have hapart' : ∀ leg ∈ segmentsFrom (.ip t) (ts ++ [dst]) ++ legsFrom cur (.ip t) (ts ++ [dst]), ∀ h,
            keys_to_node nx topo (.ipv4 leg.2) = some h → sourceNode nx topo leg.1 ≠ some h := fun leg hleg => by
          refine hapart leg ?_
          rcases List.mem_append.mp hleg with hleg | hleg
          · exact List.mem_append_left _ (List.mem_cons_of_mem _ hleg)
          · exact List.mem_append_right _ (List.mem_cons_of_mem _ hleg)
        obtain ⟨hXY, hall⟩ := one_switch_of_flatten htail htail' hrest hapart' hm' hat' hX' ht hatt hY
        subst hXX hXY
        refine ⟨rfl, fun t' ht' => ?_⟩
        rcases List.mem_cons.mp ht' with rfl | ht'
        · exact ⟨_, ht, hatt⟩
        · exact hall t' ht'

theorem onOneSwitch_of_flatten (hvia : via ≠ []) (hapart : Apart topo src dst via) {As As' : List (List Action)}
    (hAs : Paths topo (legs src dst via) As) (hAs' : Paths topo (segments src dst via) As')
    (hflat : As.flatten = As'.flatten) : OnOneSwitch topo src dst via := by
  obtain ⟨t, ts, hts⟩ : ∃ t ts, via ++ [dst] = t :: ts := by
    cases via with
    | nil => exact ⟨dst, [], rfl⟩
    | cons t ts => exact ⟨t, ts ++ [dst], rfl⟩
  have hleg : ∃ A, find_direct nx topo (.ip dst) t = .ok (some A) := by
    unfold legs at hAs
    rw [hts] at hAs
    cases hAs with
    | cons hA _ => exact ⟨_, hA⟩
  have hsegment : ∃ A, find_direct nx topo src t = .ok (some A) := by
    unfold segments at hAs'
    rw [hts] at hAs'
    cases hAs' with
    | cons hA _ => exact ⟨_, hA⟩
  obtain ⟨_, hA⟩ := hleg
  obtain ⟨_, hA'⟩ := hsegment
  obtain ⟨m, _, _, hm, _⟩ := direct_some hA
  obtain ⟨m', _, _, hm', _⟩ := direct_some hA'
  obtain ⟨X, hX, hat⟩ := exists_at hp (mem_of_sourceNode hm)
  obtain ⟨X', hX', hat'⟩ := exists_at hp (mem_of_sourceNode hm')
  obtain ⟨hXX, hvias⟩ := one_switch_of_flatten hp hAs hAs' hflat hapart hm hat hX hm' hat' hX'
  subst hXX
  refine ⟨X, fun a ha => ?_⟩
  rcases List.mem_cons.mp ha with rfl | ha
  · exact ⟨m', hm', hat'⟩
  · rcases List.mem_cons.mp ha with rfl | ha
    · exact ⟨m, hm, hat⟩
    · obtain ⟨t, ht, rfl⟩ := List.mem_map.mp ha
      exact hvias t ht

omit hp in
theorem alike_from {X : Switch} : ∀ {ts : List Bytes} {prev cur : Source},
    (∀ a ∈ prev :: cur :: ts.map Source.ip, ∃ m, sourceNode nx topo a = some m ∧ At topo X m) →
    (∀ leg ∈ segmentsFrom cur ts ++ legsFrom prev cur ts, ∀ h, keys_to_node nx topo (.ipv4 leg.2) = some h →
      sourceNode nx topo leg.1 ≠ some h) →
    List.Forall₂ (Alike topo fun _ _ => True) (trips topo (segmentsFrom cur ts)) (trips topo (legsFrom prev cur ts))
  | [], _, _, _, _ => .nil
  | t :: ts, prev, cur, hat, hapart => by
    obtain ⟨m, hm, hatm⟩ := hat prev (by simp)
    obtain ⟨m', hm', hatm'⟩ := hat cur (by simp)
    obtain ⟨n, ht, _⟩ := hat (.ip t) (by simp)
    have ht : keys_to_node nx topo (.ipv4 t) = some n := ht
    have hne : m ≠ n := fun he => hapart (prev, t) (by simp [legsFrom]) _ ht (he ▸ hm)
    have hne' : m' ≠ n := fun he => hapart (cur, t) (by simp [segmentsFrom]) _ ht (he ▸ hm')
    unfold legsFrom segmentsFrom
    rw [trips_cons hm' ht, trips_cons hm ht, if_neg hne, if_neg hne']
    refine .cons ⟨rfl, Or.inr ⟨X, hatm', hatm, trivial⟩⟩ (alike_from (fun a ha => hat a ?_) fun leg hleg => hapart leg ?_)
    · exact List.mem_cons_of_mem _ ha
    · rcases List.mem_append.mp hleg with hleg | hleg
      · exact List.mem_append_left _ (List.mem_cons_of_mem _ hleg)
      · exact List.mem_append_right _ (List.mem_cons_of_mem _ hleg)

/-! ### Actions that tell their routes -/

structure Travels (topo : nx.Graph) (path : List TopoNode) (A : List Action) : Prop where
  route : RouteActions topo path A
  head : ∃ X, path.head? = some (.switch X)
  last : ∃ h, path.getLast? = some (.host h)

omit hp in
theorem Travels.cases {path : List TopoNode} {A : List Action} (h : Travels topo path A) :
    ∃ s v rest record port A', path = .switch s :: v :: rest ∧ A = ⟨s.dp, [port]⟩ :: A' ∧
      nx.edge topo (.switch s) v = some (some record) ∧ int record.dst.port_no = .ok port ∧
      RouteActions topo (v :: rest) A' ∧ ∃ h, (v :: rest).getLast? = some (.host h) := by
  obtain ⟨hroute, ⟨X, hhead⟩, g, hlast⟩ := h
  rcases route_cases hroute with ⟨⟨u, rfl⟩, _⟩ | ⟨s, v, rest, record, port, A', rfl, rfl, hedge, hport, hrest⟩
  · cases hhead
    cases hlast
  · rw [List.getLast?_cons_cons] at hlast
    exact ⟨s, v, rest, record, port, A', rfl, rfl, hedge, hport, hrest, g, hlast⟩

omit hp in
theorem end_of_host {h : Host} {rest : List TopoNode} {A : List Action} (hroute : RouteActions topo (.host h :: rest) A) :
    rest = [] ∧ A = [] := by
  rcases route_cases hroute with ⟨⟨u, hu⟩, hA⟩ | ⟨s, v, rest, record, port, A', hcons, _⟩
  · exact ⟨(List.cons.inj hu).2, hA⟩
  · cases hcons

variable (hports : PortsApart topo)

include hports in
theorem travels_unique {path path' : List TopoNode} {A A' L L' : List Action} (h : Travels topo path A)
    (h' : Travels topo path' A') (heq : A ++ L = A' ++ L') : path = path' ∧ L = L' := by
  induction A generalizing path path' A' with
  | nil =>
    obtain ⟨s, v, rest, record, port, A₁, _, hA, _⟩ := h.cases
    cases hA
  | cons a A ih =>
    obtain ⟨s, v, rest, record, port, A₁, rfl, hA, hedge, hport, hrest, hlast⟩ := h.cases
    obtain ⟨s', v', rest', record', port', A₂, rfl, rfl, hedge', hport', hrest', hlast'⟩ := h'.cases
    cases hA
    obtain ⟨hhead, htail⟩ := List.cons.inj heq
    injection hhead with hdp hout
    cases hout
    have hs : s = s' := hp.unique s s' (hp.ends _ _ (joined_of_edge hedge)) (hp.ends _ _ (joined_of_edge hedge'))
      (by rw [hdp])
    subst hs
    cases v with
    | noNode => exact absurd (hp.ends _ _ (joined_comm (joined_of_edge hedge))) hp.real
    | host g =>
      obtain rfl := hports s g v' record record' port hedge hedge' hport hport'
      obtain ⟨rfl, rfl⟩ := end_of_host hrest
      obtain ⟨rfl, rfl⟩ := end_of_host hrest'
      exact ⟨rfl, htail⟩
    | switch t =>
      cases v' with
      | host g => cases hports s g (.switch t) record' record port hedge' hedge hport' hport
      | noNode => exact absurd (hp.ends _ _ (joined_comm (joined_of_edge hedge'))) hp.real
      | switch t' =>
        obtain ⟨hpath, hL⟩ := ih ⟨hrest, ⟨t, rfl⟩, hlast⟩ ⟨hrest', ⟨t', rfl⟩, hlast'⟩ htail
        exact ⟨by rw [hpath], hL⟩

include hports in
theorem routes_unique {paths paths' : List (List TopoNode)} {Bs Bs' : List (List Action)}
    (h : List.Forall₂ (Travels topo) paths Bs) (h' : List.Forall₂ (Travels topo) paths' Bs')
    (heq : Bs.flatten = Bs'.flatten) : paths = paths' := by
  have hcons : ∀ {path A L}, Travels topo path A → A ++ L ≠ [] := by
    intro path A L ht
    obtain ⟨s, v, rest, record, port, A', _, rfl, _⟩ := ht.cases
    exact List.cons_ne_nil _ _
  induction h generalizing paths' Bs' with
  | nil =>
    cases h' with
    | nil => rfl
    | cons ht _ => exact absurd heq.symm (hcons ht)
  | cons ht _ ih =>
    cases h' with
    | nil => exact absurd heq (hcons ht)
    | cons ht' hrest' =>
      obtain ⟨hpath, heq⟩ := travels_unique hp hports ht ht' heq
      rw [hpath, ih hrest' heq]

def Leads (topo : nx.Graph) (trip : TopoNode × TopoNode) (path : List TopoNode) : Prop :=
  (∃ X, path.head? = some (.switch X) ∧ At topo X trip.1) ∧ path.getLast? = some trip.2

theorem routes_of_paths {l : List (Source × Bytes)} {As : List (List Action)} (h : Paths topo l As) :
    ∃ paths Bs, List.Forall₂ (Leads topo) (trips topo l) paths ∧ List.Forall₂ (Travels topo) paths Bs ∧
      Bs.flatten = As.flatten := by
  induction h with
  | nil => exact ⟨[], [], .nil, .nil, rfl⟩
  | @cons leg A l As hA _ ih =>
    obtain ⟨paths, Bs, hleads, htravels, hflat⟩ := ih
    obtain ⟨a, t⟩ := leg
    have hA : find_direct nx topo a t = .ok (some A) := hA
    obtain ⟨h, hn⟩ := target_of_direct hA
    obtain ⟨m, _, _, hm, _⟩ := direct_some hA
    rw [trips_cons hm hn]
    by_cases hne : m = .host h
    · subst hne
      rw [find_direct_same hm hn] at hA
      cases hA
      exact ⟨paths, Bs, by rw [if_pos rfl]; exact hleads, htravels, hflat⟩
    · obtain ⟨X, _, hat⟩ := exists_at hp (mem_of_sourceNode hm)
      obtain ⟨path, hshort, hroute⟩ := direct_route hp hm hat hn hne hA
      refine ⟨path :: paths, A :: Bs, ?_, .cons ⟨hroute, ⟨X, hshort.1.head⟩, h, hshort.1.last⟩ htravels, ?_⟩
      · rw [if_neg hne]
        exact .cons ⟨⟨X, hshort.1.head, hat⟩, hshort.1.last⟩ hleads
      · rw [List.flatten_cons, List.flatten_cons, hflat]

omit hp in
theorem alike_of_leads {l l' : List (TopoNode × TopoNode)} {paths : List (List TopoNode)}
    (h : List.Forall₂ (Leads topo) l paths) (h' : List.Forall₂ (Leads topo) l' paths) :
    List.Forall₂ (Alike topo fun _ _ => True) l l' := by
  induction h generalizing l' with
  | nil =>
    cases h'
    exact .nil
  | cons hlead _ ih =>
    cases h' with
    | cons hlead' hrest' =>
      obtain ⟨⟨X, hhead, hat⟩, hlast⟩ := hlead
      obtain ⟨⟨X', hhead', hat'⟩, hlast'⟩ := hlead'
      rw [hhead] at hhead'
      cases hhead'
      exact .cons ⟨Option.some.inj (hlast.symm.trans hlast'), Or.inr ⟨X, hat, hat', trivial⟩⟩ (ih hrest')

theorem alike_of_follows (hvia : via ≠ []) (htell : Apart topo src dst via ∨ PortsApart topo)
    (h : FollowsWaypoints nx topo src dst via) :
    Stuck topo src dst via ∨ LegsAlike topo (fun _ _ => True) src dst via := by
  rcases flatten_of_follows hp.toHeld hvia h with hstuck | ⟨As, As', hAs, hAs', hflat⟩
  · exact Or.inl hstuck
  · refine Or.inr ⟨answered_of_paths hp.toHeld hAs', ?_⟩
    rcases htell with hapart | hports
    · obtain ⟨X, hX⟩ := onOneSwitch_of_flatten hp hvia hapart hAs hAs' hflat
      refine alike_from (fun a ha => hX a ?_) hapart
      simp only [List.map_append, List.map_cons, List.map_nil, List.mem_cons, List.mem_append, List.not_mem_nil,
        or_false] at ha ⊢
      tauto
    · obtain ⟨paths, Bs, hleads, htravels, hBs⟩ := routes_of_paths hp hAs
      obtain ⟨paths', Bs', hleads', htravels', hBs'⟩ := routes_of_paths hp hAs'
      have hpaths : paths = paths' := routes_unique hp hports htravels htravels' (by rw [hBs, hBs', hflat])
      subst hpaths
      exact alike_of_leads hleads' hleads

end

def nearSwitch : Switch := ⟨⟨1, "10.0.0.1"⟩, [⟨1, 1⟩]⟩

def farSwitch : Switch := ⟨⟨2, "10.0.0.1"⟩, [⟨2, 1⟩, ⟨2, 2⟩, ⟨2, 3⟩]⟩

def middlebox : Host := ⟨asciiText "00:00:00:00:00:0a", ⟨2, 2⟩, [[11, 1, 0, 1]]⟩

def server : Host := ⟨asciiText "00:00:00:00:00:0b", ⟨2, 3⟩, [[10, 0, 0, 2]]⟩

/-- Two linked switches; the second one has a middlebox and a server. -/
def pairNet : Reported where
  switches := [nearSwitch, farSwitch]
  links := [⟨⟨1, 1⟩, ⟨2, 1⟩⟩, ⟨⟨2, 1⟩, ⟨1, 1⟩⟩]
  hosts := [middlebox, server]
  one := by decide
  own := by decide

theorem pairNet_mirrored : Mirrors pairNet (pairNet.topo sampleNx) := by
  have hports : ∀ l ∈ pairNet.links, ∀ h ∈ pairNet.hosts, h.port ≠ l.src ∧ h.port ≠ l.dst := by decide
  refine mirrors_of_showable ⟨by decide, fun l hl => ⟨fun hport => ?_, fun hport => ?_⟩⟩
  · obtain ⟨h, hh, hport⟩ := hport
    exact absurd hport (hports l hl h hh).1
  · obtain ⟨h, hh, hport⟩ := hport
    exact absurd hport (hports l hl h hh).2

end RyuNet

end VnfDockerNet
