import VnfDockerNet.PresentSound

/-!
# Reporting hosts again

A report makes one entry of the table: for the port, if the host has an entry,
and otherwise for the host. So all reports of a second call make entries of
ports, and label their edges with the port number that the host's entry has.
-/

namespace VnfDockerNet

open Python Networkx Runs

open RyuNet (dpid_to_str)

namespace L2Topology

/-! ## The entries -/

abbrev Entries := HwAddr → Option PortDict

/-- Which entry a report makes. -/
def entryKey (T : Entries) (h : Host) : HwAddr := if (T h.mac).isSome then h.port.hw_addr else h.mac

def noteEntry (T : Entries) (h : Host) : Entries := fun x => if x = entryKey T h then some h.port.to_dict else T x

def lastPort (x : HwAddr) (items : List Host) : Option PortDict :=
  (items.filter fun h => h.port.hw_addr = x).getLast?.map fun h => h.port.to_dict

section
variable {T : Entries} {x : HwAddr}

theorem noteEntry_known {h : Host} (hk : (T h.mac).isSome = true) (x : HwAddr) :
    noteEntry T h x = if x = h.port.hw_addr then some h.port.to_dict else T x := by
  unfold noteEntry entryKey
  rw [if_pos hk]

theorem noteEntry_new {h : Host} (hk : ¬ (T h.mac).isSome = true) (x : HwAddr) :
    noteEntry T h x = if x = h.mac then some h.port.to_dict else T x := by
  unfold noteEntry entryKey
  rw [if_neg hk]

theorem isSome_noteEntry (h : Host) (hx : (T x).isSome = true) : (noteEntry T h x).isSome = true := by
  unfold noteEntry
  split
  · rfl
  · exact hx

theorem isSome_noteEntry_mac (T : Entries) (h : Host) : (noteEntry T h h.mac).isSome = true := by
  by_cases hk : (T h.mac).isSome = true
  · exact isSome_noteEntry h hk
  · rw [noteEntry_new hk, if_pos rfl]
    rfl

theorem isSome_noteEntries : ∀ {items : List Host} {T : Entries}, (T x).isSome = true →
    (items.foldl noteEntry T x).isSome = true
  | [], _, hx => hx
  | h :: _, _, hx => by
    rw [List.foldl_cons]
    exact isSome_noteEntries (isSome_noteEntry h hx)

theorem isSome_noteEntries_mac {h : Host} : ∀ {items : List Host} (T : Entries), h ∈ items →
    (items.foldl noteEntry T h.mac).isSome = true
  | [], _, hmem => absurd hmem List.not_mem_nil
  | h' :: items, T, hmem => by
    rw [List.foldl_cons]
    rcases List.mem_cons.mp hmem with rfl | hin
    · exact isSome_noteEntries (isSome_noteEntry_mac T h)
    · exact isSome_noteEntries_mac (noteEntry T h') hin

theorem noteEntry_other {h : Host} (hport : h.port.hw_addr ≠ x) (hx : h.mac = x → (T x).isSome = true) :
    noteEntry T h x = T x := by
  by_cases hk : (T h.mac).isSome = true
  · rw [noteEntry_known hk, if_neg (Ne.symm hport)]
  · rw [noteEntry_new hk, if_neg fun he : x = h.mac => hk (by rw [← he]; exact hx he.symm)]

theorem noteEntries_stays : ∀ {items : List Host} {T : Entries}, (T x).isSome = true →
    (∀ h ∈ items, h.port.hw_addr ≠ x) → items.foldl noteEntry T x = T x
  | [], _, _, _ => rfl
  | h :: items, T, hx, hout => by
    obtain ⟨hport, hout⟩ := List.forall_mem_cons.mp hout
    rw [List.foldl_cons, noteEntries_stays (isSome_noteEntry h hx) hout, noteEntry_other hport fun _ => hx]

theorem noteEntries_port_iff {port : PortDict} (hport : port.hw_addr = x) : ∀ {items : List Host} {T : Entries},
    (∀ h ∈ items, h.port.hw_addr ≠ x) → (items.foldl noteEntry T x = some port ↔ T x = some port)
  | [], _, _ => .rfl
  | h :: items, T, hout => by
    obtain ⟨hother, hout⟩ := List.forall_mem_cons.mp hout
    rw [List.foldl_cons, noteEntries_port_iff hport hout]
    by_cases hnew : h.mac = x ∧ T x = none
    · -- the host comes to be known, and by the entry of another port
      obtain ⟨rfl, hnone⟩ := hnew
      have hk : ¬ (T h.mac).isSome = true := by simp [hnone]
      rw [noteEntry_new hk, if_pos rfl, hnone]
      refine iff_of_false (fun he => hother ?_) nofun
      rw [← hport, ← Option.some.inj he]
      rfl
    · rw [noteEntry_other hother fun hx => Option.isSome_iff_ne_none.mpr fun hnone => hnew ⟨hx, hnone⟩]

/-! ### Ports -/

theorem lastPort_snoc (items : List Host) (h : Host) :
    lastPort x (items ++ [h]) = if h.port.hw_addr = x then some h.port.to_dict else lastPort x items := by
  unfold lastPort
  rw [List.filter_append]
  by_cases hx : h.port.hw_addr = x
  · simp [hx]
  · simp [hx]

theorem lastPort_append (items items' : List Host) : lastPort x (items ++ items') = (lastPort x items').or (lastPort x items) := by
  unfold lastPort
  rw [List.filter_append, List.getLast?_append, Option.map_or]

theorem lastPort_eq_none : lastPort x items = none ↔ ∀ h ∈ items, h.port.hw_addr ≠ x := by
  unfold lastPort
  simp

theorem noteEntries_known : ∀ {items : List Host}, (∀ h ∈ items, (T h.mac).isSome = true) →
    items.foldl noteEntry T x = (lastPort x items).or (T x) := by
  intro items
  induction items using List.reverseRecOn with
  | nil => exact fun _ => rfl
  | append_singleton items h ih =>
    intro hknown
    have hall : ∀ h' ∈ items, (T h'.mac).isSome = true := fun h' hh' => hknown h' (List.mem_append_left _ hh')
    have hh : (items.foldl noteEntry T h.mac).isSome = true := isSome_noteEntries (hknown h (by simp))
    rw [List.foldl_append, List.foldl_cons, List.foldl_nil, lastPort_snoc, noteEntry_known hh]
    by_cases hx : h.port.hw_addr = x
    · rw [if_pos hx.symm, if_pos hx, Option.some_or]
    · rw [if_neg (Ne.symm hx), if_neg hx]
      exact ih hall

end

/-! ## The graph -/

/-- The two ends of the edge that a report makes. -/
def Host.node (h : Host) : Name := .text h.mac.val

def Host.place (h : Host) : Name := .text (dpid_to_str h.port.dpid)

/-- The label of that edge. -/
def hostInfo (T : Entries) (h : Host) : Info :=
  match (T h.mac).map PortDict.port_no with
  | some port_no => AList.insert (dpid_to_str h.port.dpid) h.port.to_dict.port_no (AList.insert h.mac.val port_no ∅)
  | none => AList.insert (dpid_to_str h.port.dpid) h.port.to_dict.port_no ∅

def Host.Again (h g : Host) : Prop := g.mac = h.mac ∧ g.port.dpid = h.port.dpid

theorem Host.again_iff {h g : Host} : h.Again g ↔ h.node = g.node ∧ h.place = g.place := by
  unfold Host.Again Host.node Host.place
  rw [Name.text.injEq, Name.text.injEq]
  constructor
  · intro hag
    rw [hag.1, hag.2]
    exact ⟨rfl, rfl⟩
  · intro hag
    exact ⟨(Subtype.ext hag.1).symm, (hexText_injective hag.2).symm⟩

section
variable {nx : AttrDiGraph Name NodeAttr Info} {t t' : Topo nx.Graph} {E : Exn → Topo nx.Graph → Prop}

structure HostNoted (h : Host) (t t' : Topo nx.Graph) : Prop where
  table : t'.mac_to_port.get = noteEntry t.mac_to_port.get h
  edge : ∀ u v, nx.edge t'.net u v =
    if u = h.node ∧ v = h.place then some (hostInfo t.mac_to_port.get h) else nx.edge t.net u v
  exist : ∀ n, (nx.node t'.net n).isSome = true ↔ (n = h.node ∨ n = h.place) ∨ (nx.node t.net n).isSome = true
  known : (t.mac_to_port.get h.mac).isSome = true → (nx.node t.net h.node).isSome = true →
    (nx.node t.net h.place).isSome = true → nx.node t'.net = nx.node t.net

theorem exist_add_edge {g : nx.Graph} {u v n : Name} {f : Info → Info} :
    (nx.node (nx.add_edge g u v f) n).isSome = true ↔ (n = u ∨ n = v) ∨ (nx.node g n).isSome = true := by
  rw [nx.node_add_edge]
  by_cases hn : n = u ∨ n = v
  · simp [hn]
  · simp [hn]

theorem node_add_edge_of_exist {g : nx.Graph} {u v : Name} {f : Info → Info} (hu : (nx.node g u).isSome = true)
    (hv : (nx.node g v).isSome = true) : nx.node (nx.add_edge g u v f) = nx.node g := by
  funext n
  rw [nx.node_add_edge]
  by_cases hn : n = u ∨ n = v
  · have hsome : (nx.node g n).isSome = true := by rcases hn with rfl | rfl <;> assumption
    obtain ⟨attr, hattr⟩ := Option.isSome_iff_exists.mp hsome
    rw [if_pos hn, hattr, Option.getD_some]
  · rw [if_neg hn]

theorem wp_addHost_noted (h : Host) (t : Topo nx.Graph) :
    wp (addHost nx h.mac h.to_dict) t (fun _ => HostNoted h t) E := by
  unfold addHost
  rw [wp_bind, wp_get]
  cases hget : t.mac_to_port.get h.mac with
  | some known =>
    have hk : (t.mac_to_port.get h.mac).isSome = true := by rw [hget]; rfl
    simp only [wp_modify]
    refine ⟨funext fun x => ?_, fun u v => ?_, fun n => exist_add_edge, fun _ hnode hplace => node_add_edge_of_exist hnode hplace⟩
    · rw [noteEntry_known hk, Dict.get_insert]
      rfl
    · rw [nx.edge_add_edge]
      unfold hostInfo
      rw [hget]
      rfl
  | none =>
    have hk : ¬ (t.mac_to_port.get h.mac).isSome = true := by rw [hget]; exact Bool.false_ne_true
    simp only [wp_bind, wp_modify]
    refine ⟨funext fun x => ?_, fun u v => ?_, fun n => ?_, fun hs => absurd hs hk⟩
    · rw [noteEntry_new hk, Dict.get_insert]
      rfl
    · rw [nx.edge_add_edge, nx.edge_add_node]
      unfold hostInfo
      rw [hget]
      rfl
    · have hadd : (nx.node (nx.add_node t.net (.text h.mac.val) fun attr =>
          { attr with type := some .host, dt := some h.to_dict }) n).isSome = true ↔ n = h.node ∨ (nx.node t.net n).isSome = true := by
        rw [nx.node_add_node]
        by_cases hn : n = .text h.mac.val
        · rw [if_pos hn]
          exact iff_of_true rfl (.inl hn)
        · rw [if_neg hn]
          exact (or_iff_right hn).symm
      rw [exist_add_edge, hadd]
      exact ⟨fun hx => hx.elim .inl fun hy => hy.imp_left .inl, fun hx => hx.imp_right .inr⟩

/-- What a call does: the last report of a host at a switch labels their edge. -/
structure HostsNoted (items : List Host) (t t' : Topo nx.Graph) : Prop where
  table : t'.mac_to_port.get = items.foldl noteEntry t.mac_to_port.get
  label : ∀ before h after, items = before ++ h :: after → (∀ g ∈ after, ¬ h.Again g) →
    nx.edge t'.net h.node h.place = some (hostInfo (before.foldl noteEntry t.mac_to_port.get) h)
  others : ∀ u v, (∀ h ∈ items, ¬ (u = h.node ∧ v = h.place)) → nx.edge t'.net u v = nx.edge t.net u v
  grows : ∀ n, (nx.node t.net n).isSome = true → (nx.node t'.net n).isSome = true
  exist : ∀ h ∈ items, (nx.node t'.net h.node).isSome = true ∧ (nx.node t'.net h.place).isSome = true
  known : (∀ h ∈ items, (t.mac_to_port.get h.mac).isSome = true ∧ (nx.node t.net h.node).isSome = true ∧
    (nx.node t.net h.place).isSome = true) → nx.node t'.net = nx.node t.net

theorem wp_addHosts_noted : ∀ (items : List Host) (t : Topo nx.Graph),
    wp (addHosts nx (items.map Host.to_dict)) t (fun _ => HostsNoted items t) E
  | [], t => by
    refine ⟨rfl, fun before h after hsplit => ?_, fun _ _ _ => rfl, fun _ hn => hn, fun _ hh => absurd hh List.not_mem_nil,
      fun _ => rfl⟩
    exact absurd hsplit.symm (List.append_ne_nil_of_right_ne_nil before (List.cons_ne_nil h after))
  | h₀ :: items, t => by
    rw [List.map_cons]
    unfold addHosts
    rw [wp_bind]
    refine wp_mono (wp_addHost_noted h₀ t) (fun _ t₁ hone => ?_) fun _ _ he => he
    refine wp_mono (wp_addHosts_noted items t₁) (fun _ t' hrest => ?_) fun _ _ he => he
    refine ⟨?_, fun before h after hsplit hlast => ?_, fun u v hout => ?_, fun n hn => ?_, fun h hh => ?_, fun hall => ?_⟩
    · rw [hrest.table, hone.table, List.foldl_cons]
    · cases before with
      | nil =>
        obtain ⟨rfl, rfl⟩ := List.cons.inj hsplit
        have hlater : ∀ g ∈ items, ¬ (h₀.node = g.node ∧ h₀.place = g.place) := fun g hg he =>
          hlast g hg (Host.again_iff.mpr he)
        rw [hrest.others _ _ hlater, hone.edge, if_pos ⟨rfl, rfl⟩]
        rfl
      | cons b before =>
        obtain ⟨rfl, rfl⟩ := List.cons.inj hsplit
        rw [hrest.label before h after rfl hlast, hone.table, List.foldl_cons]
    · obtain ⟨hfirst, hout⟩ := List.forall_mem_cons.mp hout
      rw [hrest.others u v hout, hone.edge, if_neg hfirst]
    · exact hrest.grows n ((hone.exist n).mpr (.inr hn))
    · rcases List.mem_cons.mp hh with rfl | hin
      · exact ⟨hrest.grows _ ((hone.exist _).mpr (.inl (.inl rfl))), hrest.grows _ ((hone.exist _).mpr (.inl (.inr rfl)))⟩
      · exact hrest.exist h hin
    · obtain ⟨hfirst, hall⟩ := List.forall_mem_cons.mp hall
      have hsame := hone.known hfirst.1 hfirst.2.1 hfirst.2.2
      have hnext := hrest.known fun h hh => by
        obtain ⟨hk, hnode, hplace⟩ := hall h hh
        rw [hone.table, hsame]
        exact ⟨isSome_noteEntry h₀ hk, hnode, hplace⟩
      exact hnext.trans hsame

end

/-! ## The second call -/

structure SameTopo {nx : AttrDiGraph Name NodeAttr Info} (t t' : Topo nx.Graph) : Prop where
  nodes : nx.node t'.net = nx.node t.net
  edges : nx.edge t'.net = nx.edge t.net
  table : t'.mac_to_port.get = t.mac_to_port.get

/-- The last report of a host at a switch finds an entry of the host; and if there
are reports at the port with that address, the entry has the port number of the one
before it, going through the list over and over. -/
def FindsHost (T : Entries) (items before : List Host) (h : Host) : Prop :=
  ∃ known, before.foldl noteEntry T h.mac = some known ∧
    ∀ port, lastPort h.mac (items ++ before) = some port → port.port_no = known.port_no

/-- The last report at a port finds an entry of the host, or is about the port's own
address, or finds the port's entry as it reports it. -/
def FindsPort (T : Entries) (before : List Host) (h : Host) : Prop :=
  (before.foldl noteEntry T h.mac).isSome = true ∨ h.mac = h.port.hw_addr ∨
    before.foldl noteEntry T h.port.hw_addr = some h.port.to_dict

/-- What each report needs, in the entries `T` from before the first call. -/
def Repeatable (T : Entries) (items : List Host) : Prop :=
  ∀ before h after, items = before ++ h :: after →
    ((∀ g ∈ after, ¬ h.Again g) → FindsHost T items before h) ∧
      ((∀ g ∈ after, g.port.hw_addr ≠ h.port.hw_addr) → FindsPort T before h)

section
variable {T : Entries} {items before after : List Host} {h : Host}

theorem lastPort_split {x : HwAddr} (hport : h.port.hw_addr = x) (hlast : ∀ g ∈ after, g.port.hw_addr ≠ x) :
    lastPort x (before ++ h :: after) = some h.port.to_dict := by
  have hone : lastPort x [h] = some h.port.to_dict := by rw [← List.nil_append [h], lastPort_snoc, if_pos hport]
  have hsplit : before ++ h :: after = before ++ ([h] ++ after) := rfl
  rw [hsplit, lastPort_append, lastPort_append, lastPort_eq_none.mpr hlast, hone]
  rfl

theorem lastPort_eq_some {x : HwAddr} {port : PortDict} (hx : lastPort x items = some port) :
    ∃ before h after, items = before ++ h :: after ∧ h.port.hw_addr = x ∧ h.port.to_dict = port ∧
      ∀ g ∈ after, g.port.hw_addr ≠ x := by
  have hsome : ∃ h ∈ items, h.port.hw_addr = x := by
    by_contra hnone
    push Not at hnone
    rw [lastPort_eq_none.mpr hnone] at hx
    cases hx
  obtain ⟨before, h, after, rfl, hport, hlast⟩ := exists_last hsome
  rw [lastPort_split hport hlast] at hx
  exact ⟨before, h, after, rfl, hport, Option.some.inj hx, hlast⟩

/-- After a last report at a port, the port has its entry from then on or never. -/
theorem findsPort_iff (hlast : ∀ g ∈ after, g.port.hw_addr ≠ h.port.hw_addr) :
    FindsPort T before h ↔ (before ++ h :: after).foldl noteEntry T h.port.hw_addr = some h.port.to_dict := by
  have haddr : h.port.to_dict.hw_addr = h.port.hw_addr := rfl
  rw [List.foldl_append, List.foldl_cons, noteEntries_port_iff haddr hlast]
  unfold FindsPort
  by_cases hk : (before.foldl noteEntry T h.mac).isSome = true
  · rw [noteEntry_known hk, if_pos rfl]
    exact iff_of_true (.inl hk) rfl
  · rw [noteEntry_new hk, or_iff_right hk]
    by_cases hmac : h.port.hw_addr = h.mac
    · rw [if_pos hmac]
      exact iff_of_true (.inl hmac.symm) rfl
    · rw [if_neg hmac, or_iff_right (Ne.symm hmac)]

/-- If the second call leaves the table as it is, each port has the entry of its last report. -/
theorem port_entries (hsame : items.foldl noteEntry (items.foldl noteEntry T) = items.foldl noteEntry T) {x : HwAddr}
    {port : PortDict} (hx : lastPort x items = some port) : items.foldl noteEntry T x = some port := by
  rw [← hsame, noteEntries_known fun h hh => isSome_noteEntries_mac T hh, hx, Option.some_or]

theorem table_same_iff (T : Entries) (items : List Host) :
    items.foldl noteEntry (items.foldl noteEntry T) = items.foldl noteEntry T ↔
      ∀ before h after, items = before ++ h :: after →
        (∀ g ∈ after, g.port.hw_addr ≠ h.port.hw_addr) → FindsPort T before h := by
  constructor
  · intro hsame before h after hsplit hlast
    subst hsplit
    exact (findsPort_iff hlast).mpr (port_entries hsame (lastPort_split rfl hlast))
  · intro hall
    funext x
    rw [noteEntries_known fun h hh => isSome_noteEntries_mac T hh]
    cases hx : lastPort x items with
    | none => rfl
    | some port =>
      obtain ⟨before, h, after, rfl, rfl, rfl, hlast⟩ := lastPort_eq_some hx
      rw [Option.some_or]
      exact ((findsPort_iff hlast).mp (hall before h after rfl hlast)).symm

/-! ### Labels -/

theorem mac_ne_dpid (m : HwAddr) (d : Nat) : m.val ≠ dpid_to_str d := fun he => colon_notMem d (he ▸ m.property)

theorem get_hostInfo (T : Entries) (h : Host) :
    Dict.get (hostInfo T h) h.mac.val = (T h.mac).map PortDict.port_no := by
  unfold hostInfo
  cases (T h.mac).map PortDict.port_no with
  | some port_no => rw [Dict.get_insert, if_neg (mac_ne_dpid _ _), Dict.get_insert, if_pos rfl]
  | none => rw [Dict.get_insert, if_neg (mac_ne_dpid _ _), Dict.get_empty]

theorem hostInfo_eq_iff {T T' : Entries} {h : Host} :
    hostInfo T' h = hostInfo T h ↔ (T' h.mac).map PortDict.port_no = (T h.mac).map PortDict.port_no := by
  constructor
  · intro he
    rw [← get_hostInfo, ← get_hostInfo, he]
  · intro he
    unfold hostInfo
    rw [he]

theorem label_same_iff (hports : ∀ {x port}, lastPort x (before ++ h :: after) = some port →
      (before ++ h :: after).foldl noteEntry T x = some port) :
    hostInfo (before.foldl noteEntry ((before ++ h :: after).foldl noteEntry T)) h = hostInfo (before.foldl noteEntry T) h ↔
      FindsHost T (before ++ h :: after) before h := by
  have hsome : ∀ g ∈ before ++ h :: after, ((before ++ h :: after).foldl noteEntry T g.mac).isSome = true := fun g hg =>
    isSome_noteEntries_mac T hg
  have hentry : before.foldl noteEntry ((before ++ h :: after).foldl noteEntry T) h.mac =
      (lastPort h.mac before).or ((before ++ h :: after).foldl noteEntry T h.mac) :=
    noteEntries_known fun g hg => hsome g (List.mem_append_left _ hg)
  obtain ⟨entry, hfinal⟩ := Option.isSome_iff_exists.mp (hsome h (by simp))
  have hfound : ∀ port : PortDict, some port.port_no = (before.foldl noteEntry T h.mac).map PortDict.port_no ↔
      ∃ known, before.foldl noteEntry T h.mac = some known ∧ ∀ port', some port = some port' → port'.port_no = known.port_no := by
    intro port
    rw [eq_comm, Option.map_eq_some_iff]
    simp [eq_comm]
  rw [hostInfo_eq_iff, hentry]
  unfold FindsHost
  rw [lastPort_append]
  cases hbefore : lastPort h.mac before with
  | some port => exact hfound port
  | none =>
    rw [Option.none_or, Option.none_or]
    cases hlater : lastPort h.mac (before ++ h :: after) with
    | some port =>
      rw [hports hlater]
      exact hfound port
    | none =>
      have hout := lastPort_eq_none.mp hlater
      constructor
      · intro he
        rw [hfinal] at he
        obtain ⟨known, hknown, _⟩ := Option.map_eq_some_iff.mp he.symm
        exact ⟨known, hknown, nofun⟩
      · intro hk
        obtain ⟨known, hknown, _⟩ := hk
        have hlisted : (before.foldl noteEntry T h.mac).isSome = true := by rw [hknown]; rfl
        rw [List.foldl_append, noteEntries_stays hlisted fun g hg => hout g (List.mem_append_right _ hg)]

end

section
variable {nx : AttrDiGraph Name NodeAttr Info} {t₀ t t' : Topo nx.Graph} {items : List Host}

theorem edges_same_iff (h : HostsNoted items t₀ t) (h' : HostsNoted items t t') : nx.edge t'.net = nx.edge t.net ↔
    ∀ before h after, items = before ++ h :: after → (∀ g ∈ after, ¬ h.Again g) →
      hostInfo (before.foldl noteEntry t.mac_to_port.get) h = hostInfo (before.foldl noteEntry t₀.mac_to_port.get) h := by
  constructor
  · intro hsame before x after hsplit hlast
    have hedge := congrFun (congrFun hsame x.node) x.place
    rw [h.label before x after hsplit hlast, h'.label before x after hsplit hlast] at hedge
    exact Option.some.inj hedge
  · intro hall
    funext u v
    by_cases hmade : ∃ x ∈ items, u = x.node ∧ v = x.place
    · obtain ⟨before, x, after, hsplit, ⟨rfl, rfl⟩, hafter⟩ := exists_last hmade
      have hlast : ∀ g ∈ after, ¬ x.Again g := fun g hg hag => hafter g hg (Host.again_iff.mp hag)
      rw [h.label before x after hsplit hlast, h'.label before x after hsplit hlast, hall before x after hsplit hlast]
    · exact h'.others u v fun x hx he => hmade ⟨x, hx, he⟩

def SameAgain (nx : AttrDiGraph Name NodeAttr Info) (t : Topo nx.Graph) (items : List Host) : Prop :=
  wp (addHosts nx (items.map Host.to_dict)) t
    (fun _ t₁ => wp (addHosts nx (items.map Host.to_dict)) t₁ (fun _ t₂ => SameTopo t₁ t₂) fun _ _ => False) fun _ _ => False

theorem sameAgain_states (t : Topo nx.Graph) (items : List Host) :
    ∃ t₁ t₂, HostsNoted items t t₁ ∧ HostsNoted items t₁ t₂ ∧ (SameAgain nx t items ↔ SameTopo t₁ t₂) := by
  obtain ⟨_, t₁, hfirst, h₁⟩ := ok_of_wp (wp_addHosts_noted items t)
  obtain ⟨_, t₂, hsecond, h₂⟩ := ok_of_wp (wp_addHosts_noted items t₁)
  refine ⟨t₁, t₂, h₁, h₂, ?_⟩
  unfold SameAgain wp
  rw [hfirst]
  dsimp only
  rw [hsecond]

/-- **Reporting the same hosts again changes nothing exactly when** the last
report of each host at a switch, and at each port, finds in the first call the
entry that the second call will find. -/
theorem hosts_again_iff (nx : AttrDiGraph Name NodeAttr Info) (t : Topo nx.Graph) (items : List Host) :
    SameAgain nx t items ↔ Repeatable t.mac_to_port.get items := by
  obtain ⟨t₁, t₂, h₁, h₂, hcalls⟩ := sameAgain_states t items
  have hnodes : nx.node t₂.net = nx.node t₁.net := h₂.known fun h hh => by
    rw [h₁.table]
    exact ⟨isSome_noteEntries_mac _ hh, h₁.exist h hh⟩
  have htable : t₂.mac_to_port.get = t₁.mac_to_port.get ↔ ∀ before h after, items = before ++ h :: after →
      (∀ g ∈ after, g.port.hw_addr ≠ h.port.hw_addr) → FindsPort t.mac_to_port.get before h := by
    rw [h₂.table, h₁.table]
    exact table_same_iff _ items
  have hlabel : t₂.mac_to_port.get = t₁.mac_to_port.get → ∀ before h after, items = before ++ h :: after →
      (hostInfo (before.foldl noteEntry t₁.mac_to_port.get) h = hostInfo (before.foldl noteEntry t.mac_to_port.get) h ↔
        FindsHost t.mac_to_port.get items before h) := by
    intro hsame before h after hsplit
    rw [h₂.table, h₁.table] at hsame
    rw [h₁.table]
    subst hsplit
    exact label_same_iff (port_entries hsame)
  rw [hcalls]
  constructor
  · intro hsame before h after hsplit
    refine ⟨fun hlast => ?_, htable.mp hsame.table before h after hsplit⟩
    exact (hlabel hsame.table before h after hsplit).mp
      ((edges_same_iff h₁ h₂).mp hsame.edges before h after hsplit hlast)
  · intro hrep
    have hsame := htable.mpr fun before h after hsplit => (hrep before h after hsplit).2
    refine ⟨hnodes, (edges_same_iff h₁ h₂).mpr fun before h after hsplit hlast => ?_, hsame⟩
    exact (hlabel hsame before h after hsplit).mpr ((hrep before h after hsplit).1 hlast)

/-- The second report of a new host writes another label. -/
theorem not_sameAgain_new {h : Host} (hnew : t.mac_to_port.get h.mac = none) : ¬ SameAgain nx t [h] := by
  intro hsame
  obtain ⟨t₁, t₂, h₁, h₂, hcalls⟩ := sameAgain_states t [h]
  have hlabel := (edges_same_iff h₁ h₂).mp (hcalls.mp hsame).edges [] h [] rfl fun _ hg => absurd hg List.not_mem_nil
  have hknown := isSome_noteEntries_mac t.mac_to_port.get (List.mem_singleton_self h)
  rw [hostInfo_eq_iff, List.foldl_nil, List.foldl_nil, hnew, h₁.table] at hlabel
  rw [Option.map_eq_none_iff.mp hlabel] at hknown
  cases hknown

end

def newHost : Host := ⟨⟨"00:00:00:00:00:05".toList, by decide⟩, ["10.0.0.5".toList], [], samplePort⟩

theorem new_host_relabelled : ¬ SameAgain (fnAttrDiGraph Name NodeAttr Info) (init (fnAttrDiGraph Name NodeAttr Info)) [newHost] :=
  not_sameAgain_new (Dict.get_empty _)

end L2Topology

end VnfDockerNet
