import VnfDockerNet.InterDomain

/-!
# The count against the topology

Two dictionaries of lists are filled and turned around; what matters of each is
which key lists which item. Host `h` comes out of the last one with the
controller of switch `3 + (h + 1) / 2`, which is the rack switch of the host.
-/

namespace VnfDockerNet

open Python

/-! ## The topology -/

namespace TestTopo

theorem mem_rackLinks {hostsPerRack : Nat} {s h : List Char} : ∀ {racks : List (List Char)} {rack_id : Nat},
    (s, h) ∈ rackLinks hostsPerRack rack_id racks ↔
      ∃ i x, racks[i]? = some s ∧ 1 ≤ x ∧ x ≤ hostsPerRack ∧ h = hostName ((rack_id + i) * hostsPerRack + x)
  | [], rack_id => by simp [rackLinks]
  | rack :: racks, rack_id => by
    have ih := @mem_rackLinks hostsPerRack s h racks (rack_id + 1)
    unfold rackLinks
    rw [List.mem_append, ih, List.mem_map]
    constructor
    · intro hor
      rcases hor with ⟨x, hx, heq⟩ | ⟨i, x, hi, h1, hx, rfl⟩
      · obtain ⟨h1, h2⟩ := List.mem_range'_1.mp hx
        cases heq
        exact ⟨0, x, rfl, h1, by omega, rfl⟩
      · refine ⟨i + 1, x, hi, h1, hx, ?_⟩
        rw [Nat.add_assoc, Nat.add_comm 1 i]
    · intro hex
      obtain ⟨i, x, hi, h1, hx, rfl⟩ := hex
      cases i with
      | zero =>
        cases hi
        exact Or.inl ⟨x, List.mem_range'_1.mpr ⟨h1, by omega⟩, rfl⟩
      | succ i =>
        refine Or.inr ⟨i, x, hi, h1, hx, ?_⟩
        rw [Nat.add_assoc, Nat.add_comm 1 i]

theorem getElem?_rackSwitches {spines racks i : Nat} {s : List Char} :
    (rackSwitches spines racks)[i]? = some s ↔ i < racks ∧ s = switchName (i + 1 + spines) := by
  unfold rackSwitches
  rw [List.getElem?_map]
  by_cases hi : i < racks
  · rw [List.getElem?_range' hi]
    simp [hi, eq_comm, Nat.add_comm 1 i]
  · rw [List.getElem?_eq_none (by rw [List.length_range']; omega)]
    simp [hi]

theorem mem_hostLinks {spines racks hostsPerRack n h : Nat} :
    (switchName n, hostName h) ∈ hostLinks spines racks hostsPerRack ↔
      ∃ i x, i < racks ∧ n = i + 1 + spines ∧ 1 ≤ x ∧ x ≤ hostsPerRack ∧ h = i * hostsPerRack + x := by
  unfold hostLinks
  rw [mem_rackLinks]
  constructor
  · intro hex
    obtain ⟨i, x, hi, h1, hx, hname⟩ := hex
    obtain ⟨hlt, hs⟩ := getElem?_rackSwitches.mp hi
    have hh := str_injective (List.cons.inj hname).2
    rw [Nat.zero_add] at hh
    exact ⟨i, x, hlt, str_injective (List.cons.inj hs).2, h1, hx, hh⟩
  · intro hex
    obtain ⟨i, x, hlt, rfl, h1, hx, rfl⟩ := hex
    exact ⟨i, x, getElem?_rackSwitches.mpr ⟨hlt, rfl⟩, h1, hx, by rw [Nat.zero_add]⟩

theorem mem_hostLinks_three_two {racks n h : Nat} :
    (switchName n, hostName h) ∈ hostLinks 3 racks 2 ↔ 1 ≤ h ∧ h ≤ 2 * racks ∧ n = 3 + (h + 1) / 2 := by
  rw [mem_hostLinks]
  constructor
  · intro hex
    obtain ⟨i, x, hlt, rfl, h1, hx, rfl⟩ := hex
    omega
  · intro hand
    obtain ⟨h1, hle, rfl⟩ := hand
    exact ⟨(h - 1) / 2, h - (h - 1) / 2 * 2, by omega, by omega, by omega, by omega, by omega⟩

/-- In a tree with three spines, two hosts in a rack and enough racks. -/
def HangsOff (n h : Nat) : Prop := ∃ racks, (switchName n, hostName h) ∈ hostLinks 3 racks 2

theorem hangsOff_iff {n h : Nat} : HangsOff n h ↔ 1 ≤ h ∧ n = 3 + (h + 1) / 2 := by
  unfold HangsOff
  simp only [mem_hostLinks_three_two]
  constructor
  · intro hex
    obtain ⟨_, h1, _, hn⟩ := hex
    exact ⟨h1, hn⟩
  · intro hand
    exact ⟨h, hand.1, by omega, hand.2⟩

end TestTopo

namespace CountInterDomainFlows

open TestTopo

/-! ## Dictionaries of lists -/

section
variable {κ ι : Type} [DecidableEq κ]

def Lists (d : Dict κ (List ι)) (k : κ) (x : ι) : Prop := ∃ l, d.get k = some l ∧ x ∈ l

theorem not_lists_empty {k : κ} {x : ι} : ¬ Lists (∅ : Dict κ (List ι)) k x := by
  intro h
  obtain ⟨l, hl, _⟩ := h
  rw [Dict.get_empty] at hl
  cases hl

theorem lists_of_get {d : Dict κ (List ι)} {k : κ} {l : List ι} (h : d.get k = some l) {x : ι} : Lists d k x ↔ x ∈ l := by
  constructor
  · intro hex
    obtain ⟨l', hl', hx⟩ := hex
    rw [h] at hl'
    cases hl'
    exact hx
  · exact fun hx => ⟨l, h, hx⟩

theorem not_lists_of_none {d : Dict κ (List ι)} {k : κ} (h : d.get k = none) {x : ι} : ¬ Lists d k x := by
  intro hex
  obtain ⟨l, hl, _⟩ := hex
  rw [h] at hl
  cases hl

theorem lists_insert {d : Dict κ (List ι)} {k k' : κ} {l : List ι} {x : ι} :
    Lists (d.insert k l) k' x ↔ k' = k ∧ x ∈ l ∨ k' ≠ k ∧ Lists d k' x := by
  by_cases h : k' = k
  · subst h
    rw [lists_of_get (l := l) (by rw [Dict.get_insert, if_pos rfl])]
    simp
  · unfold Lists
    rw [Dict.get_insert, if_neg h]
    simp [h]

end

/-! ## Lines between domains -/

section
variable {Ctl : Type} {data : Dict (List Char) Ctl}

/-- The keys of the mapping are the decimal forms of positive numbers. -/
def Decimal (data : Dict (List Char) Ctl) : Prop := ∀ k ∈ data, ∃ n, 0 < n ∧ k = str n

def HostsOf (line : List Char) (from_host to_host : Nat) : Prop :=
  hostField (line.splitOn ',') 0 = .ok from_host ∧ hostField (line.splitOn ',') 1 = .ok to_host

/-- The two hosts of the line hang off switches with different controllers. -/
def CrossesDomains (data : Dict (List Char) Ctl) (line : List Char) : Prop :=
  ∃ from_host to_host n n' c c', HostsOf line from_host to_host ∧ HangsOff n from_host ∧ HangsOff n' to_host ∧
    data.get (str n) = some c ∧ data.get (str n') = some c' ∧ c ≠ c'

theorem HostsOf.unique {line : List Char} {f t f' t' : Nat} (h : HostsOf line f t) (h' : HostsOf line f' t') :
    f' = f ∧ t' = t := by
  have hf := h'.1.symm.trans h.1
  have ht := h'.2.symm.trans h.2
  rw [Except.ok.injEq] at hf ht
  omega

theorem crossesDomains_iff {line : List Char} {f t : Nat} (h : HostsOf line f t) (hf : 1 ≤ f) (ht : 1 ≤ t) :
    CrossesDomains data line ↔ ∃ c c', data.get (str (3 + (f + 1) / 2)) = some c ∧
      data.get (str (3 + (t + 1) / 2)) = some c' ∧ c ≠ c' := by
  constructor
  · intro hex
    obtain ⟨f', t', n, n', c, c', hhosts, hn, hn', hc, hc', hne⟩ := hex
    obtain ⟨rfl, rfl⟩ := h.unique hhosts
    obtain ⟨_, rfl⟩ := hangsOff_iff.mp hn
    obtain ⟨_, rfl⟩ := hangsOff_iff.mp hn'
    exact ⟨c, c', hc, hc', hne⟩
  · intro hex
    obtain ⟨c, c', hc, hc', hne⟩ := hex
    exact ⟨f, t, _, _, c, c', h, hangsOff_iff.mpr ⟨hf, rfl⟩, hangsOff_iff.mpr ⟨ht, rfl⟩, hc, hc', hne⟩

end

/-! ## The loops -/

section
variable {Ctl : Type} [DecidableEq Ctl] {data : Dict (List Char) Ctl}

/-- A host of the switch with this key, if it is none of the three spines. -/
def HostOf (k : List Char) (host : Int) : Prop :=
  ∃ n : Nat, k = str n ∧ 3 < n ∧ (host = ((n : Int) - 3) * 2 - 1 ∨ host = ((n : Int) - 3) * 2)

theorem HostOf.key {k : List Char} {h : Nat} (hh : HostOf k h) : k = str (3 + (h + 1) / 2) := by
  obtain ⟨n, rfl, hn, hor⟩ := hh
  congr 1
  omega

theorem HostOf.unique {k k' : List Char} {host : Int} (h : HostOf k host) (h' : HostOf k' host) : k = k' := by
  obtain ⟨n, rfl, hn, hor⟩ := h
  obtain ⟨n', rfl, hn', hor'⟩ := h'
  congr 1
  omega

theorem hostOf_leaf {h : Nat} (h1 : 1 ≤ h) : HostOf (str (3 + (h + 1) / 2)) h := by
  have hpos : 0 < (h + 1) / 2 := by omega
  exact ⟨3 + (h + 1) / 2, rfl, by omega, by omega⟩

def Grouped (data : Dict (List Char) Ctl) (keys : List (List Char)) (s : Locals Ctl) : Prop :=
  (∀ c k, Lists s.controllers c k ↔ k ∈ keys ∧ data.get k = some c) ∧
    s.host_controller_map = ∅ ∧ s.inverted_dict = ∅ ∧ s.count = 0

theorem wp_groupSwitch (keys : List (List Char)) (hkeys : ∀ k ∈ keys, k ∈ data) :
    wp (forEach (groupSwitch data) keys) {} (fun _ => Grouped data keys) fun _ _ => False := by
  refine wp_forEach_mem (Grouped data) (fun before k hk s hs => ?_) ⟨fun c k => ?_, rfl, rfl, rfl⟩
  · obtain ⟨hlists, hrest⟩ := hs
    obtain ⟨c, hc⟩ := Dict.mem_iff_get.mp (hkeys k hk)
    -- the new list of `c` is the old one, or nothing, and `k`
    have hnew : ∀ l, (∀ k', k' ∈ l ↔ Lists s.controllers c k' ∨ k' = k) → ∀ c' k',
        Lists (s.controllers.insert c l) c' k' ↔ k' ∈ before ++ [k] ∧ data.get k' = some c' := by
      intro l hl c' k'
      rw [lists_insert, List.mem_append, List.mem_singleton]
      constructor
      · intro hor
        rcases hor with ⟨rfl, hmem⟩ | ⟨hne, hold⟩
        · rcases (hl k').mp hmem with hold | rfl
          · exact ⟨Or.inl ((hlists c' k').mp hold).1, ((hlists c' k').mp hold).2⟩
          · exact ⟨Or.inr rfl, hc⟩
        · exact ⟨Or.inl ((hlists c' k').mp hold).1, ((hlists c' k').mp hold).2⟩
      · intro hand
        obtain ⟨hmem, hget⟩ := hand
        by_cases heq : c' = c
        · subst heq
          refine Or.inl ⟨rfl, (hl k').mpr ?_⟩
          rcases hmem with hold | rfl
          · exact Or.inl ((hlists c' k').mpr ⟨hold, hget⟩)
          · exact Or.inr rfl
        · refine Or.inr ⟨heq, (hlists c' k').mpr ⟨?_, hget⟩⟩
          rcases hmem with hold | rfl
          · exact hold
          · rw [hc] at hget
            exact absurd (Option.some.inj hget).symm heq
    unfold groupSwitch
    rw [wp_bind, wp_item_some hc, wp_bind, wp_get]
    cases hget : s.controllers.get c with
    | none =>
      rw [if_pos (Dict.get_eq_none.mp hget), wp_modify]
      refine ⟨hnew [k] fun k' => ?_, hrest⟩
      rw [List.mem_singleton]
      exact ⟨Or.inr, fun hor => hor.elim (fun hl => absurd hl (not_lists_of_none hget)) id⟩
    | some l =>
      rw [if_neg (not_not_intro (Dict.mem_iff_get.mpr ⟨l, hget⟩)), wp_bind, wp_item_some hget, wp_modify]
      refine ⟨hnew (l ++ [k]) fun k' => ?_, hrest⟩
      rw [List.mem_append, List.mem_singleton, lists_of_get hget]
  · exact iff_of_false not_lists_empty fun hand => List.not_mem_nil hand.1

theorem wp_appendHost {s : Locals Ctl} {c : Ctl} {l : List Int} (hget : s.host_controller_map.get c = some l) (host : Int)
    {Q : Unit → Locals Ctl → Prop} {E : Exn → Locals Ctl → Prop} :
    wp (appendHost c host) s Q E ↔
      Q () { s with host_controller_map := s.host_controller_map.insert c (l ++ [host]) } := by
  unfold appendHost
  rw [wp_bind, wp_get, wp_bind, wp_item_some hget, wp_modify]

structure Filling (s₀ : Locals Ctl) (c : Ctl) (switches : List (List Char)) (s : Locals Ctl) : Prop where
  here : ∃ l, s.host_controller_map.get c = some l ∧ ∀ host, host ∈ l ↔ ∃ k ∈ switches, HostOf k host
  elsewhere : ∀ c', c' ≠ c → s.host_controller_map.get c' = s₀.host_controller_map.get c'
  rest : s.controllers = s₀.controllers ∧ s.inverted_dict = s₀.inverted_dict ∧ s.count = s₀.count

theorem wp_addHosts {s₀ s : Locals Ctl} {c : Ctl} {before : List (List Char)} {n : Nat} (hn : 0 < n)
    (h : Filling s₀ c before s) {E : Exn → Locals Ctl → Prop} :
    wp (addHosts c (str n)) s (fun _ => Filling s₀ c (before ++ [str n])) E := by
  obtain ⟨⟨l, hget, hl⟩, helse, hrest⟩ := h
  have hsplit : ∀ host, (∃ k ∈ before ++ [str n], HostOf k host) ↔ host ∈ l ∨ HostOf (str n) host := by
    intro host
    rw [hl]
    simp only [List.mem_append, List.mem_singleton, or_and_right, exists_or, exists_eq_left]
  unfold addHosts
  rw [wp_bind, wp_orRaise_ok (intText_str n)]
  by_cases hspine : (n : Int) ∈ [1, 2, 3]
  · rw [if_neg (not_not_intro hspine), wp_pure]
    refine ⟨⟨l, hget, fun host => ?_⟩, helse, hrest⟩
    rw [hsplit]
    refine (or_iff_left fun hhost => ?_).symm
    obtain ⟨m, hm, hlt, _⟩ := hhost
    have := str_injective hm
    simp only [List.mem_cons, List.not_mem_nil, or_false] at hspine
    omega
  · rw [if_pos hspine, wp_bind, wp_appendHost hget, wp_appendHost (by rw [Dict.get_insert, if_pos rfl])]
    refine ⟨⟨_, by rw [Dict.get_insert, if_pos rfl], fun host => ?_⟩, fun c' hc' => ?_, hrest⟩
    · rw [hsplit, List.mem_append, List.mem_append, List.mem_singleton, List.mem_singleton, or_assoc]
      refine or_congr_right ⟨fun hor => ?_, fun hhost => ?_⟩
      · simp only [List.mem_cons, List.not_mem_nil, or_false] at hspine
        exact ⟨n, rfl, by omega, hor⟩
      · obtain ⟨m, hm, _, hor⟩ := hhost
        cases str_injective hm
        exact hor
    · rw [Dict.get_insert, if_neg hc', Dict.get_insert, if_neg hc']
      exact helse c' hc'

/-- Each controller visited lists the hosts of its switches. -/
def Mapped (controllers : Dict Ctl (List (List Char))) (visited : List Ctl) (s : Locals Ctl) : Prop :=
  (∀ c host, Lists s.host_controller_map c host ↔ c ∈ visited ∧ ∃ k, Lists controllers c k ∧ HostOf k host) ∧
    s.controllers = controllers ∧ s.inverted_dict = ∅ ∧ s.count = 0

theorem wp_mapController {s : Locals Ctl} {controllers : Dict Ctl (List (List Char))} {before : List Ctl} {c : Ctl}
    (hc : c ∈ controllers) (hdec : ∀ k, Lists controllers c k → ∃ n, 0 < n ∧ k = str n) (h : Mapped controllers before s) :
    wp (mapController c) s (fun _ => Mapped controllers (before ++ [c])) fun _ _ => False := by
  obtain ⟨hlists, hctrl, hinv, hcount⟩ := h
  obtain ⟨switches, hsw⟩ := Dict.mem_iff_get.mp hc
  unfold mapController
  rw [wp_bind, wp_modify, wp_bind, wp_get, wp_bind, wp_item_some (by rw [← hsw, ← hctrl])]
  -- the inner loop starts with an empty list for `c`
  have hstart : Filling s c [] { s with host_controller_map := s.host_controller_map.insert c [] } := by
    refine ⟨⟨[], by rw [Dict.get_insert, if_pos rfl], fun host => ?_⟩, fun c' hc' => ?_, rfl, rfl, rfl⟩
    · simp
    · rw [Dict.get_insert, if_neg hc']
  refine wp_mono (wp_forEach_mem (Filling s c) (fun before' k hk s' hs' => ?_) hstart) (fun _ s' hs' => ?_) fun _ _ hf => hf
  · obtain ⟨n, hn, rfl⟩ := hdec k ((lists_of_get hsw).mpr hk)
    exact wp_addHosts hn hs'
  · obtain ⟨⟨l, hget, hl⟩, helse, hc', hi', hn'⟩ := hs'
    refine ⟨fun c' host => ?_, hc'.trans hctrl, hi'.trans hinv, hn'.trans hcount⟩
    rw [List.mem_append, List.mem_singleton]
    by_cases heq : c' = c
    · subst heq
      rw [lists_of_get hget, hl]
      simp only [or_true, true_and, lists_of_get hsw]
    · have hsame : Lists s'.host_controller_map c' host ↔ Lists s.host_controller_map c' host := by
        unfold Lists
        rw [helse c' heq]
      rw [hsame, hlists]
      simp only [heq, or_false]

def Inverted (hosts : Dict Ctl (List Int)) (visited : List Ctl) (s : Locals Ctl) : Prop :=
  (∀ host c, s.inverted_dict.get host = some c ↔ c ∈ visited ∧ Lists hosts c host) ∧
    s.host_controller_map = hosts ∧ s.count = 0

theorem wp_invert {s : Locals Ctl} {hosts : Dict Ctl (List Int)} {before : List Ctl} {c : Ctl} (hc : c ∈ hosts)
    (huniq : ∀ c c' host, Lists hosts c host → Lists hosts c' host → c = c') (h : Inverted hosts before s) :
    wp (invert c) s (fun _ => Inverted hosts (before ++ [c])) fun _ _ => False := by
  obtain ⟨hinv, hhosts, hcount⟩ := h
  obtain ⟨v, hv⟩ := Dict.mem_iff_get.mp hc
  unfold invert
  rw [wp_bind, wp_get, wp_bind, wp_item_some (by rw [← hv, ← hhosts])]
  refine wp_mono (wp_forEach_mem (fun done s' => (∀ host c', Dict.get s'.inverted_dict host = some c' ↔
    (c' ∈ before ∧ Lists hosts c' host) ∨ (c' = c ∧ host ∈ done)) ∧ s'.host_controller_map = hosts ∧ s'.count = 0)
    (fun done host hhost s' hs' => ?_) ⟨fun host c' => ?_, hhosts, hcount⟩) (fun _ s' hs' => ?_) fun _ _ hf => hf
  · obtain ⟨hinv', hrest⟩ := hs'
    have hlist : Lists hosts c host := (lists_of_get hv).mpr hhost
    rw [wp_modify]
    refine ⟨fun host' c' => ?_, hrest⟩
    rw [Dict.get_insert_some, hinv', List.mem_append, List.mem_singleton]
    constructor
    · intro hor
      rcases hor with ⟨rfl, rfl⟩ | ⟨_, hold | ⟨rfl, hmem⟩⟩
      · exact Or.inr ⟨rfl, Or.inr rfl⟩
      · exact Or.inl hold
      · exact Or.inr ⟨rfl, Or.inl hmem⟩
    · intro hor
      by_cases heq : host' = host
      · subst heq
        -- no other controller lists this host
        rcases hor with ⟨_, hold⟩ | ⟨rfl, _⟩
        · exact Or.inl ⟨rfl, huniq c' c host' hold hlist⟩
        · exact Or.inl ⟨rfl, rfl⟩
      · rcases hor with hold | ⟨hc', hmem | hmem⟩
        · exact Or.inr ⟨heq, Or.inl hold⟩
        · exact Or.inr ⟨heq, Or.inr ⟨hc', hmem⟩⟩
        · exact absurd hmem heq
  · rw [hinv]
    simp
  · obtain ⟨hinv', hrest⟩ := hs'
    refine ⟨fun host c' => ?_, hrest⟩
    rw [hinv', List.mem_append, List.mem_singleton, or_and_right]
    refine or_congr_right (and_congr_right fun heq => ?_)
    rw [heq, lists_of_get hv]

/-! ## The three dictionaries -/

/-- The inverted dictionary and the mapping agree on every host. -/
def Agrees (data : Dict (List Char) Ctl) (s : Locals Ctl) : Prop :=
  ∀ h : Nat, 1 ≤ h → s.inverted_dict.get (h : Int) = data.get (str (3 + (h + 1) / 2))

variable (o : DictOrder)

theorem wp_group : wp (forEach (groupSwitch data) (o.order data)) {}
    (fun _ s => (∀ c k, Lists s.controllers c k ↔ data.get k = some c) ∧ Mapped s.controllers [] s) fun _ _ => False := by
  refine wp_mono (wp_groupSwitch (o.order data) fun k hk => o.mem.mp hk) (fun _ s hs => ?_) fun _ _ hf => hf
  obtain ⟨hgroup, hhosts, hinv, hcount⟩ := hs
  refine ⟨fun c k => ?_, fun c host => ?_, rfl, hinv, hcount⟩
  · rw [hgroup, o.mem]
    exact and_iff_right_of_imp fun hget => Dict.mem_iff_get.mpr ⟨c, hget⟩
  · rw [hhosts]
    exact iff_of_false not_lists_empty fun hand => List.not_mem_nil hand.1

theorem wp_map {s : Locals Ctl} (hdec : ∀ c k, Lists s.controllers c k → ∃ n, 0 < n ∧ k = str n) (h : Mapped s.controllers [] s) :
    wp (forEach mapController (o.order s.controllers)) s
      (fun _ s' => (∀ c host, Lists s'.host_controller_map c host ↔ ∃ k, Lists s.controllers c k ∧ HostOf k host) ∧
        Inverted s'.host_controller_map [] s') fun _ _ => False := by
  refine wp_mono (wp_forEach_mem (Mapped s.controllers) (fun before c hc s' hs' => ?_) h) (fun _ s' hs' => ?_)
    fun _ _ hf => hf
  · exact wp_mapController (o.mem.mp hc) (hdec c) hs'
  · obtain ⟨hlists, _, hinv, hcount⟩ := hs'
    refine ⟨fun c host => ?_, fun host c => ?_, rfl, hcount⟩
    · rw [hlists, o.mem]
      refine and_iff_right_of_imp fun hex => ?_
      obtain ⟨k, ⟨l, hl, _⟩, _⟩ := hex
      exact Dict.mem_iff_get.mpr ⟨l, hl⟩
    · rw [hinv, Dict.get_empty]
      simp

theorem wp_invertAll {s : Locals Ctl} {controllers : Dict Ctl (List (List Char))}
    (hgroup : ∀ c k, Lists controllers c k ↔ data.get k = some c)
    (hmap : ∀ c host, Lists s.host_controller_map c host ↔ ∃ k, Lists controllers c k ∧ HostOf k host)
    (h : Inverted s.host_controller_map [] s) :
    wp (forEach invert (o.order s.host_controller_map)) s (fun _ s' => Agrees data s' ∧ s'.count = 0) fun _ _ => False := by
  have huniq : ∀ c c' host, Lists s.host_controller_map c host → Lists s.host_controller_map c' host → c = c' := by
    intro c c' host hc hc'
    obtain ⟨k, hk, hhost⟩ := (hmap c host).mp hc
    obtain ⟨k', hk', hhost'⟩ := (hmap c' host).mp hc'
    have hget := (hgroup c k).mp hk
    rw [hhost.unique hhost', (hgroup c' k').mp hk'] at hget
    exact (Option.some.inj hget).symm
  refine wp_mono (wp_forEach_mem (Inverted s.host_controller_map) (fun before c hc s' hs' => ?_) h) (fun _ s' hs' => ?_)
    fun _ _ hf => hf
  · exact wp_invert (o.mem.mp hc) huniq hs'
  · obtain ⟨hinv, _, hcount⟩ := hs'
    refine ⟨fun h h1 => Option.ext fun c => ?_, hcount⟩
    rw [hinv, hmap, o.mem]
    constructor
    · intro hand
      obtain ⟨_, k, hk, hhost⟩ := hand
      rw [← hhost.key]
      exact (hgroup c k).mp hk
    · intro hget
      have hlist : ∃ k, Lists controllers c k ∧ HostOf k h := ⟨_, (hgroup c _).mpr hget, hostOf_leaf h1⟩
      obtain ⟨l, hl, _⟩ := (hmap c h).mpr hlist
      exact ⟨Dict.mem_iff_get.mpr ⟨l, hl⟩, hlist⟩

/-! ## The lines -/

open Classical in
theorem wp_countLine {s : Locals Ctl} {line : List Char} {f t : Nat} (h : HostsOf line f t) (hf : 1 ≤ f) (ht : 1 ≤ t)
    (hagree : Agrees data s) :
    wp (countLine line) s (fun _ s' => Agrees data s' ∧
      s'.count = s.count + if CrossesDomains data line then 1 else 0) fun _ _ => False := by
  have hcross : CrossesDomains data line ↔ _ := crossesDomains_iff h hf ht
  rw [← hagree f hf, ← hagree t ht] at hcross
  unfold countLine
  rw [wp_bind, wp_orRaise_ok h.1, wp_bind, wp_orRaise_ok h.2, wp_bind, wp_get]
  by_cases hboth : (f : Int) ∈ s.inverted_dict ∧ (t : Int) ∈ s.inverted_dict
  · obtain ⟨c, hc⟩ := Dict.mem_iff_get.mp hboth.1
    obtain ⟨c', hc'⟩ := Dict.mem_iff_get.mp hboth.2
    rw [if_pos hboth, wp_bind, wp_item_some hc, wp_bind, wp_item_some hc']
    by_cases hne : c ≠ c'
    · rw [if_pos hne, wp_modify, if_pos (hcross.mpr ⟨c, c', hc, hc', hne⟩)]
      exact ⟨hagree, rfl⟩
    · have hnot : ¬ CrossesDomains data line := by
        intro hx
        obtain ⟨d, d', hd, hd', hdne⟩ := hcross.mp hx
        rw [hc] at hd
        rw [hc'] at hd'
        cases hd
        cases hd'
        exact hne hdne
      rw [if_neg hne, wp_pure, if_neg hnot]
      exact ⟨hagree, rfl⟩
  · have hnot : ¬ CrossesDomains data line := by
      intro hx
      obtain ⟨d, d', hd, hd', _⟩ := hcross.mp hx
      exact hboth ⟨Dict.mem_iff_get.mpr ⟨d, hd⟩, Dict.mem_iff_get.mpr ⟨d', hd'⟩⟩
    rw [if_neg hboth, wp_pure, if_neg hnot]
    exact ⟨hagree, rfl⟩

open Classical in
theorem wp_count (hdec : Decimal data) {lines : List (List Char)}
    (hlines : ∀ line ∈ lines, ∃ f t, HostsOf line f t ∧ 1 ≤ f ∧ 1 ≤ t) :
    wp (count_inter_domain_flow o data lines) {} (fun count _ => count = lines.countP fun line => CrossesDomains data line)
      fun _ _ => False := by
  unfold count_inter_domain_flow
  rw [wp_bind]
  refine wp_mono (wp_group o) (fun _ s₁ h₁ => ?_) fun _ _ hf => hf
  obtain ⟨hgroup, hmapped⟩ := h₁
  have hkeys : ∀ c k, Lists s₁.controllers c k → ∃ n, 0 < n ∧ k = str n := by
    intro c k hk
    exact hdec k (Dict.mem_iff_get.mpr ⟨c, (hgroup c k).mp hk⟩)
  rw [wp_bind, wp_get, wp_bind]
  refine wp_mono (wp_map o hkeys hmapped) (fun _ s₂ h₂ => ?_) fun _ _ hf => hf
  rw [wp_bind, wp_get, wp_bind]
  refine wp_mono (wp_invertAll o hgroup h₂.1 h₂.2) (fun _ s₃ h₃ => ?_) fun _ _ hf => hf
  rw [wp_bind]
  refine wp_mono (wp_forEach_mem (fun before s => Agrees data s ∧ s.count = before.countP fun line => CrossesDomains data line)
    (fun before line hline s hs => ?_) h₃) (fun _ s₄ h₄ => h₄.2) fun _ _ hf => hf
  obtain ⟨f, t, hhosts, hf, ht⟩ := hlines line hline
  refine wp_mono (wp_countLine hhosts hf ht hs.1) (fun _ s' hs' => ⟨hs'.1, ?_⟩) fun _ _ hf => hf
  rw [hs'.2, hs.2, List.countP_append, List.countP_singleton]
  simp only [decide_eq_true_eq]

open Classical in
/-- **Inter-domain flows.** On any mapping with decimal keys, listed in any order,
and any lines with two hosts in front, the count is that of the lines between
domains; and with three spines and two hosts in a rack, host `h` is linked to
switch `3 + ⌈h / 2⌉`. -/
theorem count_inter_domain_flow_exact (hdec : Decimal data) (lines : List (List Char))
    (hlines : ∀ line ∈ lines, ∃ f t, HostsOf line f t ∧ 1 ≤ f ∧ 1 ≤ t) :
    (∃ s, count_inter_domain_flow o data lines {} = .ok (lines.countP fun line => CrossesDomains data line) s) ∧
      (∀ n h, HangsOff n h ↔ 1 ≤ h ∧ n = 3 + (h + 1) / 2) ∧
      ∀ racks, racks / 2 = 3 → ∀ n h, (switchName n, hostName h) ∈ ClosTree.hostLinks racks 2 ↔
        1 ≤ h ∧ h ≤ 2 * racks ∧ n = 3 + (h + 1) / 2 := by
  refine ⟨?_, fun n h => hangsOff_iff, fun racks hracks n h => ?_⟩
  · obtain ⟨_, s, hok, rfl⟩ := ok_of_wp (wp_count o hdec hlines)
    exact ⟨s, hok⟩
  · unfold ClosTree.hostLinks
    rw [hracks, mem_hostLinks_three_two]

end

/-- Switch 2 is a spine; hosts 1 and 2 hang off switch 4, host 3 off switch 5. -/
def sampleMap : Dict (List Char) Char := (((∅ : Dict (List Char) Char).insert (str 2) 'a').insert (str 4) 'a').insert (str 5) 'b'

def sampleFlows : List (List Char) := [['1', ',', ' ', '3', ',', '9'], ['1', ',', '2'], ['3', ',', '7']]

theorem decimal_sampleMap : Decimal sampleMap := by
  intro k hk
  unfold sampleMap at hk
  rw [AList.mem_insert, AList.mem_insert, AList.mem_insert] at hk
  rcases hk with rfl | rfl | rfl | hk
  · exact ⟨5, by decide, rfl⟩
  · exact ⟨4, by decide, rfl⟩
  · exact ⟨2, by decide, rfl⟩
  · exact absurd hk (AList.notMem_empty k)

open Classical in
theorem count_inter_domain_flow_exact_sample :
    (∃ s, count_inter_domain_flow .byEntries sampleMap sampleFlows {} =
      .ok (sampleFlows.countP fun line => CrossesDomains sampleMap line) s) ∧
      (∀ n h, HangsOff n h ↔ 1 ≤ h ∧ n = 3 + (h + 1) / 2) ∧
      ∀ racks, racks / 2 = 3 → ∀ n h, (switchName n, hostName h) ∈ ClosTree.hostLinks racks 2 ↔
        1 ≤ h ∧ h ≤ 2 * racks ∧ n = 3 + (h + 1) / 2 := by
  refine count_inter_domain_flow_exact .byEntries decimal_sampleMap sampleFlows ?_
  unfold sampleFlows
  simp only [List.forall_mem_cons]
  exact ⟨⟨1, 3, ⟨rfl, rfl⟩, by decide⟩, ⟨1, 2, ⟨rfl, rfl⟩, by decide⟩, ⟨3, 7, ⟨rfl, rfl⟩, by decide⟩, by simp⟩

/-- Only the first line is between domains. -/
example : (match count_inter_domain_flow .byEntries sampleMap sampleFlows {} with
    | .ok count _ => count
    | .error _ _ => 0) = 1 := by decide

end CountInterDomainFlows

end VnfDockerNet
