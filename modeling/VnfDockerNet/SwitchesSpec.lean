import VnfDockerNet.Switches
import VnfDockerNet.LldpSound

/-!
# The table of ports

The list of a `PortDataState` has the dictionary's keys, with the ports that are
up and wait for their first packet in front, and the others by the time of their
last one. Each operation keeps this, and says which ports it adds or removes.
-/

namespace VnfDockerNet

open Python

namespace Switches

/-! ## Statements -/

section
variable {σ α : Type} {s : σ} {E : Exn → σ → Prop}

theorem wp_tryKey {x : EStateM Exn σ α} {Q : Option α → σ → Prop} :
    wp (tryKey x) s Q E ↔ wp x s (fun a => Q (some a)) fun e s' => (e = .KeyError → Q none s') ∧ (e ≠ .KeyError → E e s') := by
  unfold wp tryKey
  cases x s with
  | ok a s' => rfl
  | error e s' => cases e <;> simp

theorem moves_tryKey {R : σ → σ → Prop} {x : EStateM Exn σ α} (h : Moves R x) : Moves R (tryKey x) := by
  intro s
  rw [wp_tryKey]
  exact wp_mono (h s) (fun _ _ h => h) fun _ _ h => ⟨fun _ => h, fun _ => h⟩

theorem moves_forEach {ε : Type} {R : σ → σ → Prop} [IsPreorder σ R] {body : α → EStateM ε σ Unit} (h : ∀ x, Moves R (body x)) :
    ∀ xs, Moves R (forEach body xs) := by
  intro xs
  induction xs with
  | nil => exact .pure ()
  | cons x xs ih => exact .bind (h x) fun _ => ih

end

theorem wp_delItem {κ ν : Type} [DecidableEq κ] {d : Dict κ ν} {k : κ} {s : Switches} {Q : Dict κ ν → Switches → Prop}
    {E : Exn → Switches → Prop} : wp (delItem d k) s Q E ↔ (k ∈ d → Q (d.erase k) s) ∧ (k ∉ d → E .KeyError s) := by
  unfold delItem
  rw [wp_ite]
  simp

theorem moves_delItem {κ ν : Type} [DecidableEq κ] {R : Switches → Switches → Prop} [IsPreorder Switches R] (d : Dict κ ν) (k : κ) :
    Moves R (delItem d k) := .ite (.pure _) (.throw _)

/-! ## The order of the list -/

section
variable {env : RyuEnv} {P : LinkEnd → Prop} {ports : PortDataState} {dict dict' : Dict LinkEnd PortData} {now : Nat}
variable {keys : List LinkEnd} {k : LinkEnd}

/-- `a` may stand before `b`. -/
def InTurn (dict : Dict LinkEnd PortData) (a b : LinkEnd) : Prop :=
  ∀ da db t, dict.get a = some da → dict.get b = some db → da.timestamp = some t →
    (db.timestamp = none → db.is_down = true) ∧ ∀ t', db.timestamp = some t' → t ≤ t'

structure Ordered (env : RyuEnv) (P : LinkEnd → Prop) (ports : PortDataState) (now : Nat) (keys : List LinkEnd) : Prop where
  lists : ports.keys.Lists keys
  mem : ∀ k, k ∈ keys ↔ P k
  dict : ∀ k, k ∈ ports.dict ↔ P k
  turns : keys.Pairwise (InTurn ports.dict)
  past : ∀ k data t, ports.dict.get k = some data → data.timestamp = some t → t ≤ now
  frame : ∀ k data, ports.dict.get k = some data → Lldp.lldp_parse env.conv data.lldp_data = .ok (k.dpid, k.port_no)

def PortTable (env : RyuEnv) (P : LinkEnd → Prop) (ports : PortDataState) (now : Nat) : Prop := ∃ keys, Ordered env P ports now keys

theorem portTable_init {env : RyuEnv} {now : Nat} : PortTable env (fun _ => False) {} now := by
  refine ⟨[], Linked.lists_init, by simp, fun k => ?_, .nil, ?_, ?_⟩
  · simp
  · intro k data t h
    rw [Dict.get_empty] at h
    cases h
  · intro k data h
    rw [Dict.get_empty] at h
    cases h

theorem PortTable.congr (h : PortTable env P ports now) {P' : LinkEnd → Prop} (hP : ∀ k, P k ↔ P' k) :
    PortTable env P' ports now := by
  obtain ⟨keys, h⟩ := h
  exact ⟨keys, { h with mem := fun k => (h.mem k).trans (hP k), dict := fun k => (h.dict k).trans (hP k) }⟩

theorem PortTable.later (h : PortTable env P ports now) {now' : Nat} (hnow : now ≤ now') : PortTable env P ports now' := by
  obtain ⟨keys, h⟩ := h
  exact ⟨keys, { h with past := fun k data t hk ht => Nat.le_trans (h.past k data t hk ht) hnow }⟩

theorem PortTable.dict_iff (h : PortTable env P ports now) : k ∈ ports.dict ↔ P k := by
  obtain ⟨keys, h⟩ := h
  exact h.dict k

theorem Ordered.get (h : Ordered env P ports now keys) (hk : P k) : ∃ data, ports.dict.get k = some data :=
  Dict.mem_iff_get.mp ((h.dict k).mpr hk)

theorem Ordered.rest (h : Ordered env P ports now keys) (hsame : ∀ a, a ≠ k → dict'.get a = ports.dict.get a) :
    (keys.erase k).Pairwise (InTurn dict') := by
  refine (h.turns.sublist List.erase_sublist).imp_of_mem fun {a b} ha hb hab => ?_
  have hne := (h.lists.nodup.mem_erase_iff.mp ha).1
  have hne' := (h.lists.nodup.mem_erase_iff.mp hb).1
  unfold InTurn
  rw [hsame a hne, hsame b hne']
  exact hab

theorem not_inTurn_fresh {data : PortData} (hget : dict.get k = some data) (hnone : data.timestamp = none) (b : LinkEnd) :
    InTurn dict k b := by
  intro da db t ha _ ht
  rw [hget] at ha
  cases ha
  rw [hnone] at ht
  cases ht

/-- What an entry for `k` has to be. -/
structure Entry (env : RyuEnv) (now : Nat) (k : LinkEnd) (data : PortData) : Prop where
  past : ∀ t, data.timestamp = some t → t ≤ now
  frame : Lldp.lldp_parse env.conv data.lldp_data = .ok (k.dpid, k.port_no)

theorem Ordered.entry (h : Ordered env P ports now keys) {data : PortData} (hk : ports.dict.get k = some data) :
    Entry env now k data := ⟨fun t => h.past k data t hk, h.frame k data hk⟩

theorem Ordered.insert (h : Ordered env P ports now keys) {data : PortData} (he : Entry env now k data) {keys' : List LinkEnd}
    {linked : Linked LinkEnd} (hlists : linked.Lists keys') (hmem : ∀ x, x ∈ keys' ↔ x = k ∨ P x)
    (hturns : keys'.Pairwise (InTurn (ports.dict.insert k data))) :
    PortTable env (fun x => x = k ∨ P x) ⟨ports.dict.insert k data, linked⟩ now := by
  refine ⟨keys', hlists, hmem, fun x => ?_, hturns, ?_, ?_⟩
  · rw [AList.mem_insert, h.dict x]
  · intro x d t hx ht
    rcases Dict.get_insert_some.mp hx with ⟨rfl, rfl⟩ | ⟨-, hx⟩
    · exact he.past t ht
    · exact h.past x d t hx ht
  · intro x d hx
    rcases Dict.get_insert_some.mp hx with ⟨rfl, rfl⟩ | ⟨-, hx⟩
    · exact he.frame
    · exact h.frame x d hx

theorem get_insert_self {data : PortData} : Dict.get (dict.insert k data) k = some data := by
  rw [Dict.get_insert, if_pos rfl]

theorem get_insert_ne {data : PortData} (a : LinkEnd) (h : a ≠ k) :
    Dict.get (dict.insert k data) a = dict.get a := by
  rw [Dict.get_insert, if_neg h]

theorem known_or (hk : P k) (x : LinkEnd) : x = k ∨ P x ↔ P x := ⟨fun h => h.elim (fun h => h ▸ hk) id, Or.inr⟩

theorem PortTable.prepend (h : PortTable env P ports now) (hk : ¬ P k) {data : PortData} (he : Entry env now k data)
    (hnone : data.timestamp = none) :
    PortTable env (fun x => x = k ∨ P x) ⟨ports.dict.insert k data, ports.keys._prepend_key k⟩ now := by
  obtain ⟨keys, h⟩ := h
  have hnotMem : k ∉ keys := fun hmem => hk ((h.mem k).mp hmem)
  refine h.insert he (h.lists.prepend hnotMem) (by simp [h.mem]) (List.pairwise_cons.mpr ⟨fun b _ => ?_, ?_⟩)
  · exact not_inTurn_fresh get_insert_self hnone b
  · have hrest : (keys.erase k).Pairwise (InTurn (ports.dict.insert k data)) := h.rest get_insert_ne
    rwa [List.erase_of_not_mem hnotMem] at hrest

theorem PortTable.front (h : PortTable env P ports now) (hk : P k) {data : PortData} (he : Entry env now k data)
    (hnone : data.timestamp = none) :
    ∃ linked, ports.keys._move_front_key k = .ok linked ∧ PortTable env P ⟨ports.dict.insert k data, linked⟩ now := by
  obtain ⟨keys, h⟩ := h
  obtain ⟨linked, hmove, hlists⟩ := h.lists.move_front ((h.mem k).mpr hk)
  refine ⟨linked, hmove, (h.insert he hlists (fun x => ?_) (List.pairwise_cons.mpr ⟨fun b _ => ?_, ?_⟩)).congr (known_or hk)⟩
  · rw [List.mem_cons, h.lists.nodup.mem_erase_iff, h.mem]
    by_cases hx : x = k <;> simp [hx]
  · exact not_inTurn_fresh get_insert_self hnone b
  · exact h.rest get_insert_ne

theorem PortTable.last (h : PortTable env P ports now) (hk : P k) {data : PortData} (he : Entry env now k data)
    (hnow : data.timestamp = some now) :
    ∃ linked, ports.keys._move_last_key k = .ok linked ∧ PortTable env P ⟨ports.dict.insert k data, linked⟩ now := by
  obtain ⟨keys, h⟩ := h
  obtain ⟨linked, hmove, hlists⟩ := h.lists.move_last ((h.mem k).mpr hk)
  refine ⟨linked, hmove, (h.insert he hlists (fun x => ?_) (List.pairwise_append.mpr ⟨?_, List.pairwise_singleton .., ?_⟩)).congr
    (known_or hk)⟩
  · rw [List.mem_append, List.mem_singleton, h.lists.nodup.mem_erase_iff, h.mem]
    by_cases hx : x = k <;> simp [hx]
  · exact h.rest get_insert_ne
  · -- nothing was sent later than now
    intro a ha b hb da db t hda hdb ht
    have hne := (h.lists.nodup.mem_erase_iff.mp ha).1
    cases List.mem_singleton.mp hb
    rw [get_insert_self] at hdb
    cases hdb
    rw [get_insert_ne a hne] at hda
    rw [hnow]
    refine ⟨fun hnone => (Option.some_ne_none _ hnone).elim, fun t' ht' => ?_⟩
    cases ht'
    exact h.past a da t hda ht

theorem PortTable.inPlace (h : PortTable env P ports now) {old data : PortData} (hold : ports.dict.get k = some old)
    (hframe : data.lldp_data = old.lldp_data)
    (hstamp : data.timestamp = none ∧ data.is_down = true ∨ data.timestamp = old.timestamp ∧ data.is_down = old.is_down) :
    PortTable env P ⟨ports.dict.insert k data, ports.keys⟩ now := by
  obtain ⟨keys, h⟩ := h
  have hk : P k := (h.dict k).mp (Dict.mem_iff_get.mpr ⟨old, hold⟩)
  have hentry := h.entry hold
  have he : Entry env now k data := by
    refine ⟨fun t ht => ?_, hframe ▸ hentry.frame⟩
    rcases hstamp with ⟨hnone, -⟩ | ⟨hsame, -⟩
    · rw [hnone] at ht
      cases ht
    · exact hentry.past t (hsame ▸ ht)
  refine (h.insert he h.lists (fun x => (h.mem x).trans (known_or hk x).symm) (h.turns.imp fun {a b} hab => ?_)).congr
    (known_or hk)
  intro da db t hda hdb ht
  -- the entry of `a` before, with the same timestamp
  have hda' : ∃ da', ports.dict.get a = some da' ∧ da'.timestamp = some t := by
    rcases Dict.get_insert_some.mp hda with ⟨rfl, rfl⟩ | ⟨-, hda⟩
    · rcases hstamp with ⟨hnone, -⟩ | ⟨hsame, -⟩
      · rw [hnone] at ht
        cases ht
      · exact ⟨old, hold, hsame ▸ ht⟩
    · exact ⟨da, hda, ht⟩
  obtain ⟨da', hda', ht'⟩ := hda'
  rcases Dict.get_insert_some.mp hdb with ⟨rfl, rfl⟩ | ⟨-, hdb⟩
  · rcases hstamp with ⟨hnone, hdown⟩ | ⟨hsame, hdown⟩
    · rw [hnone]
      exact ⟨fun _ => hdown, fun t' h => by cases h⟩
    · rw [hsame, hdown]
      exact hab da' old t hda' hold ht'
  · exact hab da' db t hda' hdb ht'

theorem PortTable.remove (h : PortTable env P ports now) (hk : P k) :
    ∃ linked, ports.keys._remove_key k = .ok linked ∧ PortTable env (fun x => x ≠ k ∧ P x) ⟨ports.dict.erase k, linked⟩ now := by
  obtain ⟨keys, h⟩ := h
  obtain ⟨linked, hremove, hlists⟩ := h.lists.remove ((h.mem k).mpr hk)
  refine ⟨linked, hremove, keys.erase k, hlists, fun x => ?_, fun x => ?_, h.rest fun a ha => ?_, ?_, ?_⟩
  · rw [h.lists.nodup.mem_erase_iff, h.mem]
  · rw [AList.mem_erase, h.dict]
  · rw [Dict.get_erase, if_neg ha]
  · intro x d t hx ht
    exact h.past x d t (Dict.get_erase_some.mp hx).2 ht
  · intro x d hx
    exact h.frame x d (Dict.get_erase_some.mp hx).2

theorem Ordered.items (h : Ordered env P ports now keys) : ∃ items, ports.items = some items ∧ items.map Prod.fst = keys ∧
    ∀ x ∈ items, ports.dict.get x.1 = some x.2 := by
  have hget : ∀ keys' : List LinkEnd, (∀ k ∈ keys', P k) → ∃ items, keys'.mapM (fun k => (ports.dict.get k).map (k, ·)) = some items ∧
      items.map Prod.fst = keys' ∧ ∀ x ∈ items, ports.dict.get x.1 = some x.2 := by
    intro keys'
    induction keys' with
    | nil => exact fun _ => ⟨[], rfl, rfl, by simp⟩
    | cons k keys' ih =>
      intro hall
      obtain ⟨data, hk⟩ := h.get (hall k (List.mem_cons_self ..))
      obtain ⟨items, hmap, hfst, hitems⟩ := ih fun x hx => hall x (List.mem_cons_of_mem k hx)
      refine ⟨(k, data) :: items, ?_, by rw [List.map_cons, hfst], ?_⟩
      · rw [List.mapM_cons, hmap, hk]
        rfl
      · simpa using ⟨hk, fun a b hab => hitems (a, b) hab⟩
  obtain ⟨items, hmap, hrest⟩ := hget keys fun k hk => (h.mem k).mp hk
  refine ⟨items, ?_, hrest⟩
  unfold PortDataState.items
  rw [h.lists.iter]
  exact hmap

end

/-! ## What the observers know -/

def tellSwitch (told : List Nat) : TopologyEvent → List Nat
  | .SwitchEnter dpid _ => dpid :: told
  | .SwitchLeave dpid _ => told.erase dpid
  | _ => told

/-- The switches that are left after the announcements. -/
def switchesTold (events : List TopologyEvent) : List Nat := events.foldl tellSwitch []

def tellLink (told : List Link) : TopologyEvent → List Link
  | .LinkAdd link => link :: told
  | .LinkDelete link => told.erase link
  | _ => told

def linksTold (events : List TopologyEvent) : List Link := events.foldl tellLink []

theorem switchesTold_snoc (events : List TopologyEvent) (ev : TopologyEvent) :
    switchesTold (events ++ [ev]) = tellSwitch (switchesTold events) ev := by
  unfold switchesTold
  rw [List.foldl_append]
  rfl

theorem linksTold_snoc (events : List TopologyEvent) (ev : TopologyEvent) :
    linksTold (events ++ [ev]) = tellLink (linksTold events) ev := by
  unfold linksTold
  rw [List.foldl_append]
  rfl

/-! ## Steady statements -/

def SentFrames (env : RyuEnv) (out : List DatapathOut) : Prop := ∀ dpid port_no data, DatapathOut.LldpOut dpid port_no data ∈ out →
  Lldp.lldp_parse env.conv data = .ok (dpid, port_no)

structure Steady (env : RyuEnv) (s s' : Switches) : Prop where
  dps : s'.dps = s.dps
  port_state : s'.port_state = s.port_state
  time : s'.time = s.time
  told : switchesTold s'.events = switchesTold s.events
  table : ∀ P, PortTable env P s.ports s.time → PortTable env P s'.ports s'.time
  sent : ∀ P, PortTable env P s.ports s.time → SentFrames env s.out → SentFrames env s'.out

section
variable {env : RyuEnv} {s : Switches}

instance : IsPreorder Switches (Steady env) where
  refl _ := ⟨rfl, rfl, rfl, rfl, fun _ h => h, fun _ _ h => h⟩
  trans _ _ _ h h' := ⟨h'.dps.trans h.dps, h'.port_state.trans h.port_state, h'.time.trans h.time, h'.told.trans h.told,
    fun P hP => h'.table P (h.table P hP), fun P hP hsent => h'.sent P (h.table P hP) (h.sent P hP hsent)⟩

theorem moves_send_event {ev : TopologyEvent} (h : ∀ told, tellSwitch told ev = told) :
    Moves (Steady env) (send_event_to_observers ev) := by
  refine .modify fun s => ⟨rfl, rfl, rfl, ?_, fun _ h => h, fun _ _ h => h⟩
  rw [switchesTold_snoc, h]

theorem moves_send_msg {msg : DatapathOut} (hmsg : SentFrames env [msg]) : Moves (Steady env) (send_msg msg) := by
  refine .modify fun s => ⟨rfl, rfl, rfl, rfl, fun _ h => h, fun _ _ h d p data hmem => ?_⟩
  rcases List.mem_append.mp hmem with hmem | hmem
  · exact h d p data hmem
  · exact hmsg d p data hmem

theorem moves_links (f : Switches → LinkState) : Moves (Steady env) (modify fun s => { s with links := f s } : Stmt PUnit) :=
  .modify fun _ => ⟨rfl, rfl, rfl, rfl, fun _ h => h, fun _ _ h => h⟩

theorem moves_hosts (f : Switches → Dict Bytes RyuHost) : Moves (Steady env) (modify fun s => { s with hosts := f s } : Stmt PUnit) :=
  .modify fun _ => ⟨rfl, rfl, rfl, rfl, fun _ h => h, fun _ _ h => h⟩

theorem PortTable.raised {P : LinkEnd → Prop} (h : PortTable env P s.ports s.time) {port : LinkEnd} {old data : PortData}
    (hold : s.ports.dict.get port = some old) (hframe : data.lldp_data = old.lldp_data) (hnone : data.timestamp = none) :
    ∃ linked, s.ports.keys._move_front_key port = .ok linked ∧
      PortTable env P ⟨s.ports.dict.insert port data, linked⟩ s.time := by
  have hk : P port := h.dict_iff.mp (Dict.mem_iff_get.mpr ⟨old, hold⟩)
  obtain ⟨keys, ho⟩ := h
  refine PortTable.front ⟨keys, ho⟩ hk ⟨fun t ht => ?_, hframe ▸ (ho.entry hold).frame⟩ hnone
  rw [hnone] at ht
  cases ht

theorem wp_moveFrontKey {port : LinkEnd} {data : PortData} {E : Exn → Switches → Prop}
    (hold : ∃ old, s.ports.dict.get port = some old ∧ data.lldp_data = old.lldp_data) (hnone : data.timestamp = none)
    (hE : (∃ P, PortTable env P s.ports s.time) ∨ ∀ e s', Steady env s s' → E e s') :
    wp (moveFrontKey port) { s with ports := { s.ports with dict := s.ports.dict.insert port data } }
      (fun _ s' => Steady env s s') E := by
  obtain ⟨old, hold, hframe⟩ := hold
  simp only [moveFrontKey, setKeys, wp_bind, wp_get, wp_modify, wp_orRaise]
  refine ⟨fun linked hlinked => ⟨rfl, rfl, rfl, rfl, fun P h => ?_, fun _ _ h => h⟩, fun e he => ?_⟩
  · obtain ⟨linked', hlinked', htable⟩ := h.raised hold hframe hnone
    rw [hlinked] at hlinked'
    cases hlinked'
    exact htable
  · have hraise : ∀ P, ¬ PortTable env P s.ports s.time := by
      intro P h
      obtain ⟨linked', hlinked', -⟩ := h.raised hold hframe hnone
      rw [he] at hlinked'
      cases hlinked'
    rcases hE with ⟨P, h⟩ | hE
    · exact absurd h (hraise P)
    · exact hE e _ ⟨rfl, rfl, rfl, rfl, fun P h => absurd h (hraise P), fun _ _ h => h⟩

theorem wp_move_front {port : LinkEnd} {E : Exn → Switches → Prop}
    (hE : (∃ P, PortTable env P s.ports s.time) ∨ ∀ e s', Steady env s s' → E e s') :
    wp (move_front port) s (fun _ s' => Steady env s s') E := by
  unfold move_front
  simp only [wp_bind, wp_get]
  cases hdata : s.ports.dict.get port with
  | none => exact refl_of (Steady env) s
  | some data =>
    simp only [setData, wp_bind, wp_modify]
    exact wp_moveFrontKey ⟨data, hdata, rfl⟩ rfl hE

theorem moves_move_front (port : LinkEnd) : Moves (Steady env) (move_front port) :=
  fun _ => wp_move_front (Or.inr fun _ _ h => h)

theorem wp_set_down {port : LinkEnd} {is_down : Bool} {P : LinkEnd → Prop} (h : PortTable env P s.ports s.time) (hk : P port) :
    wp (set_down port is_down) s (fun down s' => down = is_down ∧ Steady env s s') fun _ _ => False := by
  obtain ⟨data, hdata⟩ := Dict.mem_iff_get.mp (h.dict_iff.mpr hk)
  unfold set_down
  simp only [setData, wp_bind, wp_get, wp_item_some hdata, wp_modify]
  cases is_down with
  | false =>
    rw [if_neg Bool.false_ne_true, wp_bind]
    exact wp_mono (wp_moveFrontKey ⟨data, hdata, rfl⟩ rfl (Or.inl ⟨P, h⟩)) (fun _ _ hs => ⟨rfl, hs⟩) fun _ _ h => h
  | true => exact ⟨rfl, rfl, rfl, rfl, rfl, fun P h => h.inPlace hdata rfl (Or.inl ⟨rfl, rfl⟩), fun _ _ h => h⟩

theorem moves_lldp_sent (port : LinkEnd) : Moves (Steady env) (lldp_sent port) := by
  intro s
  unfold lldp_sent
  simp only [setData, setKeys, wp_bind, wp_get, wp_item, wp_modify, wp_orRaise, wp_pure]
  refine ⟨fun data hdata => ?_, fun _ => refl_of (Steady env) s⟩
  have hlast : ∀ P, PortTable env P s.ports s.time → ∃ linked, s.ports.keys._move_last_key port = .ok linked ∧ PortTable env P
      ⟨s.ports.dict.insert port { data with timestamp := some s.time, sent := data.sent + 1 }, linked⟩ s.time := by
    intro P h
    have hk : P port := h.dict_iff.mp (Dict.mem_iff_get.mpr ⟨data, hdata⟩)
    obtain ⟨keys, ho⟩ := h
    refine PortTable.last ⟨keys, ho⟩ hk ⟨fun t ht => ?_, (ho.entry hdata).frame⟩ rfl
    cases ht
    exact Nat.le_refl _
  refine ⟨fun linked hlinked => ⟨rfl, rfl, rfl, rfl, fun P h => ?_, fun _ _ h => h⟩,
    fun e he => ⟨rfl, rfl, rfl, rfl, fun P h => ?_, fun _ _ h => h⟩⟩
  · obtain ⟨linked', hlinked', htable⟩ := hlast P h
    rw [hlinked] at hlinked'
    cases hlinked'
    exact htable
  · obtain ⟨linked', hlinked', -⟩ := hlast P h
    rw [he] at hlinked'
    cases hlinked'

theorem moves_lldp_received (port : LinkEnd) : Moves (Steady env) (lldp_received port) := by
  intro s
  unfold lldp_received
  simp only [setData, wp_bind, wp_get, wp_item, wp_modify]
  refine ⟨fun data hdata => ⟨rfl, rfl, rfl, rfl, fun P h => ?_, fun _ _ h => h⟩, fun _ => refl_of (Steady env) s⟩
  exact h.inPlace hdata rfl (Or.inr ⟨rfl, rfl⟩)

theorem moves_get_switch (dpid : Nat) : Moves (Steady env) (_get_switch env dpid) := by
  refine .bind .get fun s => ?_
  cases s.dps.get dpid with
  | none => exact .pure _
  | some dp => exact .bind (.item _ _) fun state => .pure _

theorem moves_get_port (dpid port_no : Nat) : Moves (Steady env) (_get_port env dpid port_no) := by
  refine .bind (moves_get_switch dpid) fun switch => ?_
  cases switch with
  | none => exact .pure _
  | some switch => exact .pure _

theorem moves_delLink (link : Link) : Moves (Steady env) (delLink link) :=
  .bind .get fun _ => .bind (moves_delItem _ _) fun dict => moves_links fun s => { s.links with dict }

theorem moves_delPeer (src : LinkEnd) : Moves (Steady env) (delPeer src) :=
  .bind .get fun _ => .bind (moves_delItem _ _) fun map => moves_links fun s => { s.links with map }

theorem moves_port_deleted (src : LinkEnd) : Moves (Steady env) (port_deleted src) := by
  refine .bind .get fun s => .bind (.item _ _) fun dst => .bind (moves_delLink _) fun _ => .bind (moves_delPeer src) fun _ => ?_
  exact .bind .get fun s => .bind (moves_links fun s => _) fun _ => .pure _

theorem moves_tellReverse (dst : LinkEnd) (rev_link_dst : Option LinkEnd) : Moves (Steady env) (tellReverse dst rev_link_dst) := by
  cases rev_link_dst with
  | none => exact .pure ()
  | some peer => exact moves_send_event fun _ => rfl

theorem moves_link_down (port : LinkEnd) : Moves (Steady env) (_link_down port) := by
  refine .bind (moves_tryKey (moves_port_deleted port)) fun gone => ?_
  cases gone with
  | none => exact .pure ()
  | some gone =>
    exact .bind (moves_send_event fun _ => rfl) fun _ => .bind (moves_tellReverse _ _) fun _ => moves_move_front gone.1

theorem moves_removeInnerHosts : Moves (Steady env) (removeInnerHosts env) := by
  refine .bind .get fun s => moves_forEach (fun mac => ?_) _
  exact .bind .get fun s => .bind (moves_delItem _ _) fun hosts => moves_hosts fun _ => hosts

theorem moves_dropOldLink (src dst : LinkEnd) : Moves (Steady env) (dropOldLink src dst) := by
  refine .bind .get fun s => ?_
  cases s.links.map.get src with
  | none => exact .pure ()
  | some old_peer => exact .ite (.bind (moves_delLink _) fun _ => moves_send_event fun _ => rfl) (.pure ())

theorem moves_announceLink (link : Link) : Moves (Steady env) (announceLink env link) :=
  .bind .get fun _ => .ite (.bind (moves_send_event fun _ => rfl) fun _ => moves_removeInnerHosts) (.pure ())

theorem moves_learnLink (src dst : LinkEnd) : Moves (Steady env) (learnLink env src dst) := by
  refine .bind (moves_dropOldLink src dst) fun _ => .bind (moves_announceLink _) fun _ => .bind ?_ fun up => ?_
  · exact .bind (moves_links fun s => _) fun _ => .bind .get fun s => .pure _
  · exact .ite (moves_move_front dst) (.pure ())

theorem moves_lldp_packet_in_handler (msg : RyuPacketIn) : Moves (Steady env) (lldp_packet_in_handler env msg) := by
  refine .ite ?_ (.pure ())
  split
  · exact .pure ()
  · exact .throw _
  · exact .throw _
  · refine .bind (moves_get_port _ _) fun src => ?_
    cases src with
    | none => exact .pure ()
    | some src =>
      refine .ite (.pure ()) (.bind (moves_tryKey (moves_lldp_received _)) fun _ => .bind (moves_get_port _ _) fun dst => ?_)
      cases dst with
      | none => exact .pure ()
      | some dst =>
        refine .bind (moves_learnLink _ _) fun _ => .ite (.ite (.pure ()) (moves_send_msg fun d p data hmem => ?_)) (.pure ())
        cases List.mem_singleton.mp hmem

theorem moves_learnHost (mac : Bytes) (port : LinkEnd) : Moves (Steady env) (learnHost mac port) := by
  refine .bind .get fun s => ?_
  cases s.hosts.get mac with
  | none => exact .bind (moves_hosts fun s => _) fun _ => moves_send_event fun _ => rfl
  | some host => exact .ite (.bind (moves_hosts fun s => _) fun _ => moves_send_event fun _ => rfl) (.pure ())

theorem moves_learnIp (mac : Bytes) (ethertype : Nat) (pkt_data : Bytes) : Moves (Steady env) (learnIp env mac ethertype pkt_data) :=
  .ite (.bind (.orRaise _) fun _ => moves_hosts _) (.ite (.bind (.orRaise _) fun _ => moves_hosts _)
    (.ite (.bind (.orRaise _) fun _ => moves_hosts _) (.pure ())))

theorem moves_host_discovery (msg : RyuPacketIn) : Moves (Steady env) (host_discovery_packet_in_handler env msg) := by
  refine .bind (.orRaise _) fun fields => ?_
  split
  · refine .ite (.pure ()) (.bind (moves_get_port _ _) fun port => ?_)
    cases port with
    | none => exact .pure ()
    | some port =>
      exact .bind .get fun s => .ite (.bind (moves_learnHost _ _) fun _ => moves_learnIp _ _ _) (.pure ())
  · exact .throw _

theorem wp_lldp_sent_data (port : LinkEnd) : wp (lldp_sent port) s
    (fun data _ => ∃ old, s.ports.dict.get port = some old ∧ data.lldp_data = old.lldp_data) fun _ _ => True := by
  unfold lldp_sent
  simp only [setData, setKeys, wp_bind, wp_get, wp_item, wp_modify, wp_orRaise, wp_pure]
  exact ⟨fun data hdata => ⟨fun _ _ => ⟨data, hdata, rfl⟩, fun _ _ => trivial⟩, fun _ => trivial⟩

theorem moves_send_lldp_packet (port : LinkEnd) : Moves (Steady env) (send_lldp_packet port) := by
  intro s
  unfold send_lldp_packet
  rw [wp_bind, wp_tryKey]
  refine wp_mono (wp_and (moves_lldp_sent port s) (wp_lldp_sent_data port)) (fun data s₁ hs => ?_) fun e s₁ hs => ⟨fun _ => hs.1, fun _ => hs.1⟩
  obtain ⟨hs, old, hold, hdata⟩ := hs
  show wp (if data.is_down = true then pure () else _) s₁ _ _
  rw [wp_ite]
  refine ⟨fun _ => hs, fun _ => ?_⟩
  simp only [wp_bind, wp_get]
  cases s₁.dps.get port.dpid with
  | none => exact hs
  | some dp =>
    refine ⟨hs.dps, hs.port_state, hs.time, hs.told, hs.table, fun P h hsent d p data' hmem => ?_⟩
    rcases List.mem_append.mp hmem with hmem | hmem
    · exact hs.sent P h hsent d p data' hmem
    · cases List.mem_singleton.mp hmem
      obtain ⟨keys, ho⟩ := h
      rw [hdata]
      exact ho.frame port old hold

theorem moves_link_loop : Moves (Steady env) (link_loop env) := by
  refine .bind .get fun s => moves_forEach (fun link => ?_) _
  refine .bind (.bind (moves_delLink link) fun _ => moves_delPeer link.src) fun _ => .bind (moves_send_event fun _ => rfl) fun _ => ?_
  exact .ite (.bind (moves_links fun s => _) fun _ => moves_move_front link.dst) (.pure ())

/-! ## Ports that come and go -/

/-- From `s₀` on no switch came or went, and the table has the ports of `P`. -/
structure Since (env : RyuEnv) (P : LinkEnd → Prop) (s₀ s : Switches) : Prop where
  dps : s.dps = s₀.dps
  port_state : s.port_state = s₀.port_state
  time : s.time = s₀.time
  told : switchesTold s.events = switchesTold s₀.events
  table : PortTable env P s.ports s.time
  sent : SentFrames env s.out

variable {P : LinkEnd → Prop} {s₀ s' : Switches}

theorem Steady.since (hs : Steady env s s') (h : PortTable env P s.ports s.time) (hsent : SentFrames env s.out) : Since env P s s' :=
  ⟨hs.dps, hs.port_state, hs.time, hs.told, hs.table P h, hs.sent P h hsent⟩

theorem Since.steady (h : Since env P s₀ s) (hs : Steady env s s') : Since env P s₀ s' :=
  ⟨hs.dps.trans h.dps, hs.port_state.trans h.port_state, hs.time.trans h.time, hs.told.trans h.told, hs.table P h.table,
    hs.sent P h.table h.sent⟩

/-- The port's discovery packet can be made, and names the port. -/
def HasFrame (env : RyuEnv) (p : RyuPort) : Prop :=
  ∃ frame, Lldp.lldp_packet env.conv p.dpid p.ofpport.port_no p.ofpport.hw_addr DEFAULT_TTL = .ok frame ∧
    Lldp.lldp_parse env.conv frame = .ok (p.dpid, p.ofpport.port_no)

theorem wp_port_added (h : Since env P s₀ s) {p : RyuPort} (hp : ¬ P p.key)
    (hframe : HasFrame env p) :
    wp (_port_added env p) s (fun _ s' => Since env (fun k => k = p.key ∨ P k) s₀ s') fun _ _ => False := by
  obtain ⟨frame, hframe, hparse⟩ := hframe
  have hnone : s.ports.dict.get p.key = none := Dict.get_eq_none.mpr fun hmem => hp (h.table.dict_iff.mp hmem)
  unfold _port_added add_port
  simp only [wp_bind, wp_orRaise_ok hframe, wp_get, hnone, setKeys, setData, wp_modify]
  refine ⟨h.dps, h.port_state, h.time, h.told, h.table.prepend hp ⟨fun t ht => ?_, hparse⟩ rfl, h.sent⟩
  cases ht

theorem wp_del_port (h : Since env P s₀ s) {k : LinkEnd} (hk : P k) :
    wp (del_port k) s (fun _ s' => Since env (fun x => x ≠ k ∧ P x) s₀ s') fun _ _ => False := by
  obtain ⟨linked, hremove, htable⟩ := h.table.remove hk
  unfold del_port
  simp only [wp_bind, wp_get, wp_delItem, setKeys, wp_modify, wp_orRaise_ok hremove]
  exact ⟨fun _ => ⟨h.dps, h.port_state, h.time, h.told, htable, h.sent⟩, fun hno => hno (h.table.dict_iff.mpr hk)⟩

theorem port_deleted_keyError (src : LinkEnd) : wp (port_deleted src) s (fun _ _ => True) fun e _ => e = .KeyError := by
  unfold port_deleted delLink delPeer
  simp only [wp_bind, wp_get, wp_item, wp_delItem, wp_modify, wp_pure]
  simp

theorem Since.tells (h : Since env P s₀ s) {e : TopologyEvent} (he : ∀ told, tellSwitch told e = told) :
    Since env P s₀ { s with events := s.events ++ [e] } :=
  h.steady ⟨rfl, rfl, rfl, (switchesTold_snoc ..).trans (he _), fun _ h => h, fun _ _ h => h⟩

theorem wp_link_down (h : Since env P s₀ s) (port : LinkEnd) :
    wp (_link_down port) s (fun _ s' => Since env P s₀ s') fun _ _ => False := by
  unfold _link_down
  rw [wp_bind, wp_tryKey]
  have hdeleted : wp (port_deleted port) s (fun _ s' => Steady env s s' ∧ True) fun e s' => Steady env s s' ∧ e = .KeyError :=
    wp_and (moves_port_deleted port s) (port_deleted_keyError port)
  refine wp_mono hdeleted (fun gone s₁ hs => ?_) fun e s₁ hs => ⟨fun _ => h.steady hs.1, fun hne => hne hs.2⟩
  obtain ⟨dst, rev_link_dst⟩ := gone
  have h₁ := (h.steady hs.1).tells (e := .LinkDelete ⟨port, dst⟩) fun _ => rfl
  have hfront : ∀ s₂, Since env P s₀ s₂ → wp (move_front dst) s₂ (fun _ s' => Since env P s₀ s') fun _ _ => False := by
    intro s₂ h₂
    exact wp_mono (wp_move_front (Or.inl ⟨P, h₂.table⟩)) (fun _ _ hs => h₂.steady hs) fun _ _ h => h
  simp only [send_event_to_observers, wp_bind, wp_modify]
  cases rev_link_dst with
  | none => exact hfront _ h₁
  | some peer => exact hfront _ (h₁.tells fun _ => rfl)

end

end Switches

end VnfDockerNet
