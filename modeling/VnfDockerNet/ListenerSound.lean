import VnfDockerNet.TflcEvent
import VnfDockerNet.Lib.Runs

/-!
# The listeners of an event class

What is kept of a class is an ordered set: the listeners whose last call was an
`add_event_listener`, by their latest registration that had an effect. One call
is described class by class; the rest is about call sequences only.
-/

namespace VnfDockerNet

open Python Runs

namespace EventDispatcher

variable {EventCls Listener : Type}

/-! ## Call sequences -/

section
variable {calls : List (Call EventCls Listener)} {call : Call EventCls Listener} {c : EventCls} {l : Listener}

/-- The last call on the class and the listener was an add. -/
def Registered (calls : List (Call EventCls Listener)) (c : EventCls) (l : Listener) : Prop :=
  LastSet (fun call (_ : Unit) => call = .add_event_listener c l)
    (fun call => call = .add_event_listener c l ∨ call = .rmv_event_listener c l) calls ()

/-- The call at `i` registers a listener that is not registered then. -/
def Effective (calls : List (Call EventCls Listener)) (c : EventCls) (l : Listener) (i : Nat) : Prop :=
  calls[i]? = some (.add_event_listener c l) ∧ ¬ Registered (calls.take i) c l

def Latest (calls : List (Call EventCls Listener)) (c : EventCls) (l : Listener) (i : Nat) : Prop :=
  Effective calls c l i ∧ ∀ j, Effective calls c l j → j ≤ i

def Before (calls : List (Call EventCls Listener)) (c : EventCls) (l l' : Listener) : Prop :=
  ∃ i i', Latest calls c l i ∧ Latest calls c l' i' ∧ i < i'

/-- The registered listeners, each once, by their latest effective registration. -/
structure InOrder (calls : List (Call EventCls Listener)) (c : EventCls) (ls : List Listener) : Prop where
  mem : ∀ l, l ∈ ls ↔ Registered calls c l
  nodup : ls.Nodup
  sorted : ls.Pairwise (Before calls c)

theorem not_registered_nil : ¬ Registered ([] : List (Call EventCls Listener)) c l := not_lastSet_nil ()

theorem registered_snoc : Registered (calls ++ [call]) c l ↔
    call = .add_event_listener c l ∨ call ≠ .rmv_event_listener c l ∧ Registered calls c l := by
  unfold Registered
  rw [lastSet_snoc]
  tauto

theorem registered_elsewhere (h : call.event_cls ≠ c) : Registered (calls ++ [call]) c l ↔ Registered calls c l := by
  have hadd : call ≠ .add_event_listener c l := fun he => h (by rw [he]; rfl)
  have hrmv : call ≠ .rmv_event_listener c l := fun he => h (by rw [he]; rfl)
  rw [registered_snoc]
  tauto

theorem Effective.lt {i : Nat} (h : Effective calls c l i) : i < calls.length := by
  obtain ⟨hi, _⟩ := List.getElem?_eq_some_iff.mp h.1
  exact hi

theorem effective_snoc {i : Nat} : Effective (calls ++ [call]) c l i ↔
    Effective calls c l i ∨ i = calls.length ∧ call = .add_event_listener c l ∧ ¬ Registered calls c l := by
  rcases Nat.lt_trichotomy i calls.length with hlt | heq | hgt
  · unfold Effective
    rw [List.getElem?_append_left hlt, List.take_append_of_le_length (Nat.le_of_lt hlt)]
    simp [Nat.ne_of_lt hlt]
  · subst heq
    have hold : ¬ Effective calls c l calls.length := fun h => Nat.lt_irrefl _ h.lt
    simp only [hold, false_or, true_and]
    unfold Effective
    rw [List.take_left']
    · simp
    · rfl
  · have hold : ¬ Effective calls c l i := fun h => by have := h.lt; omega
    have hnew : ¬ Effective (calls ++ [call]) c l i := by
      intro h
      have := h.lt
      rw [List.length_append, List.length_singleton] at this
      omega
    simp [hold, hnew, Nat.ne_of_gt hgt]

theorem latest_snoc_old {i : Nat} (h : call = .add_event_listener c l → Registered calls c l) :
    Latest (calls ++ [call]) c l i ↔ Latest calls c l i := by
  have hsame : ∀ j, Effective (calls ++ [call]) c l j ↔ Effective calls c l j := by
    intro j
    rw [effective_snoc]
    tauto
  unfold Latest
  simp only [hsame]

theorem latest_snoc_new (h : ¬ Registered calls c l) :
    Latest (calls ++ [.add_event_listener c l]) c l calls.length := by
  refine ⟨effective_snoc.mpr (Or.inr ⟨rfl, rfl, h⟩), fun j hj => ?_⟩
  have := hj.lt
  rw [List.length_append, List.length_singleton] at this
  omega

theorem exists_latest (h : Registered calls c l) : ∃ i, Latest calls c l i := by
  induction calls using List.reverseRecOn with
  | nil => exact absurd h not_registered_nil
  | append_singleton calls call ih =>
    by_cases hreg : Registered calls c l
    · obtain ⟨i, hi⟩ := ih hreg
      exact ⟨i, (latest_snoc_old fun _ => hreg).mpr hi⟩
    · rcases registered_snoc.mp h with rfl | ⟨_, hold⟩
      · exact ⟨calls.length, latest_snoc_new hreg⟩
      · exact absurd hold hreg

theorem before_snoc_old {l' : Listener} (h : call = .add_event_listener c l → Registered calls c l)
    (h' : call = .add_event_listener c l' → Registered calls c l') (hb : Before calls c l l') :
    Before (calls ++ [call]) c l l' := by
  obtain ⟨i, i', hi, hi', hlt⟩ := hb
  exact ⟨i, i', (latest_snoc_old h).mpr hi, (latest_snoc_old h').mpr hi', hlt⟩

/-! ## One call on an ordered set -/

variable {ls : List Listener}

theorem inOrder_nil : InOrder ([] : List (Call EventCls Listener)) c ([] : List Listener) :=
  ⟨fun _ => iff_of_false List.not_mem_nil not_registered_nil, .nil, .nil⟩

theorem InOrder.sorted_snoc (h : InOrder calls c ls) : ls.Pairwise (Before (calls ++ [call]) c) := by
  refine h.sorted.imp_of_mem fun {l l'} hl hl' hb => ?_
  exact before_snoc_old (fun _ => (h.mem l).mp hl) (fun _ => (h.mem l').mp hl') hb

theorem InOrder.elsewhere (h : InOrder calls c ls) (hc : call.event_cls ≠ c) : InOrder (calls ++ [call]) c ls := by
  refine ⟨fun l => ?_, h.nodup, h.sorted_snoc⟩
  rw [registered_elsewhere hc]
  exact h.mem l

theorem InOrder.addOld (h : InOrder calls c ls) (hl : l ∈ ls) :
    InOrder (calls ++ [.add_event_listener c l]) c ls := by
  refine ⟨fun l' => ?_, h.nodup, h.sorted_snoc⟩
  rw [registered_snoc, h.mem l']
  constructor
  · intro hreg
    exact Or.inr ⟨by simp, hreg⟩
  · intro hreg
    rcases hreg with heq | ⟨_, hreg⟩
    · cases heq
      exact (h.mem l).mp hl
    · exact hreg

theorem InOrder.addNew (h : InOrder calls c ls) (hl : l ∉ ls) :
    InOrder (calls ++ [.add_event_listener c l]) c (ls ++ [l]) := by
  have hreg : ¬ Registered calls c l := fun hr => hl ((h.mem l).mpr hr)
  refine ⟨fun l' => ?_, ?_, ?_⟩
  · rw [registered_snoc, List.mem_append, List.mem_singleton, h.mem l']
    constructor
    · intro hor
      rcases hor with hold | rfl
      · exact Or.inr ⟨by simp, hold⟩
      · exact Or.inl rfl
    · intro hor
      rcases hor with heq | ⟨_, hold⟩
      · cases heq
        exact Or.inr rfl
      · exact Or.inl hold
  · rw [List.nodup_append]
    refine ⟨h.nodup, List.nodup_singleton l, fun a ha b hb => ?_⟩
    rw [List.mem_singleton.mp hb]
    exact fun heq => hl (heq ▸ ha)
  · rw [List.pairwise_append]
    refine ⟨h.sorted_snoc, List.pairwise_singleton .., fun l' hl' b hb => ?_⟩
    rw [List.mem_singleton.mp hb]
    -- the new call comes after every call before it
    obtain ⟨i, hi⟩ := exists_latest ((h.mem l').mp hl')
    exact ⟨i, calls.length, (latest_snoc_old fun _ => (h.mem l').mp hl').mpr hi, latest_snoc_new hreg, hi.1.lt⟩

variable [DecidableEq Listener]

theorem InOrder.rmv (h : InOrder calls c ls) : InOrder (calls ++ [.rmv_event_listener c l]) c (ls.erase l) := by
  refine ⟨fun l' => ?_, h.nodup.erase l, h.sorted_snoc.sublist List.erase_sublist⟩
  rw [registered_snoc, h.nodup.mem_erase_iff, h.mem l']
  constructor
  · intro hand
    exact Or.inr ⟨fun heq => by cases heq; exact hand.1 rfl, hand.2⟩
  · intro hor
    rcases hor with heq | ⟨hne, hreg⟩
    · cases heq
    · exact ⟨fun heq => hne (by rw [heq]), hreg⟩

def added (ls : Option (List Listener)) (l : Listener) : Option (List Listener) :=
  if l ∈ ls.getD [] then ls else some (ls.getD [] ++ [l])

def removed (ls : Option (List Listener)) (l : Listener) : Option (List Listener) :=
  if l ∈ ls.getD [] then
    if (ls.getD []).length = 1 then none else some ((ls.getD []).erase l)
  else ls

theorem added_ne_nil {ls : Option (List Listener)} (h : ls ≠ some []) (l : Listener) : added ls l ≠ some [] := by
  unfold added
  split
  · exact h
  · simp

theorem removed_ne_nil {ls : Option (List Listener)} (h : ls ≠ some []) (l : Listener) : removed ls l ≠ some [] := by
  unfold removed
  by_cases hl : l ∈ ls.getD []
  · rw [if_pos hl]
    split
    · exact nofun
    · rename_i hone
      intro heq
      have hlen := List.length_erase_of_mem hl
      rw [Option.some.inj heq, List.length_nil] at hlen
      have hpos := List.length_pos_of_mem hl
      omega
  · rw [if_neg hl]
    exact h

theorem inOrder_added {ls : Option (List Listener)} {c : EventCls} (h : InOrder calls c (ls.getD [])) (l : Listener) :
    InOrder (calls ++ [.add_event_listener c l]) c ((added ls l).getD []) := by
  unfold added
  by_cases hl : l ∈ ls.getD []
  · rw [if_pos hl]
    exact h.addOld hl
  · rw [if_neg hl]
    exact h.addNew hl

theorem removed_getD (ls : Option (List Listener)) (l : Listener) : (removed ls l).getD [] = (ls.getD []).erase l := by
  unfold removed
  by_cases hl : l ∈ ls.getD []
  · rw [if_pos hl]
    split
    · rename_i hone
      obtain ⟨x, hx⟩ := List.length_eq_one_iff.mp hone
      rw [hx, List.mem_singleton] at hl
      rw [hx, hl, List.erase_cons_head, Option.getD_none]
    · rfl
  · rw [if_neg hl, List.erase_of_not_mem hl]

end

/-! ## One call on a dispatcher -/

section
variable [DecidableEq EventCls] {d : EventDispatcher EventCls Listener}

def listeners (d : EventDispatcher EventCls Listener) (c : EventCls) : Option (List Listener) := (d._events.get c).map d.lists

/-- Each class has a list object of its own. -/
structure Owned (d : EventDispatcher EventCls Listener) : Prop where
  allocated : ∀ c r, d._events.get c = some r → r < d.fresh
  distinct : ∀ c c' r, d._events.get c = some r → d._events.get c' = some r → c = c'

theorem listeners_of_get {c : EventCls} {r : Nat} (h : d._events.get c = some r) : listeners d c = some (d.lists r) := by
  unfold listeners
  rw [h]
  rfl

theorem listeners_of_none {c : EventCls} (h : d._events.get c = none) : listeners d c = none := by
  unfold listeners
  rw [h]
  rfl

theorem owned_init : Owned ({} : EventDispatcher EventCls Listener) := by
  have hnone : ∀ c r, ({} : EventDispatcher EventCls Listener)._events.get c ≠ some r := by
    intro c r h
    rw [show ({} : EventDispatcher EventCls Listener)._events = ∅ from rfl, Dict.get_empty] at h
    cases h
  exact ⟨fun c r h => absurd h (hnone c r), fun c _ r h => absurd h (hnone c r)⟩

theorem owned_store (h : Owned d) {c : EventCls} {r n : Nat} {t : Nat → List Listener} (hr : r < n) (hn : d.fresh ≤ n)
    (hc : ∀ c', d._events.get c' = some r → c' = c) (hsame : ∀ r', r' ≠ r → r' < d.fresh → t r' = d.lists r') :
    Owned { d with _events := d._events.insert c r, lists := t, fresh := n } ∧
      ∀ c', listeners { d with _events := d._events.insert c r, lists := t, fresh := n } c' =
        if c' = c then some (t r) else listeners d c' := by
  refine ⟨⟨fun c' r' hget => ?_, fun c₁ c₂ r' h₁ h₂ => ?_⟩, fun c' => ?_⟩
  · rcases Dict.get_insert_some.mp hget with ⟨_, rfl⟩ | ⟨_, hold⟩
    · exact hr
    · exact Nat.lt_of_lt_of_le (h.allocated c' r' hold) hn
  · rcases Dict.get_insert_some.mp h₁ with ⟨rfl, rfl⟩ | ⟨hne₁, hold₁⟩
    · rcases Dict.get_insert_some.mp h₂ with ⟨rfl, _⟩ | ⟨hne₂, hold₂⟩
      · rfl
      · exact absurd (hc c₂ hold₂) hne₂
    · rcases Dict.get_insert_some.mp h₂ with ⟨rfl, rfl⟩ | ⟨_, hold₂⟩
      · exact hc c₁ hold₁
      · exact h.distinct c₁ c₂ r' hold₁ hold₂
  · unfold listeners
    show (Dict.get (d._events.insert c r) c').map t = _
    rw [Dict.get_insert]
    by_cases heq : c' = c
    · rw [if_pos heq, if_pos heq]
      rfl
    · rw [if_neg heq, if_neg heq]
      cases hget : d._events.get c' with
      | none => rfl
      | some r' =>
        have hne : r' ≠ r := fun hrr => heq (hc c' (hrr ▸ hget))
        rw [Option.map_some, Option.map_some, hsame r' hne (h.allocated c' r' hget)]

theorem owned_erase (h : Owned d) (c : EventCls) : Owned { d with _events := d._events.erase c } ∧
    ∀ c', listeners { d with _events := d._events.erase c } c' = if c' = c then none else listeners d c' := by
  refine ⟨⟨fun c' r hget => ?_, fun c₁ c₂ r h₁ h₂ => ?_⟩, fun c' => ?_⟩
  · exact h.allocated c' r (Dict.get_erase_some.mp hget).2
  · exact h.distinct c₁ c₂ r (Dict.get_erase_some.mp h₁).2 (Dict.get_erase_some.mp h₂).2
  · unfold listeners
    show (Dict.get (d._events.erase c) c').map d.lists = _
    rw [Dict.get_erase]
    split <;> rfl

theorem owned_append (h : Owned d) (c : EventCls) (l : Listener) {r : Nat} {lists lists' : Nat → List Listener}
    (hr : r = (d._events.get c).getD d.fresh) (hlists : lists = Function.update d.lists d.fresh [])
    (hlists' : lists' = Function.update lists r (lists r ++ [l])) :
    Owned { d with _events := d._events.insert c r, lists := lists', fresh := d.fresh + 1 } ∧
      ∀ c', listeners { d with _events := d._events.insert c r, lists := lists', fresh := d.fresh + 1 } c' =
        if c' = c then some ((listeners d c).getD [] ++ [l]) else listeners d c' := by
  have hlt : r < d.fresh + 1 ∧ (∀ c', d._events.get c' = some r → c' = c) ∧ lists r = (listeners d c).getD [] := by
    cases hget : d._events.get c with
    | none =>
      rw [hget, Option.getD_none] at hr
      subst hr hlists
      refine ⟨Nat.lt_succ_self _, fun c' hc' => absurd (h.allocated c' _ hc') (Nat.lt_irrefl _), ?_⟩
      rw [listeners_of_none hget, Function.update_self]
      rfl
    | some r' =>
      rw [hget, Option.getD_some] at hr
      subst hr hlists
      have hfresh := h.allocated c r hget
      refine ⟨Nat.lt_succ_of_lt hfresh, fun c' hc' => h.distinct c' c r hc' hget, ?_⟩
      rw [listeners_of_get hget, Function.update_of_ne (Nat.ne_of_lt hfresh)]
      rfl
  obtain ⟨hlt, honly, hlist⟩ := hlt
  have hnew : lists' r = (listeners d c).getD [] ++ [l] := by rw [hlists', Function.update_self, hlist]
  have hsame : ∀ r', r' ≠ r → r' < d.fresh → lists' r' = d.lists r' := by
    intro r' hne hlt'
    rw [hlists', Function.update_of_ne hne, hlists, Function.update_of_ne (Nat.ne_of_lt hlt')]
  obtain ⟨howned, hall⟩ := owned_store (t := lists') h hlt (Nat.le_succ _) honly hsame
  refine ⟨howned, fun c' => ?_⟩
  rw [hall, hnew]

/-! ## What holds after the calls -/

/-- Every class has its registered listeners in order, and those without any have no list. -/
structure Listed (calls : List (Call EventCls Listener)) (d : EventDispatcher EventCls Listener) : Prop where
  owned : Owned d
  nonempty : ∀ c, listeners d c ≠ some []
  inOrder : ∀ c, InOrder calls c ((listeners d c).getD [])

theorem listed_init : Listed ([] : List (Call EventCls Listener)) {} :=
  ⟨owned_init, fun _ => nofun, fun _ => inOrder_nil⟩

variable {calls : List (Call EventCls Listener)}

theorem Listed.perform_of (h : Listed calls d) {call : Call EventCls Listener} {d' : EventDispatcher EventCls Listener}
    {ls : Option (List Listener)} (howned : Owned d')
    (hall : ∀ c, listeners d' c = if c = call.event_cls then ls else listeners d c) (hne : ls ≠ some [])
    (hls : InOrder (calls ++ [call]) call.event_cls (ls.getD [])) :
    Listed (calls ++ [call]) d' ∧ ∀ c, c ≠ call.event_cls → listeners d' c = listeners d c := by
  refine ⟨⟨howned, fun c => ?_, fun c => ?_⟩, fun c hc => by rw [hall, if_neg hc]⟩
  · rw [hall]
    split
    · exact hne
    · exact h.nonempty c
  · rw [hall]
    by_cases hc : c = call.event_cls
    · rw [if_pos hc, hc]
      exact hls
    · rw [if_neg hc]
      exact (h.inOrder c).elsewhere (Ne.symm hc)

/-! ## Dispatching -/

section
variable {Event σ : Type} (call : Listener → Event → EStateM Exn σ Unit) (event : Event)

/-- All of `ls` have been called, or those up to the first that raised. -/
def CallsInTurn (ls : List Listener) (x : EStateM Exn (σ × List Listener) Unit) (app : σ) : Prop :=
  wp x (app, []) (fun _ s => s.2 = ls) fun e s =>
    ∃ called l rest, ls = called ++ l :: rest ∧ s.2 = called ++ [l] ∧ ∃ app', call l event app' = .error e s.1

theorem wp_callListener (ls : List Listener) {before after : List Listener} {l : Listener} (hls : ls = before ++ l :: after)
    (app : σ) :
    wp (callListener call event l) (app, before) (fun _ s => s.2 = before ++ [l]) fun e s =>
      ∃ called l rest, ls = called ++ l :: rest ∧ s.2 = called ++ [l] ∧ ∃ app', call l event app' = .error e s.1 := by
  unfold wp callListener
  cases hcall : call l event app with
  | ok a app' => rfl
  | error e app' => exact ⟨before, l, after, hls, rfl, app, hcall⟩

theorem dispatch_callsInTurn (d : EventDispatcher EventCls Listener) (cls : Event → EventCls) (app : σ) :
    CallsInTurn call event ((listeners d (cls event)).getD []) (dispatch_event call event d cls) app := by
  unfold CallsInTurn dispatch_event
  cases hget : d._events.get (cls event) with
  | none =>
    rw [if_neg (Dict.get_eq_none.mp hget), listeners_of_none hget, wp_pure]
    rfl
  | some r =>
    rw [if_pos (Dict.mem_iff_get.mpr ⟨r, hget⟩), listeners_of_get hget, wp_bind, wp_item_some hget]
    refine wp_forEach (fun before (s : σ × List Listener) => s.2 = before) (fun before l after s hls hs => ?_) rfl
    obtain ⟨app', called⟩ := s
    subst hs
    exact wp_callListener call event (d.lists r) hls app'

end

variable [DecidableEq Listener]

theorem has_listener_eq (d : EventDispatcher EventCls Listener) (c : EventCls) (l : Listener) :
    has_listener c l d = .ok (decide (l ∈ (listeners d c).getD [])) d := by
  show (if c ∈ d._events then item d._events c >>= fun r => pure (decide (l ∈ d.lists r)) else pure false :
    EStateM Exn (EventDispatcher EventCls Listener) Bool) d = _
  cases hget : d._events.get c with
  | none =>
    rw [if_neg (Dict.get_eq_none.mp hget), listeners_of_none hget]
    rfl
  | some r =>
    rw [if_pos (Dict.mem_iff_get.mpr ⟨r, hget⟩), listeners_of_get hget]
    unfold item
    rw [hget]
    rfl

theorem wp_has_listener {c : EventCls} {l : Listener} {Q : Bool → EventDispatcher EventCls Listener → Prop}
    {E : Exn → EventDispatcher EventCls Listener → Prop} :
    wp (has_listener c l) d Q E ↔ Q (decide (l ∈ (listeners d c).getD [])) d := by
  unfold wp
  rw [has_listener_eq]

theorem wp_add_event_listener (h : Owned d) (c : EventCls) (l : Listener) :
    wp (add_event_listener c l) d
      (fun _ d' => Owned d' ∧ ∀ c', listeners d' c' = if c' = c then added (listeners d c) l else listeners d c')
      fun _ _ => False := by
  unfold add_event_listener
  rw [wp_bind, wp_has_listener]
  by_cases hl : l ∈ (listeners d c).getD []
  · rw [decide_eq_true hl, if_neg (by decide), wp_pure]
    refine ⟨h, fun c' => ?_⟩
    unfold added
    rw [if_pos hl]
    split
    · rename_i heq
      rw [heq]
    · rfl
  · rw [decide_eq_false hl, if_pos rfl]
    unfold added
    rw [if_neg hl]
    exact owned_append h c l rfl rfl rfl

theorem wp_rmv_event_listener (h : Owned d) (c : EventCls) (l : Listener) :
    wp (rmv_event_listener c l) d
      (fun _ d' => Owned d' ∧ (∀ c', listeners d' c' = if c' = c then removed (listeners d c) l else listeners d c') ∧
        (l ∉ (listeners d c).getD [] → d' = d))
      fun _ _ => False := by
  unfold rmv_event_listener
  rw [wp_bind, wp_has_listener]
  by_cases hl : l ∈ (listeners d c).getD []
  · rw [decide_eq_true hl, if_pos rfl]
    cases hget : d._events.get c with
    | none =>
      rw [listeners_of_none hget] at hl
      exact absurd hl List.not_mem_nil
    | some r =>
      rw [wp_bind, wp_get, wp_bind, wp_item_some hget]
      rw [listeners_of_get hget, Option.getD_some] at hl
      rw [listeners_of_get hget, Option.getD_some]
      have habsent : ∀ d', l ∉ d.lists r → d' = d := fun _ hn => absurd hl hn
      by_cases hone : (d.lists r).length = 1
      · have hremoved : removed (some (d.lists r)) l = none := by simp [removed, hl, hone]
        rw [if_pos hone, wp_modify, hremoved]
        obtain ⟨howned, hall⟩ := owned_erase h c
        exact ⟨howned, hall, habsent _⟩
      · have hremoved : removed (some (d.lists r)) l = some ((d.lists r).erase l) := by simp [removed, hl, hone]
        rw [if_neg hone, hremoved]
        unfold remove
        rw [wp_bind, wp_bind, wp_get, if_pos hl, wp_modify, wp_modify]
        obtain ⟨howned, hall⟩ := owned_store (c := c) (t := Function.update d.lists r ((d.lists r).erase l)) h
          (h.allocated c r hget) (Nat.le_refl _) (fun c' hc' => h.distinct c' c r hc' hget)
          fun r' hne _ => Function.update_of_ne hne _ _
        rw [Function.update_self] at hall
        exact ⟨howned, hall, habsent _⟩
  · rw [decide_eq_false hl, if_neg (by decide), wp_pure]
    refine ⟨h, fun c' => ?_, fun _ => rfl⟩
    unfold removed
    rw [if_neg hl]
    split
    · rename_i heq
      rw [heq]
    · rfl

/-! ## A run of calls -/

theorem listed_perform (h : Listed calls d) (call : Call EventCls Listener) :
    wp (perform call) d (fun _ d' => Listed (calls ++ [call]) d' ∧ ∀ c, c ≠ call.event_cls → listeners d' c = listeners d c)
      fun _ _ => False := by
  cases call with
  | add_event_listener c l =>
    refine wp_mono (wp_add_event_listener h.owned c l) (fun _ d' hd' => ?_) fun _ _ hf => hf
    obtain ⟨howned, hall⟩ := hd'
    exact h.perform_of howned hall (added_ne_nil (h.nonempty c) l) (inOrder_added (h.inOrder c) l)
  | rmv_event_listener c l =>
    refine wp_mono (wp_rmv_event_listener h.owned c l) (fun _ d' hd' => ?_) fun _ _ hf => hf
    obtain ⟨howned, hall, _⟩ := hd'
    refine h.perform_of howned hall (removed_ne_nil (h.nonempty c) l) ?_
    rw [removed_getD]
    exact (h.inOrder c).rmv

theorem listed_performAll (calls : List (Call EventCls Listener)) :
    wp (performAll calls) {} (fun _ d' => Listed calls d') fun _ _ => False := by
  refine wp_forEach Listed (fun before call after d _ h => ?_) listed_init
  exact wp_mono (listed_perform h call) (fun _ _ hd' => hd'.1) fun _ _ hf => hf

/-- What a dispatcher answers and does after these calls. -/
structure OrderedSet (calls : List (Call EventCls Listener)) (d : EventDispatcher EventCls Listener) : Prop where
  has : ∀ c l, ∃ b, has_listener c l d = .ok b d ∧ (b = true ↔ Registered calls c l)
  lists : ∀ c ls, listeners d c = some ls → ls ≠ [] ∧ ls.Nodup
  absent : ∀ c l, ¬ Registered calls c l → rmv_event_listener c l d = .ok () d
  elsewhere : ∀ call, ∃ d', perform call d = .ok () d' ∧ ∀ c, c ≠ call.event_cls → listeners d' c = listeners d c
  dispatch : ∀ {Event σ : Type} (call : Listener → Event → EStateM Exn σ Unit) (event : Event) (cls : Event → EventCls),
    ∃ ls, InOrder calls (cls event) ls ∧ ∀ app, CallsInTurn call event ls (dispatch_event call event d cls) app

theorem orderedSet_of_listed (h : Listed calls d) : OrderedSet calls d := by
  refine ⟨fun c l => ⟨_, has_listener_eq d c l, ?_⟩, fun c ls hls => ?_, fun c l hl => ?_, fun call => ?_,
    fun call event cls => ⟨_, h.inOrder (cls event), dispatch_callsInTurn call event d cls⟩⟩
  · rw [decide_eq_true_iff]
    exact (h.inOrder c).mem l
  · have hnodup := (h.inOrder c).nodup
    rw [hls] at hnodup
    exact ⟨fun hnil => h.nonempty c (hnil ▸ hls), hnodup⟩
  · obtain ⟨⟨⟩, d', hok, _, _, hsame⟩ := ok_of_wp (wp_rmv_event_listener h.owned c l)
    rw [hok, hsame fun hmem => hl (((h.inOrder c).mem l).mp hmem)]
  · obtain ⟨⟨⟩, d', hok, _, hframe⟩ := ok_of_wp (listed_perform h call)
    exact ⟨d', hok, hframe⟩

/-- **The listeners.** After any calls, none of which raises, a class has the
listeners that were added last, each once, and an event runs them in that order. -/
theorem event_dispatcher_ordered_set (calls : List (Call EventCls Listener)) :
    ∃ d, performAll calls {} = .ok () d ∧ OrderedSet calls d := by
  obtain ⟨⟨⟩, d, hok, hlisted⟩ := ok_of_wp (listed_performAll calls)
  exact ⟨d, hok, orderedSet_of_listed hlisted⟩

/-- Listener 1 is added twice, removed and added again: it comes last. -/
example : (match performAll [.add_event_listener 'a' 1, .add_event_listener 'a' 2, .add_event_listener 'a' 1,
      .rmv_event_listener 'a' 1, .add_event_listener 'a' 1] {} with
    | .ok _ d => listeners d 'a'
    | .error _ _ => none) = some [2, 1] := by decide

end

end EventDispatcher

end VnfDockerNet
