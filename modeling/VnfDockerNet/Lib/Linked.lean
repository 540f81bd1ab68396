import VnfDockerNet.Lib.Python
import Mathlib.Data.List.Chain
import Mathlib.Data.List.Nodup

/-!
# Doubly linked lists with a sentinel

The nodes are the cells of a heap: the addresses of two neighbours, and a key.
Node 0 is the sentinel, which closes the ring, and `map` has the node of each
key. `Lists` says which keys the ring goes through.
-/

namespace Python

structure Cell (κ : Type) where
  prev : Nat
  next : Nat
  key : Option κ := none

structure Linked (κ : Type) where
  cells : Nat → Cell κ := fun _ => ⟨0, 0, none⟩
  /-- The address of the next node made. -/
  fresh : Nat := 1
  map : Dict κ Nat := ∅

namespace Linked

variable {κ : Type} [DecidableEq κ]

def setNext (cells : Nat → Cell κ) (a b : Nat) : Nat → Cell κ := Function.update cells a { cells a with next := b }

def setPrev (cells : Nat → Cell κ) (b a : Nat) : Nat → Cell κ := Function.update cells b { cells b with prev := a }

def _remove_key (l : Linked κ) (key : κ) : Except Exn (Linked κ) :=
  match l.map.get key with
  | none => .error .KeyError
  | some a =>
    let link_prev := (l.cells a).prev
    let link_next := (l.cells a).next
    .ok { l with
      cells := setPrev (setNext l.cells link_prev link_next) link_next link_prev
      map := l.map.erase key }

/-- A new node for `key` between `a` and `b`. -/
def link (l : Linked κ) (key : κ) (a b : Nat) : Linked κ where
  cells := setPrev (setNext (Function.update l.cells l.fresh ⟨a, b, some key⟩) a l.fresh) b l.fresh
  fresh := l.fresh + 1
  map := l.map.insert key l.fresh

def _append_key (l : Linked κ) (key : κ) : Linked κ := l.link key (l.cells 0).prev 0

def _prepend_key (l : Linked κ) (key : κ) : Linked κ := l.link key 0 (l.cells 0).next

def _move_last_key (l : Linked κ) (key : κ) : Except Exn (Linked κ) := do
  let l ← l._remove_key key
  return l._append_key key

def _move_front_key (l : Linked κ) (key : κ) : Except Exn (Linked κ) := do
  let l ← l._remove_key key
  return l._prepend_key key

/-- From `curr` on to the sentinel; only the sentinel has no key. -/
def walk (cells : Nat → Cell κ) : Nat → Nat → Option (List κ)
  | _, 0 => some []
  | 0, _ + 1 => none
  | fuel + 1, curr + 1 => do
    let keys ← walk cells fuel (cells (curr + 1)).next
    return (cells (curr + 1)).key.toList ++ keys

/-- `__iter__`: one turn round the ring, which has a node for each key of `map`. -/
def iter (l : Linked κ) : Option (List κ) := walk l.cells l.map.keys.length (l.cells 0).next

/-! ## Pointers -/

section
omit [DecidableEq κ]

section
variable (cells : Nat → Cell κ) (a b x : Nat)

@[simp] theorem setNext_prev : (setNext cells a b x).prev = (cells x).prev := by
  unfold setNext
  by_cases h : x = a
  · subst h
    rw [Function.update_self]
  · rw [Function.update_of_ne h]

@[simp] theorem setNext_key : (setNext cells a b x).key = (cells x).key := by
  unfold setNext
  by_cases h : x = a
  · subst h
    rw [Function.update_self]
  · rw [Function.update_of_ne h]

@[simp] theorem setPrev_next : (setPrev cells b a x).next = (cells x).next := by
  unfold setPrev
  by_cases h : x = b
  · subst h
    rw [Function.update_self]
  · rw [Function.update_of_ne h]

@[simp] theorem setPrev_key : (setPrev cells b a x).key = (cells x).key := by
  unfold setPrev
  by_cases h : x = b
  · subst h
    rw [Function.update_self]
  · rw [Function.update_of_ne h]

@[simp] theorem setNext_next : (setNext cells a b a).next = b := by
  unfold setNext
  rw [Function.update_self]

@[simp] theorem setPrev_prev : (setPrev cells b a b).prev = a := by
  unfold setPrev
  rw [Function.update_self]

theorem setNext_next_of_ne {cells : Nat → Cell κ} {a b x : Nat} (h : x ≠ a) :
    (setNext cells a b x).next = (cells x).next := by
  unfold setNext
  rw [Function.update_of_ne h]

theorem setPrev_prev_of_ne {cells : Nat → Cell κ} {a b x : Nat} (h : x ≠ b) :
    (setPrev cells b a x).prev = (cells x).prev := by
  unfold setPrev
  rw [Function.update_of_ne h]

end

def Neighbours (cells : Nat → Cell κ) (a b : Nat) : Prop := (cells a).next = b ∧ (cells b).prev = a

/-- A chain only depends on the pointers between its nodes. -/
theorem chain_frame {cells cells' : Nat → Cell κ} : ∀ {l : List Nat}, l.IsChain (Neighbours cells) →
    (∀ a ∈ l.dropLast, (cells' a).next = (cells a).next) → (∀ b ∈ l.tail, (cells' b).prev = (cells b).prev) →
    l.IsChain (Neighbours cells')
  | [], _, _, _ => .nil
  | [_], _, _, _ => .singleton _
  | a :: b :: l, h, hnext, hprev => by
    obtain ⟨hab, hrest⟩ := List.isChain_cons_cons.mp h
    refine List.isChain_cons_cons.mpr ⟨⟨?_, ?_⟩, ?_⟩
    · rw [hnext a (List.mem_cons_self ..)]
      exact hab.1
    · rw [hprev b (List.mem_cons_self ..)]
      exact hab.2
    · refine chain_frame hrest (fun a' ha' => hnext a' (List.mem_cons_of_mem a ha')) fun b' hb' => ?_
      exact hprev b' (List.mem_cons_of_mem b hb')

/-- Two nodes of a ring `0, .., 0` that may be joined differently. -/
structure Cut (before after : List Nat) (a b : Nat) : Prop where
  next_before : a ∉ before
  next_after : a ∉ (b :: after).dropLast
  prev_before : b ∉ (before ++ [a]).tail
  prev_after : b ∉ after

theorem cut_of_nodup {ring before after : List Nat} {a b : Nat} (hring : 0 :: ring ++ [0] = before ++ a :: b :: after)
    (h : (0 :: ring).Nodup) : Cut before after a b := by
  have hlast : (before ++ a :: (b :: after).dropLast).Nodup := by
    have hdrop := congrArg List.dropLast hring
    rw [List.dropLast_concat, List.dropLast_append_cons, List.dropLast_cons_of_ne_nil (List.cons_ne_nil b after)] at hdrop
    rw [← hdrop]
    exact h
  have htail : (before ++ a :: b :: after).tail.Nodup := by
    rw [← hring]
    show (ring ++ [0]).Nodup
    exact (List.perm_append_singleton 0 ring).nodup_iff.mpr h
  have hafter : b ∉ after := by
    cases before with
    | nil => exact (List.nodup_cons.mp htail).1
    | cons x before =>
      have htail : (before ++ a :: b :: after).Nodup := htail
      exact (List.nodup_cons.mp (List.nodup_cons.mp (List.nodup_append.mp htail).2.1).2).1
  refine ⟨?_, (List.nodup_cons.mp (List.nodup_append.mp hlast).2.1).1, ?_, hafter⟩
  · exact fun ha => (List.nodup_append.mp hlast).2.2 a ha a (List.mem_cons_self ..) rfl
  · cases before with
    | nil => exact List.not_mem_nil
    | cons x before =>
      have htail : (before ++ [a] ++ b :: after).Nodup := by
        rw [List.append_assoc]
        exact htail
      exact fun hb => (List.nodup_append.mp htail).2.2 b hb b (List.mem_cons_self ..) rfl

section
variable {cells : Nat → Cell κ} {before after : List Nat} {a b : Nat}

/-- The two parts of a ring do not notice how they are joined. -/
theorem chains_joined (hcut : Cut before after a b) (hbefore : (before ++ [a]).IsChain (Neighbours cells))
    (hafter : (b :: after).IsChain (Neighbours cells)) (next prev : Nat) :
    (before ++ [a]).IsChain (Neighbours (setPrev (setNext cells a next) b prev)) ∧
      (b :: after).IsChain (Neighbours (setPrev (setNext cells a next) b prev)) := by
  constructor
  · refine chain_frame hbefore (fun x hx => ?_) fun x hx => ?_
    · rw [List.dropLast_concat] at hx
      rw [setPrev_next, setNext_next_of_ne (ne_of_mem_of_not_mem hx hcut.next_before)]
    · rw [setPrev_prev_of_ne (ne_of_mem_of_not_mem hx hcut.prev_before), setNext_prev]
  · refine chain_frame hafter (fun x hx => ?_) fun x hx => ?_
    · rw [setPrev_next, setNext_next_of_ne (ne_of_mem_of_not_mem hx hcut.next_after)]
    · rw [setPrev_prev_of_ne (ne_of_mem_of_not_mem hx hcut.prev_after), setNext_prev]

end

end

/-! ## The keys of a ring -/

/-- The ring goes through these nodes, with these keys. -/
structure Nodes (l : Linked κ) (nodes : List (κ × Nat)) : Prop where
  ring : (0 :: nodes.map Prod.snd ++ [0]).IsChain (Neighbours l.cells)
  nodup : (0 :: nodes.map Prod.snd).Nodup
  key : ∀ x ∈ nodes, (l.cells x.2).key = some x.1
  keys : (nodes.map Prod.fst).Nodup
  map : ∀ k a, l.map.get k = some a ↔ (k, a) ∈ nodes
  fresh : ∀ a ∈ 0 :: nodes.map Prod.snd, a < l.fresh

/-- The list is `keys`. -/
def Lists (l : Linked κ) (keys : List κ) : Prop := ∃ nodes, Nodes l nodes ∧ nodes.map Prod.fst = keys

theorem lists_init : Lists ({} : Linked κ) [] := by
  refine ⟨[], ⟨?_, by simp, by simp, by simp, fun k a => ?_, by simp⟩, rfl⟩
  · exact List.isChain_pair.mpr ⟨rfl, rfl⟩
  · have hnone : ({} : Linked κ).map.get k = none := Dict.get_empty k
    rw [hnone]
    simp

section
variable {l : Linked κ} {before after : List (κ × Nat)} {pre suf : List Nat} {p n : Nat} {k : κ}

theorem Nodes.remove {a : Nat} (h : Nodes l (before ++ (k, a) :: after)) (hp : 0 :: before.map Prod.snd = pre ++ [p])
    (hn : after.map Prod.snd ++ [0] = n :: suf) : ∃ l', l._remove_key k = .ok l' ∧ Nodes l' (before ++ after) := by
  have hring : 0 :: (before ++ (k, a) :: after).map Prod.snd ++ [0] = pre ++ p :: a :: n :: suf := by
    rw [List.map_append, List.map_cons, ← List.cons_append, hp, List.append_assoc, List.cons_append, hn, List.append_assoc]
    rfl
  have hring' : 0 :: (before ++ after).map Prod.snd ++ [0] = pre ++ p :: n :: suf := by
    rw [List.map_append, ← List.cons_append, hp, List.append_assoc, hn, List.append_assoc]
    rfl
  have hsub : ((before ++ after).map Prod.snd).Sublist ((before ++ (k, a) :: after).map Prod.snd) :=
    ((List.sublist_cons_self (k, a) after).append_left before).map _
  have hcut := cut_of_nodup hring' (h.nodup.sublist (hsub.cons_cons 0))
  have hchain := h.ring
  rw [hring, List.isChain_append_cons_cons, List.isChain_cons_cons] at hchain
  obtain ⟨hpre, hpa, han, hsuf⟩ := hchain
  have hmap : l.map.get k = some a := (h.map k a).mpr (by simp)
  have hkeys := h.keys
  rw [List.map_append, List.map_cons, List.nodup_middle] at hkeys
  obtain ⟨hk, hkeys⟩ := List.nodup_cons.mp hkeys
  obtain ⟨hpre', hsuf'⟩ := chains_joined hcut hpre hsuf n p
  refine ⟨{ l with
    cells := setPrev (setNext l.cells p n) n p
    map := l.map.erase k }, ?_, ?_, h.nodup.sublist (hsub.cons_cons 0), fun x hx => ?_, ?_, fun k' a' => ?_, fun x hx => ?_⟩
  · unfold _remove_key
    rw [hmap]
    simp only [hpa.2, han.1]
  · rw [hring']
    refine List.isChain_append_cons_cons.mpr ⟨hpre', ⟨?_, ?_⟩, hsuf'⟩
    · rw [setPrev_next, setNext_next]
    · rw [setPrev_prev]
  · rw [setPrev_key, setNext_key]
    exact h.key x (List.perm_middle.mem_iff.mpr (List.mem_cons_of_mem _ hx))
  · rw [List.map_append]
    exact hkeys
  · show Dict.get (l.map.erase k) k' = some a' ↔ _
    rw [Dict.get_erase_some, h.map]
    constructor
    · intro hk'
      obtain ⟨hne, hmem⟩ := hk'
      rcases List.mem_cons.mp (List.perm_middle.mem_iff.mp hmem) with heq | hmem
      · exact absurd (congrArg Prod.fst heq) hne
      · exact hmem
    · intro hmem
      refine ⟨fun hk' => hk ?_, ?_⟩
      · rw [← List.map_append, ← hk']
        exact List.mem_map_of_mem (a := (k', a')) (f := Prod.fst) hmem
      · exact List.perm_middle.mem_iff.mpr (List.mem_cons_of_mem _ hmem)
  · exact h.fresh x ((hsub.cons_cons 0).subset hx)

theorem Nodes.link (h : Nodes l (before ++ after)) (hk : k ∉ (before ++ after).map Prod.fst)
    (hp : 0 :: before.map Prod.snd = pre ++ [p]) (hn : after.map Prod.snd ++ [0] = n :: suf) :
    Nodes (l.link k p n) (before ++ (k, l.fresh) :: after) := by
  have hring : 0 :: (before ++ after).map Prod.snd ++ [0] = pre ++ p :: n :: suf := by
    rw [List.map_append, ← List.cons_append, hp, List.append_assoc, hn, List.append_assoc]
    rfl
  have hring' : 0 :: (before ++ (k, l.fresh) :: after).map Prod.snd ++ [0] = pre ++ p :: l.fresh :: n :: suf := by
    rw [List.map_append, List.map_cons, ← List.cons_append, hp, List.append_assoc, List.cons_append, hn, List.append_assoc]
    rfl
  have hcut := cut_of_nodup hring h.nodup
  -- the new node is none of the old ones
  have hnew : ∀ x ∈ pre ++ p :: n :: suf, x ≠ l.fresh := by
    intro x hx
    rw [← hring] at hx
    rcases List.mem_append.mp hx with hx | hx
    · exact Nat.ne_of_lt (h.fresh x hx)
    · rw [List.mem_singleton.mp hx]
      exact Nat.ne_of_lt (h.fresh 0 (List.mem_cons_self ..))
  have hold : ∀ x, x ≠ l.fresh → Function.update l.cells l.fresh ⟨p, n, some k⟩ x = l.cells x :=
    fun x hx => Function.update_of_ne hx ..
  have hchain := h.ring
  rw [hring, List.isChain_append_cons_cons] at hchain
  obtain ⟨hpre, hpn, hsuf⟩ := hchain
  have hpre₀ : (pre ++ [p]).IsChain (Neighbours (Function.update l.cells l.fresh ⟨p, n, some k⟩)) := by
    have hin : ∀ x ∈ pre ++ [p], x ≠ l.fresh := fun x hx => hnew x (by
      rcases List.mem_append.mp hx with hx | hx
      · exact List.mem_append_left _ hx
      · exact List.mem_append_right _ (by rw [List.mem_singleton.mp hx]; exact List.mem_cons_self ..))
    refine chain_frame hpre (fun x hx => ?_) fun x hx => ?_
    · rw [hold x (hin x (List.dropLast_subset _ hx))]
    · rw [hold x (hin x (List.mem_of_mem_tail hx))]
  have hsuf₀ : (n :: suf).IsChain (Neighbours (Function.update l.cells l.fresh ⟨p, n, some k⟩)) := by
    have hin : ∀ x ∈ n :: suf, x ≠ l.fresh :=
      fun x hx => hnew x (List.mem_append_right _ (List.mem_cons_of_mem p hx))
    refine chain_frame hsuf (fun x hx => ?_) fun x hx => ?_
    · rw [hold x (hin x (List.dropLast_subset _ hx))]
    · rw [hold x (hin x (List.mem_of_mem_tail hx))]
  obtain ⟨hpre', hsuf'⟩ := chains_joined hcut hpre₀ hsuf₀ l.fresh l.fresh
  have hfp : l.fresh ≠ p := (hnew p (by simp)).symm
  have hfn : l.fresh ≠ n := (hnew n (by simp)).symm
  refine ⟨?_, ?_, fun x hx => ?_, ?_, fun k' a' => ?_, fun x hx => ?_⟩
  · rw [hring']
    refine List.isChain_append_cons_cons.mpr ⟨hpre', ⟨?_, ?_⟩, List.isChain_cons_cons.mpr ⟨⟨?_, ?_⟩, hsuf'⟩⟩
    · show (setPrev _ n l.fresh p).next = l.fresh
      rw [setPrev_next, setNext_next]
    · show (setPrev _ n l.fresh l.fresh).prev = p
      rw [setPrev_prev_of_ne hfn, setNext_prev, Function.update_self]
    · show (setPrev _ n l.fresh l.fresh).next = n
      rw [setPrev_next, setNext_next_of_ne hfp, Function.update_self]
    · show (setPrev _ n l.fresh n).prev = l.fresh
      rw [setPrev_prev]
  · have hperm : (0 :: (before ++ (k, l.fresh) :: after).map Prod.snd).Perm
        (l.fresh :: 0 :: (before ++ after).map Prod.snd) := by
      rw [List.map_append, List.map_cons, List.map_append]
      exact (List.perm_middle.cons 0).trans (List.Perm.swap ..)
    rw [hperm.nodup_iff, List.nodup_cons]
    exact ⟨fun hmem => Nat.lt_irrefl _ (h.fresh l.fresh hmem), h.nodup⟩
  · show (setPrev _ n l.fresh x.2).key = some x.1
    rw [setPrev_key, setNext_key]
    rcases List.mem_cons.mp (List.perm_middle.mem_iff.mp hx) with rfl | hx'
    · rw [Function.update_self]
    · have hlt := h.fresh x.2 (List.mem_cons_of_mem 0 (List.mem_map_of_mem (f := Prod.snd) hx'))
      rw [hold x.2 (Nat.ne_of_lt hlt), h.key x hx']
  · rw [List.map_append, List.map_cons, List.nodup_middle, List.nodup_cons, ← List.map_append]
    exact ⟨hk, h.keys⟩
  · show Dict.get (l.map.insert k l.fresh) k' = some a' ↔ _
    rw [Dict.get_insert_some, h.map]
    rw [List.perm_middle.mem_iff, List.mem_cons]
    constructor
    · intro hk'
      rcases hk' with ⟨rfl, rfl⟩ | ⟨_, hmem⟩
      · exact Or.inl rfl
      · exact Or.inr hmem
    · intro hk'
      rcases hk' with heq | hmem
      · exact Or.inl ⟨congrArg Prod.fst heq, congrArg Prod.snd heq⟩
      · refine Or.inr ⟨fun he => hk ?_, hmem⟩
        rw [← he]
        exact List.mem_map_of_mem (a := (k', a')) (f := Prod.fst) hmem
  · show x < l.fresh + 1
    rw [List.map_append, List.map_cons, ← List.cons_append] at hx
    rcases List.mem_cons.mp (List.perm_middle.mem_iff.mp hx) with rfl | hx
    · exact Nat.lt_succ_self _
    · rw [List.cons_append, ← List.map_append] at hx
      exact Nat.lt_succ_of_lt (h.fresh x hx)

end

section
variable {l : Linked κ} {keys : List κ} {k : κ}

theorem Lists.mem_map (h : Lists l keys) : k ∈ l.map ↔ k ∈ keys := by
  obtain ⟨nodes, h, rfl⟩ := h
  rw [Dict.mem_iff_get, List.mem_map]
  constructor
  · intro hk
    obtain ⟨a, ha⟩ := hk
    exact ⟨(k, a), (h.map k a).mp ha, rfl⟩
  · intro hk
    obtain ⟨x, hx, rfl⟩ := hk
    exact ⟨x.2, (h.map x.1 x.2).mpr hx⟩

theorem Lists.nodup (h : Lists l keys) : keys.Nodup := by
  obtain ⟨nodes, h, rfl⟩ := h
  exact h.keys

theorem exists_last_node (xs : List Nat) : ∃ pre p, 0 :: xs = pre ++ [p] :=
  ⟨_, _, (List.dropLast_append_getLast (List.cons_ne_nil 0 xs)).symm⟩

theorem exists_first_node (xs : List Nat) : ∃ n suf, xs ++ [0] = n :: suf :=
  List.exists_cons_of_ne_nil (List.append_ne_nil_of_right_ne_nil xs (List.cons_ne_nil 0 []))

/-- **Removing a key** takes it out of the list. -/
theorem Lists.remove (h : Lists l keys) (hk : k ∈ keys) : ∃ l', l._remove_key k = .ok l' ∧ Lists l' (keys.erase k) := by
  obtain ⟨nodes, h, rfl⟩ := h
  obtain ⟨x, hx, rfl⟩ := List.mem_map.mp hk
  obtain ⟨before, after, rfl⟩ := List.append_of_mem hx
  obtain ⟨pre, p, hp⟩ := exists_last_node (before.map Prod.snd)
  obtain ⟨n, suf, hn⟩ := exists_first_node (after.map Prod.snd)
  have hnot : x.1 ∉ before.map Prod.fst := by
    have hkeys := h.keys
    rw [List.map_append, List.map_cons, List.nodup_middle, List.nodup_cons] at hkeys
    exact fun hmem => hkeys.1 (List.mem_append_left _ hmem)
  obtain ⟨l', hl', h'⟩ := h.remove hp hn
  refine ⟨l', hl', before ++ after, h', ?_⟩
  rw [List.map_append, List.map_append, List.map_cons, List.erase_append_right _ hnot, List.erase_cons_head]

theorem Lists.append (h : Lists l keys) (hk : k ∉ keys) : Lists (l._append_key k) (keys ++ [k]) := by
  obtain ⟨nodes, h, rfl⟩ := h
  obtain ⟨pre, p, hp⟩ := exists_last_node (nodes.map Prod.snd)
  have hlast : (l.cells 0).prev = p := by
    have hring := h.ring
    rw [hp, List.append_assoc] at hring
    exact (List.isChain_append_cons_cons.mp hring).2.1.2
  have hnodes : Nodes l (nodes ++ []) := by rwa [List.append_nil]
  refine ⟨nodes ++ [(k, l.fresh)], ?_, by rw [List.map_append]; rfl⟩
  unfold _append_key
  rw [hlast]
  exact hnodes.link (by rwa [List.append_nil]) hp rfl

theorem Lists.prepend (h : Lists l keys) (hk : k ∉ keys) : Lists (l._prepend_key k) (k :: keys) := by
  obtain ⟨nodes, h, rfl⟩ := h
  obtain ⟨n, suf, hn⟩ := exists_first_node (nodes.map Prod.snd)
  have hfirst : (l.cells 0).next = n := by
    have hring := h.ring
    rw [List.cons_append, hn] at hring
    exact (List.isChain_cons_cons.mp hring).1.1
  refine ⟨(k, l.fresh) :: nodes, ?_, rfl⟩
  unfold _prepend_key
  rw [hfirst]
  have hnil : Nodes l ([] ++ nodes) := h
  exact hnil.link hk (List.nil_append _).symm hn

theorem Lists.move_last (h : Lists l keys) (hk : k ∈ keys) :
    ∃ l', l._move_last_key k = .ok l' ∧ Lists l' (keys.erase k ++ [k]) := by
  obtain ⟨l', hl', h'⟩ := h.remove hk
  refine ⟨l'._append_key k, ?_, h'.append (h.nodup.not_mem_erase)⟩
  unfold _move_last_key
  rw [hl']
  rfl

theorem Lists.move_front (h : Lists l keys) (hk : k ∈ keys) :
    ∃ l', l._move_front_key k = .ok l' ∧ Lists l' (k :: keys.erase k) := by
  obtain ⟨l', hl', h'⟩ := h.remove hk
  refine ⟨l'._prepend_key k, ?_, h'.prepend (h.nodup.not_mem_erase)⟩
  unfold _move_front_key
  rw [hl']
  rfl

omit [DecidableEq κ] in
theorem walk_nodes {cells : Nat → Cell κ} : ∀ (nodes : List (κ × Nat)) (curr fuel : Nat) (rest : List Nat),
    nodes.map Prod.snd ++ [0] = curr :: rest → (nodes.map Prod.snd ++ [0]).IsChain (Neighbours cells) →
    (∀ x ∈ nodes, x.2 ≠ 0 ∧ (cells x.2).key = some x.1) → nodes.length ≤ fuel →
    walk cells fuel curr = some (nodes.map Prod.fst)
  | [], curr, fuel, rest, hcurr, _, _, _ => by
    cases hcurr
    cases fuel <;> rfl
  | x :: nodes, curr, fuel, rest, hcurr, hchain, hnodes, hfuel => by
    have hhead : x.2 = curr := (List.cons.inj hcurr).1
    subst hhead
    obtain ⟨hx, hkey⟩ := hnodes x (List.mem_cons_self ..)
    obtain ⟨a, ha⟩ := Nat.exists_eq_succ_of_ne_zero hx
    obtain ⟨fuel, rfl⟩ : ∃ fuel', fuel = fuel' + 1 := ⟨fuel - 1, by rw [List.length_cons] at hfuel; omega⟩
    obtain ⟨n, suf, hn⟩ := exists_first_node (nodes.map Prod.snd)
    have hchain' := hchain
    rw [List.map_cons, List.cons_append, hn, List.isChain_cons_cons] at hchain'
    have hrest : (nodes.map Prod.snd ++ [0]).IsChain (Neighbours cells) := by
      rw [hn]
      exact hchain'.2
    have ih := walk_nodes nodes n fuel suf hn hrest (fun y hy => hnodes y (List.mem_cons_of_mem x hy))
      (by rw [List.length_cons] at hfuel; omega)
    have hnext : (cells x.2).next = n := hchain'.1.1
    rw [ha] at hnext hkey ⊢
    unfold walk
    rw [hnext, ih, hkey]
    rfl

/-- **Going round the ring** ends, and gives the keys. -/
theorem Lists.iter (h : Lists l keys) : l.iter = some keys := by
  obtain ⟨nodes, h, rfl⟩ := h
  obtain ⟨n, suf, hn⟩ := exists_first_node (nodes.map Prod.snd)
  have hring := h.ring
  rw [List.cons_append, hn, List.isChain_cons_cons] at hring
  have hchain : (nodes.map Prod.snd ++ [0]).IsChain (Neighbours l.cells) := by
    rw [hn]
    exact hring.2
  have hzero := (List.nodup_cons.mp h.nodup).1
  have hlen : nodes.length ≤ l.map.keys.length := by
    have hsub : nodes.map Prod.fst ⊆ l.map.keys := by
      intro k hk
      obtain ⟨x, hx, rfl⟩ := List.mem_map.mp hk
      exact AList.mem_keys.mp (Dict.mem_iff_get.mpr ⟨x.2, (h.map x.1 x.2).mpr hx⟩)
    have := (List.subperm_of_subset h.keys hsub).length_le
    rwa [List.length_map] at this
  unfold Linked.iter
  rw [hring.1.1]
  refine walk_nodes nodes n _ suf hn hchain (fun x hx => ⟨fun hx0 => hzero ?_, h.key x hx⟩) hlen
  rw [← hx0]
  exact List.mem_map_of_mem (f := Prod.snd) hx

end

end Linked

end Python
