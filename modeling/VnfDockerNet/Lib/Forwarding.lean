import Mathlib.Logic.Function.Basic
import VnfDockerNet.Lib.Networkx

/-!
# Forwarding tables

A table gives a node its last rule: the hop it takes and whatever else the rule
says. Two ways to keep tables free of loops while rules overwrite each other: a
rank that falls along every rule, and rules that are only installed as whole
paths that leave at their ends.
-/

namespace Forwarding

open Networkx

inductive Hop (ν : Type) where
  | next (v : ν)
  | leave
  deriving DecidableEq, Repr

abbrev Table (ν α : Type) := ν → Option (Hop ν × α)

variable {ν α : Type}

/-- The rule of `u` sends to `v`. -/
def Leads (T : Table ν α) (u v : ν) : Prop := ∃ a, T u = some (.next v, a)

/-- Following the rules from `u` visits no node twice and stops at `t`. -/
def Follows (T : Table ν α) (u t : ν) : Prop :=
  ∃ p, IsPath (Leads T) u t p ∧ p.Nodup ∧ ∀ v, ¬ Leads T t v

/-- A rank that falls along every rule rules out loops. -/
theorem follows_of_rank {T : Table ν α} (rank : ν → ℕ) (hfall : ∀ u v, Leads T u v → rank v < rank u) (u : ν) :
    ∃ t, Follows T u t := by
  have hall : ∀ n u, rank u ≤ n → ∃ t p, IsPath (Leads T) u t p ∧ (∀ w ∈ p, rank w ≤ rank u) ∧ p.Nodup ∧
      ∀ v, ¬ Leads T t v := by
    intro n
    induction n with
    | zero =>
      intro u hu
      have hstop : ∀ v, ¬ Leads T u v := fun v hv => by
        have := hfall u v hv
        omega
      exact ⟨u, [u], ⟨.singleton u, rfl, rfl⟩, by simp, List.nodup_singleton u, hstop⟩
    | succ n ih =>
      intro u hu
      by_cases hstop : ∀ v, ¬ Leads T u v
      · exact ⟨u, [u], ⟨.singleton u, rfl, rfl⟩, by simp, List.nodup_singleton u, hstop⟩
      · obtain ⟨v, hv⟩ := not_forall_not.mp hstop
        have hlt := hfall u v hv
        obtain ⟨t, p, hp, hle, hnodup, ht⟩ := ih v (by omega)
        -- the rest of the way stays below `u`
        have hnot : u ∉ p := fun hu => by
          have := hle u hu
          omega
        refine ⟨t, u :: p, ⟨?_, rfl, ?_⟩, fun w hw => ?_, List.nodup_cons.mpr ⟨hnot, hnodup⟩, ht⟩
        · refine hp.chain.cons fun y hy => ?_
          rw [hp.head] at hy
          cases hy
          exact hv
        · have := hp.last
          cases p with
          | nil => cases this
          | cons a p => rw [List.getLast?_cons_cons]; exact this
        · rcases List.mem_cons.mp hw with rfl | hw
          · exact le_rfl
          · exact (hle w hw).trans hlt.le
  obtain ⟨t, p, hp, _, hnodup, ht⟩ := hall (rank u) u le_rfl
  exact ⟨t, p, hp, hnodup, ht⟩

/-! ## Installing rules -/

section
variable {β : Type} [DecidableEq ν]

/-- A rule replaces the one that the node has. -/
def installAll (T : ν → Option β) (rules : List (ν × β)) : ν → Option β :=
  rules.foldl (fun T r => Function.update T r.1 (some r.2)) T

theorem installAll_of_notMem : ∀ {rules : List (ν × β)} {T : ν → Option β} {u : ν}, (∀ r ∈ rules, r.1 ≠ u) →
    installAll T rules u = T u
  | [], _, _, _ => rfl
  | r :: rules, T, u, h => by
    show installAll (Function.update T r.1 (some r.2)) rules u = T u
    rw [installAll_of_notMem fun r' hr' => h r' (List.mem_cons_of_mem _ hr'),
      Function.update_of_ne (h r List.mem_cons_self).symm]

theorem installAll_of_mem : ∀ {rules : List (ν × β)} {T : ν → Option β} {u : ν} {x : β},
    (rules.map Prod.fst).Nodup → (u, x) ∈ rules → installAll T rules u = some x
  | r :: rules, T, u, x, hnodup, hmem => by
    obtain ⟨hr, hnodup⟩ := List.nodup_cons.mp hnodup
    show installAll (Function.update T r.1 (some r.2)) rules u = some x
    rcases List.mem_cons.mp hmem with rfl | hmem
    · rw [installAll_of_notMem, Function.update_self]
      intro r' hr' he
      exact hr (List.mem_map.mpr ⟨r', hr', he⟩)
    · exact installAll_of_mem hnodup hmem

theorem installAll_cases {rules : List (ν × β)} : ∀ {T : ν → Option β} {u : ν} {x : β},
    installAll T rules u = some x → (u, x) ∈ rules ∨ T u = some x := by
  induction rules with
  | nil => exact fun h => Or.inr h
  | cons r rules ih =>
    intro T u x h
    have h : installAll (Function.update T r.1 (some r.2)) rules u = some x := h
    rcases ih h with hmem | hold
    · exact Or.inl (List.mem_cons_of_mem _ hmem)
    · by_cases hu : u = r.1
      · subst hu
        rw [Function.update_self] at hold
        cases hold
        exact Or.inl List.mem_cons_self
      · rw [Function.update_of_ne hu] at hold
        exact Or.inr hold

theorem installAll_forall {P : ν → β → Prop} {T : ν → Option β} {rules : List (ν × β)}
    (hT : ∀ u x, T u = some x → P u x) (hrules : ∀ r ∈ rules, P r.1 r.2) :
    ∀ u x, installAll T rules u = some x → P u x := by
  intro u x h
  rcases installAll_cases h with hmem | hold
  · exact hrules _ hmem
  · exact hT u x hold

end

/-! ## Whole paths -/

/-- The hops of the nodes of a path, which leaves at its last node. -/
def pathHops : List ν → List (ν × Hop ν)
  | [] => []
  | [u] => [(u, .leave)]
  | u :: v :: rest => (u, .next v) :: pathHops (v :: rest)

theorem pathHops_fst : ∀ p : List ν, (pathHops p).map Prod.fst = p
  | [] => rfl
  | [_] => rfl
  | u :: v :: rest => by
    unfold pathHops
    rw [List.map_cons, pathHops_fst (v :: rest)]

theorem mem_pathHops_next : ∀ {p : List ν} {u v : ν}, (u, Hop.next v) ∈ pathHops p ↔ ∃ l₁ l₂, p = l₁ ++ u :: v :: l₂
  | [], u, v => by
    simp [pathHops]
  | [w], u, v => by
    constructor
    · intro h
      simp [pathHops] at h
    · intro h
      obtain ⟨l₁, l₂, h⟩ := h
      have hlen := congrArg List.length h
      simp only [List.length_append, List.length_cons, List.length_nil] at hlen
      omega
  | a :: b :: rest, u, v => by
    unfold pathHops
    rw [List.mem_cons, mem_pathHops_next]
    constructor
    · intro h
      rcases h with h | ⟨l₁, l₂, h⟩
      · cases h
        exact ⟨[], rest, rfl⟩
      · exact ⟨a :: l₁, l₂, by rw [h]; rfl⟩
    · intro h
      obtain ⟨l₁, l₂, h⟩ := h
      cases l₁ with
      | nil =>
        cases h
        exact Or.inl rfl
      | cons c l₁ =>
        rw [List.cons_append] at h
        injection h with _ h
        exact Or.inr ⟨l₁, l₂, h⟩

theorem leave_mem_pathHops : ∀ {p : List ν} {t : ν}, p.getLast? = some t → (t, Hop.leave) ∈ pathHops p
  | [u], t, h => by
    cases h
    exact List.mem_singleton.mpr rfl
  | u :: v :: rest, t, h => by
    rw [List.getLast?_cons_cons] at h
    exact List.mem_cons_of_mem _ (leave_mem_pathHops h)

theorem fst_of_pathRules {p : List ν} {rules : List (ν × Hop ν × α)}
    (hrules : rules.map (fun r => (r.1, r.2.1)) = pathHops p) : rules.map Prod.fst = p := by
  rw [← pathHops_fst p, ← hrules, List.map_map]
  rfl

/-- A list that meets another splits at the first meeting. -/
theorem exists_first_common {p : List ν} : ∀ {q : List ν}, (∃ x ∈ q, x ∈ p) →
    ∃ q₁ x q₂, q = q₁ ++ x :: q₂ ∧ x ∈ p ∧ ∀ y ∈ q₁, y ∉ p
  | [], h => by
    obtain ⟨x, hx, _⟩ := h
    cases hx
  | y :: q, h => by
    by_cases hy : y ∈ p
    · exact ⟨[], y, q, rfl, hy, fun z hz => absurd hz List.not_mem_nil⟩
    · obtain ⟨x, hx, hxp⟩ := h
      have hx : x ∈ q := by
        rcases List.mem_cons.mp hx with rfl | hx
        · exact absurd hxp hy
        · exact hx
      obtain ⟨q₁, x, q₂, rfl, hxp, hq₁⟩ := exists_first_common ⟨x, hx, hxp⟩
      refine ⟨y :: q₁, x, q₂, rfl, hxp, fun z hz => ?_⟩
      rcases List.mem_cons.mp hz with rfl | hz
      · exact hy
      · exact hq₁ z hz

/-- Every rule is followed to a node that sends out. -/
def Exits (T : Table ν α) : Prop := ∀ u x, T u = some x → ∃ t a, Follows T u t ∧ T t = some (.leave, a)

theorem exits_empty : Exits (fun _ => none : Table ν α) := by
  intro u x h
  cases h

theorem not_leads_of_leave {T : Table ν α} {t : ν} {a : α} (h : T t = some (.leave, a)) : ∀ v, ¬ Leads T t v := by
  intro v hv
  obtain ⟨b, hb⟩ := hv
  rw [h] at hb
  cases hb

section
variable [DecidableEq ν] {T : Table ν α} {p : List ν} {rules : List (ν × Hop ν × α)} {u t : ν}
  (hrules : rules.map (fun r => (r.1, r.2.1)) = pathHops p) (hp : p.Nodup)

include hrules in
theorem installAll_off_path (h : u ∉ p) : installAll T rules u = T u := by
  apply installAll_of_notMem
  intro r hr he
  rw [← fst_of_pathRules hrules] at h
  exact h (List.mem_map.mpr ⟨r, hr, he⟩)

include hrules hp in
theorem installAll_on_path {hop : Hop ν} (h : (u, hop) ∈ pathHops p) : ∃ a, installAll T rules u = some (hop, a) := by
  rw [← hrules] at h
  obtain ⟨⟨w, x, a⟩, hr, he⟩ := List.mem_map.mp h
  cases he
  refine ⟨a, installAll_of_mem ?_ hr⟩
  rw [fst_of_pathRules hrules]
  exact hp

include hrules hp in
/-- From a node of the path the rules follow the path. -/
theorem isPath_installed {l₁ l₂ : List ν} (hsplit : p = l₁ ++ u :: l₂) (ht : p.getLast? = some t) :
    IsPath (Leads (installAll T rules)) u t (u :: l₂) := by
  have hchain : p.IsChain (Leads (installAll T rules)) := by
    rw [List.isChain_iff_forall_rel_of_append_cons_cons]
    intro a b m₁ m₂ hm
    exact installAll_on_path hrules hp (mem_pathHops_next.mpr ⟨m₁, m₂, hm⟩)
  have hall : IsPath (Leads (installAll T rules)) (p.head?.getD u) t p := by
    refine ⟨hchain, ?_, ht⟩
    subst hsplit
    cases l₁ <;> rfl
  exact hall.from_node hsplit

include hrules hp in
/-- **A whole path absorbs every older tail that runs into it.** -/
theorem exits_installAll (hne : p ≠ []) (h : Exits T) : Exits (installAll T rules) := by
  obtain ⟨e, he⟩ : ∃ e, p.getLast? = some e := ⟨_, List.getLast?_eq_some_getLast hne⟩
  obtain ⟨a, hleave⟩ := installAll_on_path (T := T) hrules hp (leave_mem_pathHops he)
  have hstop := not_leads_of_leave hleave
  intro u x hu
  by_cases hup : u ∈ p
  · obtain ⟨l₁, l₂, hsplit⟩ := List.append_of_mem hup
    refine ⟨e, a, ⟨u :: l₂, isPath_installed hrules hp hsplit he, ?_, hstop⟩, hleave⟩
    rw [hsplit] at hp
    exact (List.nodup_append.mp hp).2.1
  · rw [installAll_off_path hrules hup] at hu
    obtain ⟨t, b, ⟨q, hq, hnodup, _⟩, ht⟩ := h u x hu
    have hkeep : ∀ v w, v ∉ p → Leads T v w → Leads (installAll T rules) v w := by
      intro v w hv hlead
      unfold Leads
      rw [installAll_off_path hrules hv]
      exact hlead
    by_cases hmeet : ∃ y ∈ q, y ∈ p
    · -- the old way turns into the new path where it meets it first
      obtain ⟨q₁, y, q₂, rfl, hyp, hq₁⟩ := exists_first_common hmeet
      obtain ⟨l₁, l₂, hsplit⟩ := List.append_of_mem hyp
      have hrest := isPath_installed (T := T) hrules hp hsplit he
      have hpre : (q₁ ++ [y]).IsChain (Leads T) := by
        have := hq.chain
        rw [List.append_cons] at this
        exact this.left_of_append
      have hnew : (q₁ ++ y :: l₂).IsChain (Leads (installAll T rules)) := by
        refine List.isChain_append.mpr ⟨?_, hrest.chain, fun v hv w hw => ?_⟩
        · refine hpre.left_of_append.imp_of_mem_imp fun v w hv _ => ?_
          exact hkeep v w (hq₁ v hv)
        · cases hw
          refine hkeep v y (hq₁ v (List.mem_of_getLast? hv)) ?_
          exact (List.isChain_append.mp hpre).2.2 v hv y rfl
      refine ⟨e, a, ⟨q₁ ++ y :: l₂, ⟨hnew, ?_, ?_⟩, ?_, hstop⟩, hleave⟩
      · have := hq.head
        cases q₁ with
        | nil => exact this
        | cons c q₁ => exact this
      · rw [List.getLast?_append_of_ne_nil _ (by simp)]
        exact hrest.last
      · rw [hsplit] at hp
        refine List.nodup_append.mpr ⟨(List.nodup_append.mp hnodup).1, (List.nodup_append.mp hp).2.1, fun v hv w hw => ?_⟩
        intro hvw
        subst hvw
        refine hq₁ v hv ?_
        rw [hsplit]
        exact List.mem_append_right _ hw
    · have hoff : ∀ y ∈ q, y ∉ p := fun y hy hyp => hmeet ⟨y, hy, hyp⟩
      have htp : t ∉ p := hoff t (List.mem_of_getLast? hq.last)
      rw [← installAll_off_path (T := T) hrules htp] at ht
      refine ⟨t, b, ⟨q, ⟨?_, hq.head, hq.last⟩, hnodup, not_leads_of_leave ht⟩, ht⟩
      exact hq.chain.imp_of_mem_imp fun v w hv _ => hkeep v w (hoff v hv)

end

end Forwarding
