import VnfDockerNet.StatsSound

/-!
# Aggregation is grouping

The flows seen so far are grouped by their matches without `in_port`, and the
aggregated flows are one record for each group, in the order of their first flows.
A further flow either ends the group of its match or starts one.
-/

namespace VnfDockerNet

namespace FlowStats

/-! ## First appearances -/

section
variable {α : Type} [DecidableEq α]

theorem eraseDups_concat (l : List α) (a : α) : (l ++ [a]).eraseDups = if a ∈ l then l.eraseDups else l.eraseDups ++ [a] := by
  rw [List.eraseDups_append]
  by_cases h : a ∈ l
  · simp [List.removeAll, h]
  · simp [List.removeAll, h, List.eraseDups_cons]

theorem nodup_eraseDups (l : List α) : l.eraseDups.Nodup := by
  induction l using List.reverseRecOn with
  | nil => exact List.nodup_nil
  | append_singleton l a ih =>
    rw [eraseDups_concat]
    by_cases h : a ∈ l
    · rw [if_pos h]
      exact ih
    · rw [if_neg h]
      refine List.nodup_append'.mpr ⟨ih, List.nodup_singleton a, ?_⟩
      rw [List.disjoint_singleton, List.mem_eraseDups]
      exact h

theorem addFirst_singleton (l : List α) (a : α) : addFirst l.eraseDups [a] = (l ++ [a]).eraseDups := by
  unfold addFirst
  rw [eraseDups_concat]
  by_cases h : a ∈ l
  · simp [h]
  · simp [h]

end

variable {V : Type} [DecidableEq V] {flow : FlowStat V} {done aggregated : List (FlowStat V)}

/-! ## Groups -/

def groupKey (flow : FlowStat V) : MatchDict V := flow.flow_match.erase "in_port"

def group (flows : List (FlowStat V)) (m : MatchDict V) : List (FlowStat V) := flows.filter fun f => groupKey f = m

/-- The record of a group: its first flow, with the switches and the controllers of all. -/
def groupRecord (first : FlowStat V) (others : List (FlowStat V)) : FlowStat V :=
  { first with
    flow_match := groupKey first
    switches := ((first :: others).flatMap FlowStat.switches).eraseDups
    controllers := ((first :: others).flatMap FlowStat.controllers).eraseDups }

/-- One record for each match, in the order of first appearance, and it is that of the match's group. -/
structure Grouped (flows aggregated : List (FlowStat V)) : Prop where
  matches_eq : matchesOf aggregated = (flows.map groupKey).eraseDups
  records : ∀ r ∈ aggregated, ∃ first others, group flows r.flow_match = first :: others ∧ r = groupRecord first others

def Single (flow : FlowStat V) : Prop := flow.switches.length = 1 ∧ flow.controllers.length = 1

theorem Grouped.mem_iff (h : Grouped done aggregated) (m : MatchDict V) : m ∈ matchesOf aggregated ↔ m ∈ done.map groupKey := by
  rw [h.matches_eq, List.mem_eraseDups]

theorem Grouped.nodup (h : Grouped done aggregated) : (matchesOf aggregated).Nodup := by
  rw [h.matches_eq]
  exact nodup_eraseDups _

theorem group_concat (done : List (FlowStat V)) (flow : FlowStat V) (m : MatchDict V) :
    group (done ++ [flow]) m = if groupKey flow = m then group done m ++ [flow] else group done m := by
  unfold group
  rw [List.filter_append]
  by_cases h : groupKey flow = m
  · simp [h]
  · simp [h]

theorem Grouped.start (h : Grouped done aggregated) (hone : Single flow) (hnew : groupKey flow ∉ matchesOf aggregated) :
    Grouped (done ++ [flow]) (aggregated ++ [{ flow with flow_match := groupKey flow }]) := by
  have hout : groupKey flow ∉ done.map groupKey := fun hin => hnew ((h.mem_iff _).mpr hin)
  constructor
  · rw [matchesOf_append, h.matches_eq, List.map_append, List.map_singleton, eraseDups_concat, if_neg hout]
    rfl
  · intro r hr
    rw [group_concat]
    rcases List.mem_append.mp hr with hold | hlast
    · have hne : groupKey flow ≠ r.flow_match := fun he => hnew (by rw [he]; exact List.mem_map_of_mem hold)
      rw [if_neg hne]
      exact h.records r hold
    · obtain rfl := List.mem_singleton.mp hlast
      have hnil : group done (groupKey flow) = [] := by
        refine List.filter_eq_nil_iff.mpr fun f hf he => hout ?_
        exact List.mem_map.mpr ⟨f, hf, of_decide_eq_true he⟩
      obtain ⟨sw, hsw⟩ := List.length_eq_one_iff.mp hone.1
      obtain ⟨ctl, hctl⟩ := List.length_eq_one_iff.mp hone.2
      refine ⟨flow, [], by rw [if_pos rfl, hnil]; rfl, ?_⟩
      simp [groupRecord, hsw, hctl, List.eraseDups_cons]

theorem mergeInto_some (flow : FlowStat V) : ∀ {aggregated merged : List (FlowStat V)}, mergeInto flow aggregated = some merged →
    ∃ l₁ e l₂, aggregated = l₁ ++ e :: l₂ ∧ e.flow_match = flow.flow_match ∧
      merged = l₁ ++ { e with
        switches := addFirst e.switches flow.switches
        controllers := addFirst e.controllers flow.controllers } :: l₂
  | [], _, h => by cases h
  | existing :: rest, merged, h => by
    unfold mergeInto at h
    by_cases hsame : existing.flow_match = flow.flow_match
    · rw [if_pos hsame] at h
      cases h
      exact ⟨[], existing, rest, rfl, hsame, rfl⟩
    · rw [if_neg hsame] at h
      obtain ⟨merged', h', rfl⟩ := Option.map_eq_some_iff.mp h
      obtain ⟨l₁, e, l₂, rfl, he, rfl⟩ := mergeInto_some flow h'
      exact ⟨existing :: l₁, e, l₂, rfl, he, rfl⟩

theorem Grouped.merge (h : Grouped done aggregated) (hone : Single flow) {merged : List (FlowStat V)}
    (hmerge : mergeInto { flow with flow_match := groupKey flow } aggregated = some merged) : Grouped (done ++ [flow]) merged := by
  have hmatches := (mergeInto_matches { flow with flow_match := groupKey flow } aggregated).1 merged hmerge
  obtain ⟨l₁, e, l₂, rfl, he, rfl⟩ := mergeInto_some _ hmerge
  have hmem : e ∈ l₁ ++ e :: l₂ := by simp
  have hold : groupKey flow ∈ done.map groupKey := (h.mem_iff _).mp (List.mem_map.mpr ⟨e, hmem, he⟩)
  constructor
  · rw [hmatches, h.matches_eq, List.map_append, List.map_singleton, eraseDups_concat, if_pos hold]
  · intro r hr
    rw [group_concat]
    have hsplit : r = { e with
        switches := addFirst e.switches flow.switches
        controllers := addFirst e.controllers flow.controllers } ∨ r ∈ l₁ ++ l₂ := by
      simpa [or_left_comm] using hr
    rcases hsplit with rfl | hother
    · obtain ⟨first, others, hgroup, hrec⟩ := h.records e hmem
      obtain ⟨sw, hsw⟩ := List.length_eq_one_iff.mp hone.1
      obtain ⟨ctl, hctl⟩ := List.length_eq_one_iff.mp hone.2
      refine ⟨first, others ++ [flow], by rw [if_pos he.symm, hgroup]; rfl, ?_⟩
      rw [hrec, hsw, hctl]
      unfold groupRecord
      rw [addFirst_singleton, addFirst_singleton]
      simp [hsw, hctl]
    · -- no other record has this match
      have hnodup : (matchesOf (e :: (l₁ ++ l₂))).Nodup := by
        refine (List.Perm.map _ ?_).nodup h.nodup
        exact List.perm_middle
      have hne : groupKey flow ≠ r.flow_match := fun hr' =>
        (List.nodup_cons.mp hnodup).1 (List.mem_map.mpr ⟨r, hother, hr'.symm.trans he.symm⟩)
      have hin : r ∈ l₁ ++ e :: l₂ :=
        List.mem_append.mpr ((List.mem_append.mp hother).imp_right (List.mem_cons_of_mem e))
      rw [if_neg hne]
      exact h.records r hin

theorem Grouped.step (h : Grouped done aggregated) (hone : Single flow) : Grouped (done ++ [flow])
    ((mergeInto { flow with flow_match := groupKey flow } aggregated).getD
      (aggregated ++ [{ flow with flow_match := groupKey flow }])) := by
  cases hmerge : mergeInto { flow with flow_match := groupKey flow } aggregated with
  | some merged => exact h.merge hone hmerge
  | none => exact h.start hone ((mergeInto_matches _ aggregated).2 hmerge)

theorem grouped_aggregateFrom : ∀ (flows : List (FlowStat V)) {done aggregated : List (FlowStat V)}, Grouped done aggregated →
    (∀ f ∈ flows, Single f) → Grouped (done ++ flows) (aggregateFrom aggregated flows)
  | [], done, _, h, _ => by
    rw [List.append_nil]
    exact h
  | flow :: flows, done, aggregated, h, hone => by
    obtain ⟨hflow, hflows⟩ := List.forall_mem_cons.mp hone
    have hrest := grouped_aggregateFrom flows (h.step hflow) hflows
    rw [List.append_assoc] at hrest
    exact hrest

/-- **Aggregation is exact grouping**: one record for each match without
`in_port`, in the order of first appearance, and it is the first flow of the match
with the distinct switches and controllers of all, in that order. -/
theorem aggregate_flows_grouped (flows : List (FlowStat V)) (hone : ∀ f ∈ flows, Single f) :
    Grouped flows (aggregate_flows flows) := by
  have hnil : Grouped ([] : List (FlowStat V)) [] := ⟨rfl, fun _ hr => absurd hr List.not_mem_nil⟩
  exact grouped_aggregateFrom flows hnil hone

/-- Two switches with one flow, at different ports, and another flow of the first between them. -/
def groupFlows : List (FlowStat Nat) :=
  [⟨["c1"], [1], Finmap.insert "in_port" 3 (Finmap.singleton "tcp_dst" 80), 100, 1, 100⟩,
    ⟨["c1"], [1], Finmap.singleton "tcp_dst" 443, 7, 1, 7⟩,
    ⟨["c2"], [2], Finmap.insert "in_port" 1 (Finmap.singleton "tcp_dst" 80), 90, 1, 90⟩,
    ⟨["c1"], [1], Finmap.insert "in_port" 4 (Finmap.singleton "tcp_dst" 80), 5, 1, 5⟩]

theorem aggregate_flows_grouped_two : Grouped groupFlows (aggregate_flows groupFlows) :=
  aggregate_flows_grouped groupFlows (by unfold Single; decide)

end FlowStats

end VnfDockerNet
