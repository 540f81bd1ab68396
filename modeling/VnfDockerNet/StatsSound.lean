import VnfDockerNet.FlowStats
import VnfDockerNet.Lib.Runs

/-!
# The published statistics

A round adds the records of matches that were not seen before, and that is all
it does: a record that is there stays the one of the first round with its match.
So every match has one entry and none is lost, but the entries are the latest
ones only as long as nothing changes.
-/

namespace VnfDockerNet

open Runs

namespace FlowStats

variable {V : Type}

def matchesOf (flows : List (FlowStat V)) : List (MatchDict V) := flows.map FlowStat.flow_match

theorem matchesOf_append (flows flows' : List (FlowStat V)) : matchesOf (flows ++ flows') = matchesOf flows ++ matchesOf flows' :=
  List.map_append

theorem mem_matchesOf {flows : List (FlowStat V)} {m : MatchDict V} : m ∈ matchesOf flows ↔ ∃ f ∈ flows, f.flow_match = m :=
  List.mem_map

theorem eq_of_same_match {store : List (FlowStat V)} {e f : FlowStat V} (h : (matchesOf store).Nodup) (he : e ∈ store)
    (hf : f ∈ store) (hm : e.flow_match = f.flow_match) : e = f := List.inj_on_of_nodup_map h he hf hm

variable [DecidableEq V]

/-! ## Merging -/

section
variable {flow : FlowStat V} {flows store : List (FlowStat V)}

theorem mergeInto_matches (flow : FlowStat V) : ∀ aggregated : List (FlowStat V),
    (∀ merged, mergeInto flow aggregated = some merged → matchesOf merged = matchesOf aggregated) ∧
      (mergeInto flow aggregated = none → flow.flow_match ∉ matchesOf aggregated)
  | [] => by
    refine ⟨fun _ h => ?_, fun _ => List.not_mem_nil⟩
    cases h
  | existing :: rest => by
    obtain ⟨hmerged, hnone⟩ := mergeInto_matches flow rest
    unfold mergeInto
    by_cases hsame : existing.flow_match = flow.flow_match
    · rw [if_pos hsame]
      refine ⟨fun merged h => ?_, fun h => ?_⟩
      · cases h
        rfl
      · cases h
    · rw [if_neg hsame]
      refine ⟨fun merged h => ?_, fun h => ?_⟩
      · obtain ⟨merged', h', rfl⟩ := Option.map_eq_some_iff.mp h
        exact congrArg (existing.flow_match :: ·) (hmerged merged' h')
      · have hrest := hnone (Option.map_eq_none_iff.mp h)
        exact List.not_mem_cons_of_ne_of_not_mem (Ne.symm hsame) hrest

theorem nodup_aggregateFrom : ∀ (flows : List (FlowStat V)) {aggregated : List (FlowStat V)},
    (matchesOf aggregated).Nodup → (matchesOf (aggregateFrom aggregated flows)).Nodup
  | [], _, h => h
  | flow :: flows, aggregated, h => by
    unfold aggregateFrom
    refine nodup_aggregateFrom flows ?_
    obtain ⟨hmerged, hnone⟩ := mergeInto_matches { flow with flow_match := flow.flow_match.erase "in_port" } aggregated
    cases hmerge : mergeInto { flow with flow_match := flow.flow_match.erase "in_port" } aggregated with
    | some merged =>
      rw [Option.getD_some, hmerged merged hmerge]
      exact h
    | none =>
      rw [Option.getD_none, matchesOf_append]
      refine List.nodup_append'.mpr ⟨h, List.nodup_singleton _, ?_⟩
      exact List.disjoint_singleton.mpr (hnone hmerge)

theorem nodup_aggregate_flows (flows : List (FlowStat V)) : (matchesOf (aggregate_flows flows)).Nodup :=
  nodup_aggregateFrom flows List.nodup_nil

/-! ## Updating -/

theorem update_flows_eq : ∀ (flows store : List (FlowStat V)), (matchesOf flows).Nodup →
    update_flows store flows = store ++ flows.filter fun f => f.flow_match ∉ matchesOf store
  | [], store, _ => (List.append_nil store).symm
  | flow :: flows, store, h => by
    obtain ⟨hflow, hflows⟩ := List.nodup_cons.mp h
    have hany : (store.any fun prev_flow => flow.flow_match = prev_flow.flow_match) = true ↔
        flow.flow_match ∈ matchesOf store := by
      rw [List.any_eq_true, mem_matchesOf]
      refine exists_congr fun f => and_congr_right fun _ => ?_
      rw [decide_eq_true_eq, eq_comm]
    unfold update_flows
    by_cases hold : flow.flow_match ∈ matchesOf store
    · rw [if_pos (hany.mpr hold), update_flows_eq flows store hflows, List.filter_cons_of_neg]
      simpa using hold
    · rw [if_neg fun h => hold (hany.mp h), update_flows_eq flows _ hflows, List.append_assoc, List.filter_cons_of_pos]
      · have hothers : ∀ f ∈ flows, decide (f.flow_match ∉ matchesOf (store ++ [flow])) = decide (f.flow_match ∉ matchesOf store) := by
          intro f hf
          have hne : f.flow_match ≠ flow.flow_match := fun he => hflow (he ▸ List.mem_map_of_mem hf)
          simp [matchesOf, hne]
        rw [List.filter_congr hothers]
        rfl
      · simpa using hold

/-- The records of the round are published, the others are as they were, and
there is one for each match so far. -/
structure Latest (store : List (FlowStat V)) (flows store' : List (FlowStat V)) (seen : List (MatchDict V)) : Prop where
  single : (matchesOf store').Nodup
  matches_seen : ∀ m, m ∈ matchesOf store' ↔ m ∈ seen
  current : ∀ f ∈ flows, f ∈ store'
  kept : ∀ e ∈ store, e.flow_match ∉ matchesOf flows → e ∈ store'

/-- What is published for a match of the round is already its record. -/
def Unchanged (store flows : List (FlowStat V)) : Prop :=
  ∀ f ∈ flows, ∀ e ∈ store, e.flow_match = f.flow_match → e = f

instance (store flows : List (FlowStat V)) : Decidable (Unchanged store flows) :=
  inferInstanceAs (Decidable (∀ f ∈ flows, ∀ e ∈ store, e.flow_match = f.flow_match → e = f))

theorem mem_matchesOf_update (h : (matchesOf flows).Nodup) (m : MatchDict V) :
    m ∈ matchesOf (update_flows store flows) ↔ m ∈ matchesOf store ∨ m ∈ matchesOf flows := by
  rw [update_flows_eq flows store h, matchesOf_append, List.mem_append]
  refine or_congr_right' fun hold => ?_
  rw [mem_matchesOf, mem_matchesOf]
  constructor
  · intro hnew
    obtain ⟨f, hf, rfl⟩ := hnew
    exact ⟨f, List.mem_of_mem_filter hf, rfl⟩
  · intro hnew
    obtain ⟨f, hf, rfl⟩ := hnew
    exact ⟨f, List.mem_filter.mpr ⟨hf, decide_eq_true hold⟩, rfl⟩

theorem nodup_update (hs : (matchesOf store).Nodup) (h : (matchesOf flows).Nodup) :
    (matchesOf (update_flows store flows)).Nodup := by
  rw [update_flows_eq flows store h, matchesOf_append]
  refine List.nodup_append'.mpr ⟨hs, h.sublist (List.filter_sublist.map _), fun m hm hm' => ?_⟩
  obtain ⟨f, hf, rfl⟩ := mem_matchesOf.mp hm'
  exact of_decide_eq_true (List.mem_filter.mp hf).2 hm

/-- One update publishes the latest records exactly when nothing has changed. -/
theorem latest_iff {seen : List (MatchDict V)} (hs : (matchesOf store).Nodup) (hseen : ∀ m, m ∈ matchesOf store ↔ m ∈ seen)
    (h : (matchesOf flows).Nodup) :
    Latest store flows (update_flows store flows) (seen ++ matchesOf flows) ↔ Unchanged store flows := by
  constructor
  · intro hlatest f hf e he hm
    have hmem := hlatest.current f hf
    rw [update_flows_eq flows store h, List.mem_append] at hmem
    rcases hmem with hold | hnew
    · exact eq_of_same_match hs he hold hm
    · exact absurd (mem_matchesOf.mpr ⟨e, he, hm⟩) (of_decide_eq_true (List.mem_filter.mp hnew).2)
  · intro hsame
    refine ⟨nodup_update hs h, fun m => ?_, fun f hf => ?_, fun e he _ => ?_⟩
    · rw [mem_matchesOf_update h, hseen, List.mem_append]
    · rw [update_flows_eq flows store h, List.mem_append]
      by_cases hold : f.flow_match ∈ matchesOf store
      · obtain ⟨e, he, hm⟩ := mem_matchesOf.mp hold
        exact Or.inl (hsame f hf e he hm ▸ he)
      · exact Or.inr (List.mem_filter.mpr ⟨hf, decide_eq_true hold⟩)
    · rw [update_flows_eq flows store h]
      exact List.mem_append_left _ he

/-! ## Rounds -/

def records (replies : Replies V) : List (FlowStat V) := aggregate_flows (collect replies)

def seenIn (rounds : List (Replies V)) : List (MatchDict V) := rounds.flatMap fun replies => matchesOf (records replies)

theorem seenIn_snoc (rounds : List (Replies V)) (replies : Replies V) :
    seenIn (rounds ++ [replies]) = seenIn rounds ++ matchesOf (records replies) := by
  unfold seenIn
  rw [List.flatMap_append, List.flatMap_singleton]

theorem matches_run (rounds : List (Replies V)) : (matchesOf (rounds.foldl gather_flow_stats [])).Nodup ∧
    ∀ m, m ∈ matchesOf (rounds.foldl gather_flow_stats []) ↔ m ∈ seenIn rounds := by
  induction rounds using List.reverseRecOn with
  | nil => exact ⟨List.nodup_nil, fun _ => .rfl⟩
  | append_singleton rounds replies ih =>
    have hrecords := nodup_aggregate_flows (collect replies)
    rw [List.foldl_append, List.foldl_cons, List.foldl_nil]
    refine ⟨nodup_update ih.1 hrecords, fun m => ?_⟩
    have hupdate : m ∈ matchesOf (gather_flow_stats (rounds.foldl gather_flow_stats []) replies) ↔
        m ∈ matchesOf (rounds.foldl gather_flow_stats []) ∨ m ∈ matchesOf (records replies) :=
      mem_matchesOf_update hrecords m
    rw [ih.2] at hupdate
    rw [seenIn_snoc, List.mem_append]
    exact hupdate

end

/-- **The published records are the latest ones after every round exactly when**
no round brings another record for a match that is published. -/
theorem stats_latest_iff (rounds : List (Replies V)) :
    (∀ before replies, before ++ [replies] <+: rounds → Latest (before.foldl gather_flow_stats []) (records replies)
      ((before ++ [replies]).foldl gather_flow_stats []) (seenIn (before ++ [replies]))) ↔
      Allowed gather_flow_stats (fun store replies => Unchanged store (records replies)) [] rounds := by
  rw [allowed_iff_before]
  refine forall₂_congr fun before replies => imp_congr_right fun _ => ?_
  obtain ⟨hsingle, hseen⟩ := matches_run before
  have hrecords : (matchesOf (records replies)).Nodup := nodup_aggregate_flows (collect replies)
  rw [List.foldl_append, List.foldl_cons, List.foldl_nil, seenIn_snoc]
  exact latest_iff hsingle hseen hrecords

def sampleReplies (byte_count duration_sec : Nat) : Replies Nat :=
  [("c1", [(1, [⟨Finmap.insert "in_port" 3 (Finmap.insert "eth_type" 2048 (Finmap.insert "ip_proto" 6
    (Finmap.insert "ipv4_dst" 2 (Finmap.insert "tcp_src" 80 (Finmap.singleton "tcp_dst" 4000))))), byte_count,
    duration_sec⟩])])]

/-- The bytes of the second round are not published. -/
theorem stale_stats_published :
    ¬ Latest ([sampleReplies 100 1].foldl gather_flow_stats []) (records (sampleReplies 300 2))
      (([sampleReplies 100 1] ++ [sampleReplies 300 2]).foldl gather_flow_stats [])
      (seenIn [sampleReplies 100 1, sampleReplies 300 2]) := by
  intro h
  have hcurrent := h.current
  revert hcurrent
  decide +kernel

end FlowStats

end VnfDockerNet
