import Mathlib.Data.Finmap

/-!
# The flow statistics server

`gather_flow_stats` asks every controller for the flows of its switches, merges
the records of one match into one, and updates the list that the server
publishes. Here are one round as a function of the answers, and the three
functions it calls. The division is that of integers.
-/

namespace VnfDockerNet

namespace FlowStats

/-- A match as decoded from JSON: equal when the same keys have the same values. -/
abbrev MatchDict (V : Type) := Finmap fun _ : String => V

structure Flow (V : Type) where
  flow_match : MatchDict V
  byte_count : Nat
  duration_sec : Nat

structure FlowStat (V : Type) where
  controllers : List String
  switches : List Nat
  flow_match : MatchDict V
  byte_count : Nat
  duration_sec : Nat
  throughput : Nat
  deriving DecidableEq

/-- The answers in one round: the switches of each controller, and the flows of each switch. -/
abbrev Replies (V : Type) := List (String × List (Nat × List (Flow V)))

section
variable {V : Type}

/-- Only matches of six keys are collected, and no flow of the current second. -/
def flowStat (controller : String) (switch : Nat) (flow : Flow V) : Option (FlowStat V) :=
  if flow.flow_match.keys.card = 6 ∧ flow.duration_sec ≠ 0 then
    some {
      controllers := [controller]
      switches := [switch]
      flow_match := flow.flow_match
      byte_count := flow.byte_count
      duration_sec := flow.duration_sec
      throughput := flow.byte_count / flow.duration_sec }
  else none

/-- `flow_stats` after the loops over the controllers, the switches and the flows. -/
def collect (replies : Replies V) : List (FlowStat V) :=
  replies.flatMap fun r => r.2.flatMap fun stat => stat.2.filterMap (flowStat r.1 stat.1)

variable [DecidableEq V]

/-- `new[0]` is appended unless it is there. -/
def addFirst {α : Type} [DecidableEq α] (old new : List α) : List α := old ++ (new.take 1).filter (· ∉ old)

/-- The inner loop: the first record with the match takes the switch and the controller. -/
def mergeInto (flow : FlowStat V) : List (FlowStat V) → Option (List (FlowStat V))
  | [] => none
  | existing_flow :: rest =>
    if existing_flow.flow_match = flow.flow_match then
      some ({ existing_flow with
        switches := addFirst existing_flow.switches flow.switches
        controllers := addFirst existing_flow.controllers flow.controllers } :: rest)
    else (mergeInto flow rest).map (existing_flow :: ·)

/-- The loop over the flows, each without its `in_port`. -/
def aggregateFrom (aggregated_flows : List (FlowStat V)) : List (FlowStat V) → List (FlowStat V)
  | [] => aggregated_flows
  | flow :: flows =>
    let flow := { flow with flow_match := flow.flow_match.erase "in_port" }
    aggregateFrom ((mergeInto flow aggregated_flows).getD (aggregated_flows ++ [flow])) flows

def aggregate_flows (flows : List (FlowStat V)) : List (FlowStat V) := aggregateFrom [] flows

def update_flows (aggregated_flow_stats : List (FlowStat V)) : List (FlowStat V) → List (FlowStat V)
  | [] => aggregated_flow_stats
  | flow :: flows =>
    -- `prev_flow = flow` names the record anew and leaves the list as it is
    if aggregated_flow_stats.any fun prev_flow => flow.flow_match = prev_flow.flow_match then
      update_flows aggregated_flow_stats flows
    else update_flows (aggregated_flow_stats ++ [flow]) flows

/-- One round. -/
def gather_flow_stats (aggregated_flow_stats : List (FlowStat V)) (replies : Replies V) : List (FlowStat V) :=
  update_flows aggregated_flow_stats (aggregate_flows (collect replies))

end

end FlowStats

end VnfDockerNet
