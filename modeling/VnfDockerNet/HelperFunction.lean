import VnfDockerNet.Lib.Python
import VnfDockerNet.Lib.Float64

/-!
# The placement feasibility check

`IsFeasible` of `helper_function` with the helpers it calls. The tables that the
helpers read from the module are those of the keyword arguments; their numbers
are integers and floats. `np.zeros` holds double precision floats, so that what
is multiplied with its entries, added up and compared is rounded. A vector is
reshaped in row-major order, so that an entry of the array is one of the vector.
-/

namespace VnfDockerNet

open Python

namespace HelperFunction

/-- The sizes among the keyword arguments. -/
structure Sizes where
  no_of_services : Nat
  max_no_of_micro_services : Nat
  no_of_fog_nodes : Nat
  no_of_resource_type : Nat
  no_of_time_slots : Nat

/-- The tables among them, which have the shape that the sizes say. -/
structure Tables (n : Sizes) where
  total_available_quantity_of_resource : List (List ℚ)
  total_quantity_of_resource_needed : List (List (List ℚ))
  available_shape : total_available_quantity_of_resource.length = n.no_of_fog_nodes ∧
    ∀ row ∈ total_available_quantity_of_resource, row.length = n.no_of_resource_type
  needed_shape : total_quantity_of_resource_needed.length = n.no_of_services ∧
    ∀ service ∈ total_quantity_of_resource_needed, service.length = n.max_no_of_micro_services ∧
      ∀ row ∈ service, row.length = n.no_of_resource_type

section
variable {n : Sizes} (tables : Tables n)

def RFi (i q : Nat) : Except Exn ℚ := do
  let row ← index tables.total_available_quantity_of_resource i
  index row q

def GammaPxy (x y q : Nat) : Except Exn ℚ := do
  let service ← index tables.total_quantity_of_resource_needed x
  let row ← index service y
  index row q

/-- `A[k][j][i][t]` -/
abbrev Array4 := Nat → Nat → Nat → Nat → Except Exn Nat

def rowMajorTo2D (n : Sizes) (allocation_vector : List Nat) : Except Exn Array4 :=
  if allocation_vector.length = n.no_of_services * n.max_no_of_micro_services * n.no_of_fog_nodes * n.no_of_time_slots then
    .ok fun k j i t =>
      if k < n.no_of_services ∧ j < n.max_no_of_micro_services ∧ i < n.no_of_fog_nodes ∧ t < n.no_of_time_slots then
        index allocation_vector (((k * n.max_no_of_micro_services + j) * n.no_of_fog_nodes + i) * n.no_of_time_slots + t)
      else .error .IndexError
  else .error .ValueError

def exe_ms_vector (n : Sizes) (A_temp : Array4) (i t : Nat) : Except Exn (List (List ℚ)) :=
  (List.range n.no_of_services).mapM fun k =>
    (List.range n.max_no_of_micro_services).mapM fun j => do
      let a ← A_temp k j i t
      pure (if a = 1 then (a : ℚ) else 0)

def amount_of_resource_type_occupied (A_temp : Array4) (i q t : Nat) : Except Exn ℚ :=
  (List.range n.no_of_services).foldlM (fun sum k =>
    (List.range n.max_no_of_micro_services).foldlM (fun sum j => do
      let Omega ← exe_ms_vector n A_temp i t
      let row ← index Omega k
      let executed ← index row j
      let needed ← GammaPxy tables k j q
      pure (Float64.round (sum + Float64.round (executed * Float64.round needed)))) sum) 0

/-- The local variables of `IsFeasible` that its loops change. -/
structure Locals where
  cnt : List Nat := []
  var_flag : Bool := true

/-- Constraint 1 at one entry of the vector. -/
def countCell (n : Sizes) (vec : List Nat) (i j : Nat) : EStateM Exn Locals Unit := do
  let a ← orRaise (index vec (i * n.no_of_fog_nodes + j))
  if a = 1 then
    let s ← get
    let c ← orRaise (index s.cnt i)
    modify fun s => { s with cnt := s.cnt.set i (c + 1) }

/-- Constraint 2 at one fog node, resource type and time slot. -/
def checkCell (arr : Array4) (i j k : Nat) : EStateM Exn Locals Unit := do
  let ppp1 ← orRaise (amount_of_resource_type_occupied tables arr i j k)
  let ppp2 ← orRaise (RFi tables i j)
  -- a float is compared with a float
  if ppp1 > Float64.round ppp2 then
    modify fun s => { s with var_flag := false }

def IsFeasible (vec : List Nat) : EStateM Exn Locals Bool := do
  let arr ← orRaise (rowMajorTo2D n vec)
  modify fun s => { s with cnt := List.replicate n.no_of_fog_nodes 0 }
  forEach (fun i => forEach (fun j => countCell n vec i j) (List.range n.no_of_fog_nodes))
    (List.range n.max_no_of_micro_services)
  let s ← get
  if 0 < (s.cnt.filter (· ≠ 1)).length then
    pure false
  else
    modify fun s => { s with var_flag := true }
    forEach (fun i => forEach (fun j => forEach (fun k => checkCell tables arr i j k)
      (List.range n.no_of_time_slots)) (List.range n.no_of_resource_type)) (List.range n.no_of_fog_nodes)
    let s ← get
    pure s.var_flag

end

end HelperFunction

end VnfDockerNet
