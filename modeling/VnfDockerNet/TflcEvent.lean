import VnfDockerNet.Lib.Python

/-!
# The event dispatcher

`tflc_event.EventDispatcher`, which the two programs share but for a print. Its
dictionary refers to list objects that are changed in place; `lists` has them by
address. The listeners work on `σ`, and none of them registers or removes a
listener; `dispatch_event` records which of them were called.
-/

namespace VnfDockerNet

open Python

structure EventDispatcher (EventCls Listener : Type) where
  _events : Dict EventCls Nat := ∅
  lists : Nat → List Listener := fun _ => []
  /-- the address of the next list object -/
  fresh : Nat := 0

namespace EventDispatcher

/-- What the owner of a dispatcher asks of it. -/
inductive Call (EventCls Listener : Type) where
  | add_event_listener (event_cls : EventCls) (listener : Listener)
  | rmv_event_listener (event_cls : EventCls) (listener : Listener)
  deriving DecidableEq, Repr

def Call.event_cls {EventCls Listener : Type} : Call EventCls Listener → EventCls
  | .add_event_listener c _ => c
  | .rmv_event_listener c _ => c

section
variable {EventCls Listener : Type} [DecidableEq EventCls] [DecidableEq Listener]

/-- `[]` -/
def newList : EStateM Exn (EventDispatcher EventCls Listener) Nat := fun d =>
  .ok d.fresh { d with lists := Function.update d.lists d.fresh [], fresh := d.fresh + 1 }

def append (listeners : Nat) (listener : Listener) : EStateM Exn (EventDispatcher EventCls Listener) Unit :=
  modify fun d => { d with lists := Function.update d.lists listeners (d.lists listeners ++ [listener]) }

/-- `list.remove`: a listener that is not there is a `ValueError`. -/
def remove (listeners : Nat) (listener : Listener) : EStateM Exn (EventDispatcher EventCls Listener) Unit := do
  let d ← get
  if listener ∈ d.lists listeners then
    modify fun d => { d with lists := Function.update d.lists listeners ((d.lists listeners).erase listener) }
  else throw .ValueError

def has_listener (event_cls : EventCls) (listener : Listener) : EStateM Exn (EventDispatcher EventCls Listener) Bool := do
  let d ← get
  if event_cls ∈ d._events then
    let listeners ← item d._events event_cls
    pure (decide (listener ∈ d.lists listeners))
  else pure false

def add_event_listener (event_cls : EventCls) (listener : Listener) :
    EStateM Exn (EventDispatcher EventCls Listener) Unit := do
  let has ← has_listener event_cls listener
  if has = false then
    -- the default of `get` is a new list, whether it is used or not
    let new ← newList
    let d ← get
    let listeners := (d._events.get event_cls).getD new
    append listeners listener
    modify fun d => { d with _events := d._events.insert event_cls listeners }

def rmv_event_listener (event_cls : EventCls) (listener : Listener) :
    EStateM Exn (EventDispatcher EventCls Listener) Unit := do
  let has ← has_listener event_cls listener
  if has = true then
    let d ← get
    let listeners ← item d._events event_cls
    if (d.lists listeners).length = 1 then
      modify fun d => { d with _events := d._events.erase event_cls }
    else
      remove listeners listener
      modify fun d => { d with _events := d._events.insert event_cls listeners }

def perform : Call EventCls Listener → EStateM Exn (EventDispatcher EventCls Listener) Unit
  | .add_event_listener c l => add_event_listener c l
  | .rmv_event_listener c l => rmv_event_listener c l

def performAll (calls : List (Call EventCls Listener)) : EStateM Exn (EventDispatcher EventCls Listener) Unit :=
  forEach perform calls

/-! ## Dispatching -/

section
variable {Event σ : Type} (call : Listener → Event → EStateM Exn σ Unit) (event : Event)

/-- `listener(event)` -/
def callListener (listener : Listener) : EStateM Exn (σ × List Listener) Unit := fun s =>
  match call listener event s.1 with
  | .ok _ app => .ok () (app, s.2 ++ [listener])
  | .error e app => .error e (app, s.2 ++ [listener])

def dispatch_event (d : EventDispatcher EventCls Listener) (__class__ : Event → EventCls) :
    EStateM Exn (σ × List Listener) Unit := do
  if __class__ event ∈ d._events then
    let listeners ← item d._events (__class__ event)
    forEach (callListener call event) (d.lists listeners)

end

end

end EventDispatcher

end VnfDockerNet
