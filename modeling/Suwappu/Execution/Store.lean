import Suwappu.Execution.Lifecycle
import Suwappu.Lib.Machine

/-!
# The store of executions

`execution_store`: the parent orders, their event log and their fills. A call has the row of its
parent until it commits, and one that raises is rolled back, so calls come one after the other.
Legacy identities, outbox rows, timestamps, actors and the other columns of a fill are left out.
-/

namespace Suwappu.Execution

open Checked

structure ExecutionParentOrder where
  id : String
  state : ParentState
  stateVersion : ℕ
  requestedQuantity : Option String
  filledQuantity : ℚ
  averageFillPrice : Option ℚ
deriving DecidableEq

structure ExecutionEvent where
  id : String
  parentOrderId : String
  sequence : ℕ
  eventType : String
  fromState : Option ParentState
  toState : Option ParentState
  payloadJson : Payload
deriving DecidableEq

structure ExecutionFill where
  id : String
  parentOrderId : String
  externalSource : String
  externalFillId : String
  quantity : String
  price : String
deriving DecidableEq

structure Store where
  parents : List ExecutionParentOrder
  events : List ExecutionEvent
  fills : List ExecutionFill

/-- The arguments of `append_event`; `uuid` is what `_uuid()` answers. -/
structure NewEvent where
  eventType : String
  eventId : Option String
  uuid : String
  payload : Payload
  fromState : Option ParentState
  toState : Option ParentState
deriving DecidableEq

/-- The arguments of `record_fill`. -/
structure NewFill where
  externalSource : String
  externalFillId : String
  quantity : String
  price : String
  uuid : String
deriving DecidableEq

inductive Call where
  /-- a parent order is created -/
  | createParent (id : String) (requestedQuantity : Option String)
  | appendEvent (parentOrderId : String) (new : NewEvent)
  | recordFill (parentOrderId : String) (new : NewFill)

inductive StoreError where
  | ParentNotFoundError | ExecutionStoreError | IntegrityError
  | lifecycle (error : LifecycleError)
deriving DecidableEq, Repr

namespace Store

def parent? (s : Store) (id : String) : Option ExecutionParentOrder :=
  s.parents.find? fun parent => parent.id = id

def event? (s : Store) (id : String) : Option ExecutionEvent :=
  s.events.find? fun event => event.id = id

def fill? (s : Store) (externalSource externalFillId : String) : Option ExecutionFill :=
  s.fills.find? fun fill =>
    fill.externalSource = externalSource ∧ fill.externalFillId = externalFillId

end Store

def decimalOrNone : Option String → Except StoreError (Option Number)
  | none      => .ok none
  | some text =>
    match Number.ofString text with
    | some number => .ok (some number)
    | none        => .error .ExecutionStoreError

/-- The snapshot of a parent with that requested quantity. -/
def ExecutionParentOrder.snapshot (parent : ExecutionParentOrder)
    (requestedQuantity : Option Number) : ExecutionSnapshot where
  parentOrderId := parent.id
  state := parent.state
  sequence := parent.stateVersion
  requestedQuantity := requestedQuantity
  filledQuantity := parent.filledQuantity
  averageFillPrice := parent.averageFillPrice
  appliedEventIds := ∅
  appliedFillKeys := ∅

def snapshotFromParent (parent : ExecutionParentOrder) : Except StoreError ExecutionSnapshot :=
  (decimalOrNone parent.requestedQuantity).map parent.snapshot

/-- `event_id or _uuid()` -/
def NewEvent.id (new : NewEvent) : String :=
  match new.eventId with
  | some id => if id = "" then new.uuid else id
  | none    => new.uuid

/-- A row of the log for the reducer. -/
def ExecutionEvent.lifecycle (event : ExecutionEvent) : LifecycleEvent where
  eventId := event.id
  sequence := event.sequence
  eventType := event.eventType
  payload := event.payloadJson
  fromState := event.fromState
  toState := event.toState

def NewEvent.row (new : NewEvent) (parentOrderId : String) (sequence : ℕ) : ExecutionEvent where
  id := new.id
  parentOrderId := parentOrderId
  sequence := sequence
  eventType := new.eventType
  fromState := new.fromState
  toState := new.toState
  payloadJson := new.payload

/-- The columns that an event writes. -/
def ExecutionParentOrder.write (parent : ExecutionParentOrder) (next : ExecutionSnapshot) :
    ExecutionParentOrder :=
  { parent with
    state := next.state
    stateVersion := next.sequence
    filledQuantity := next.filledQuantity
    averageFillPrice := next.averageFillPrice }

def Store.append (s : Store) (parent : ExecutionParentOrder) (row : ExecutionEvent)
    (next : ExecutionSnapshot) : Store :=
  { s with
    parents := s.parents.map fun other => if other.id = parent.id then parent.write next else other
    events := s.events ++ [row] }

def appendEvent (s : Store) (parentOrderId : String) (new : NewEvent) : Except StoreError Store :=
  match s.parent? parentOrderId with
  | none        => .error .ParentNotFoundError
  | some parent =>
    match s.event? new.id with
    | some duplicate =>
      if duplicate.parentOrderId = parent.id then .ok s else .error .ExecutionStoreError
    | none => do
      let current ← snapshotFromParent parent
      let row := new.row parent.id (current.sequence + 1)
      let next ← (reduceEvent current row.lifecycle).mapError StoreError.lifecycle
      .ok (s.append parent row next)

/-- `external_source:external_fill_id` -/
def NewFill.key (new : NewFill) : String :=
  strip new.externalSource ++ ":" ++ strip new.externalFillId

section

-- `str(uuid.uuid5(uuid.NAMESPACE_URL, name))`
variable (uuid5 : String → String)

/-- The event of a fill. -/
def NewFill.event (new : NewFill) : NewEvent where
  eventType := "fill_recorded"
  eventId := some (uuid5 ("suwappu:execution-fill:" ++ new.key))
  uuid := new.uuid
  payload := [("fill_key", .str new.key), ("fill_id", .str new.uuid),
    ("quantity", .str new.quantity), ("price", .str new.price)]
  fromState := none
  toState := none

def recordFill (s : Store) (parentOrderId : String) (new : NewFill) : Except StoreError Store :=
  let externalSource := strip new.externalSource
  let externalFillId := strip new.externalFillId
  if externalSource = "" ∨ externalFillId = "" then .error .ExecutionStoreError
  else match s.parent? parentOrderId with
    | none        => .error .ParentNotFoundError
    | some parent =>
      match s.fill? externalSource externalFillId with
      | some existing =>
        if existing.parentOrderId = parent.id then .ok s else .error .ExecutionStoreError
      | none =>
        let fill : ExecutionFill :=
          ⟨new.uuid, parent.id, externalSource, externalFillId, new.quantity, new.price⟩
        appendEvent { s with fills := s.fills ++ [fill] } parent.id (new.event uuid5)

def createParent (s : Store) (id : String) (requestedQuantity : Option String) :
    Except StoreError Store :=
  if (s.parent? id).isSome then .error .IntegrityError
  else .ok { s with parents := s.parents ++ [⟨id, .draft, 0, requestedQuantity, 0, none⟩] }

def step (s : Store) : Call → Except StoreError Store
  | .createParent id requestedQuantity => createParent s id requestedQuantity
  | .appendEvent parentOrderId new     => appendEvent s parentOrderId new
  | .recordFill parentOrderId new      => recordFill uuid5 s parentOrderId new

def machine : Machine Store Call StoreError := ⟨step uuid5⟩

end

def Store.init : Store := ⟨[], [], []⟩

end Suwappu.Execution
