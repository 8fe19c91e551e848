import Suwappu.Lib.Machine
import Suwappu.Searcher.Events

/-!
# The order management system

`BuilderOms` keeps one order for each builder and opportunity. A call changes the order in place
around a transport call that can fail, so the functions here return the orders they leave behind
also when they fail.
-/

namespace Suwappu.Searcher

inductive OrderState where
  | New | Submitted | Live | ReplacePending | Replaced | CancelPending | Landed | Reverted
  | Expired | Dropped
deriving DecidableEq

def OrderState.isTerminal : OrderState → Bool
  | .Landed | .Reverted | .Expired | .Dropped => true
  | _                                         => false

structure SubmissionRequest where
  builder : String
  opportunityId : String
  slot : U64
  builderPaymentWei : U128
  profitBeforeBidWei : U128
  opportunityCreatedTsNs : U64
  submitTsNs : U64
  slotPhaseMs : U32
  simulationConfidenceBps : U16
  replaceSequence : U64
  signedTransactions : List String
deriving DecidableEq

structure CancelRequest where
  builder : String
  opportunityId : String
  slot : U64
  replaceSequence : U64
deriving DecidableEq

structure TransportAck where
  submissionId : String
deriving DecidableEq

/-- What the transport answers to the requests of one call; an error is its text. -/
structure BuilderTransport where
  submit : SubmissionRequest → Except String TransportAck
  cancel : CancelRequest → Except String Unit

structure ManagedOrder where
  builder : String
  opportunityId : String
  slot : U64
  state : OrderState
  replaceSequence : U64
  builderPaymentWei : U128
  profitBeforeBidWei : U128
  opportunityCreatedTsNs : U64
  lastSubmitTsNs : U64
  slotPhaseMs : U32
  simulationConfidenceBps : U16
  submissionId : Option String
deriving DecidableEq

inductive OmsError where
  | AlreadyExists | NotFound | Terminal | NonMonotonicReplacement | ReplacementIdentityMismatch
  | OutcomeSlotMismatch | InvalidSimulationConfidence | PaymentExceedsProfit | InvalidTimestamp
  | Transport (message : String)
deriving DecidableEq

structure BuilderOms where
  orders : OrderKey → Option ManagedOrder

def BuilderOms.default : BuilderOms := ⟨fun _ => none⟩

def BuilderOms.insert (oms : BuilderOms) (key : OrderKey) (order : ManagedOrder) : BuilderOms :=
  ⟨Function.update oms.orders key (some order)⟩

/-- What is done through `get_mut`. -/
def BuilderOms.modify (oms : BuilderOms) (key : OrderKey) (f : ManagedOrder → ManagedOrder) :
    BuilderOms :=
  ⟨Function.update oms.orders key ((oms.orders key).map f)⟩

/-! ### Events -/

/-- What the envelopes of all its events share. -/
def omsEvent (eventId : EventId) (timestamp : TimestampNs) (payload : MarketEvent) :
    EventEnvelope where
  schemaVersion := 1
  eventId := eventId
  source := "suwappu:oms"
  exchangeTsNs := timestamp
  receiveTsNs := timestamp
  sequence := none
  clockUncertaintyNs := 0
  chain := none
  payload := payload

def submissionEvent (request : SubmissionRequest) : EventEnvelope :=
  omsEvent ("oms:submission:" ++ request.builder ++ ":" ++ request.opportunityId ++ ":" ++
      Nat.repr request.slot ++ ":" ++ Nat.repr request.replaceSequence)
    request.submitTsNs
    (.BuilderSubmission request.builder request.opportunityId request.slot
      request.builderPaymentWei request.profitBeforeBidWei request.opportunityCreatedTsNs
      request.slotPhaseMs request.simulationConfidenceBps (some request.replaceSequence))

/-- The event of an outcome, its id closed by `suffix`. -/
def outcomeEvent (key : OrderKey) (slot : U64) (suffix : String) (included : Bool)
    (failure : Option String) (observedTsNs : U64) : EventEnvelope :=
  omsEvent ("oms:outcome:" ++ key.1 ++ ":" ++ key.2 ++ ":" ++ Nat.repr slot ++ ":" ++ suffix)
    observedTsNs (.BuilderOutcome key.1 key.2 slot included failure)

/-! ### The calls -/

def validateRequest (request : SubmissionRequest) : Except OmsError Unit :=
  if request.simulationConfidenceBps > 10000 then .error .InvalidSimulationConfidence
  else if request.builderPaymentWei > request.profitBeforeBidWei then .error .PaymentExceedsProfit
  else if request.submitTsNs < request.opportunityCreatedTsNs then .error .InvalidTimestamp
  else .ok ()

def SubmissionRequest.key (request : SubmissionRequest) : OrderKey :=
  (request.builder, request.opportunityId)

/-- The order of a new submission. -/
def SubmissionRequest.order (request : SubmissionRequest) (ack : TransportAck) : ManagedOrder where
  builder := request.builder
  opportunityId := request.opportunityId
  slot := request.slot
  state := .Live
  replaceSequence := request.replaceSequence
  builderPaymentWei := request.builderPaymentWei
  profitBeforeBidWei := request.profitBeforeBidWei
  opportunityCreatedTsNs := request.opportunityCreatedTsNs
  lastSubmitTsNs := request.submitTsNs
  slotPhaseMs := request.slotPhaseMs
  simulationConfidenceBps := request.simulationConfidenceBps
  submissionId := some ack.submissionId

namespace BuilderOms

def submit (oms : BuilderOms) (transport : BuilderTransport) (request : SubmissionRequest) :
    BuilderOms × Except OmsError EventEnvelope :=
  match validateRequest request with
  | .error e => (oms, .error e)
  | .ok ()   =>
    if (oms.orders request.key).isSome then (oms, .error .AlreadyExists)
    else
      match transport.submit request with
      | .error message => (oms, .error (.Transport message))
      | .ok ack        =>
        (oms.insert request.key (request.order ack), .ok (submissionEvent request))

def replace (oms : BuilderOms) (transport : BuilderTransport) (request : SubmissionRequest) :
    BuilderOms × Except OmsError EventEnvelope :=
  match validateRequest request with
  | .error e => (oms, .error e)
  | .ok ()   =>
    match oms.orders request.key with
    | none         => (oms, .error .NotFound)
    | some current =>
      if current.state.isTerminal then (oms, .error .Terminal)
      else if current.slot ≠ request.slot then (oms, .error .ReplacementIdentityMismatch)
      else if request.replaceSequence ≤ current.replaceSequence then
        (oms, .error .NonMonotonicReplacement)
      else
        let previousState := current.state
        let previousSequence := current.replaceSequence
        let oms := oms.modify request.key fun order => { order with state := .ReplacePending }
        match transport.submit request with
        | .error message =>
          (oms.modify request.key fun order =>
            { order with state := previousState, replaceSequence := previousSequence },
            .error (.Transport message))
        | .ok ack        =>
          match oms.orders request.key with
          | none   => (oms, .error .NotFound)
          | some _ =>
            let oms := oms.modify request.key fun order => { order with
              state := .Replaced
              replaceSequence := request.replaceSequence
              builderPaymentWei := request.builderPaymentWei
              profitBeforeBidWei := request.profitBeforeBidWei
              lastSubmitTsNs := request.submitTsNs
              slotPhaseMs := request.slotPhaseMs
              simulationConfidenceBps := request.simulationConfidenceBps
              submissionId := some ack.submissionId }
            (oms.modify request.key fun order => { order with state := .Live },
              .ok (submissionEvent request))

def cancel (oms : BuilderOms) (transport : BuilderTransport) (builder opportunityId : String) :
    BuilderOms × Except OmsError Unit :=
  let key := (builder, opportunityId)
  match oms.orders key with
  | none         => (oms, .error .NotFound)
  | some current =>
    if current.state.isTerminal then (oms, .error .Terminal)
    else
      let request : CancelRequest :=
        ⟨current.builder, current.opportunityId, current.slot, current.replaceSequence⟩
      let previousState := current.state
      let oms := oms.modify key fun order => { order with state := .CancelPending }
      match transport.cancel request with
      | .error message =>
        (oms.modify key fun order => { order with state := previousState },
          .error (.Transport message))
      | .ok ()         => (oms.modify key fun order => { order with state := .Dropped }, .ok ())

def observeOutcome (oms : BuilderOms) (builder opportunityId : String) (slot : U64)
    (included : Bool) (failure : Option String) (observedTsNs : U64) :
    BuilderOms × Except OmsError EventEnvelope :=
  let key := (builder, opportunityId)
  match oms.orders key with
  | none       => (oms, .error .NotFound)
  | some order =>
    if order.state.isTerminal then (oms, .error .Terminal)
    else if order.slot ≠ slot then (oms, .error .OutcomeSlotMismatch)
    else
      (oms.modify key fun order => { order with state := if included then .Landed else .Reverted },
        .ok (outcomeEvent key slot (if included then "1" else "0") included failure observedTsNs))

def expire (oms : BuilderOms) (builder opportunityId : String) (observedTsNs : U64) :
    BuilderOms × Except OmsError EventEnvelope :=
  let key := (builder, opportunityId)
  match oms.orders key with
  | none       => (oms, .error .NotFound)
  | some order =>
    if order.state.isTerminal then (oms, .error .Terminal)
    else
      (oms.modify key fun order => { order with state := .Expired },
        .ok (outcomeEvent key order.slot "expired" false (some "expired") observedTsNs))

end BuilderOms

/-! ### Runs -/

inductive OmsCall where
  | submit (transport : BuilderTransport) (request : SubmissionRequest)
  | replace (transport : BuilderTransport) (request : SubmissionRequest)
  | cancel (transport : BuilderTransport) (builder opportunityId : String)
  | observeOutcome (builder opportunityId : String) (slot : U64) (included : Bool)
      (failure : Option String) (observedTsNs : U64)
  | expire (builder opportunityId : String) (observedTsNs : U64)

/-- A call with the event it returns, if it returns one. -/
def BuilderOms.step (oms : BuilderOms) :
    OmsCall → BuilderOms × Except OmsError (Option EventEnvelope)
  | .submit transport request => (oms.submit transport request).map id (·.map some)
  | .replace transport request => (oms.replace transport request).map id (·.map some)
  | .cancel transport builder opportunityId =>
    (oms.cancel transport builder opportunityId).map id (·.map fun _ => none)
  | .observeOutcome builder opportunityId slot included failure observedTsNs =>
    (oms.observeOutcome builder opportunityId slot included failure observedTsNs).map id
      (·.map some)
  | .expire builder opportunityId observedTsNs =>
    (oms.expire builder opportunityId observedTsNs).map id (·.map some)

/-- The orders, and the calls that succeeded so far with their events, oldest first. -/
structure Session where
  oms : BuilderOms
  accepted : List (OmsCall × Option EventEnvelope)

def Session.start : Session := ⟨.default, []⟩

/-- One call on the session, whatever its result. -/
def Session.call (s : Session) (call : OmsCall) : Session :=
  match s.oms.step call with
  | (oms, .ok event) => ⟨oms, s.accepted ++ [(call, event)]⟩
  | (oms, .error _)  => ⟨oms, s.accepted⟩

/-- A session as a machine. It never rolls a call back: the orders are what the call left. -/
def omsMachine : Machine Session OmsCall Empty := ⟨fun s call => .ok (s.call call)⟩

/-- The request of a submission or a replacement. -/
def OmsCall.request? : OmsCall → Option SubmissionRequest
  | .submit _ request | .replace _ request => some request
  | _                                      => none

/-- Whether the call reports an outcome. -/
def OmsCall.decides : OmsCall → Bool
  | .observeOutcome .. | .expire .. => true
  | _                               => false

/-- The order the call is about. -/
def OmsCall.key : OmsCall → OrderKey
  | .submit _ request | .replace _ request         => request.key
  | .cancel _ builder opportunityId
  | .observeOutcome builder opportunityId _ _ _ _
  | .expire builder opportunityId _                => (builder, opportunityId)

/-- The accepted submissions and replacements of one order, oldest first. -/
def Session.submissions (s : Session) (key : OrderKey) : List SubmissionRequest :=
  s.accepted.filterMap fun entry => if entry.1.key = key then entry.1.request? else none

/-- The recorded outcomes of one order. -/
def Session.outcomes (s : Session) (key : OrderKey) : List EventEnvelope :=
  s.accepted.filterMap fun entry =>
    if entry.1.key = key ∧ entry.1.decides = true then entry.2 else none

/-- Every event that was emitted. -/
def Session.events (s : Session) : List EventEnvelope := s.accepted.filterMap (·.2)

end Suwappu.Searcher
