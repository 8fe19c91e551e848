import Suwappu.Lib.Checked

/-!
# Market events

The envelope every component of the searcher logs its observations in, with the comparison that
orders a replay.
-/

namespace Suwappu.Searcher

open Std

/-! ### Machine integers -/

abbrev U16 := Fin (2 ^ 16)
abbrev U32 := Fin (2 ^ 32)
abbrev U64 := Fin (2 ^ 64)
abbrev U128 := Fin (2 ^ 128)
abbrev I128 := { z : ℤ // -2 ^ 127 ≤ z ∧ z < 2 ^ 127 }

/-- `u64::MAX` -/
def U64.MAX : U64 := ⟨2 ^ 64 - 1, by norm_num⟩

/-- `saturating_add` -/
def U64.saturatingAdd (a b : U64) : U64 := ⟨min (a.val + b.val) (2 ^ 64 - 1), by omega⟩

/-! ### Events -/

abbrev TimestampNs := U64
abbrev BlockNumber := U64
abbrev Fixed := I128
abbrev EventId := String
abbrev SourceId := String
abbrev VenueId := String
abbrev InstrumentId := String

/-- What an order goes by: its builder and its opportunity. -/
abbrev OrderKey := String × String

structure ChainContext where
  chainId : U64
  blockNumber : BlockNumber
  blockHash : Option String
  txHash : Option String
  txIndex : Option U32
  logIndex : Option U32
deriving DecidableEq

inductive Side where
  | Buy | Sell
deriving DecidableEq

inductive MarketEvent where
  | FairValue (instrument : InstrumentId) (price : Fixed)
  | Trade (venue : VenueId) (instrument : InstrumentId) (side : Side) (price quantity : Fixed)
  | Fill (venue : VenueId) (instrument : InstrumentId) (side : Side) (price quantity : Fixed)
      (strategyId : String) (opportunityId : Option String) (quoteSequence : Option U64)
  | PammQuote (venue : VenueId) (instrument : InstrumentId) (quoteSequence : U64)
      (bid ask maxBidQuantity maxAskQuantity : Fixed) (validBlock : Option BlockNumber)
      (validUntilNs : TimestampNs)
  /-- builder-market pressure, not a label of our own submissions -/
  | BuilderTrace (builder opportunityId : String) (bidWei : U128) (simulated included : Bool)
      (failure : Option String)
  | BuilderSubmission (builder opportunityId : String) (slot : U64)
      (builderPaymentWei profitBeforeBidWei : U128) (opportunityCreatedTsNs : TimestampNs)
      (slotPhaseMs : U32) (simulationConfidenceBps : U16) (replaceSequence : Option U64)
  | BuilderOutcome (builder opportunityId : String) (slot : U64) (included : Bool)
      (failure : Option String)
  | ExecutionAttempt (opportunityId strategyId : String) (grossPnl : Fixed) (gasUsed : Option U64)
      (calldataBytes : U32) (success : Bool)
  | InventorySnapshot (asset : String) (amount : Fixed)
  | CapitalState (asset : String) (hot warm cold synchronouslyWithdrawable : Fixed)
deriving DecidableEq

structure EventEnvelope where
  schemaVersion : U16
  eventId : EventId
  source : SourceId
  exchangeTsNs : TimestampNs
  receiveTsNs : TimestampNs
  sequence : Option U64
  clockUncertaintyNs : U64
  chain : Option ChainContext
  payload : MarketEvent
deriving DecidableEq

/-! ### The order of a replay -/

/-- `replay_cmp` -/
def EventEnvelope.replayCmp : EventEnvelope → EventEnvelope → Ordering :=
  compareLex (compareOn (·.exchangeTsNs)) <|
  compareLex (compareOn (·.receiveTsNs)) <|
  compareLex (compareOn (·.source)) <|
  compareLex (compareOn fun event => event.sequence.getD U64.MAX) <|
  compareOn (·.eventId)

instance : TransCmp EventEnvelope.replayCmp := by
  unfold EventEnvelope.replayCmp
  infer_instance

/-- Events that compare equal have the same id. -/
lemma eventId_eq_of_replayCmp {a b : EventEnvelope} (h : a.replayCmp b = .eq) :
    a.eventId = b.eventId := by
  simp only [EventEnvelope.replayCmp, compareLex_eq_eq, compareOn] at h
  exact LawfulEqOrd.eq_of_compare h.2.2.2.2

end Suwappu.Searcher
