import Suwappu.Lib.Checked
import Suwappu.Lib.JsonRoundTrip
import Suwappu.Searcher.Events

/-!
# Events as JSON lines

What the derived code of an envelope writes and reads, and `parse_jsonl`. The code that is
`serde`'s own is a parameter, and `Faithful` is what the crate relies on. The payload is tagged by a
field of its own object, so that its fields are buffered before they are read: an integer that fits
no 64-bit word arrives there as a float.
-/

namespace Suwappu.Searcher

open Checked JsonText

/-! ### Serde -/

/-- `Option`, for which `null` is `None` -/
def nullable {α : Type} (read : Tree → Option α) : Tree → Option (Option α)
  | .null => some none
  | t     => (read t).map some

/-- What the crate uses of `serde_json` and `serde`: the writer and the reader of text, how derived
code finds a field among the entries of an object, and the readers of the types it comes with. -/
structure Serde where
  toString : Tree → List Char
  /-- the text as it is buffered -/
  fromStr : List Char → Option Tree
  required {α : Type} (fields : List (String × Tree)) (key : String) (read : Tree → Option α) :
    Option α
  optional {α : Type} (fields : List (String × Tree)) (key : String) (read : Tree → Option α) :
    Option (Option α)
  readStr : Tree → Option String
  readBool : Tree → Option Bool
  readWord (w : ℕ) : Tree → Option (Fin (2 ^ w))

/-- What they promise: an object is one line between braces; a tree nested at most 127 deep is read
back, its wide integers as floats; a field that stands once is read where it stands, whatever the
other entries; and texts, booleans and words of at most 64 bits are themselves. -/
structure Faithful (serde : Serde) : Prop where
  line {t : Tree} (ht : Plain 127 t) : '\n' ∉ serde.toString t
  braces (fields : List (String × Tree)) :
    ∃ text, serde.toString (.obj fields) = '{' :: (text ++ ['}'])
  read_back {t : Tree} (ht : Plain 127 t) : serde.fromStr (serde.toString t) = some (narrow t)
  required_self {α : Type} {fields : List (String × Tree)} {key : String} {t : Tree}
    {read : Tree → Option α} (hkey : key ∉ fields.map Prod.fst) :
    serde.required ((key, t) :: fields) key read = read t
  required_of_ne {α : Type} {fields : List (String × Tree)} {key other : String} {t : Tree}
    {read : Tree → Option α} (hne : other ≠ key) :
    serde.required ((other, t) :: fields) key read = serde.required fields key read
  optional_self {α : Type} {fields : List (String × Tree)} {key : String} {t : Tree}
    {read : Tree → Option α} (hkey : key ∉ fields.map Prod.fst) :
    serde.optional ((key, t) :: fields) key read = nullable read t
  optional_of_ne {α : Type} {fields : List (String × Tree)} {key other : String} {t : Tree}
    {read : Tree → Option α} (hne : other ≠ key) :
    serde.optional ((other, t) :: fields) key read = serde.optional fields key read
  str (s : String) : serde.readStr (.str s) = some s
  bool (b : Bool) : serde.readBool (.bool b) = some b
  word {w : ℕ} (hw : w ≤ 64) (n : Fin (2 ^ w)) : serde.readWord w (.int n.val) = some n

/-! ### Writing -/

def optionTree {α : Type} (tree : α → Tree) : Option α → Tree
  | none   => .null
  | some a => tree a

/-- An unsigned word. -/
def wordTree {w : ℕ} (n : Fin (2 ^ w)) : Tree := .int n.val

def fixedTree (z : Fixed) : Tree := .int z.val

def ChainContext.toTree (chain : ChainContext) : Tree := .obj [
  ("chain_id", wordTree chain.chainId),
  ("block_number", wordTree chain.blockNumber),
  ("block_hash", optionTree .str chain.blockHash),
  ("tx_hash", optionTree .str chain.txHash),
  ("tx_index", optionTree wordTree chain.txIndex),
  ("log_index", optionTree wordTree chain.logIndex)]

def Side.toTree : Side → Tree
  | .Buy  => .str "Buy"
  | .Sell => .str "Sell"

def MarketEvent.toTree : MarketEvent → Tree
  | .FairValue instrument price => .obj [
      ("type", .str "fair_value"), ("instrument", .str instrument), ("price", fixedTree price)]
  | .Trade venue instrument side price quantity => .obj [
      ("type", .str "trade"), ("venue", .str venue), ("instrument", .str instrument),
      ("side", side.toTree), ("price", fixedTree price), ("quantity", fixedTree quantity)]
  | .Fill venue instrument side price quantity strategyId opportunityId quoteSequence => .obj [
      ("type", .str "fill"), ("venue", .str venue), ("instrument", .str instrument),
      ("side", side.toTree), ("price", fixedTree price), ("quantity", fixedTree quantity),
      ("strategy_id", .str strategyId), ("opportunity_id", optionTree .str opportunityId),
      ("quote_sequence", optionTree wordTree quoteSequence)]
  | .PammQuote venue instrument quoteSequence bid ask maxBidQuantity maxAskQuantity validBlock
      validUntilNs => .obj [
      ("type", .str "pamm_quote"), ("venue", .str venue), ("instrument", .str instrument),
      ("quote_sequence", wordTree quoteSequence), ("bid", fixedTree bid), ("ask", fixedTree ask),
      ("max_bid_quantity", fixedTree maxBidQuantity),
      ("max_ask_quantity", fixedTree maxAskQuantity),
      ("valid_block", optionTree wordTree validBlock),
      ("valid_until_ns", wordTree validUntilNs)]
  | .BuilderTrace builder opportunityId bidWei simulated included failure => .obj [
      ("type", .str "builder_trace"), ("builder", .str builder),
      ("opportunity_id", .str opportunityId), ("bid_wei", wordTree bidWei),
      ("simulated", .bool simulated), ("included", .bool included),
      ("failure", optionTree .str failure)]
  | .BuilderSubmission builder opportunityId slot builderPaymentWei profitBeforeBidWei
      opportunityCreatedTsNs slotPhaseMs simulationConfidenceBps replaceSequence => .obj [
      ("type", .str "builder_submission"), ("builder", .str builder),
      ("opportunity_id", .str opportunityId), ("slot", wordTree slot),
      ("builder_payment_wei", wordTree builderPaymentWei),
      ("profit_before_bid_wei", wordTree profitBeforeBidWei),
      ("opportunity_created_ts_ns", wordTree opportunityCreatedTsNs),
      ("slot_phase_ms", wordTree slotPhaseMs),
      ("simulation_confidence_bps", wordTree simulationConfidenceBps),
      ("replace_sequence", optionTree wordTree replaceSequence)]
  | .BuilderOutcome builder opportunityId slot included failure => .obj [
      ("type", .str "builder_outcome"), ("builder", .str builder),
      ("opportunity_id", .str opportunityId), ("slot", wordTree slot),
      ("included", .bool included), ("failure", optionTree .str failure)]
  | .ExecutionAttempt opportunityId strategyId grossPnl gasUsed calldataBytes success => .obj [
      ("type", .str "execution_attempt"), ("opportunity_id", .str opportunityId),
      ("strategy_id", .str strategyId), ("gross_pnl", fixedTree grossPnl),
      ("gas_used", optionTree wordTree gasUsed), ("calldata_bytes", wordTree calldataBytes),
      ("success", .bool success)]
  | .InventorySnapshot asset amount => .obj [
      ("type", .str "inventory_snapshot"), ("asset", .str asset), ("amount", fixedTree amount)]
  | .CapitalState asset hot warm cold synchronouslyWithdrawable => .obj [
      ("type", .str "capital_state"), ("asset", .str asset), ("hot", fixedTree hot),
      ("warm", fixedTree warm), ("cold", fixedTree cold),
      ("synchronously_withdrawable", fixedTree synchronouslyWithdrawable)]

def EventEnvelope.toTree (event : EventEnvelope) : Tree := .obj [
  ("schema_version", wordTree event.schemaVersion),
  ("event_id", .str event.eventId),
  ("source", .str event.source),
  ("exchange_ts_ns", wordTree event.exchangeTsNs),
  ("receive_ts_ns", wordTree event.receiveTsNs),
  ("sequence", optionTree wordTree event.sequence),
  ("clock_uncertainty_ns", wordTree event.clockUncertaintyNs),
  ("chain", optionTree ChainContext.toTree event.chain),
  ("payload", event.payload.toTree)]

/-- `serde_json::to_string` -/
def EventEnvelope.toJson (serde : Serde) (event : EventEnvelope) : List Char :=
  serde.toString event.toTree

/-! ### Reading -/

/-- `str::parse` to an integer: a sign, which may be missing, and digits. -/
def parseDecimal (text : List Char) : Option ℤ :=
  let (negative, digits) := parseExponentSign text
  if digits ≠ [] ∧ digits.all Char.isDigit = true then
    some (if negative = true then -(JsonText.digits digits : ℤ) else JsonText.digits digits)
  else none

def toI128 (z : ℤ) : Option I128 :=
  if h : -2 ^ 127 ≤ z ∧ z < 2 ^ 127 then some ⟨z, h⟩ else none

def toU128 (z : ℤ) : Option U128 :=
  if h : 0 ≤ z ∧ z.toNat < 2 ^ 128 then some ⟨z.toNat, h.2⟩ else none

/-- `deserialize_i128`, which has no `visit_f64` -/
def deserializeI128 : Tree → Option I128
  | .int z => toI128 z
  | .str s => (parseDecimal s.toList).bind toI128
  | _      => none

/-- `deserialize_u128`. A text with a minus sign is no unsigned number. -/
def deserializeU128 : Tree → Option U128
  | .int z => toU128 z
  | .str s => if s.toList.head? = some '-' then none else (parseDecimal s.toList).bind toU128
  | _      => none

section Derived

variable (serde : Serde)

def readChain : Tree → Option ChainContext
  | .obj fields => do
    let chainId ← serde.required fields "chain_id" (serde.readWord 64)
    let blockNumber ← serde.required fields "block_number" (serde.readWord 64)
    let blockHash ← serde.optional fields "block_hash" serde.readStr
    let txHash ← serde.optional fields "tx_hash" serde.readStr
    let txIndex ← serde.optional fields "tx_index" (serde.readWord 32)
    let logIndex ← serde.optional fields "log_index" (serde.readWord 32)
    return { chainId, blockNumber, blockHash, txHash, txIndex, logIndex }
  | _ => none

def readSide : Tree → Option Side
  | .str "Buy"  => some .Buy
  | .str "Sell" => some .Sell
  | _           => none

section Variants

variable (fields : List (String × Tree))

def readFairValue : Option MarketEvent := do
  let instrument ← serde.required fields "instrument" serde.readStr
  let price ← serde.required fields "price" deserializeI128
  return .FairValue instrument price

def readTrade : Option MarketEvent := do
  let venue ← serde.required fields "venue" serde.readStr
  let instrument ← serde.required fields "instrument" serde.readStr
  let side ← serde.required fields "side" readSide
  let price ← serde.required fields "price" deserializeI128
  let quantity ← serde.required fields "quantity" deserializeI128
  return .Trade venue instrument side price quantity

def readFill : Option MarketEvent := do
  let venue ← serde.required fields "venue" serde.readStr
  let instrument ← serde.required fields "instrument" serde.readStr
  let side ← serde.required fields "side" readSide
  let price ← serde.required fields "price" deserializeI128
  let quantity ← serde.required fields "quantity" deserializeI128
  let strategyId ← serde.required fields "strategy_id" serde.readStr
  let opportunityId ← serde.optional fields "opportunity_id" serde.readStr
  let quoteSequence ← serde.optional fields "quote_sequence" (serde.readWord 64)
  return .Fill venue instrument side price quantity strategyId opportunityId quoteSequence

def readPammQuote : Option MarketEvent := do
  let venue ← serde.required fields "venue" serde.readStr
  let instrument ← serde.required fields "instrument" serde.readStr
  let quoteSequence ← serde.required fields "quote_sequence" (serde.readWord 64)
  let bid ← serde.required fields "bid" deserializeI128
  let ask ← serde.required fields "ask" deserializeI128
  let maxBidQuantity ← serde.required fields "max_bid_quantity" deserializeI128
  let maxAskQuantity ← serde.required fields "max_ask_quantity" deserializeI128
  let validBlock ← serde.optional fields "valid_block" (serde.readWord 64)
  let validUntilNs ← serde.required fields "valid_until_ns" (serde.readWord 64)
  return .PammQuote venue instrument quoteSequence bid ask maxBidQuantity maxAskQuantity
    validBlock validUntilNs

def readBuilderTrace : Option MarketEvent := do
  let builder ← serde.required fields "builder" serde.readStr
  let opportunityId ← serde.required fields "opportunity_id" serde.readStr
  let bidWei ← serde.required fields "bid_wei" deserializeU128
  let simulated ← serde.required fields "simulated" serde.readBool
  let included ← serde.required fields "included" serde.readBool
  let failure ← serde.optional fields "failure" serde.readStr
  return .BuilderTrace builder opportunityId bidWei simulated included failure

def readBuilderSubmission : Option MarketEvent := do
  let builder ← serde.required fields "builder" serde.readStr
  let opportunityId ← serde.required fields "opportunity_id" serde.readStr
  let slot ← serde.required fields "slot" (serde.readWord 64)
  let builderPaymentWei ← serde.required fields "builder_payment_wei" deserializeU128
  let profitBeforeBidWei ← serde.required fields "profit_before_bid_wei" deserializeU128
  let opportunityCreatedTsNs ←
    serde.required fields "opportunity_created_ts_ns" (serde.readWord 64)
  let slotPhaseMs ← serde.required fields "slot_phase_ms" (serde.readWord 32)
  let simulationConfidenceBps ←
    serde.required fields "simulation_confidence_bps" (serde.readWord 16)
  let replaceSequence ← serde.optional fields "replace_sequence" (serde.readWord 64)
  return .BuilderSubmission builder opportunityId slot builderPaymentWei profitBeforeBidWei
    opportunityCreatedTsNs slotPhaseMs simulationConfidenceBps replaceSequence

def readBuilderOutcome : Option MarketEvent := do
  let builder ← serde.required fields "builder" serde.readStr
  let opportunityId ← serde.required fields "opportunity_id" serde.readStr
  let slot ← serde.required fields "slot" (serde.readWord 64)
  let included ← serde.required fields "included" serde.readBool
  let failure ← serde.optional fields "failure" serde.readStr
  return .BuilderOutcome builder opportunityId slot included failure

def readExecutionAttempt : Option MarketEvent := do
  let opportunityId ← serde.required fields "opportunity_id" serde.readStr
  let strategyId ← serde.required fields "strategy_id" serde.readStr
  let grossPnl ← serde.required fields "gross_pnl" deserializeI128
  let gasUsed ← serde.optional fields "gas_used" (serde.readWord 64)
  let calldataBytes ← serde.required fields "calldata_bytes" (serde.readWord 32)
  let success ← serde.required fields "success" serde.readBool
  return .ExecutionAttempt opportunityId strategyId grossPnl gasUsed calldataBytes success

def readInventorySnapshot : Option MarketEvent := do
  let asset ← serde.required fields "asset" serde.readStr
  let amount ← serde.required fields "amount" deserializeI128
  return .InventorySnapshot asset amount

def readCapitalState : Option MarketEvent := do
  let asset ← serde.required fields "asset" serde.readStr
  let hot ← serde.required fields "hot" deserializeI128
  let warm ← serde.required fields "warm" deserializeI128
  let cold ← serde.required fields "cold" deserializeI128
  let synchronouslyWithdrawable ←
    serde.required fields "synchronously_withdrawable" deserializeI128
  return .CapitalState asset hot warm cold synchronouslyWithdrawable

/-- The fields of a payload with its tag. -/
def readVariant : String → Option MarketEvent
  | "fair_value"         => readFairValue serde fields
  | "trade"              => readTrade serde fields
  | "fill"               => readFill serde fields
  | "pamm_quote"         => readPammQuote serde fields
  | "builder_trace"      => readBuilderTrace serde fields
  | "builder_submission" => readBuilderSubmission serde fields
  | "builder_outcome"    => readBuilderOutcome serde fields
  | "execution_attempt"  => readExecutionAttempt serde fields
  | "inventory_snapshot" => readInventorySnapshot serde fields
  | "capital_state"      => readCapitalState serde fields
  | _                    => none

end Variants

def readPayload : Tree → Option MarketEvent
  | .obj fields => do
    let tag ← serde.required fields "type" serde.readStr
    readVariant serde fields tag
  | _ => none

def readEnvelope : Tree → Option EventEnvelope
  | .obj fields => do
    let schemaVersion ← serde.required fields "schema_version" (serde.readWord 16)
    let eventId ← serde.required fields "event_id" serde.readStr
    let source ← serde.required fields "source" serde.readStr
    let exchangeTsNs ← serde.required fields "exchange_ts_ns" (serde.readWord 64)
    let receiveTsNs ← serde.required fields "receive_ts_ns" (serde.readWord 64)
    let sequence ← serde.optional fields "sequence" (serde.readWord 64)
    let clockUncertaintyNs ← serde.required fields "clock_uncertainty_ns" (serde.readWord 64)
    let chain ← serde.optional fields "chain" (readChain serde)
    let payload ← serde.required fields "payload" (readPayload serde)
    return { schemaVersion, eventId, source, exchangeTsNs, receiveTsNs, sequence,
             clockUncertaintyNs, chain, payload }
  | _ => none

/-- `serde_json::from_str` -/
def EventEnvelope.fromJson (text : List Char) : Option EventEnvelope :=
  (serde.fromStr text).bind (readEnvelope serde)

end Derived

/-! ### Lines -/

/-- `char::is_whitespace` -/
def isWhitespace (c : Char) : Bool :=
  let n := c.toNat
  (9 ≤ n && n ≤ 13) || n = 0x20 || n = 0x85 || n = 0xA0 || n = 0x1680 ||
    (0x2000 ≤ n && n ≤ 0x200A) || n = 0x2028 || n = 0x2029 || n = 0x202F || n = 0x205F ||
    n = 0x3000

/-- `str::trim` -/
def trim (s : List Char) : List Char :=
  ((s.dropWhile isWhitespace).reverse.dropWhile isWhitespace).reverse

/-- The lines that end, and then the last one, if there is any of it. -/
def linesFrom (line : List Char) : List Char → List (List Char)
  | []        => if line = [] then [] else [line.reverse]
  | c :: rest => if c = '\n' then line.reverse :: linesFrom [] rest else linesFrom (c :: line) rest

/-- `str::lines`. The carriage return it takes off an ended line is left to `trim`. -/
def lines (s : List Char) : List (List Char) := linesFrom [] s

/-- `ReplayError::Deserialization`, without the message of the JSON reader -/
inductive JsonlError where
  | Deserialization (line : ℕ)
deriving DecidableEq

section Parsing

variable (serde : Serde)

def parseLine (line : ℕ) (json : List Char) : Except JsonlError EventEnvelope :=
  match EventEnvelope.fromJson serde json with
  | some event => .ok event
  | none       => .error (.Deserialization line)

/-- The lines from number `line` on; blank ones are skipped. -/
def parseLines : ℕ → List (List Char) → Except JsonlError (List EventEnvelope)
  | _, []               => pure []
  | line, text :: texts =>
    let trimmed := trim text
    if trimmed = [] then parseLines (line + 1) texts
    else do
      let event ← parseLine serde line trimmed
      let events ← parseLines (line + 1) texts
      return event :: events

def parseJsonl (input : List Char) : Except JsonlError (List EventEnvelope) :=
  parseLines serde 1 (lines input)

end Parsing

end Suwappu.Searcher
