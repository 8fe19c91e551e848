import Suwappu.Lib.Canonical
import Suwappu.Lib.Checked
import Suwappu.Searcher.Events

/-!
# Training rows

`training_rows_from_events` joins the submissions and outcomes of a replay into labeled rows. The
submission with the highest replace sequence stands for its order, and orders without an outcome
are left out.
-/

namespace Suwappu.Searcher

open Checked Std

structure SubmissionRecord where
  timestampNs : U64
  slot : U64
  builderPaymentWei : U128
  profitBeforeBidWei : U128
  opportunityCreatedTsNs : U64
  slotPhaseMs : U32
  simulationConfidenceBps : U16
  replaceSequence : U64
deriving DecidableEq

structure OutcomeRecord where
  slot : U64
  included : Bool
deriving DecidableEq

structure BuilderTrainingRow where
  timestampNs : U64
  builder : String
  slot : U64
  builderPaymentWei : U128
  profitBeforeBidWei : U128
  opportunityAgeMs : U64
  slotPhaseMs : U32
  simulationConfidenceBps : U16
  relayTopBidWei : Option U128
  included : Bool
deriving DecidableEq

inductive BuilderDatasetError where
  | ConflictingSubmission (builder opportunityId : String)
  | ConflictingOutcome (builder opportunityId : String)
  | SlotMismatch (builder opportunityId : String)
  | NegativeOpportunityAge
deriving DecidableEq

/-- The order of the keys `(builder, opportunity)` in a `BTreeMap`. -/
def keyCmp : OrderKey → OrderKey → Ordering :=
  compareLex (compareOn Prod.fst) (compareOn Prod.snd)

instance : TransCmp keyCmp := by
  unfold keyCmp
  infer_instance

instance : LawfulEqCmp keyCmp where
  eq_of_compare {a b} h := by
    simp only [keyCmp, compareLex_eq_eq, compareOn] at h
    exact Prod.ext (LawfulEqOrd.eq_of_compare h.1) (LawfulEqOrd.eq_of_compare h.2)

/-- The three maps of the first loop. -/
structure Dataset where
  relayTopBySlot : TreeMap U64 U128
  submissions : TreeMap OrderKey SubmissionRecord keyCmp
  outcomes : TreeMap OrderKey OutcomeRecord keyCmp

def Dataset.empty : Dataset := ⟨∅, ∅, ∅⟩

/-- `str::parse::<u64>` -/
def parseU64 (text : List Char) : Option U64 :=
  let digits := match text with
    | '+' :: rest => rest
    | _           => text
  if digits ≠ [] ∧ digits.all Char.isDigit = true then
    let n := digits.foldl (fun n c => 10 * n + (c.toNat - 48)) 0
    if h : n < 2 ^ 64 then some ⟨n, h⟩ else none
  else none

def relaySlot (opportunityId : String) : Option U64 :=
  match opportunityId.toList.splitOn ':' with
  | first :: second :: _ => if first = "relay".toList then parseU64 second else none
  | _                    => none

def Dataset.observeTrace (d : Dataset) (opportunityId : String) (bidWei : U128) : Dataset :=
  match relaySlot opportunityId with
  | some slot =>
    let top := match d.relayTopBySlot[slot]? with
      | some top => max top bidWei
      | none     => bidWei
    { d with relayTopBySlot := d.relayTopBySlot.insert slot top }
  | none      => d

def Dataset.observeSubmission (d : Dataset) (key : OrderKey) (candidate : SubmissionRecord) :
    Except BuilderDatasetError Dataset :=
  match d.submissions[key]? with
  | none          => .ok { d with submissions := d.submissions.insert key candidate }
  | some existing =>
    if candidate.replaceSequence > existing.replaceSequence then
      .ok { d with submissions := d.submissions.insert key candidate }
    else if candidate.replaceSequence = existing.replaceSequence then
      if existing ≠ candidate then .error (.ConflictingSubmission key.1 key.2) else .ok d
    else .ok d

def Dataset.observeOutcome (d : Dataset) (key : OrderKey) (candidate : OutcomeRecord) :
    Except BuilderDatasetError Dataset :=
  match d.outcomes[key]? with
  | some existing =>
    if existing ≠ candidate then .error (.ConflictingOutcome key.1 key.2) else .ok d
  | none          => .ok { d with outcomes := d.outcomes.insert key candidate }

/-- One event of the first loop. -/
def Dataset.observe (d : Dataset) (event : EventEnvelope) : Except BuilderDatasetError Dataset :=
  match event.payload with
  | .BuilderTrace _ opportunityId bidWei _ _ _ => .ok (d.observeTrace opportunityId bidWei)
  | .BuilderSubmission builder opportunityId slot builderPaymentWei profitBeforeBidWei
      opportunityCreatedTsNs slotPhaseMs simulationConfidenceBps replaceSequence =>
    d.observeSubmission (builder, opportunityId) {
      timestampNs := event.exchangeTsNs
      slot := slot
      builderPaymentWei := builderPaymentWei
      profitBeforeBidWei := profitBeforeBidWei
      opportunityCreatedTsNs := opportunityCreatedTsNs
      slotPhaseMs := slotPhaseMs
      simulationConfidenceBps := simulationConfidenceBps
      replaceSequence := replaceSequence.getD 0 }
  | .BuilderOutcome builder opportunityId slot included _ =>
    d.observeOutcome (builder, opportunityId) ⟨slot, included⟩
  | _ => .ok d

def Dataset.collect : Dataset → List EventEnvelope → Except BuilderDatasetError Dataset
  | d, []              => pure d
  | d, event :: events => do
    let d ← d.observe event
    d.collect events

/-- The row of one order, if the order has an outcome. -/
def Dataset.trainingRow (d : Dataset) (key : OrderKey) (submission : SubmissionRecord) :
    Except BuilderDatasetError (Option BuilderTrainingRow) :=
  match d.outcomes[key]? with
  | none         => .ok none
  | some outcome =>
    if outcome.slot ≠ submission.slot then .error (.SlotMismatch key.1 key.2)
    else if submission.timestampNs < submission.opportunityCreatedTsNs then
      .error .NegativeOpportunityAge
    else
      let ageNs := submission.timestampNs - submission.opportunityCreatedTsNs
      .ok (some {
        timestampNs := submission.timestampNs
        builder := key.1
        slot := submission.slot
        builderPaymentWei := submission.builderPaymentWei
        profitBeforeBidWei := submission.profitBeforeBidWei
        opportunityAgeMs := ageNs / 1000000
        slotPhaseMs := submission.slotPhaseMs
        simulationConfidenceBps := submission.simulationConfidenceBps
        relayTopBidWei := d.relayTopBySlot[submission.slot]?
        included := outcome.included })

/-- The second loop. -/
def Dataset.trainingRows (d : Dataset) :
    List (OrderKey × SubmissionRecord) → Except BuilderDatasetError (List BuilderTrainingRow)
  | []                               => pure []
  | (key, submission) :: submissions => do
    let row ← d.trainingRow key submission
    let rows ← d.trainingRows submissions
    return row.toList ++ rows

def rowCmp : BuilderTrainingRow → BuilderTrainingRow → Ordering :=
  compareLex (compareOn (·.timestampNs)) <|
  compareLex (compareOn (·.builder)) <|
  compareOn (·.slot)

def trainingRowsFromEvents (events : List EventEnvelope) :
    Except BuilderDatasetError (List BuilderTrainingRow) := do
  let d ← Dataset.empty.collect events
  let rows ← d.trainingRows d.submissions.toList
  return Canonical.sorted rowCmp rows

end Suwappu.Searcher
