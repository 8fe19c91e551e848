import Suwappu.Searcher.EventSerde

/-!
# Events read back

The readers of 128-bit integers know no floats, so that a payload is read back when its integers fit
64-bit words, and only then. `parseJsonl_toJsonl_iff` says so of single lines and of whole files.
-/

namespace Suwappu.Searcher

open Checked JsonText

variable {serde : Serde}

/-! ### Integers -/

lemma Faithful.word_narrow (hserde : Faithful serde) {w : ℕ} (hw : w ≤ 64) (n : Fin (2 ^ w)) :
    serde.readWord w (narrow (wordTree n)) = some n := by
  have hlt : n.val < 2 ^ 64 := n.isLt.trans_le (Nat.pow_le_pow_right (by decide) hw)
  have hfits : Fits n.val := ⟨by omega, by omega⟩
  rw [wordTree, narrow, narrowInt, if_pos hfits, hserde.word hw]

lemma toI128_val (z : I128) : toI128 z.val = some z := dif_pos z.2

lemma toU128_val (n : U128) : toU128 n.val = some n := by
  rw [toU128, dif_pos (by simp)]
  simp

section Bind

variable {β : Type} {f : Fixed → Option β} {g : U128 → Option β} {b : β}

lemma bind_deserializeI128 {z : Fixed} :
    (deserializeI128 (narrow (fixedTree z))).bind f = some b ↔ Fits z.val ∧ f z = some b := by
  rw [fixedTree, narrow, narrowInt]
  split_ifs with h
  · simp [deserializeI128, toI128_val, h]
  · simp [deserializeI128, h]

lemma bind_deserializeU128 {n : U128} :
    (deserializeU128 (narrow (wordTree n))).bind g = some b ↔ Fits n.val ∧ g n = some b := by
  rw [wordTree, narrow, narrowInt]
  split_ifs with h
  · simp [deserializeU128, toU128_val, h]
  · simp [deserializeU128, h]

end Bind

/-! ### Fields that are read back -/

section Fields

variable {α : Type} {fields : List (String × Tree)} {key other : String} {t : Tree}
  {read : Tree → Option α}

lemma keys_narrowFields (fields : List (String × Tree)) :
    (narrowFields fields).map Prod.fst = fields.map Prod.fst := by
  induction fields with
  | nil => rfl
  | cons field fields ih =>
    obtain ⟨key, t⟩ := field
    rw [narrowFields, List.map_cons, List.map_cons, ih]

lemma Faithful.required_narrow_self (hserde : Faithful serde) (h : key ∉ fields.map Prod.fst) :
    serde.required (narrowFields ((key, t) :: fields)) key read = read (narrow t) :=
  hserde.required_self (by rwa [keys_narrowFields])

lemma Faithful.required_narrow_of_ne (hserde : Faithful serde) (h : other ≠ key) :
    serde.required (narrowFields ((other, t) :: fields)) key read =
      serde.required (narrowFields fields) key read := hserde.required_of_ne h

lemma Faithful.optional_narrow_self (hserde : Faithful serde) (h : key ∉ fields.map Prod.fst) :
    serde.optional (narrowFields ((key, t) :: fields)) key read = nullable read (narrow t) :=
  hserde.optional_self (by rwa [keys_narrowFields])

lemma Faithful.optional_narrow_of_ne (hserde : Faithful serde) (h : other ≠ key) :
    serde.optional (narrowFields ((other, t) :: fields)) key read =
      serde.optional (narrowFields fields) key read := hserde.optional_of_ne h

/-- A value that may be missing is read back when it is where it stands. -/
lemma nullable_narrow {tree : α → Tree} (hread : ∀ a, read (narrow (tree a)) = some a)
    (hnull : ∀ a, narrow (tree a) ≠ .null) (o : Option α) :
    nullable read (narrow (optionTree tree o)) = some o := by
  cases o with
  | none => rfl
  | some a =>
    rw [optionTree]
    unfold nullable
    split
    · rename_i heq
      exact absurd heq (hnull a)
    · rw [hread, Option.map_some]

end Fields

lemma readSide_narrow (side : Side) : readSide (narrow side.toTree) = some side := by
  cases side <;> rfl

lemma narrow_word_ne_null {w : ℕ} (n : Fin (2 ^ w)) : narrow (wordTree n) ≠ .null := by
  rw [wordTree, narrow, narrowInt]
  split <;> exact Tree.noConfusion

lemma Faithful.nullable_str (hserde : Faithful serde) (o : Option String) :
    nullable serde.readStr (narrow (optionTree .str o)) = some o :=
  nullable_narrow hserde.str (fun _ => Tree.noConfusion) o

lemma Faithful.nullable_word (hserde : Faithful serde) {w : ℕ} (hw : w ≤ 64)
    (o : Option (Fin (2 ^ w))) :
    nullable (serde.readWord w) (narrow (optionTree wordTree o)) = some o :=
  nullable_narrow (hserde.word_narrow hw) narrow_word_ne_null o

/-- The integers of 128 bits. -/
def MarketEvent.wide : MarketEvent → List ℤ
  | .FairValue _ price => [price.val]
  | .Trade _ _ _ price quantity => [price.val, quantity.val]
  | .Fill _ _ _ price quantity _ _ _ => [price.val, quantity.val]
  | .PammQuote _ _ _ bid ask maxBidQuantity maxAskQuantity _ _ =>
    [bid.val, ask.val, maxBidQuantity.val, maxAskQuantity.val]
  | .BuilderTrace _ _ bidWei _ _ _ => [bidWei.val]
  | .BuilderSubmission _ _ _ builderPaymentWei profitBeforeBidWei _ _ _ _ =>
    [builderPaymentWei.val, profitBeforeBidWei.val]
  | .BuilderOutcome .. => []
  | .ExecutionAttempt _ _ grossPnl _ _ _ => [grossPnl.val]
  | .InventorySnapshot _ amount => [amount.val]
  | .CapitalState _ hot warm cold synchronouslyWithdrawable =>
    [hot.val, warm.val, cold.val, synchronouslyWithdrawable.val]

/-- Every integer of the payload fits a word. -/
def MarketEvent.Narrow (payload : MarketEvent) : Prop := ∀ z ∈ payload.wide, Fits z

instance MarketEvent.decidableNarrow (payload : MarketEvent) : Decidable payload.Narrow :=
  inferInstanceAs (Decidable (∀ z ∈ payload.wide, Fits z))

lemma Faithful.str_narrow (hserde : Faithful serde) (s : String) :
    serde.readStr (narrow (.str s)) = some s := hserde.str s

lemma Faithful.bool_narrow (hserde : Faithful serde) (b : Bool) :
    serde.readBool (narrow (.bool b)) = some b := hserde.bool b

lemma readPayload_obj (fields : List (String × Tree)) :
    readPayload serde (.obj fields) =
      (serde.required fields "type" serde.readStr).bind (readVariant serde fields) := rfl

lemma readChain_narrow (hserde : Faithful serde) (chain : ChainContext) :
    readChain serde (narrow chain.toTree) = some chain := by
  rw [ChainContext.toTree, narrow, readChain]
  simp only [hserde.required_narrow_self, hserde.required_narrow_of_ne,
    hserde.optional_narrow_self, hserde.optional_narrow_of_ne, List.map_cons, List.map_nil,
    List.mem_cons, List.not_mem_nil, String.reduceEq, String.reduceNe, or_self, not_false_eq_true,
    Option.bind_eq_bind, Option.bind_some, Option.pure_def, hserde.nullable_str,
    hserde.word_narrow (show 64 ≤ 64 from le_rfl), hserde.nullable_word (show 32 ≤ 64 by decide)]

lemma nullable_chain (hserde : Faithful serde) (o : Option ChainContext) :
    nullable (readChain serde) (narrow (optionTree ChainContext.toTree o)) = some o :=
  nullable_narrow (readChain_narrow hserde) (fun _ => Tree.noConfusion) o

theorem readPayload_narrow (hserde : Faithful serde) {payload payload' : MarketEvent} :
    readPayload serde (narrow payload.toTree) = some payload' ↔
      payload.Narrow ∧ payload = payload' := by
  cases payload
  all_goals
    rw [MarketEvent.toTree, narrow, readPayload_obj, hserde.required_narrow_self (by simp),
      hserde.str_narrow, Option.bind_some, readVariant]
    simp -implicitDefEqProofs only [readFairValue, readTrade, readFill, readPammQuote,
      readBuilderTrace, readBuilderSubmission, readBuilderOutcome, readExecutionAttempt,
      readInventorySnapshot, readCapitalState, hserde.required_narrow_self,
      hserde.required_narrow_of_ne, hserde.optional_narrow_self, hserde.optional_narrow_of_ne,
      List.map_cons, List.map_nil, List.mem_cons, List.not_mem_nil, String.reduceEq,
      String.reduceNe, or_self, not_false_eq_true, Option.bind_eq_bind, Option.bind_some,
      Option.pure_def, hserde.str_narrow, hserde.bool_narrow, readSide_narrow, hserde.nullable_str,
      hserde.word_narrow (show 64 ≤ 64 from le_rfl), hserde.word_narrow (show 32 ≤ 64 by decide),
      hserde.word_narrow (show 16 ≤ 64 by decide), hserde.nullable_word (show 64 ≤ 64 from le_rfl),
      bind_deserializeI128, bind_deserializeU128, MarketEvent.Narrow, MarketEvent.wide, or_false,
      forall_eq_or_imp, forall_eq, IsEmpty.forall_iff, implies_true, true_and, and_assoc,
      Option.some.injEq]

/-- An envelope is read back exactly when its payload is narrow. -/
theorem readEnvelope_narrow (hserde : Faithful serde) {event event' : EventEnvelope} :
    readEnvelope serde (narrow event.toTree) = some event' ↔
      event.payload.Narrow ∧ event = event' := by
  have hpayload : ∀ f : MarketEvent → Option EventEnvelope,
      (readPayload serde (narrow event.payload.toTree)).bind f = some event' ↔
        event.payload.Narrow ∧ f event.payload = some event' := by
    intro f
    rw [Option.bind_eq_some_iff]
    simp only [readPayload_narrow hserde, and_assoc, exists_and_left, exists_eq_left']
  rw [EventEnvelope.toTree, narrow, readEnvelope]
  simp only [hserde.required_narrow_self, hserde.required_narrow_of_ne,
    hserde.optional_narrow_self, hserde.optional_narrow_of_ne, List.map_cons, List.map_nil,
    List.mem_cons, List.not_mem_nil, String.reduceEq, String.reduceNe, or_self, not_false_eq_true,
    Option.bind_eq_bind, Option.bind_some, Option.pure_def, hserde.str_narrow,
    nullable_chain hserde, hserde.word_narrow (show 64 ≤ 64 from le_rfl),
    hserde.word_narrow (show 16 ≤ 64 by decide), hserde.nullable_word (show 64 ≤ 64 from le_rfl),
    hpayload, Option.some.injEq]

/-! ### Text -/

lemma plain_word {w depth : ℕ} (hw : w ≤ 128) (n : Fin (2 ^ w)) : Plain depth (wordTree n) :=
  .of_lt (lt_of_lt_of_le n.isLt (Nat.pow_le_pow_right two_pos hw))

lemma plain_fixed {depth : ℕ} (z : Fixed) : Plain depth (fixedTree z) := by
  refine .of_lt ?_
  have hz := z.2
  omega

lemma plain_option {α : Type} {tree : α → Tree} {depth : ℕ} (h : ∀ a, Plain depth (tree a))
    (o : Option α) : Plain depth (optionTree tree o) := by
  cases o with
  | none => exact .null
  | some a => exact h a

lemma plain_side {depth : ℕ} (side : Side) : Plain depth side.toTree := by
  cases side <;> exact .str _

lemma plain_chain {depth : ℕ} (chain : ChainContext) : Plain (depth + 1) chain.toTree := by
  refine .obj ?_
  simp only [List.forall_mem_cons, List.not_mem_nil, IsEmpty.forall_iff, implies_true,
    plain_option Plain.str, plain_word (show 64 ≤ 128 by decide),
    plain_option (plain_word (show 32 ≤ 128 by decide)), and_self]

lemma plain_payload {depth : ℕ} (payload : MarketEvent) : Plain (depth + 1) payload.toTree := by
  cases payload
  all_goals
    refine .obj ?_
    simp only [List.forall_mem_cons, List.not_mem_nil, IsEmpty.forall_iff, implies_true, Plain.str,
      Plain.bool, plain_fixed, plain_side, plain_option Plain.str,
      plain_word (show 16 ≤ 128 by decide), plain_word (show 32 ≤ 128 by decide),
      plain_word (show 64 ≤ 128 by decide), plain_word (show 128 ≤ 128 from le_rfl),
      plain_option (plain_word (show 64 ≤ 128 by decide)), and_self]

lemma plain_event (event : EventEnvelope) : Plain 127 event.toTree := by
  refine .obj ?_
  simp only [List.forall_mem_cons, List.not_mem_nil, IsEmpty.forall_iff, implies_true, Plain.str,
    plain_word (show 16 ≤ 128 by decide), plain_word (show 64 ≤ 128 by decide),
    plain_option (plain_word (show 64 ≤ 128 by decide)), plain_option plain_chain, plain_payload,
    and_self]

/-- A written envelope is read back exactly when its payload is narrow. -/
theorem fromJson_toJson (hserde : Faithful serde) {event event' : EventEnvelope} :
    EventEnvelope.fromJson serde (event.toJson serde) = some event' ↔
      event.payload.Narrow ∧ event = event' := by
  rw [EventEnvelope.fromJson, EventEnvelope.toJson, hserde.read_back (plain_event event),
    Option.bind_some, readEnvelope_narrow hserde]

/-! ### Lines -/

variable {text rest : List Char} {texts : List (List Char)} {event : EventEnvelope}
  {events events' : List EventEnvelope}

lemma linesFrom_append (h : '\n' ∉ text) (line : List Char) :
    linesFrom line (text ++ '\n' :: rest) = (line.reverse ++ text) :: lines rest := by
  induction text generalizing line with
  | nil => rw [List.nil_append, linesFrom, if_pos rfl, List.append_nil, lines]
  | cons c text ih =>
    obtain ⟨hc, htext⟩ := not_or.mp (List.mem_cons.not.mp h)
    rw [List.cons_append, linesFrom, if_neg (Ne.symm hc), ih htext]
    simp

lemma linesFrom_last (h : '\n' ∉ text) (line : List Char) (hne : line ++ text ≠ []) :
    linesFrom line text = [line.reverse ++ text] := by
  induction text generalizing line with
  | nil =>
    rw [List.append_nil] at hne
    rw [linesFrom, if_neg hne, List.append_nil]
  | cons c text ih =>
    obtain ⟨hc, htext⟩ := not_or.mp (List.mem_cons.not.mp h)
    rw [linesFrom, if_neg (Ne.symm hc), ih htext _ (by simp)]
    simp

/-- A text that starts and ends visibly. -/
lemma trim_eq_self {first last : Char} (hfirst : isWhitespace first = false)
    (hlast : isWhitespace last = false) (text : List Char) :
    trim (first :: (text ++ [last])) = first :: (text ++ [last]) := by
  have hreverse : (first :: (text ++ [last])).reverse = last :: (first :: text).reverse := by
    simp
  rw [trim, List.dropWhile_cons_of_neg (by simp [hfirst]), hreverse,
    List.dropWhile_cons_of_neg (by simp [hlast]), ← hreverse, List.reverse_reverse]

lemma toJson_eq (hserde : Faithful serde) (event : EventEnvelope) :
    ∃ text, event.toJson serde = '{' :: (text ++ ['}']) := hserde.braces _

lemma newline_notMem_toJson (hserde : Faithful serde) (event : EventEnvelope) :
    '\n' ∉ event.toJson serde := hserde.line (plain_event event)

lemma trim_toJson (hserde : Faithful serde) (event : EventEnvelope) :
    trim (event.toJson serde) = event.toJson serde := by
  obtain ⟨text, htext⟩ := toJson_eq hserde event
  rw [htext]
  exact trim_eq_self (by decide) (by decide) text

lemma toJson_ne_nil (hserde : Faithful serde) (event : EventEnvelope) :
    event.toJson serde ≠ [] := by
  obtain ⟨text, htext⟩ := toJson_eq hserde event
  rw [htext]
  exact List.cons_ne_nil _ _

/-- One line for each event. -/
def toJsonl (serde : Serde) (events : List EventEnvelope) : List Char :=
  events.flatMap fun event => event.toJson serde ++ ['\n']

lemma lines_toJsonl (hserde : Faithful serde) (events : List EventEnvelope) :
    lines (toJsonl serde events) = events.map (EventEnvelope.toJson serde) := by
  induction events with
  | nil => rfl
  | cons event events ih =>
    rw [toJsonl, List.flatMap_cons, List.append_assoc, List.singleton_append, lines,
      linesFrom_append (newline_notMem_toJson hserde event), List.map_cons, ← ih]
    rfl

lemma lines_toJson (hserde : Faithful serde) (event : EventEnvelope) :
    lines (event.toJson serde) = [event.toJson serde] :=
  linesFrom_last (newline_notMem_toJson hserde event) [] (toJson_ne_nil hserde event)

lemma parseLine_toJson (hserde : Faithful serde) {line : ℕ} {event' : EventEnvelope} :
    parseLine serde line (event.toJson serde) = .ok event' ↔
      event.payload.Narrow ∧ event = event' := by
  rw [← fromJson_toJson hserde, parseLine]
  cases EventEnvelope.fromJson serde (event.toJson serde) <;> simp

/-- The lines of some events are read back exactly when every payload is narrow. -/
lemma parseLines_toJson (hserde : Faithful serde) {line : ℕ} :
    parseLines serde line (events.map (EventEnvelope.toJson serde)) = .ok events' ↔
      (∀ event ∈ events, event.payload.Narrow) ∧ events = events' := by
  induction events generalizing line events' with
  | nil => simp [parseLines]
  | cons event events ih =>
    rw [List.map_cons, parseLines]
    simp only [trim_toJson hserde, toJson_ne_nil hserde, if_false, bind_ok_iff,
      parseLine_toJson hserde, ih, pure_ok_iff, List.forall_mem_cons]
    constructor
    · rintro ⟨_, ⟨hevent, rfl⟩, _, ⟨hevents, rfl⟩, rfl⟩
      exact ⟨⟨hevent, hevents⟩, rfl⟩
    · rintro ⟨⟨hevent, hevents⟩, rfl⟩
      exact ⟨_, ⟨hevent, rfl⟩, _, ⟨hevents, rfl⟩, rfl⟩

/-- Events are read back from their lines exactly when every 128-bit integer fits a word. -/
theorem parseJsonl_toJsonl_iff (hserde : Faithful serde) (event : EventEnvelope)
    (events : List EventEnvelope) :
    (parseJsonl serde (event.toJson serde) = .ok [event] ↔ event.payload.Narrow) ∧
      (parseJsonl serde (toJsonl serde events) = .ok events ↔
        ∀ event ∈ events, event.payload.Narrow) := by
  constructor
  · have hread : parseLines serde 1 ([event].map (EventEnvelope.toJson serde)) = .ok [event] ↔ _ :=
      parseLines_toJson hserde
    rw [parseJsonl, lines_toJson hserde]
    simpa using hread
  · rw [parseJsonl, lines_toJsonl hserde, parseLines_toJson hserde]
    simp

/-- A price in its envelope. -/
def fairValue (price : Fixed) : EventEnvelope where
  schemaVersion := 1
  eventId := "e"
  source := "s"
  exchangeTsNs := 0
  receiveTsNs := 0
  sequence := none
  clockUncertaintyNs := 0
  chain := some ⟨1, 2, some "0xb", none, some 3, none⟩
  payload := .FairValue "ETH" price

/-- A price that fits no word. -/
def wideFairValue : EventEnvelope := fairValue ⟨2 ^ 64, by norm_num⟩

theorem wideFairValue_not_read :
    parseJsonl textSerde (wideFairValue.toJson textSerde) ≠ .ok [wideFairValue] := by
  decide +kernel

/-- A payment to a builder, with a reason that has a line break in it. -/
def bundle (bidWei : U128) : EventEnvelope where
  schemaVersion := 1
  eventId := "b"
  source := "s"
  exchangeTsNs := 0
  receiveTsNs := 0
  sequence := some 5
  clockUncertaintyNs := 0
  chain := none
  payload := .BuilderTrace "relay" "o" bidWei true false (some "late\n\"bid\"")

/-- Both ends of a word are read back, and what is one above it is not. -/
theorem parseJsonl_toJsonl_iff_bundle :
    parseJsonl textSerde (toJsonl textSerde [fairValue ⟨-2 ^ 63, by decide⟩,
        bundle ⟨2 ^ 64 - 1, by decide⟩]) =
      .ok [fairValue ⟨-2 ^ 63, by decide⟩, bundle ⟨2 ^ 64 - 1, by decide⟩] ∧
    parseJsonl textSerde ((bundle ⟨2 ^ 64, by decide⟩).toJson textSerde) ≠
      .ok [bundle ⟨2 ^ 64, by decide⟩] := by
  constructor
  · refine (parseJsonl_toJsonl_iff textSerde_faithful wideFairValue _).2.mpr ?_
    decide +kernel
  · rw [Ne, (parseJsonl_toJsonl_iff textSerde_faithful _ []).1]
    decide +kernel

end Suwappu.Searcher
