import Suwappu.Lib.Checked
import Suwappu.Lib.StableSort

/-!
# The lifecycle of an execution

`execution_lifecycle`: the states of a parent order, the reducer of its events, and the replay of a
log. Decimal arithmetic is exact. A payload is what its JSON column holds; of a number, a list or a
mapping in it only the text and whether it counts as true are kept.

`reduceEvent_materialised`: of a snapshot the reducer needs no more than its materialized fields, as
long as the event and its fill are new.
-/

namespace Suwappu.Execution

open Checked

/-! ### Decimals -/

/-- A `Decimal`. -/
inductive Number where
  | finite (value : ℚ)
  | infinite (negative : Bool)
  | nan
deriving DecidableEq

/-- `str.isspace` -/
def isSpace (c : Char) : Bool :=
  c.toNat ∈ [0x9, 0xa, 0xb, 0xc, 0xd, 0x1c, 0x1d, 0x1e, 0x1f, 0x20, 0x85, 0xa0, 0x1680, 0x2000,
    0x2001, 0x2002, 0x2003, 0x2004, 0x2005, 0x2006, 0x2007, 0x2008, 0x2009, 0x200a, 0x2028, 0x2029,
    0x202f,
    0x205f, 0x3000]

/-- `str.strip` -/
def strip (text : String) : String :=
  String.ofList ((text.toList.dropWhile isSpace).reverse.dropWhile isSpace).reverse

/-- The zeros of the scripts that have decimal digits. -/
def zeros : List ℕ :=
  [0x30, 0x660, 0x6f0, 0x7c0, 0x966, 0x9e6, 0xa66, 0xae6, 0xb66, 0xbe6, 0xc66, 0xce6, 0xd66, 0xde6,
    0xe50, 0xed0, 0xf20, 0x1040, 0x1090, 0x17e0, 0x1810, 0x1946, 0x19d0, 0x1a80, 0x1a90, 0x1b50,
    0x1bb0, 0x1c40, 0x1c50, 0xa620, 0xa8d0, 0xa900, 0xa9d0, 0xa9f0, 0xaa50, 0xabf0, 0xff10, 0x104a0,
    0x10d30, 0x11066, 0x110f0, 0x11136, 0x111d0, 0x112f0, 0x11450, 0x114d0, 0x11650, 0x116c0,
    0x11730, 0x118e0, 0x11950, 0x11c50, 0x11d50, 0x11da0, 0x11f50, 0x16a60, 0x16ac0, 0x16b50,
    0x1d7ce, 0x1d7d8, 0x1d7e2, 0x1d7ec, 0x1d7f6, 0x1e140, 0x1e2f0, 0x1e4f0, 0x1e950, 0x1fbf0]

def digit? (c : Char) : Option ℕ :=
  (zeros.find? fun z => z ≤ c.toNat ∧ c.toNat < z + 10).map (c.toNat - ·)

/-- The leading digits, and what follows them. -/
def takeDigits : List Char → List ℕ × List Char
  | []      => ([], [])
  | c :: cs =>
    match digit? c with
    | some d => (d :: (takeDigits cs).1, (takeDigits cs).2)
    | none   => ([], c :: cs)

def takeSign : List Char → Bool × List Char
  | '-' :: cs => (true, cs)
  | '+' :: cs => (false, cs)
  | cs        => (false, cs)

def ofDigits (digits : List ℕ) : ℤ := digits.foldl (fun n d => 10 * n + d) 0

def exponent : List Char → Option ℤ
  | []      => some 0
  | c :: cs =>
    match takeDigits (takeSign cs).2 with
    | (d :: ds, []) =>
      if c = 'e' ∨ c = 'E' then
        some (if (takeSign cs).1 then -ofDigits (d :: ds) else ofDigits (d :: ds))
      else none
    | _ => none

/-- Digits with a point and an exponent. -/
def finite? (negative : Bool) (cs : List Char) : Option ℚ :=
  let (whole, cs) := takeDigits cs
  let (fraction, cs) := match cs with
    | '.' :: cs => takeDigits cs
    | cs        => ([], cs)
  if whole = [] ∧ fraction = [] then none
  else (exponent cs).map fun exp =>
    let exp : ℤ := exp - fraction.length
    let coeff := ofDigits (whole ++ fraction) * 10 ^ exp.toNat
    mkRat (if negative then -coeff else coeff) (10 ^ (-exp).toNat)

/-- `Decimal(text)`, where it does not raise. -/
def Number.ofString (text : String) : Option Number :=
  let (negative, cs) := takeSign ((strip text).toList.filter (· ≠ '_'))
  let lower := cs.map Char.toLower
  if lower = "inf".toList ∨ lower = "infinity".toList then some (.infinite negative)
  else if "nan".toList <+: lower ∧ (takeDigits (lower.drop 3)).2 = [] ∨
      "snan".toList <+: lower ∧ (takeDigits (lower.drop 4)).2 = [] then some .nan
  else (finite? negative cs).map .finite

/-! ### Events -/

inductive ParentState where
  | draft | quoting | ready | authorizing | scheduled | active | paused | partiallyFilled
  | reconciling | filled | cancelled | failed | expired
deriving DecidableEq, Repr

namespace ParentState

def value : ParentState → String
  | draft           => "draft"
  | quoting         => "quoting"
  | ready           => "ready"
  | authorizing     => "authorizing"
  | scheduled       => "scheduled"
  | active          => "active"
  | paused          => "paused"
  | partiallyFilled => "partial"
  | reconciling     => "reconciling"
  | filled          => "filled"
  | cancelled       => "cancelled"
  | failed          => "failed"
  | expired         => "expired"

/-- `ParentState(value)` -/
def ofValue (value : String) : Option ParentState :=
  [draft, quoting, ready, authorizing, scheduled, active, paused, partiallyFilled, reconciling,
    filled, cancelled, failed, expired].find? fun state => state.value = value

end ParentState

open ParentState in
def TERMINAL_STATES : List ParentState := [filled, cancelled, failed, expired]

open ParentState in
def ALLOWED_TRANSITIONS : ParentState → List ParentState
  | draft           => [quoting, cancelled, failed]
  | quoting         => [ready, cancelled, failed, expired]
  | ready           => [authorizing, scheduled, active, cancelled, failed, expired]
  | authorizing     => [ready, scheduled, active, reconciling, cancelled, failed, expired]
  | scheduled       => [active, paused, reconciling, cancelled, failed, expired]
  | active          => [paused, partiallyFilled, reconciling, filled, cancelled, failed]
  | paused          => [active, partiallyFilled, reconciling, filled, cancelled, failed]
  | partiallyFilled => [active, paused, reconciling, filled, cancelled, failed]
  | reconciling     => [active, paused, partiallyFilled, filled, cancelled, failed, expired]
  | filled | cancelled | failed | expired => []

inductive LifecycleError where
  | EventSequenceError | IllegalTransitionError | InvalidFillError
  /-- an order of a number and `NaN` -/
  | InvalidOperation
deriving DecidableEq, Repr

/-- A value of a payload. -/
inductive Value where
  | none
  | bool (b : Bool)
  | str (s : String)
  | other (text : String) (truthy : Bool)
deriving DecidableEq, Repr

/-- `str(value)` -/
def Value.text : Value → String
  | none         => "None"
  | bool true    => "True"
  | bool false   => "False"
  | str s        => s
  | other text _ => text

def Value.truthy : Value → Bool
  | none           => false
  | bool b         => b
  | str s          => s ≠ ""
  | other _ truthy => truthy

abbrev Payload := List (String × Value)

/-- `payload.get(key)` -/
def Payload.get (payload : Payload) (key : String) : Value := (payload.lookup key).getD .none

structure LifecycleEvent where
  eventId : String
  sequence : ℕ
  eventType : String
  payload : Payload
  fromState : Option ParentState
  toState : Option ParentState
deriving DecidableEq

structure ExecutionSnapshot where
  parentOrderId : String
  state : ParentState
  sequence : ℕ
  requestedQuantity : Option Number
  filledQuantity : ℚ
  averageFillPrice : Option ℚ
  appliedEventIds : Finset String
  appliedFillKeys : Finset String
deriving DecidableEq

/-! ### The reducer -/

def validateTransition (current target : ParentState) : Except LifecycleError Unit :=
  if current = target then .ok ()
  else if current ∈ TERMINAL_STATES then .error .IllegalTransitionError
  else if target ∉ ALLOWED_TRANSITIONS current then .error .IllegalTransitionError
  else .ok ()

def Value.state? : Value → Option ParentState
  | .none => Option.none
  | value => ParentState.ofValue value.text

/-- The state that an event names itself, or in its payload. -/
def LifecycleEvent.target (event : LifecycleEvent) (key : String) :
    Except LifecycleError ParentState :=
  match event.toState with
  | some target => .ok target
  | none        =>
    match (event.payload.get key).state? with
    | some target => .ok target
    | none        => .error .IllegalTransitionError

def positiveDecimal (value : Value) : Except LifecycleError ℚ :=
  match Number.ofString value.text with
  | some (.finite parsed) => if parsed ≤ 0 then .error .InvalidFillError else .ok parsed
  | _                     => .error .InvalidFillError

/-- `new_quantity >= requested_quantity` -/
def reaches (quantity : ℚ) : Option Number → Except LifecycleError Bool
  | none                      => .ok false
  | some (.finite requested)  => .ok (requested ≤ quantity)
  | some (.infinite negative) => .ok negative
  | some .nan                 => .error .InvalidOperation

def advance (snapshot : ExecutionSnapshot) (event : LifecycleEvent) : ExecutionSnapshot :=
  { snapshot with
    sequence := event.sequence
    appliedEventIds := insert event.eventId snapshot.appliedEventIds }

def LifecycleEvent.fillKey (event : LifecycleEvent) : String :=
  let key := event.payload.get "fill_key"
  if key.truthy then key.text else event.eventId

/-- `fill_recorded` -/
def reduceFill (snapshot : ExecutionSnapshot) (event : LifecycleEvent) :
    Except LifecycleError ExecutionSnapshot :=
  if event.fillKey ∈ snapshot.appliedFillKeys then .ok (advance snapshot event)
  else do
    let quantity ← positiveDecimal (event.payload.get "quantity")
    let price ← positiveDecimal (event.payload.get "price")
    let previousNotional := snapshot.averageFillPrice.elim 0 (snapshot.filledQuantity * ·)
    let newQuantity := snapshot.filledQuantity + quantity
    let newAverage := (previousNotional + quantity * price) / newQuantity
    let reached ← reaches newQuantity snapshot.requestedQuantity
    let target := if reached then .filled else .partiallyFilled
    validateTransition snapshot.state target
    .ok (advance { snapshot with
      state := target
      filledQuantity := newQuantity
      averageFillPrice := some newAverage
      appliedFillKeys := insert event.fillKey snapshot.appliedFillKeys } event)

def reduceEvent (snapshot : ExecutionSnapshot) (event : LifecycleEvent) :
    Except LifecycleError ExecutionSnapshot :=
  if event.eventId ∈ snapshot.appliedEventIds then .ok snapshot
  else if event.sequence ≠ snapshot.sequence + 1 then .error .EventSequenceError
  else if event.fromState.any (· ≠ snapshot.state) then .error .IllegalTransitionError
  else if event.eventType = "parent_state_changed" then do
    let target ← event.target "to_state"
    validateTransition snapshot.state target
    .ok (advance { snapshot with state := target } event)
  else if event.eventType = "reconciliation_started" then do
    validateTransition snapshot.state .reconciling
    .ok (advance { snapshot with state := .reconciling } event)
  else if event.eventType = "reconciliation_resolved" then do
    guard (snapshot.state = .reconciling) .IllegalTransitionError
    let target ← event.target "resolved_state"
    validateTransition snapshot.state target
    .ok (advance { snapshot with state := target } event)
  else if event.eventType = "fill_recorded" then reduceFill snapshot event
  else .ok (advance snapshot event)

def ExecutionSnapshot.new (parentOrderId : String) (requestedQuantity : Option Number) :
    ExecutionSnapshot :=
  ⟨parentOrderId, .draft, 0, requestedQuantity, 0, none, ∅, ∅⟩

def replay (parentOrderId : String) (events : List LifecycleEvent)
    (requestedQuantity : Option Number) : Except LifecycleError ExecutionSnapshot :=
  (events.insertionSort fun a b => a.sequence ≤ b.sequence).foldlM reduceEvent
    (.new parentOrderId requestedQuantity)

/-! ### What the reducer reads -/

/-- A snapshot without what was applied to it, as a parent order has it. -/
def ExecutionSnapshot.materialised (snapshot : ExecutionSnapshot) : ExecutionSnapshot :=
  { snapshot with appliedEventIds := ∅, appliedFillKeys := ∅ }

variable {s s' : ExecutionSnapshot} {event : LifecycleEvent}

lemma validateTransition_self (state : ParentState) : validateTransition state state = .ok () :=
  if_pos rfl

lemma reduceFill_materialised (hkey : event.fillKey ∉ s.appliedFillKeys) :
    (reduceFill s.materialised event).map ExecutionSnapshot.materialised =
      (reduceFill s event).map ExecutionSnapshot.materialised := by
  have hnone : event.fillKey ∉ s.materialised.appliedFillKeys := Finset.notMem_empty _
  rw [reduceFill, if_neg hnone, reduceFill, if_neg hkey]
  dsimp only [ExecutionSnapshot.materialised]
  refine map_bind_congr fun quantity => map_bind_congr fun price => map_bind_congr fun reached =>
    map_bind_congr fun _ => ?_
  simp only [Except.map, advance, ExecutionSnapshot.materialised]

/-- The sets of a snapshot matter only for events that were applied, and for fills. -/
lemma reduceEvent_materialised (hid : event.eventId ∉ s.appliedEventIds)
    (hkey : event.eventType = "fill_recorded" → event.fillKey ∉ s.appliedFillKeys) :
    (reduceEvent s.materialised event).map ExecutionSnapshot.materialised =
      (reduceEvent s event).map ExecutionSnapshot.materialised := by
  have hnone : event.eventId ∉ s.materialised.appliedEventIds := Finset.notMem_empty _
  rw [reduceEvent, if_neg hnone, reduceEvent, if_neg hid]
  refine map_ite_congr Iff.rfl (fun _ => rfl) fun _ => map_ite_congr Iff.rfl (fun _ => rfl) fun _ =>
    map_ite_congr Iff.rfl (fun _ => ?_) fun _ => map_ite_congr Iff.rfl (fun _ => ?_) fun _ =>
    map_ite_congr Iff.rfl (fun _ => ?_) fun _ => map_ite_congr Iff.rfl
      (fun hfill => reduceFill_materialised (hkey hfill)) fun _ => rfl
  · exact map_bind_congr fun target => map_bind_congr fun _ => rfl
  · exact map_bind_congr fun _ => rfl
  · exact map_bind_congr fun _ => map_bind_congr fun target => map_bind_congr fun _ => rfl

/-- What an event that was not applied yet does to a snapshot. -/
inductive Reduces (s : ExecutionSnapshot) (event : LifecycleEvent) : ExecutionSnapshot → Prop where
  | state (state : ParentState)
      (hfill : event.eventType = "fill_recorded" → event.fillKey ∈ s.appliedFillKeys)
      (hstate : validateTransition s.state state = .ok ()) :
      Reduces s event (advance { s with state := state } event)
  | fill (quantity price : ℚ) (reached : Bool) (hfill : event.eventType = "fill_recorded")
      (hkey : event.fillKey ∉ s.appliedFillKeys)
      (hquantity : positiveDecimal (event.payload.get "quantity") = .ok quantity)
      (hprice : positiveDecimal (event.payload.get "price") = .ok price)
      (hreached : reaches (s.filledQuantity + quantity) s.requestedQuantity = .ok reached)
      (hstate : validateTransition s.state (if reached then .filled else .partiallyFilled) =
        .ok ()) :
      Reduces s event (advance { s with
        state := if reached then .filled else .partiallyFilled
        filledQuantity := s.filledQuantity + quantity
        averageFillPrice := some ((s.averageFillPrice.elim 0 (s.filledQuantity * ·) +
          quantity * price) / (s.filledQuantity + quantity))
        appliedFillKeys := insert event.fillKey s.appliedFillKeys } event)

lemma reduceFill_reduces (hfill : event.eventType = "fill_recorded")
    (h : reduceFill s event = .ok s') : Reduces s event s' := by
  unfold reduceFill at h
  split_ifs at h with hkey
  · cases h
    exact .state s.state (fun _ => hkey) (validateTransition_self _)
  · simp only [bind_ok_iff] at h
    obtain ⟨quantity, hquantity, price, hprice, reached, hreached, ⟨⟩, hstate, h⟩ := h
    cases h
    exact .fill quantity price reached hfill hkey hquantity hprice hreached hstate

lemma reduceEvent_reduces (hid : event.eventId ∉ s.appliedEventIds)
    (h : reduceEvent s event = .ok s') :
    event.sequence = s.sequence + 1 ∧ Reduces s event s' := by
  rw [reduceEvent, if_neg hid] at h
  split_ifs at h with hseq hfrom hchanged hstarted hresolved hfill
  all_goals refine ⟨not_not.mp hseq, ?_⟩
  · simp only [bind_ok_iff] at h
    obtain ⟨target, -, ⟨⟩, hstate, h⟩ := h
    cases h
    exact .state target (fun hfill => absurd (hchanged.symm.trans hfill) (by decide)) hstate
  · simp only [bind_ok_iff] at h
    obtain ⟨⟨⟩, hstate, h⟩ := h
    cases h
    exact .state .reconciling (fun hfill => absurd (hstarted.symm.trans hfill) (by decide)) hstate
  · simp only [bind_ok_iff] at h
    obtain ⟨-, -, target, -, ⟨⟩, hstate, h⟩ := h
    cases h
    exact .state target (fun hfill => absurd (hresolved.symm.trans hfill) (by decide)) hstate
  · exact reduceFill_reduces hfill h
  · cases h
    exact .state s.state (fun htype => absurd htype hfill) (validateTransition_self _)

namespace Reduces

lemma sequence (h : Reduces s event s') : s'.sequence = event.sequence := by
  cases h <;> rfl

lemma appliedEventIds (h : Reduces s event s') :
    s'.appliedEventIds = insert event.eventId s.appliedEventIds := by
  cases h <;> rfl

lemma parentOrderId (h : Reduces s event s') : s'.parentOrderId = s.parentOrderId := by
  cases h <;> rfl

lemma requestedQuantity (h : Reduces s event s') : s'.requestedQuantity = s.requestedQuantity := by
  cases h <;> rfl

/-- A key that was applied is that of a fill. -/
lemma appliedFillKeys (h : Reduces s event s') {key : String} (hkey : key ∈ s'.appliedFillKeys) :
    key ∈ s.appliedFillKeys ∨ event.eventType = "fill_recorded" ∧ event.fillKey = key := by
  cases h with
  | state => exact .inl hkey
  | fill _ _ _ hfill =>
    rcases Finset.mem_insert.mp hkey with rfl | hkey
    · exact .inr ⟨hfill, rfl⟩
    · exact .inl hkey

end Reduces

end Suwappu.Execution
