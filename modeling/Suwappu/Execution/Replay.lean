import Suwappu.Execution.Lifecycle

/-!
# What a replay adds up to

`replay_sums`: a replay that succeeds has filled what the fills it applied add up to, one for each
fill key, stays in a terminal state, is filled once it has what was requested, and is not changed
by copies of events that it applied. `skipped_fill`: a fill with the id of another event is not one
of them.
-/

namespace Suwappu.Execution

open Checked StableSort

abbrev Precedes (a b : LifecycleEvent) : Prop := a.sequence ≤ b.sequence

/-- The events of a list that are not skipped for their id. -/
def applied (s : ExecutionSnapshot) : List LifecycleEvent → List LifecycleEvent
  | []          => []
  | event :: es =>
    if event.eventId ∈ s.appliedEventIds then applied s es
    else match reduceEvent s event with
      | .ok s'   => event :: applied s' es
      | .error _ => []

/-- The events that a replay applies. -/
def appliedEvents (parentOrderId : String) (events : List LifecycleEvent)
    (requestedQuantity : Option Number) : List LifecycleEvent :=
  applied (.new parentOrderId requestedQuantity) (events.insertionSort Precedes)

/-- The first fill of each key. -/
def distinctFills (seen : Finset String) : List LifecycleEvent → List LifecycleEvent
  | []          => []
  | event :: es =>
    if event.eventType = "fill_recorded" ∧ event.fillKey ∉ seen then
      event :: distinctFills (insert event.fillKey seen) es
    else distinctFills seen es

def LifecycleEvent.quantity (event : LifecycleEvent) : ℚ :=
  (positiveDecimal (event.payload.get "quantity")).toOption.getD 0

def LifecycleEvent.price (event : LifecycleEvent) : ℚ :=
  (positiveDecimal (event.payload.get "price")).toOption.getD 0

def LifecycleEvent.notional (event : LifecycleEvent) : ℚ := event.quantity * event.price

/-- What holds of a snapshot that was replayed from some events. -/
structure ReplaySound (parentOrderId : String) (events : List LifecycleEvent)
    (requestedQuantity : Option Number) (fills : List LifecycleEvent)
    (snapshot : ExecutionSnapshot) : Prop where
  filledQuantity : snapshot.filledQuantity = (fills.map LifecycleEvent.quantity).sum
  notional : snapshot.filledQuantity * snapshot.averageFillPrice.getD 0 =
    (fills.map LifecycleEvent.notional).sum
  terminal : ∀ before after s, events.insertionSort Precedes = before ++ after →
    before.foldlM reduceEvent (.new parentOrderId requestedQuantity) = .ok s →
      s.state ∈ TERMINAL_STATES → snapshot.state = s.state
  filled : requestedQuantity.isSome → fills ≠ [] →
    reaches snapshot.filledQuantity requestedQuantity = .ok true → snapshot.state = .filled
  copies : ∀ events', Copies (· ∈ appliedEvents parentOrderId events requestedQuantity)
    events events' → replay parentOrderId events' requestedQuantity = .ok snapshot

/-! ### Runs of the reducer -/

variable {s s' : ExecutionSnapshot} {event e : LifecycleEvent} {events u v : List LifecycleEvent}
  {requestedQuantity : Option Number}

lemma reduceEvent_skip (h : event.eventId ∈ s.appliedEventIds) : reduceEvent s event = .ok s :=
  if_pos h

lemma foldlM_cons_ok (h : (event :: events).foldlM reduceEvent s = .ok s') :
    ∃ next, reduceEvent s event = .ok next ∧ events.foldlM reduceEvent next = .ok s' := by
  rw [List.foldlM_cons, bind_ok_iff] at h
  exact h

lemma foldlM_append_ok : (u ++ v).foldlM reduceEvent s = .ok s' ↔
    ∃ mid, u.foldlM reduceEvent s = .ok mid ∧ v.foldlM reduceEvent mid = .ok s' := by
  rw [List.foldlM_append, bind_ok_iff]

/-- An event is skipped, or reduced. -/
lemma reduceEvent_cases (h : reduceEvent s event = .ok s') :
    (event.eventId ∈ s.appliedEventIds ∧ s' = s) ∨
      event.eventId ∉ s.appliedEventIds ∧ event.sequence = s.sequence + 1 ∧ Reduces s event s' := by
  by_cases hid : event.eventId ∈ s.appliedEventIds
  · rw [reduceEvent_skip hid] at h
    exact .inl ⟨hid, (Except.ok.inj h).symm⟩
  · exact .inr ⟨hid, reduceEvent_reduces hid h⟩

/-- What one event keeps, a run keeps. -/
lemma foldlM_induction {I : ExecutionSnapshot → Prop}
    (hstep : ∀ s event s', I s → Reduces s event s' → I s') :
    ∀ {events : List LifecycleEvent} {s s' : ExecutionSnapshot}, I s →
      events.foldlM reduceEvent s = .ok s' → I s'
  | [], _, _, hs, h => by
    cases h
    exact hs
  | event :: events, s, s', hs, h => by
    obtain ⟨next, hnext, hrest⟩ := foldlM_cons_ok h
    rcases reduceEvent_cases hnext with ⟨-, rfl⟩ | ⟨-, -, hreduces⟩
    · exact foldlM_induction hstep hs hrest
    · exact foldlM_induction hstep (hstep s event next hs hreduces) hrest

/-- The ids of a run are those it began with and those of its events. -/
lemma mem_appliedEventIds : ∀ {events : List LifecycleEvent} {s s' : ExecutionSnapshot},
    events.foldlM reduceEvent s = .ok s' → ∀ id, id ∈ s'.appliedEventIds ↔
      id ∈ s.appliedEventIds ∨ ∃ event ∈ events, event.eventId = id
  | [], _, _, h, id => by
    cases h
    simp
  | event :: events, s, s', h, id => by
    obtain ⟨next, hnext, hrest⟩ := foldlM_cons_ok h
    rw [mem_appliedEventIds hrest id, List.exists_mem_cons_iff]
    rcases reduceEvent_cases hnext with ⟨hid, rfl⟩ | ⟨-, -, hreduces⟩
    · constructor
      · rintro (h | h)
        · exact .inl h
        · exact .inr (.inr h)
      · rintro (h | rfl | h)
        · exact .inl h
        · exact .inl hid
        · exact .inr h
    · rw [hreduces.appliedEventIds, Finset.mem_insert]
      constructor
      · rintro ((rfl | h) | h)
        · exact .inr (.inl rfl)
        · exact .inl h
        · exact .inr (.inr h)
      · rintro (h | h | h)
        · exact .inl (.inr h)
        · exact .inl (.inl h.symm)
        · exact .inr h

lemma sequence_le (h : events.foldlM reduceEvent s = .ok s') : s.sequence ≤ s'.sequence := by
  induction events generalizing s with
  | nil =>
    cases h
    exact le_rfl
  | cons event events ih =>
    obtain ⟨next, hnext, hrest⟩ := foldlM_cons_ok h
    refine le_trans ?_ (ih hrest)
    rcases reduceEvent_cases hnext with ⟨-, rfl⟩ | ⟨-, hsequence, hreduces⟩
    · exact le_rfl
    · rw [hreduces.sequence, hsequence]
      exact Nat.le_succ _

/-- Events with the next sequence that leave it the next one are all skipped. -/
lemma skipped_of_sequence : ∀ {events : List LifecycleEvent} {s s' : ExecutionSnapshot},
    events.foldlM reduceEvent s = .ok s' → (∀ event ∈ events, event.sequence = s'.sequence + 1) →
      s' = s ∧ ∀ event ∈ events, event.eventId ∈ s.appliedEventIds
  | [], _, _, h, _ => by
    cases h
    exact ⟨rfl, nofun⟩
  | event :: events, s, s', h, hall => by
    obtain ⟨next, hnext, hrest⟩ := foldlM_cons_ok h
    have hevent := hall event List.mem_cons_self
    rcases reduceEvent_cases hnext with ⟨hid, rfl⟩ | ⟨-, -, hreduces⟩
    · obtain ⟨rfl, hids⟩ := skipped_of_sequence hrest fun e he => hall e (List.mem_cons_of_mem _ he)
      exact ⟨rfl, List.forall_mem_cons.mpr ⟨hid, hids⟩⟩
    · have hle := sequence_le hrest
      rw [hreduces.sequence] at hle
      omega

lemma foldlM_skipped (h : ∀ event ∈ events, event.eventId ∈ s.appliedEventIds) :
    events.foldlM reduceEvent s = .ok s := by
  induction events with
  | nil => rfl
  | cons event events ih =>
    rw [List.foldlM_cons, reduceEvent_skip (h event List.mem_cons_self), ok_bind]
    exact ih fun e he => h e (List.mem_cons_of_mem _ he)

/-! ### Copies -/

lemma find?_of_mem_applied : ∀ {events : List LifecycleEvent} {s : ExecutionSnapshot},
    e ∈ applied s events → e.eventId ∉ s.appliedEventIds ∧
      events.find? (fun x => x.eventId = e.eventId) = some e
  | event :: events, s, h => by
    unfold applied at h
    split_ifs at h with hid
    · obtain ⟨hfresh, hfind⟩ := find?_of_mem_applied h
      have hne : event.eventId ≠ e.eventId := fun heq => hfresh (heq ▸ hid)
      exact ⟨hfresh, by rw [List.find?_cons_of_neg (by simpa using hne), hfind]⟩
    · split at h
      · rename_i next hnext
        rcases List.mem_cons.mp h with rfl | h
        · exact ⟨hid, List.find?_cons_of_pos (by simp)⟩
        · obtain ⟨-, hreduces⟩ := reduceEvent_reduces hid hnext
          obtain ⟨hfresh, hfind⟩ := find?_of_mem_applied h
          rw [hreduces.appliedEventIds, Finset.mem_insert, not_or] at hfresh
          refine ⟨hfresh.2, ?_⟩
          rw [List.find?_cons_of_neg (by simpa using Ne.symm hfresh.1), hfind]
      · cases h

/-- The first event with an id stays it beside a copy of one. -/
lemma find?_insert {x : LifecycleEvent}
    (hx : (u ++ v).find? (fun y => y.eventId = x.eventId) = some x)
    (he : (u ++ v).find? (fun y => y.eventId = e.eventId) = some e) :
    (u ++ x :: v).find? (fun y => y.eventId = e.eventId) = some e := by
  by_cases hid : x.eventId = e.eventId
  · rw [hid] at hx
    obtain rfl := Option.some.inj (hx.symm.trans he)
    rw [List.find?_append] at he ⊢
    cases hu : u.find? (fun y => y.eventId = x.eventId) with
    | none => rw [List.find?_cons_of_pos (by simp)]; rfl
    | some y => rw [hu] at he; exact he
  · rw [List.find?_append, List.find?_cons_of_neg (by simpa using hid), ← List.find?_append]
    exact he

/-- A copy of an event that comes in order is skipped, or the event is. -/
lemma foldlM_insert (hsorted : (u ++ e :: v).Pairwise Precedes)
    (hfirst : (u ++ v).find? (fun x => x.eventId = e.eventId) = some e)
    (hrun : (u ++ v).foldlM reduceEvent s = .ok s') :
    (u ++ e :: v).foldlM reduceEvent s = .ok s' := by
  obtain ⟨mid, hu, hv⟩ := foldlM_append_ok.mp hrun
  refine foldlM_append_ok.mpr ⟨mid, hu, ?_⟩
  by_cases hid : e.eventId ∈ mid.appliedEventIds
  · rw [List.foldlM_cons, reduceEvent_skip hid, ok_bind, hv]
  · -- the event itself comes later, and all between have its sequence
    have hnone : u.find? (fun x => x.eventId = e.eventId) = none := by
      refine List.find?_eq_none.mpr fun x hx => ?_
      have hnot : x.eventId ≠ e.eventId :=
        fun heq => hid ((mem_appliedEventIds hu _).mpr (.inr ⟨x, hx, heq⟩))
      simpa using hnot
    rw [List.find?_append, hnone, Option.none_or] at hfirst
    obtain ⟨-, between, rest, rfl, hbetween⟩ := List.find?_eq_some_iff_append.mp hfirst
    obtain ⟨mid', hmid, hrest⟩ := foldlM_append_ok.mp hv
    obtain ⟨next, hnext, hrest⟩ := foldlM_cons_ok hrest
    have hid' : e.eventId ∉ mid'.appliedEventIds := by
      rw [mem_appliedEventIds hmid]
      rintro (h | ⟨x, hx, heq⟩)
      · exact hid h
      · simpa [heq] using hbetween x hx
    obtain ⟨hsequence, hreduces⟩ := reduceEvent_reduces hid' hnext
    have hsame : ∀ x ∈ between, x.sequence = mid'.sequence + 1 := by
      intro x hx
      have hpair := (List.pairwise_append.mp hsorted).2.1
      obtain ⟨hfrom, hlater⟩ := List.pairwise_cons.mp hpair
      have hle : e.sequence ≤ x.sequence := hfrom x (List.mem_append_left _ hx)
      have hge : x.sequence ≤ e.sequence :=
        (List.pairwise_append.mp hlater).2.2 x hx e List.mem_cons_self
      omega
    obtain ⟨rfl, hskip⟩ := skipped_of_sequence hmid hsame
    have hskip' : ∀ x ∈ between ++ [e], x.eventId ∈ next.appliedEventIds := by
      intro x hx
      rw [hreduces.appliedEventIds]
      rcases List.mem_append.mp hx with hx | hx
      · exact Finset.mem_insert_of_mem (hskip x hx)
      · rw [List.mem_singleton.mp hx]
        exact Finset.mem_insert_self _ _
    rw [List.foldlM_cons, hnext, ok_bind]
    have hsplit : between ++ e :: rest = (between ++ [e]) ++ rest := by simp
    rw [hsplit]
    exact foldlM_append_ok.mpr ⟨next, foldlM_skipped hskip', hrest⟩

lemma replay_copies {parentOrderId : String} {events' : List LifecycleEvent}
    (hrun : replay parentOrderId events requestedQuantity = .ok s')
    (hcopies : Copies (· ∈ appliedEvents parentOrderId events requestedQuantity) events events') :
    replay parentOrderId events' requestedQuantity = .ok s' := by
  have hinduction := hcopies.induction (Q := fun l =>
    replay parentOrderId l requestedQuantity = .ok s' ∧
      ∀ e ∈ appliedEvents parentOrderId events requestedQuantity,
        (l.insertionSort Precedes).find? (fun x => x.eventId = e.eventId) = some e) ?_ []
  · exact (hinduction ⟨hrun, fun e he => (find?_of_mem_applied he).2⟩).1
  · rintro a b e he ⟨hreplay, hfirst⟩
    obtain ⟨u, v, hshort, hlong⟩ := exists_insertionSort (r := Precedes) e b a
    have hsorted : (u ++ e :: v).Pairwise Precedes := hlong ▸ List.pairwise_insertionSort _ _
    rw [hshort] at hfirst
    rw [replay, hshort] at hreplay
    refine ⟨?_, fun e' he' => ?_⟩
    · rw [replay, hlong]
      exact foldlM_insert hsorted (hfirst e he) hreplay
    · rw [hlong]
      exact find?_insert (hfirst e he) (hfirst e' he')

/-! ### States -/

lemma eq_of_validateTransition {current target : ParentState}
    (h : validateTransition current target = .ok ()) (hterminal : current ∈ TERMINAL_STATES) :
    target = current := by
  unfold validateTransition at h
  split_ifs at h with hsame
  exact hsame.symm

lemma Reduces.state_eq (h : Reduces s event s') (hterminal : s.state ∈ TERMINAL_STATES) :
    s'.state = s.state := by
  cases h with
  | state state _ hstate => exact eq_of_validateTransition hstate hterminal
  | fill _ _ _ _ _ _ _ _ hstate => exact eq_of_validateTransition hstate hterminal

lemma state_eq_of_terminal (hterminal : s.state ∈ TERMINAL_STATES)
    (h : events.foldlM reduceEvent s = .ok s') : s'.state = s.state :=
  foldlM_induction (I := fun next => next.state = s.state)
    (fun _ _ _ hs hreduces => (hreduces.state_eq (hs ▸ hterminal)).trans hs) rfl h

/-- A snapshot with fills that reach what was requested is filled. -/
def Reached (s : ExecutionSnapshot) : Prop :=
  s.averageFillPrice.isSome → reaches s.filledQuantity s.requestedQuantity = .ok true →
    s.state = .filled

lemma Reduces.reached (h : Reduces s event s') (hs : Reached s) : Reached s' := by
  intro hprice hreached
  cases h with
  | state state _ hstate =>
    have hfilled : s.state = .filled := hs hprice hreached
    rw [hfilled] at hstate
    exact eq_of_validateTransition hstate (by decide)
  | fill _ _ reached _ _ _ _ hreaches _ =>
    rw [advance] at hreached
    obtain rfl : reached = true := Except.ok.inj (hreaches.symm.trans hreached)
    rfl

lemma Reduces.averageFillPrice_isSome (h : Reduces s event s') (hs : s.averageFillPrice.isSome) :
    s'.averageFillPrice.isSome := by
  cases h with
  | state => exact hs
  | fill => rfl

/-! ### Sums -/

def ExecutionSnapshot.notional (s : ExecutionSnapshot) : ℚ :=
  s.averageFillPrice.elim 0 (s.filledQuantity * ·)

lemma notional_eq : s.notional = s.filledQuantity * s.averageFillPrice.getD 0 := by
  unfold ExecutionSnapshot.notional
  cases s.averageFillPrice with
  | none => exact (mul_zero _).symm
  | some price => rfl

lemma positiveDecimal_ok {value : Value} {q : ℚ} (h : positiveDecimal value = .ok q) : 0 < q := by
  unfold positiveDecimal at h
  split at h
  · split_ifs at h with hq
    cases h
    exact not_le.mp hq
  · cases h

/-- What a run adds to the quantity and the notional. -/
structure Adds (s s' : ExecutionSnapshot) (fills : List LifecycleEvent) : Prop where
  quantity : s'.filledQuantity = s.filledQuantity + (fills.map LifecycleEvent.quantity).sum
  notional : s'.notional = s.notional + (fills.map LifecycleEvent.notional).sum
  price : fills ≠ [] → s'.averageFillPrice.isSome

lemma foldlM_adds : ∀ {events : List LifecycleEvent} {s s' : ExecutionSnapshot},
    0 ≤ s.filledQuantity → events.foldlM reduceEvent s = .ok s' →
      Adds s s' (distinctFills s.appliedFillKeys (applied s events))
  | [], _, _, _, h => by
    cases h
    exact ⟨(add_zero _).symm, (add_zero _).symm, fun h => absurd rfl h⟩
  | event :: events, s, s', hnonneg, h => by
    obtain ⟨next, hnext, hrest⟩ := foldlM_cons_ok h
    rcases reduceEvent_cases hnext with ⟨hid, rfl⟩ | ⟨hid, -, hreduces⟩
    · rw [applied, if_pos hid]
      exact foldlM_adds hnonneg hrest
    · rw [applied, if_neg hid, hnext]
      dsimp only
      cases hreduces with
      | state state hfill hstate =>
        have hadds := foldlM_adds (s := advance { s with state := state } event) hnonneg hrest
        have hnot : ¬ (event.eventType = "fill_recorded" ∧ event.fillKey ∉ s.appliedFillKeys) :=
          fun h => h.2 (hfill h.1)
        rw [distinctFills, if_neg hnot]
        exact ⟨hadds.quantity, hadds.notional, hadds.price⟩
      | fill quantity price reached hfill hkey hquantity hprice hreached hstate =>
        have hpos := positiveDecimal_ok hquantity
        have hadds := foldlM_adds (add_nonneg hnonneg hpos.le) hrest
        have hq : event.quantity = quantity := by
          rw [LifecycleEvent.quantity, hquantity]
          rfl
        have hp : event.notional = quantity * price := by
          rw [LifecycleEvent.notional, hq, LifecycleEvent.price, hprice]
          rfl
        have hne : s.filledQuantity + quantity ≠ 0 := (add_pos_of_nonneg_of_pos hnonneg hpos).ne'
        have hone : (s.filledQuantity + quantity) * ((s.notional + quantity * price) /
            (s.filledQuantity + quantity)) = s.notional + quantity * price :=
          mul_div_cancel₀ _ hne
        rw [distinctFills, if_pos ⟨hfill, hkey⟩]
        refine ⟨?_, ?_, fun _ => ?_⟩
        · rw [hadds.quantity, List.map_cons, List.sum_cons, hq, ← add_assoc]
          rfl
        · rw [hadds.notional, List.map_cons, List.sum_cons, hp, ← add_assoc]
          exact congrArg (· + _) hone
        · exact foldlM_induction (I := fun s => s.averageFillPrice.isSome = true)
            (fun _ _ _ hs hreduces => hreduces.averageFillPrice_isSome hs) rfl hrest

/-- A replay adds up the fills it applies, one for each key. -/
theorem replay_sums (parentOrderId : String) (events : List LifecycleEvent)
    (requestedQuantity : Option Number) (snapshot : ExecutionSnapshot)
    (h : replay parentOrderId events requestedQuantity = .ok snapshot) :
    ReplaySound parentOrderId events requestedQuantity
      (distinctFills ∅ (appliedEvents parentOrderId events requestedQuantity)) snapshot := by
  have hadds : Adds (.new parentOrderId requestedQuantity) snapshot _ := foldlM_adds le_rfl h
  have hrequested : snapshot.requestedQuantity = requestedQuantity :=
    foldlM_induction (I := fun s => s.requestedQuantity = requestedQuantity)
      (fun _ _ _ hs hreduces => hreduces.requestedQuantity.trans hs) rfl h
  have hnew : Reached (.new parentOrderId requestedQuantity) :=
    fun hprice _ => absurd hprice Bool.false_ne_true
  have hreached : Reached snapshot :=
    foldlM_induction (fun _ _ _ hs hreduces => hreduces.reached hs) hnew h
  refine ⟨?_, ?_, fun before after s hsplit hbefore hterminal => ?_, fun _ hfills hreaches => ?_,
    fun events' => replay_copies h⟩
  · rw [hadds.quantity]
    exact zero_add _
  · rw [← notional_eq, hadds.notional]
    exact zero_add _
  · rw [replay, hsplit] at h
    obtain ⟨mid, hmid, hafter⟩ := foldlM_append_ok.mp h
    obtain rfl := Except.ok.inj (hbefore.symm.trans hmid)
    exact state_eq_of_terminal hterminal hafter
  · rw [← hrequested] at hreaches
    exact hreached (hadds.price hfills) hreaches

def fillEvent (id : String) (sequence : ℕ) (key quantity : String) : LifecycleEvent :=
  ⟨id, sequence, "fill_recorded", [("fill_key", .str key), ("quantity", .str quantity),
    ("price", .str "100")], none, none⟩

/-- A parent order becomes active. -/
def activeEvents : List LifecycleEvent :=
  [("e1", 1, ParentState.quoting), ("e2", 2, .ready), ("e3", 3, .active)].map
    fun (id, sequence, state) =>
      ⟨id, sequence, "parent_state_changed", [], none, some state⟩

theorem two_fills_sums : ∃ snapshot,
    replay "p" (activeEvents ++ [fillEvent "e4" 4 "a" "2", fillEvent "e5" 5 "b" "3"])
      (some (.finite 5)) = .ok snapshot ∧
    ReplaySound "p" (activeEvents ++ [fillEvent "e4" 4 "a" "2", fillEvent "e5" 5 "b" "3"])
      (some (.finite 5)) (distinctFills ∅ (appliedEvents "p"
        (activeEvents ++ [fillEvent "e4" 4 "a" "2", fillEvent "e5" 5 "b" "3"]) (some (.finite 5))))
      snapshot := by
  have hok : (replay "p" (activeEvents ++ [fillEvent "e4" 4 "a" "2", fillEvent "e5" 5 "b" "3"])
      (some (.finite 5))).isOk = true := by decide +kernel
  cases h : replay "p" (activeEvents ++ [fillEvent "e4" 4 "a" "2", fillEvent "e5" 5 "b" "3"])
      (some (.finite 5)) with
  | error e =>
    rw [h] at hok
    exact absurd hok Bool.false_ne_true
  | ok snapshot => exact ⟨snapshot, rfl, replay_sums _ _ _ _ h⟩

/-- A fill under another key, but with the id of an event, is not added. -/
theorem skipped_fill : ¬ ∀ (parentOrderId : String) (events : List LifecycleEvent)
    (requestedQuantity : Option Number) (snapshot : ExecutionSnapshot),
    replay parentOrderId events requestedQuantity = .ok snapshot → snapshot.filledQuantity =
      ((distinctFills ∅ (events.insertionSort Precedes)).map LifecycleEvent.quantity).sum := by
  intro h
  have hfilled : (replay "p" (activeEvents ++ [fillEvent "e4" 4 "a" "2", fillEvent "e4" 5 "b" "3"])
      none).map ExecutionSnapshot.filledQuantity = .ok 2 := by decide +kernel
  have hsum : ((distinctFills ∅ ((activeEvents ++ [fillEvent "e4" 4 "a" "2",
      fillEvent "e4" 5 "b" "3"]).insertionSort Precedes)).map LifecycleEvent.quantity).sum = 5 := by
    decide +kernel
  cases hreplay : replay "p"
      (activeEvents ++ [fillEvent "e4" 4 "a" "2", fillEvent "e4" 5 "b" "3"]) none with
  | error e =>
    rw [hreplay] at hfilled
    cases hfilled
  | ok snapshot =>
    rw [hreplay] at hfilled
    have hquantity := (h _ _ _ _ hreplay).trans hsum
    exact absurd (hquantity.symm.trans (Except.ok.inj hfilled)) (by norm_num)

end Suwappu.Execution
