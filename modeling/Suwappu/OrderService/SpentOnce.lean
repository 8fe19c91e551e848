import Suwappu.Lib.History
import Suwappu.Lib.Processes
import Suwappu.Lib.Rows
import Suwappu.OrderService.DcaOrders

/-!
# DCA installments are spent once

`spentOnce_of_careful`: where no call raises after it has broadcast, the statistics are written, and
an order is still active when its execution starts, each order stays within its maximum, waits for
its interval, rests while it is paused, and counts what it has spent.
-/

namespace Suwappu.OrderService.Dca

open History

def DcaOrder.interval (o : DcaOrder) : Time := o.intervalHours * hour

def Event.isBroadcast : Event → Bool
  | .broadcast _ => true
  | _ => false

/-- The user stops the order. -/
def Event.stops : Event → Bool
  | .paused | .cancelled => true
  | _ => false

def broadcasts (history : List Event) : ℕ := history.countP Event.isBroadcast

def Apart (interval : Time) : Event → Event → Prop
  | .broadcast first, .broadcast second => first + interval ≤ second
  | _, _ => True

def Refused (e e' : Event) : Prop := e.stops = true → e' ≠ .started

/-- A swap was submitted, and the statistics are not written yet. -/
def Stage.unwritten : Stage → OrderId → Bool
  | .writeStats d _, id => d.id = id
  | _, _ => false

structure SpentOnce (s : State) (id : OrderId) (o : DcaOrder) : Prop where
  bounded : ∀ maximum ∈ o.maxExecutions, broadcasts (s.history id) ≤ maximum
  apart : Follows (· = .resumed) (Apart o.interval) (s.history id)
  refused : Follows (· = .resumed) Refused (s.history id)
  counted : s.stage.unwritten id = false → o.executionsCompleted = broadcasts (s.history id) ∧
    o.totalSpent = broadcasts (s.history id) * o.amountPerExecution

/-- A call raises after it has broadcast, or the statistics are not written. -/
def Stage.loses : Stage → Answer → Bool
  | .executeSwap _ _ _, .broadcastRaises => true
  | .writeStats _ _, .raises             => true
  | _, _                                 => false

/-- The order whose execution starts. -/
def Stage.starts : Stage → Answer → Option OrderId
  | .getQuote d _, .ok => some d.id
  | _, _               => none

def State.status (s : State) (id : OrderId) : Option DcaStatus :=
  s.orders[id]?.map DcaOrder.status

/-- No installment is lost, what starts is active, and no order has 0 as its maximum. -/
def Careful (s : State) : Action → Prop
  | .take answer => s.stage.loses answer = false ∧
    ∀ id ∈ s.stage.starts answer, s.status id = some .ACTIVE
  | .createDcaOrder _ _ _ maxExecutions _ => maxExecutions ≠ some 0
  | _ => True

instance decidableCareful (s : State) : ∀ a, Decidable (Careful s a)
  | .take answer => inferInstanceAs (Decidable (s.stage.loses answer = false ∧
    ∀ id ∈ s.stage.starts answer, s.status id = some .ACTIVE))
  | .createDcaOrder _ _ _ maxExecutions _ => inferInstanceAs (Decidable (maxExecutions ≠ some 0))
  | .pauseDca _ _    => .isTrue trivial
  | .resumeDca _ _   => .isTrue trivial
  | .cancelDca _ _   => .isTrue trivial
  | .checkDcaOrders  => .isTrue trivial
  | .elapse _        => .isTrue trivial

/-! ### One order -/

variable {now now' : Time} {unwritten : Bool} {history : List Event} {o : DcaOrder} {event : Event}

@[simp] lemma broadcasts_nil : broadcasts [] = 0 := rfl

lemma broadcasts_concat :
    broadcasts (history ++ [event]) = broadcasts history + event.isBroadcast.toNat := by
  rw [broadcasts, List.countP_append, List.countP_singleton]
  cases event.isBroadcast <;> rfl

/-- Of a row and its history; between a submitted swap and its statistics the row is one behind. -/
structure Sound (now : Time) (unwritten : Bool) (history : List Event) (o : DcaOrder) : Prop where
  limited : o.maxExecutions ≠ some 0
  completed : broadcasts history = o.executionsCompleted + unwritten.toNat
  spent : o.totalSpent = o.executionsCompleted * o.amountPerExecution
  bounded : ∀ maximum ∈ o.maxExecutions, broadcasts history ≤ maximum
  apart : Follows (· = .resumed) (Apart o.interval) history
  refused : Follows (· = .resumed) Refused history
  stopped : ∀ e, Recent (· = .resumed) history e → e.stops = true → o.status ≠ .ACTIVE
  past : ∀ time, Recent (· = .resumed) history (.broadcast time) → time ≤ now
  waits : unwritten = false → ∀ time, Recent (· = .resumed) history (.broadcast time) →
    time + o.interval ≤ o.nextExecutionAt

namespace Sound

lemma later (h : Sound now unwritten history o) (hnow : now ≤ now') :
    Sound now' unwritten history o where
  __ := h
  past time htime := (h.past time htime).trans hnow

/-- An event that is no broadcast and no start, with a status that fits. -/
lemma session (h : Sound now unwritten history o) {status : DcaStatus} {nextExecutionAt : Time}
    (hbroadcast : event.isBroadcast = false) (hstart : event ≠ .started)
    (hstopped : ∀ e, Recent (· = .resumed) (history ++ [event]) e → e.stops = true →
      status ≠ .ACTIVE)
    (hwaits : event = .resumed ∨ nextExecutionAt = o.nextExecutionAt) :
    Sound now unwritten (history ++ [event])
      { o with status := status, nextExecutionAt := nextExecutionAt } := by
  have hold : ∀ time, Recent (· = .resumed) (history ++ [event]) (.broadcast time) →
      event ≠ .resumed ∧ Recent (· = .resumed) history (.broadcast time) := by
    intro time htime
    rcases recent_concat.mp htime with rfl | htime
    · cases hbroadcast
    · exact htime
  have hcount : broadcasts (history ++ [event]) = broadcasts history := by
    rw [broadcasts_concat, hbroadcast]
    rfl
  constructor
  · exact h.limited
  · rw [hcount]
    exact h.completed
  · exact h.spent
  · rw [hcount]
    exact h.bounded
  · refine follows_concat.mpr ⟨h.apart, fun e _ => ?_⟩
    cases event with
    | broadcast => cases hbroadcast
    | started | paused | resumed | cancelled => cases e <;> trivial
  · exact follows_concat.mpr ⟨h.refused, fun _ _ _ => hstart⟩
  · exact hstopped
  · intro time htime
    exact h.past time (hold time htime).2
  · intro hwritten time htime
    obtain ⟨hresumed, htime⟩ := hold time htime
    rw [hwaits.resolve_left hresumed]
    exact h.waits hwritten time htime

lemma stop (h : Sound now unwritten history o) {status : DcaStatus} (hevent : event.stops = true)
    (hstatus : status ≠ .ACTIVE) :
    Sound now unwritten (history ++ [event]) { o with status := status } :=
  h.session (by cases event <;> first | rfl | cases hevent) (by rintro rfl; cases hevent)
    (fun _ _ _ => hstatus) (.inr rfl)

lemma resume (h : Sound now unwritten history o) : Sound now unwritten (history ++ [.resumed])
    { o with status := .ACTIVE, nextExecutionAt := now } := by
  refine h.session rfl nofun (fun e he hstops => ?_) (.inl rfl)
  rcases recent_concat.mp he with rfl | ⟨hreset, -⟩
  · cases hstops
  · exact absurd rfl hreset

lemma complete (h : Sound now unwritten history o) :
    Sound now unwritten history { o with status := .COMPLETED } where
  __ := h
  stopped _ _ _ := DcaStatus.noConfusion

lemma start (h : Sound now unwritten history o) (hactive : o.status = .ACTIVE) :
    Sound now unwritten (history ++ [.started]) o := by
  have hold : ∀ e, Recent (· = .resumed) (history ++ [.started]) e → e ≠ .started →
      Recent (· = .resumed) history e := by
    intro e he hne
    exact ((recent_concat.mp he).resolve_left hne).2
  have hcount : broadcasts (history ++ [.started]) = broadcasts history := broadcasts_concat
  constructor
  · exact h.limited
  · rw [hcount]
    exact h.completed
  · exact h.spent
  · rw [hcount]
    exact h.bounded
  · exact follows_concat.mpr ⟨h.apart, fun e _ => by cases e <;> trivial⟩
  · exact follows_concat.mpr ⟨h.refused, fun e he hstops => absurd hactive (h.stopped e he hstops)⟩
  · intro e he hstops
    exact h.stopped e (hold e he (by rintro rfl; cases hstops)) hstops
  · exact fun time htime => h.past time (hold _ htime nofun)
  · exact fun hwritten time htime => h.waits hwritten time (hold _ htime nofun)

/-- The interval has passed, and the maximum is not reached. -/
lemma broadcast (h : Sound now false history o)
    (hleft : ∀ maximum ∈ o.maxExecutions, o.executionsCompleted < maximum)
    (hwaited : ∀ time, Recent (· = .resumed) history (.broadcast time) → time + o.interval ≤ now) :
    Sound now true (history ++ [.broadcast now]) o := by
  have hcount : broadcasts (history ++ [.broadcast now]) = o.executionsCompleted + 1 := by
    rw [broadcasts_concat, h.completed]
    rfl
  constructor
  · exact h.limited
  · exact hcount
  · exact h.spent
  · rw [hcount]
    exact hleft
  · refine follows_concat.mpr ⟨h.apart, fun e he => ?_⟩
    cases e with
    | broadcast time => exact hwaited time he
    | started | paused | resumed | cancelled => trivial
  · exact follows_concat.mpr ⟨h.refused, fun _ _ _ => nofun⟩
  · intro e he hstops
    refine h.stopped e ((recent_concat.mp he).resolve_left ?_).2 hstops
    rintro rfl
    cases hstops
  · intro time htime
    rcases recent_concat.mp htime with heq | ⟨-, htime⟩
    · exact (Event.broadcast.inj heq).le
    · exact h.past time htime
  · nofun

lemma written (h : Sound now true history o) : Sound now false history
    { o with
        executionsCompleted := o.executionsCompleted + 1
        totalSpent := o.totalSpent + o.amountPerExecution
        nextExecutionAt := now + o.interval } where
  limited := h.limited
  completed := h.completed
  spent := by
    dsimp only
    rw [h.spent, Nat.succ_mul]
  bounded := h.bounded
  apart := h.apart
  refused := h.refused
  stopped := h.stopped
  past := h.past
  waits _ time htime := Nat.add_le_add_right (h.past time htime) _

end Sound

/-! ### The table and the iteration -/

/-- The orders of an iteration for which no swap has been started. -/
def Stage.todo : Stage → List Due
  | .getWallet orders => orders
  | .getQuote d orders | .executeSwap _ d orders => d :: orders
  | .writeStats _ orders => orders
  | .idle => []

/-- All of them that are not done. -/
def Stage.queue : Stage → List Due
  | .writeStats d orders => d :: orders
  | stage => stage.todo

def Stage.key : Stage → Option (IdempotencyKey × Due)
  | .executeSwap key d _ => some (key, d)
  | _ => none

/-- The copy of an order for which no swap has been started, and what the check has found. -/
structure Fresh (now : Time) (history : List Event) (copy o : DcaOrder) : Prop where
  completed : copy.executionsCompleted = o.executionsCompleted
  left : ∀ maximum ∈ o.maxExecutions, o.executionsCompleted < maximum
  waited : ∀ time, Recent (· = .resumed) history (.broadcast time) → time + o.interval ≤ now

lemma Fresh.later {copy : DcaOrder} (h : Fresh now history copy o) (hnow : now ≤ now') :
    Fresh now' history copy o where
  __ := h
  waited time htime := (h.waited time htime).trans hnow

lemma Fresh.concat {copy : DcaOrder} (h : Fresh now history copy o)
    (hevent : event.isBroadcast = false) : Fresh now (history ++ [event]) copy o where
  __ := h
  waited time htime := by
    rcases recent_concat.mp htime with rfl | ⟨-, htime⟩
    · cases hevent
    · exact h.waited time htime

structure Inv (s : State) (stage : Stage) : Prop where
  rows : ∀ id o, s.orders[id]? = some o → Sound s.now (stage.unwritten id) (s.history id) o
  blank : ∀ id, s.orders.length ≤ id → s.history id = []
  keys : ∀ key ∈ s.keys, key.executionsCompleted < broadcasts (s.history key.orderId)
  distinct : (stage.queue.map Due.id).Nodup
  fresh : ∀ d ∈ stage.todo, ∀ o, s.orders[d.id]? = some o → Fresh s.now (s.history d.id) d.order o
  amount : ∀ d ∈ stage.queue, ∃ o, s.orders[d.id]? = some o ∧
    d.order.amountPerExecution = o.amountPerExecution
  key : ∀ r ∈ stage.key, r.1.orderId = r.2.id ∧
    r.1.executionsCompleted = r.2.order.executionsCompleted

variable {s s' : State} {id : OrderId} {stage next : Stage} {answer : Answer} {action : Action}
  {d : Due} {orders : List Due}

lemma Stage.unwritten_eq_true (h : stage.unwritten id = true) : ∃ d ∈ stage.queue, d.id = id := by
  cases stage with
  | writeStats d orders => exact ⟨d, List.mem_cons_self, of_decide_eq_true h⟩
  | idle | getWallet | getQuote | executeSwap => cases h

lemma Stage.unwritten_of_ne (h : id ≠ d.id) : (Stage.writeStats d orders).unwritten id = false :=
  decide_eq_false h.symm

lemma Stage.mem_queue (h : d ∈ stage.todo) : d ∈ stage.queue := by
  cases stage with
  | writeStats d' orders => exact List.mem_cons_of_mem d' h
  | idle | getWallet | getQuote | executeSwap => exact h

lemma modify_row {rows : List DcaOrder} {update : DcaOrder → DcaOrder} {o' : DcaOrder} {i : OrderId}
    (ho : rows[id]? = some o) (h : (rows.modify id update)[i]? = some o') :
    i = id ∧ o' = update o ∨ i ≠ id ∧ rows[i]? = some o' := by
  rw [List.getElem?_modify] at h
  rcases eq_or_ne i id with rfl | hne
  · simp only [ho, if_true, Option.map_eq_map, Option.map_some, Option.some.injEq] at h
    exact .inl ⟨rfl, h.symm⟩
  · simp only [if_neg hne.symm, Option.map_eq_map, Option.map_id'] at h
    exact .inr ⟨hne, h⟩

namespace Inv

/-- Only the stage changes, and no statistics are due. -/
lemma move (h : Inv s stage) (hstage : ∀ id, stage.unwritten id = false)
    (hnext : ∀ id, next.unwritten id = false) (hqueue : next.queue.Sublist stage.queue)
    (htodo : ∀ d ∈ next.todo, d ∈ stage.todo)
    (hkey : ∀ r ∈ next.key, r.1.orderId = r.2.id ∧
      r.1.executionsCompleted = r.2.order.executionsCompleted) : Inv s next where
  rows id o ho := by
    rw [hnext id, ← hstage id]
    exact h.rows id o ho
  blank := h.blank
  keys := h.keys
  distinct := h.distinct.sublist (hqueue.map Due.id)
  fresh d hd := h.fresh d (htodo d hd)
  amount d hd := h.amount d (hqueue.subset hd)
  key := hkey

lemma elapse (h : Inv s stage) {duration : Time} :
    Inv { s with now := s.now + duration } stage where
  __ := h
  rows id o ho := (h.rows id o ho).later (Nat.le_add_right _ _)
  fresh d hd o ho := (h.fresh d hd o ho).later (Nat.le_add_right _ _)

/-- An event of one order that is no broadcast. -/
lemma record (h : Inv s stage) {o : DcaOrder} {update : DcaOrder → DcaOrder}
    (ho : s.orders[id]? = some o) (hevent : event.isBroadcast = false)
    (hsound : Sound s.now (stage.unwritten id) (s.history id ++ [event]) (update o))
    (hfresh : ∀ copy, Fresh s.now (s.history id ++ [event]) copy o →
      Fresh s.now (s.history id ++ [event]) copy (update o))
    (hamount : (update o).amountPerExecution = o.amountPerExecution) :
    Inv { s.record id event with orders := s.orders.modify id update } stage := by
  have hlt : id < s.orders.length := (List.getElem?_eq_some_iff.mp ho).1
  constructor
  · intro i o' ho'
    rcases modify_row ho ho' with ⟨rfl, rfl⟩ | ⟨hne, ho'⟩
    · simpa only [State.record, Function.update_self] using hsound
    · simpa only [State.record, Function.update_of_ne hne] using h.rows i o' ho'
  · intro i hi
    have hi' : s.orders.length ≤ i := by simpa using hi
    have hne : i ≠ id := (hlt.trans_le hi').ne'
    simpa only [State.record, Function.update_of_ne hne] using h.blank i hi'
  · intro key hkey
    rcases eq_or_ne key.orderId id with heq | hne
    · have hold := h.keys key hkey
      rw [heq] at hold
      simpa [State.record, heq, broadcasts_concat, hevent] using hold
    · simpa only [State.record, Function.update_of_ne hne] using h.keys key hkey
  · exact h.distinct
  · intro d hd o' ho'
    rcases modify_row ho ho' with ⟨heq, rfl⟩ | ⟨hne, ho'⟩
    · have hold := (h.fresh d hd o (heq ▸ ho))
      rw [heq] at hold
      simpa only [State.record, heq, Function.update_self] using hfresh d.order (hold.concat hevent)
    · simpa only [State.record, Function.update_of_ne hne] using h.fresh d hd o' ho'
  · intro d hd
    obtain ⟨o', ho', hamount'⟩ := h.amount d hd
    rcases eq_or_ne d.id id with heq | hne
    · rw [heq, ho, Option.some.injEq] at ho'
      exact ⟨update o, by simp [heq, ho], by rw [hamount', ← ho', hamount]⟩
    · exact ⟨o', by simp [hne.symm, ho'], hamount'⟩
  · exact h.key

lemma start (h : Inv s (.getQuote d orders)) (hactive : s.status d.id = some .ACTIVE) :
    Inv (s.record d.id .started) (.executeSwap (s.idempotencyKey d) d orders) := by
  obtain ⟨o, ho, hstatus⟩ := Option.map_eq_some_iff.mp hactive
  have hstart : Inv { s.record d.id .started with orders := s.orders.modify d.id id }
      (.getQuote d orders) :=
    h.record ho rfl ((h.rows d.id o ho).start hstatus) (fun _ hfresh => hfresh) rfl
  rw [List.modify_id] at hstart
  exact hstart.move (fun _ => rfl) (fun _ => rfl) (List.Sublist.refl _) (fun _ hd => hd)
    (by rintro r ⟨⟩; exact ⟨rfl, rfl⟩)

/-- Under the key of an order for which no swap has been started nothing was broadcast. -/
lemma key_notMem {key : IdempotencyKey} (h : Inv s (.executeSwap key d orders)) : key ∉ s.keys := by
  intro hmem
  obtain ⟨hid, hcompleted⟩ := h.key (key, d) rfl
  obtain ⟨o, ho, -⟩ := h.amount d List.mem_cons_self
  have hlt := h.keys key hmem
  rw [hid, hcompleted, (h.fresh d List.mem_cons_self o ho).completed,
    (h.rows d.id o ho).completed] at hlt
  exact lt_irrefl _ hlt

lemma broadcast {key : IdempotencyKey} (h : Inv s (.executeSwap key d orders)) :
    Inv (s.broadcast key d) (.writeStats d orders) := by
  obtain ⟨hid : key.orderId = d.id, hcompleted : key.executionsCompleted = _⟩ := h.key (key, d) rfl
  obtain ⟨o, ho, hamount⟩ := h.amount d List.mem_cons_self
  have hfresh := h.fresh d List.mem_cons_self o ho
  have hsound := h.rows d.id o ho
  have hlt : d.id < s.orders.length := (List.getElem?_eq_some_iff.mp ho).1
  have hdistinct := List.nodup_cons.mp h.distinct
  constructor
  · intro i o' ho'
    rcases eq_or_ne i d.id with rfl | hne
    · obtain rfl := Option.some.inj (ho.symm.trans ho')
      simpa [State.broadcast, State.record, Stage.unwritten] using
        hsound.broadcast hfresh.left hfresh.waited
    · simpa [State.broadcast, State.record, Stage.unwritten, hne, hne.symm] using h.rows i o' ho'
  · intro i hi
    have hne : i ≠ d.id := (hlt.trans_le hi).ne'
    simpa [State.broadcast, State.record, hne] using h.blank i hi
  · intro key' hkey'
    rcases List.mem_cons.mp hkey' with rfl | hkey'
    · have hcount : broadcasts (s.history d.id) = o.executionsCompleted := hsound.completed
      simp only [State.broadcast, State.record, hid, Function.update_self, broadcasts_concat,
        hcount, hcompleted, hfresh.completed]
      exact Nat.lt_succ_self _
    · have hold := h.keys key' hkey'
      rcases eq_or_ne key'.orderId d.id with heq | hne
      · rw [heq] at hold
        simp only [State.broadcast, State.record, heq, Function.update_self, broadcasts_concat]
        exact Nat.lt_add_right _ hold
      · simpa only [State.broadcast, State.record, Function.update_of_ne hne] using hold
  · exact h.distinct
  · intro d' hd' o' ho'
    have hne : d'.id ≠ d.id := fun heq => hdistinct.1 (heq ▸ List.mem_map_of_mem hd')
    simpa only [State.broadcast, State.record, Function.update_of_ne hne] using
      h.fresh d' (List.mem_cons_of_mem d hd') o' ho'
  · exact h.amount
  · nofun

lemma written (h : Inv s (.writeStats d orders)) : Inv (s.writeStats d) (.getWallet orders) := by
  obtain ⟨o, ho, hamount⟩ := h.amount d List.mem_cons_self
  have hdistinct := List.nodup_cons.mp h.distinct
  have hsound := h.rows d.id o ho
  constructor
  · intro i o' ho'
    rcases modify_row ho ho' with ⟨rfl, rfl⟩ | ⟨hne, ho'⟩
    · rw [hamount]
      simp only [Stage.unwritten, decide_true] at hsound
      exact hsound.written
    · have hold := h.rows i o' ho'
      rwa [Stage.unwritten_of_ne hne] at hold
  · intro i hi
    exact h.blank i (by simpa [State.writeStats] using hi)
  · exact h.keys
  · exact hdistinct.2
  · intro d' hd' o' ho'
    have hne : d'.id ≠ d.id := fun heq => hdistinct.1 (heq ▸ List.mem_map_of_mem hd')
    rcases modify_row ho ho' with ⟨heq, -⟩ | ⟨-, ho'⟩
    · exact absurd heq hne
    · exact h.fresh d' hd' o' ho'
  · intro d' hd'
    have hne : d'.id ≠ d.id := fun heq => hdistinct.1 (heq ▸ List.mem_map_of_mem hd')
    obtain ⟨o', ho', hamount'⟩ := h.amount d' (List.mem_cons_of_mem d hd')
    exact ⟨o', by simp [State.writeStats, hne.symm, ho'], hamount'⟩
  · nofun

lemma create (h : Inv s stage) {userId : UserId} {amountPerExecution intervalHours : ℕ}
    {maxExecutions endsInDays : Option ℕ} (hlimited : maxExecutions ≠ some 0) :
    Inv (s.createDcaOrder userId amountPerExecution intervalHours maxExecutions endsInDays)
      stage := by
  have hqueue : ∀ d ∈ stage.queue, d.id < s.orders.length := by
    intro d hd
    obtain ⟨o, ho, -⟩ := h.amount d hd
    exact (List.getElem?_eq_some_iff.mp ho).1
  constructor
  · intro i o' ho'
    rcases lt_or_ge i s.orders.length with hlt | hge
    · simp only [State.createDcaOrder, List.getElem?_append_left hlt] at ho'
      exact h.rows i o' ho'
    · simp only [State.createDcaOrder, List.getElem?_append_right hge] at ho'
      have hnew := List.mem_singleton.mp (List.mem_of_getElem? ho')
      have hunwritten : stage.unwritten i = false := by
        by_contra hne
        obtain ⟨d, hd, rfl⟩ := Stage.unwritten_eq_true (Bool.of_not_eq_false hne)
        exact absurd (hqueue d hd) hge.not_gt
      rw [hunwritten, show (s.createDcaOrder _ _ _ _ _).history i = [] from h.blank i hge, hnew]
      exact {
        limited := hlimited
        completed := rfl
        spent := (Nat.zero_mul _).symm
        bounded := fun _ _ => Nat.zero_le _
        apart := follows_nil
        refused := follows_nil
        stopped := fun _ he => absurd he not_recent_nil
        past := fun _ ht => absurd ht not_recent_nil
        waits := fun _ _ ht => absurd ht not_recent_nil }
  · intro i hi
    refine h.blank i (le_trans ?_ hi)
    simp [State.createDcaOrder]
  · exact h.keys
  · exact h.distinct
  · intro d hd o' ho'
    simp only [State.createDcaOrder,
      List.getElem?_append_left (hqueue d (Stage.mem_queue hd))] at ho'
    exact h.fresh d hd o' ho'
  · intro d hd
    obtain ⟨o, ho, hamount⟩ := h.amount d hd
    refine ⟨o, ?_, hamount⟩
    simpa only [State.createDcaOrder, List.getElem?_append_left (hqueue d hd)] using ho
  · exact h.key

lemma check (h : Inv s .idle) : Inv s.complete (.getWallet s.due) := by
  have hdue : ∀ d ∈ s.due, s.orders[d.id]? = some d.order ∧ d.order.listed s.now = true ∧
      d.order.ended s.now = false := by
    intro d hd
    obtain ⟨row, hrow, rfl⟩ := List.mem_map.mp hd
    obtain ⟨hmem, hcond⟩ := List.mem_filter.mp hrow
    exact ⟨List.mem_zipIdx_iff_getElem?.mp hmem, by simpa using hcond⟩
  have hkept : ∀ d ∈ s.due, s.complete.orders[d.id]? = some d.order := by
    intro d hd
    obtain ⟨ho, -, hended⟩ := hdue d hd
    simp [State.complete, ho, hended]
  constructor
  · intro i o' ho'
    simp only [State.complete, List.getElem?_map] at ho'
    obtain ⟨o, ho, rfl⟩ := Option.map_eq_some_iff.mp ho'
    split_ifs
    · exact (h.rows i o ho).complete
    · exact h.rows i o ho
  · intro i hi
    exact h.blank i (by simpa [State.complete] using hi)
  · exact h.keys
  · have hids : s.due.map Due.id = (s.orders.zipIdx.filter fun row =>
        row.1.listed s.now ∧ ¬ row.1.ended s.now).map Prod.snd := by
      rw [State.due, List.map_map]
      rfl
    change (s.due.map Due.id).Nodup
    rw [hids]
    exact Rows.nodup_positions _ _
  · intro d hd o' ho'
    obtain rfl := Option.some.inj ((hkept d hd).symm.trans ho')
    obtain ⟨ho, hlisted, hended⟩ := hdue d hd
    have hsound := h.rows d.id _ ho
    simp only [DcaOrder.listed, decide_eq_true_eq] at hlisted
    simp only [DcaOrder.ended, decide_eq_false_iff_not] at hended
    refine ⟨rfl, fun maximum hmaximum => ?_, fun time htime => ?_⟩
    · by_contra hle
      refine hended (.inr ⟨maximum, hmaximum, ?_, not_lt.mp hle⟩)
      rintro rfl
      exact hsound.limited hmaximum
    · exact (hsound.waits rfl time htime).trans hlisted.2
  · exact fun d hd => ⟨d.order, hkept d hd, rfl⟩
  · nofun

end Inv

/-- What a step of an iteration keeps. -/
theorem Inv.advance (h : Inv s stage) (hcareful : stage.loses answer = false ∧
      ∀ id ∈ stage.starts answer, s.status id = some .ACTIVE)
    (hadvance : advance s stage answer = .ok (s', next)) : Inv s' next := by
  cases stage with
  | idle => cases answer <;> cases hadvance
  | getWallet orders =>
    cases orders with
    | nil =>
      cases answer with
      | ok =>
        cases hadvance
        exact h.move (fun _ => rfl) (fun _ => rfl) (List.Sublist.refl _) nofun nofun
      | _ => cases hadvance
    | cons d orders =>
      cases answer with
      | wallet found =>
        cases hadvance
        cases found with
        | true =>
          exact h.move (fun _ => rfl) (fun _ => rfl) (List.Sublist.refl _) (fun _ hd => hd) nofun
        | false =>
          exact h.move (fun _ => rfl) (fun _ => rfl) (List.sublist_cons_self _ _)
            (fun _ => List.mem_cons_of_mem _) nofun
      | raises =>
        cases hadvance
        exact h.move (fun _ => rfl) (fun _ => rfl) (List.sublist_cons_self _ _)
          (fun _ => List.mem_cons_of_mem _) nofun
      | _ => cases hadvance
  | getQuote d orders =>
    cases answer with
    | ok =>
      cases hadvance
      exact h.start (hcareful.2 d.id rfl)
    | raises =>
      cases hadvance
      exact h.move (fun _ => rfl) (fun _ => rfl) (List.sublist_cons_self _ _)
        (fun _ => List.mem_cons_of_mem _) nofun
    | _ => cases hadvance
  | executeSwap key d orders =>
    cases answer with
    | returned submitted =>
      cases hadvance
      cases submitted with
      | true =>
        rw [if_pos ⟨rfl, h.key_notMem⟩, if_pos rfl]
        exact h.broadcast
      | false =>
        exact h.move (fun _ => rfl) (fun _ => rfl) (List.sublist_cons_self _ _)
          (fun _ => List.mem_cons_of_mem _) nofun
    | raises =>
      cases hadvance
      exact h.move (fun _ => rfl) (fun _ => rfl) (List.sublist_cons_self _ _)
        (fun _ => List.mem_cons_of_mem _) nofun
    | broadcastRaises => cases hcareful.1
    | _ => cases hadvance
  | writeStats d orders =>
    cases answer with
    | ok =>
      cases hadvance
      exact h.written
    | raises => cases hcareful.1
    | _ => cases hadvance

/-! ### Runs -/

lemma Inv.withStage (h : Inv s next) : Inv { s with stage := next } next :=
  ⟨h.rows, h.blank, h.keys, h.distinct, h.fresh, h.amount, h.key⟩

lemma inv_initial (now : Time) : Inv (initial now) (initial now).stage :=
  ⟨nofun, fun _ _ => rfl, nofun, List.nodup_nil, nofun, nofun, nofun⟩

lemma userSession_ok {userId : UserId} {statuses : List DcaStatus} {update : DcaOrder → DcaOrder}
    (h : s.userSession id userId statuses update event = .ok s') :
    ∃ o, s.orders[id]? = some o ∧
      s' = { s.record id event with orders := s.orders.modify id update } := by
  unfold State.userSession at h
  split at h
  · rename_i o ho
    split_ifs at h
    cases h
    exact ⟨o, ho, rfl⟩
  · cases h

theorem Inv.step (h : Inv s s.stage) (hcareful : Careful s action)
    (hstep : step s action = .ok s') : Inv s' s'.stage := by
  cases action with
  | createDcaOrder userId amountPerExecution intervalHours maxExecutions endsInDays =>
    cases hstep
    exact h.create hcareful
  | pauseDca id userId =>
    obtain ⟨o, ho, rfl⟩ := userSession_ok hstep
    exact h.record ho rfl ((h.rows id o ho).stop rfl nofun)
      (fun _ hfresh => ⟨hfresh.completed, hfresh.left, hfresh.waited⟩) rfl
  | resumeDca id userId =>
    obtain ⟨o, ho, rfl⟩ := userSession_ok hstep
    exact h.record ho rfl (h.rows id o ho).resume
      (fun _ hfresh => ⟨hfresh.completed, hfresh.left, hfresh.waited⟩) rfl
  | cancelDca id userId =>
    obtain ⟨o, ho, rfl⟩ := userSession_ok hstep
    exact h.record ho rfl ((h.rows id o ho).stop rfl nofun)
      (fun _ hfresh => ⟨hfresh.completed, hfresh.left, hfresh.waited⟩) rfl
  | checkDcaOrders =>
    simp only [Dca.step] at hstep
    split at hstep
    · rename_i hidle
      cases hstep
      rw [hidle] at h
      exact h.check.withStage
    · cases hstep
  | take answer =>
    obtain ⟨⟨r, next⟩, hadvance, rfl⟩ := Program.map_ok_iff.mp hstep
    exact (h.advance hcareful hadvance).withStage
  | elapse duration =>
    cases hstep
    exact h.elapse

lemma Inv.spentOnce (h : Inv s s.stage) {o : DcaOrder} (ho : s.orders[id]? = some o) :
    SpentOnce s id o where
  bounded := (h.rows id o ho).bounded
  apart := (h.rows id o ho).apart
  refused := (h.rows id o ho).refused
  counted hwritten := by
    have hcompleted : broadcasts (s.history id) = o.executionsCompleted := by
      have hsound := h.rows id o ho
      rw [hwritten] at hsound
      exact hsound.completed
    exact ⟨hcompleted.symm, hcompleted ▸ (h.rows id o ho).spent⟩

/-- Along a run that loses no installment, and starts what is active. -/
theorem spentOnce_of_careful (now : Time) (actions : List Action)
    (hcareful : machine.Along Careful (initial now) actions) (id : OrderId) (o : DcaOrder)
    (ho : (machine.run (initial now) actions).orders[id]? = some o) :
    SpentOnce (machine.run (initial now) actions) id o :=
  (Machine.run_induction_along (I := fun s => Inv s s.stage)
    (fun _ _ _ h hcareful hstep => h.step hcareful hstep) actions (inv_initial now)
    hcareful).spentOnce ho

/-- One installment is bought; before the next one is due the order is paused. -/
def firstInstallment : List Action :=
  [.createDcaOrder 1 100 24 (some 2) none, .checkDcaOrders, .take (.wallet true), .take .ok,
    .take (.returned true), .take .ok, .take .ok, .elapse 3600, .checkDcaOrders, .take .ok,
    .pauseDca 0 1]

theorem first_installment_spentOnce : SpentOnce (machine.run (initial 0) firstInstallment) 0
    ⟨1, .PAUSED, 100, 24, 24 * 3600, some 2, 1, 100, none⟩ :=
  spentOnce_of_careful 0 firstInstallment (by decide +kernel) 0 _ (by decide +kernel)

/-- `execute_swap` broadcasts and raises, and an hour later the order is due again. -/
def broadcastTwice : List Action :=
  [.createDcaOrder 1 100 24 (some 1) none, .checkDcaOrders, .take (.wallet true), .take .ok,
    .take .broadcastRaises, .take .ok, .elapse 3600, .checkDcaOrders, .take (.wallet true),
    .take .ok, .take (.returned true)]

theorem broadcast_twice :
    ¬ ∀ (now : Time) (actions : List Action) (id : OrderId) (o : DcaOrder),
      (machine.run (initial now) actions).orders[id]? = some o →
        SpentOnce (machine.run (initial now) actions) id o := by
  intro h
  have hbounded := (h 0 broadcastTwice 0 ⟨1, .ACTIVE, 100, 24, 0, some 1, 0, 0, none⟩
    (by decide +kernel)).bounded 1 rfl
  revert hbounded
  decide +kernel

end Suwappu.OrderService.Dca
