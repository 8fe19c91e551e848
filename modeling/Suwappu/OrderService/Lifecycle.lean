import Suwappu.Lib.Processes
import Suwappu.Lib.Rows
import Suwappu.OrderService.LimitOrders

/-!
# The lifecycle of a limit order

`lifecycle_of_careful`: where an order is still pending when it is marked as triggered, and no
iteration leaves one behind, what is cancelled or expired is never executed, nothing is executed
twice, what is over stays as it is, and what is triggered is dealt with by its iteration.
-/

namespace Suwappu.OrderService

def State.status (s : State) (id : OrderId) : Option OrderStatus :=
  s.orders[id]?.map LimitOrder.status

structure Lifecycle (s : State) : Prop where
  /-- no terminal status has been overwritten -/
  kept : ∀ entry ∈ s.closed, s.status entry.1 = some entry.2
  refused : ∀ id, (id, .CANCELLED) ∈ s.closed ∨ (id, .EXPIRED) ∈ s.closed → id ∉ s.swaps
  once : s.swaps.Nodup
  settled : ∀ id, s.status id = some .TRIGGERED → id ∈ s.stage.todo ∨ id ∈ s.crashed

/-- The iteration goes on to the next order and writes no outcome of this one. -/
def Stage.abandons : Stage → Answer → Bool
  | .getWallet (_ :: _), .wallet found     => !found
  | .executeSwap _ _, .swapped submitted   => !submitted
  | .markFailed _ _, .raises               => true
  | _, _                                   => false

/-- The orders that a session marks as triggered. -/
def Stage.marks : Stage → Answer → List (OrderId × ℚ)
  | .markTriggered triggered _, .ok => triggered
  | _, _                            => []

/-- Each order that is marked is still pending, and none is left behind. -/
def Careful (s : State) : Action → Prop
  | .take answer => s.stage.abandons answer = false ∧
    ∀ order ∈ s.stage.marks answer, s.status order.1 = some .PENDING
  | _            => True

instance decidableCareful (s : State) : ∀ a, Decidable (Careful s a)
  | .take answer         => inferInstanceAs (Decidable (s.stage.abandons answer = false ∧
    ∀ order ∈ s.stage.marks answer, s.status order.1 = some .PENDING))
  | .createLimitOrder _  => .isTrue trivial
  | .cancelOrder _ _     => .isTrue trivial
  | .checkLimitOrders    => .isTrue trivial
  | .crash               => .isTrue trivial
  | .elapse _            => .isTrue trivial

/-! ### Statuses -/

variable {s s' : State} {id i : OrderId} {status : OrderStatus} {stage next : Stage}
  {answer : Answer} {action : Action}

lemma status_setStatus : (s.setStatus id status).status i =
    if i = id then (s.status i).map fun _ => status else s.status i := by
  rw [State.status, State.setStatus, List.getElem?_modify, State.status]
  cases s.orders[i]? with
  | none   => simp
  | some o =>
    rcases eq_or_ne i id with rfl | h
    · simp
    · simp [h, h.symm]

lemma lookup_eq_none_iff {l : List (OrderId × ℚ)} : l.lookup id = none ↔ id ∉ l.map Prod.fst := by
  rw [List.lookup_eq_none_iff]
  constructor
  · intro h hmem
    obtain ⟨entry, hentry, rfl⟩ := List.mem_map.mp hmem
    simpa using h entry hentry
  · intro h entry hentry
    have hne : id ≠ entry.1 := fun heq => h (heq ▸ List.mem_map_of_mem hentry)
    simpa using hne

lemma status_markTriggered {triggered peaks : List (OrderId × ℚ)} :
    (s.markTriggered triggered peaks).status i =
      if i ∈ triggered.map Prod.fst then (s.status i).map fun _ => .TRIGGERED else s.status i := by
  rw [State.status, State.markTriggered, List.getElem?_mapIdx, Option.map_map, State.status]
  cases hlookup : triggered.lookup i with
  | none =>
    rw [if_neg (lookup_eq_none_iff.mp hlookup)]
    exact Option.map_congr fun o _ => by simp
  | some price =>
    have hmem : i ∈ triggered.map Prod.fst := by
      by_contra h
      rw [lookup_eq_none_iff.mpr h] at hlookup
      cases hlookup
    rw [if_pos hmem, Option.map_map]
    exact Option.map_congr fun o _ => by simp

lemma status_append {order : LimitOrder} (h : s.status id = some status) :
    State.status { s with orders := s.orders ++ [order] } id = some status := by
  obtain ⟨o, ho, rfl⟩ := Option.map_eq_some_iff.mp h
  rw [State.status, List.getElem?_append_left (List.getElem?_eq_some_iff.mp ho).1, ho]
  rfl

/-- An order that expires was pending, and becomes EXPIRED; what is written down is that. -/
lemma status_markExpired : (∃ o, s.orders[i]? = some o ∧ o.expires s.now = true ∧
      s.status i = some .PENDING ∧ s.markExpired.status i = some .EXPIRED) ∨
    (∀ o, s.orders[i]? = some o → o.expires s.now = false) ∧
      s.markExpired.status i = s.status i := by
  simp only [State.status, State.markExpired, List.getElem?_map]
  cases ho : s.orders[i]? with
  | none => exact .inr ⟨fun o h => absurd h (Option.some_ne_none o).symm, rfl⟩
  | some o =>
    cases hexpires : o.expires s.now with
    | true =>
      have hpending := hexpires
      simp only [LimitOrder.expires, decide_eq_true_eq] at hpending
      exact .inl ⟨o, rfl, hexpires, by simp [hpending.1], by simp [hexpires]⟩
    | false => exact .inr ⟨fun _ h => Option.some.inj h ▸ hexpires, by simp [hexpires]⟩

lemma mem_closed_markExpired {entry : OrderId × OrderStatus} (h : entry ∈ s.markExpired.closed) :
    entry ∈ s.closed ∨ entry.2 = .EXPIRED ∧
      ∃ o, s.orders[entry.1]? = some o ∧ o.expires s.now = true := by
  rcases List.mem_append.mp h with h | h
  · exact .inl h
  · obtain ⟨row, hrow, rfl⟩ := List.mem_map.mp h
    obtain ⟨hmem, hexpires⟩ := List.mem_filter.mp hrow
    exact .inr ⟨rfl, row.1, List.mem_zipIdx_iff_getElem?.mp hmem, hexpires⟩

/-! ### The invariant -/

/-- The orders of an iteration for which no swap has been started. -/
def Stage.unswapped : Stage → List OrderId
  | .getWallet orders => orders
  | .getQuote id orders | .executeSwap id orders => id :: orders
  | .markExecuted _ orders | .markFailed _ orders => orders
  | .idle | .fetchPrices _ | .markTriggered _ _ => []

/-- The orders that an iteration looks at. -/
def Stage.seen : Stage → List OrderId
  | .fetchPrices orders        => orders.map OrderData.id
  | .markTriggered triggered _ => triggered.map Prod.fst
  | _                          => []

/-- A swap was started for it. -/
def OrderStatus.started : OrderStatus → Bool
  | .TRIGGERED | .EXECUTED | .FAILED => true
  | _ => false

structure Inv (s : State) (stage : Stage) : Prop where
  kept : ∀ entry ∈ s.closed, s.status entry.1 = some entry.2
  terminal : ∀ entry ∈ s.closed, entry.2.terminal = true
  started : ∀ id ∈ s.swaps, ∃ status, s.status id = some status ∧ status.started = true
  once : s.swaps.Nodup
  triggered : ∀ id ∈ stage.todo, s.status id = some .TRIGGERED
  distinct : stage.todo.Nodup
  unswapped : ∀ id ∈ stage.unswapped, id ∉ s.swaps
  settled : ∀ id, s.status id = some .TRIGGERED → id ∈ stage.todo ∨ id ∈ s.crashed
  seen : stage.seen.Nodup

namespace Inv

lemma pending_notMem (h : Inv s stage) (hid : s.status id = some .PENDING) : id ∉ s.swaps := by
  intro hswap
  obtain ⟨status, hstatus, hstarted⟩ := h.started id hswap
  rw [hid, Option.some.injEq] at hstatus
  rw [← hstatus] at hstarted
  cases hstarted

lemma not_closed (h : Inv s stage) (hid : s.status id = some status)
    (hterminal : status.terminal = false) : ∀ entry ∈ s.closed, entry.1 ≠ id := by
  rintro entry hentry rfl
  have hstatus := h.kept entry hentry
  have hclosed := h.terminal entry hentry
  rw [hid, Option.some.injEq] at hstatus
  rw [← hstatus, hterminal] at hclosed
  cases hclosed

/-- An order that is open gets a terminal status; of a triggered one, by its iteration. -/
lemma setStatus (h : Inv s stage) {old : OrderStatus} (hid : s.status id = some old)
    (hopen : old.terminal = false) (hterminal : status.terminal = true)
    (hstarted : old = .PENDING ∨ status.started = true)
    (htodo : ∀ i, i ∈ next.todo ↔ i ∈ stage.todo ∧ i ≠ id) (hdistinct : next.todo.Nodup)
    (hunswapped : ∀ i ∈ next.unswapped, i ∈ stage.unswapped) (hseen : next.seen.Nodup) :
    Inv (s.setStatus id status) next where
  kept entry hentry := by
    rw [status_setStatus]
    rcases List.mem_append.mp hentry with hold | hnew
    · rw [if_neg (h.not_closed hid hopen entry hold)]
      exact h.kept entry hold
    · rw [List.mem_singleton.mp hnew, if_pos rfl, hid]
      rfl
  terminal entry hentry := by
    rcases List.mem_append.mp hentry with hold | hnew
    · exact h.terminal entry hold
    · rwa [List.mem_singleton.mp hnew]
  started i hi := by
    rw [status_setStatus]
    obtain ⟨old', hold', hstarted'⟩ := h.started i hi
    rcases eq_or_ne i id with rfl | hne
    · rw [if_pos rfl, hid]
      rcases hstarted with rfl | hstarted
      · exact absurd hi (h.pending_notMem hid)
      · exact ⟨status, rfl, hstarted⟩
    · rw [if_neg hne]
      exact ⟨old', hold', hstarted'⟩
  once := h.once
  triggered i hi := by
    obtain ⟨hi, hne⟩ := (htodo i).mp hi
    rw [status_setStatus, if_neg hne]
    exact h.triggered i hi
  distinct := hdistinct
  unswapped i hi := h.unswapped i (hunswapped i hi)
  settled i hi := by
    rw [status_setStatus] at hi
    rcases eq_or_ne i id with rfl | hne
    · rw [if_pos rfl, hid, Option.map_some, Option.some.injEq] at hi
      rw [hi] at hterminal
      cases hterminal
    · rw [if_neg hne] at hi
      exact (h.settled i hi).imp_left fun hi => (htodo i).mpr ⟨hi, hne⟩
  seen := hseen

/-- The outcome of the order at work. -/
lemma finish {orders : List OrderId} (h : Inv s stage) (htodo : stage.todo = id :: orders)
    (hunswapped : stage.unswapped = orders) (hterminal : status.terminal = true)
    (hstarted : status.started = true) : Inv (s.setStatus id status) (.getWallet orders) := by
  have hdistinct := htodo ▸ h.distinct
  obtain ⟨hid, hnodup⟩ := List.nodup_cons.mp hdistinct
  have htriggered : s.status id = some .TRIGGERED := h.triggered id (htodo ▸ List.mem_cons_self)
  refine h.setStatus htriggered rfl hterminal (.inr hstarted) (fun i => ?_) hnodup
    (fun _ hi => hunswapped ▸ hi) List.nodup_nil
  rw [htodo, List.mem_cons]
  constructor
  · intro hi
    exact ⟨.inr hi, fun heq => hid (heq ▸ hi)⟩
  · rintro ⟨rfl | hi, hne⟩
    · exact absurd rfl hne
    · exact hi

/-- Only the stage changes. -/
lemma move (h : Inv s stage) (htodo : next.todo = stage.todo)
    (hunswapped : ∀ i ∈ next.unswapped, i ∈ stage.unswapped) (hseen : next.seen.Nodup) :
    Inv s next where
  __ := h
  triggered := htodo ▸ h.triggered
  distinct := htodo ▸ h.distinct
  unswapped i hi := h.unswapped i (hunswapped i hi)
  settled := htodo ▸ h.settled
  seen := hseen

lemma markExpired (h : Inv s .idle) : Inv s.markExpired (.fetchPrices s.pending) where
  kept entry hentry := by
    rcases mem_closed_markExpired hentry with hold | ⟨hstatus, o, ho, hexpires⟩
    · rcases status_markExpired (s := s) (i := entry.1) with ⟨-, -, -, hpending, -⟩ | ⟨-, hsame⟩
      · exact absurd rfl (h.not_closed hpending rfl entry hold)
      · rw [hsame]
        exact h.kept entry hold
    · rcases status_markExpired (s := s) (i := entry.1) with ⟨-, -, -, -, hexpired⟩ | ⟨hnot, -⟩
      · rw [hexpired, hstatus]
      · rw [hnot o ho] at hexpires
        cases hexpires
  terminal entry hentry := by
    rcases mem_closed_markExpired hentry with hold | ⟨hstatus, -⟩
    · exact h.terminal entry hold
    · rw [hstatus]
      rfl
  started i hi := by
    rcases status_markExpired (s := s) (i := i) with ⟨-, -, -, hpending, -⟩ | ⟨-, hsame⟩
    · exact absurd hi (h.pending_notMem hpending)
    · rw [hsame]
      exact h.started i hi
  once := h.once
  triggered := nofun
  distinct := List.nodup_nil
  unswapped := nofun
  settled i hi := by
    rcases status_markExpired (s := s) (i := i) with ⟨-, -, -, -, hexpired⟩ | ⟨-, hsame⟩
    · rw [hexpired] at hi
      cases hi
    · exact h.settled i (hsame ▸ hi)
  seen := by
    have hids : s.pending.map OrderData.id = (s.orders.zipIdx.filter fun row =>
        row.1.status = .PENDING ∧ ¬ row.1.expires s.now).map Prod.snd := by
      rw [State.pending, List.map_map]
      rfl
    rw [Stage.seen, hids]
    exact Rows.nodup_positions _ _

/-- What is marked was pending, and nothing else was going on. -/
lemma markTriggered {triggered peaks : List (OrderId × ℚ)}
    (h : Inv s (.markTriggered triggered peaks))
    (hpending : ∀ order ∈ triggered, s.status order.1 = some .PENDING) :
    Inv (s.markTriggered triggered peaks) (.getWallet (triggered.map Prod.fst)) where
  kept entry hentry := by
    rw [status_markTriggered, if_neg]
    · exact h.kept entry hentry
    · intro hmem
      obtain ⟨order, horder, hid⟩ := List.mem_map.mp hmem
      exact h.not_closed (hpending order horder) rfl entry hentry hid.symm
  terminal := h.terminal
  started i hi := by
    rw [status_markTriggered, if_neg]
    · exact h.started i hi
    · intro hmem
      obtain ⟨order, horder, rfl⟩ := List.mem_map.mp hmem
      exact h.pending_notMem (hpending order horder) hi
  once := h.once
  triggered i hi := by
    obtain ⟨order, horder, rfl⟩ := List.mem_map.mp hi
    rw [status_markTriggered, if_pos (List.mem_map_of_mem horder), hpending order horder]
    rfl
  distinct := h.seen
  unswapped i hi := by
    obtain ⟨order, horder, rfl⟩ := List.mem_map.mp hi
    exact h.pending_notMem (hpending order horder)
  settled i hi := by
    rw [status_markTriggered] at hi
    split_ifs at hi with hmem
    · exact .inl hmem
    · exact (h.settled i hi).imp_left nofun
  seen := List.nodup_nil

/-- The one call of `execute_swap` for an order. -/
lemma swap {orders : List OrderId} (h : Inv s (.executeSwap id orders))
    (htodo : next.todo = id :: orders) (hunswapped : next.unswapped = orders)
    (hseen : next.seen = []) : Inv { s with swaps := s.swaps ++ [id] } next where
  __ := h
  started i hi := by
    rcases List.mem_append.mp hi with hold | hnew
    · exact h.started i hold
    · rw [List.mem_singleton.mp hnew]
      exact ⟨_, h.triggered id List.mem_cons_self, rfl⟩
  once := by
    have hnew : id ∉ s.swaps := h.unswapped id List.mem_cons_self
    refine List.nodup_append.mpr ⟨h.once, List.nodup_singleton id, ?_⟩
    rintro i hi _ hid rfl
    simp_all
  triggered := htodo ▸ h.triggered
  distinct := htodo ▸ h.distinct
  unswapped i hi := by
    rw [hunswapped] at hi
    have hne : i ≠ id := fun heq => (List.nodup_cons.mp h.distinct).1 (heq ▸ hi)
    have hold : i ∉ s.swaps := h.unswapped i (List.mem_cons_of_mem id hi)
    simp [hold, hne]
  settled := htodo ▸ h.settled
  seen := hseen ▸ List.nodup_nil

lemma crash (h : Inv s stage) :
    Inv { s with crashed := s.crashed ++ stage.todo } .idle where
  __ := h
  triggered := nofun
  distinct := List.nodup_nil
  unswapped := nofun
  settled i hi := by
    rcases h.settled i hi with htodo | hcrashed
    · exact .inr (List.mem_append_right _ htodo)
    · exact .inr (List.mem_append_left _ hcrashed)
  seen := List.nodup_nil

lemma createLimitOrder (h : Inv s stage) {order : LimitOrder} (hpending : order.status = .PENDING) :
    Inv { s with orders := s.orders ++ [order] } stage where
  __ := h
  kept entry hentry := status_append (h.kept entry hentry)
  started i hi := by
    obtain ⟨status, hstatus, hstarted⟩ := h.started i hi
    exact ⟨status, status_append hstatus, hstarted⟩
  triggered i hi := status_append (h.triggered i hi)
  settled i hi := by
    refine h.settled i ?_
    simp only [State.status, List.getElem?_append] at hi ⊢
    split_ifs at hi with hlt
    · exact hi
    · obtain ⟨o, ho, hstatus⟩ := Option.map_eq_some_iff.mp hi
      rw [List.mem_singleton.mp (List.mem_of_getElem? ho), hpending] at hstatus
      cases hstatus

end Inv

/-- What a step of an iteration keeps. -/
theorem Inv.advance (h : Inv s stage) (hcareful : stage.abandons answer = false ∧
      ∀ order ∈ stage.marks answer, s.status order.1 = some .PENDING)
    (hadvance : advance s stage answer = .ok (s', next)) : Inv s' next := by
  cases stage with
  | idle => cases answer <;> cases hadvance
  | fetchPrices orders =>
    cases orders with
    | nil =>
      cases answer with
      | ok | timeout | raises =>
        cases hadvance
        exact h.move rfl nofun List.nodup_nil
      | _ => cases hadvance
    | cons od orders =>
      cases answer with
      | timeout | raises =>
        cases hadvance
        exact h.move rfl nofun List.nodup_nil
      | prices prices =>
        dsimp only [OrderService.advance] at hadvance
        split_ifs at hadvance
        · cases hadvance
          exact h.move rfl nofun List.nodup_nil
        · cases hadvance
          refine h.move rfl nofun ?_
          have hids : (OrderService.triggered (od :: orders) prices).map Prod.fst =
              ((od :: orders).filter fun od =>
                od.shouldTrigger prices ∧ 0 < od.price prices).map OrderData.id := by
            rw [OrderService.triggered, List.map_map]
            rfl
          rw [Stage.seen, hids]
          exact h.seen.sublist (List.filter_sublist.map _)
      | _ => cases hadvance
  | markTriggered triggered peaks =>
    cases answer with
    | ok =>
      cases hadvance
      exact h.markTriggered hcareful.2
    | raises =>
      cases hadvance
      exact h.move rfl nofun List.nodup_nil
    | _ => cases hadvance
  | getWallet orders =>
    cases orders with
    | nil =>
      cases answer with
      | ok =>
        cases hadvance
        exact h.move rfl nofun List.nodup_nil
      | _ => cases hadvance
    | cons id orders =>
      cases answer with
      | wallet found =>
        cases hadvance
        have hfound : found = true := by simpa [Stage.abandons] using hcareful.1
        rw [hfound]
        exact h.move rfl (fun _ hi => hi) List.nodup_nil
      | raises =>
        cases hadvance
        exact h.move rfl (fun _ => List.mem_cons_of_mem _) List.nodup_nil
      | _ => cases hadvance
  | getQuote id orders =>
    cases answer with
    | ok =>
      cases hadvance
      exact h.move rfl (fun _ hi => hi) List.nodup_nil
    | raises =>
      cases hadvance
      exact h.move rfl (fun _ => List.mem_cons_of_mem _) List.nodup_nil
    | _ => cases hadvance
  | executeSwap id orders =>
    cases answer with
    | swapped submitted =>
      cases hadvance
      have hsubmitted : submitted = true := by simpa [Stage.abandons] using hcareful.1
      rw [hsubmitted]
      exact h.swap rfl rfl rfl
    | raises =>
      cases hadvance
      exact h.swap rfl rfl rfl
    | _ => cases hadvance
  | markExecuted id orders =>
    cases answer with
    | ok =>
      cases hadvance
      exact h.finish rfl rfl rfl rfl
    | raises =>
      cases hadvance
      exact h.move rfl (fun _ hi => hi) List.nodup_nil
    | _ => cases hadvance
  | markFailed id orders =>
    cases answer with
    | ok =>
      cases hadvance
      exact h.finish rfl rfl rfl rfl
    | raises => cases hcareful.1
    | _ => cases hadvance

/-! ### Runs -/

lemma Inv.withStage (h : Inv s next) : Inv { s with stage := next } next where
  kept := h.kept
  terminal := h.terminal
  started := h.started
  once := h.once
  triggered := h.triggered
  distinct := h.distinct
  unswapped := h.unswapped
  settled := h.settled
  seen := h.seen

lemma inv_initial (now : Time) : Inv (initial now) (initial now).stage where
  kept := nofun
  terminal := nofun
  started := nofun
  once := List.nodup_nil
  triggered := nofun
  distinct := List.nodup_nil
  unswapped := nofun
  settled := nofun
  seen := List.nodup_nil

theorem Inv.step (h : Inv s s.stage) (hcareful : Careful s action)
    (hstep : step s action = .ok s') : Inv s' s'.stage := by
  cases action with
  | createLimitOrder order =>
    cases hstep
    exact h.createLimitOrder rfl
  | cancelOrder id userId =>
    simp only [OrderService.step] at hstep
    split at hstep
    · rename_i order horder
      split_ifs at hstep with hmine
      cases hstep
      have hpending : s.status id = some .PENDING := by
        rw [State.status, horder, Option.map_some, hmine.2]
      have htodo : ∀ i ∈ s.stage.todo, i ≠ id := by
        rintro i hi rfl
        have htriggered := h.triggered i hi
        rw [hpending] at htriggered
        cases htriggered
      exact h.setStatus hpending rfl rfl (.inl rfl)
        (fun i => ⟨fun hi => ⟨hi, htodo i hi⟩, And.left⟩) h.distinct (fun _ hi => hi) h.seen
    · cases hstep
  | checkLimitOrders =>
    simp only [OrderService.step] at hstep
    split at hstep
    · rename_i hidle
      cases hstep
      rw [hidle] at h
      exact h.markExpired.withStage
    · cases hstep
  | take answer =>
    obtain ⟨⟨r, next⟩, hadvance, rfl⟩ := Program.map_ok_iff.mp hstep
    exact (h.advance hcareful hadvance).withStage
  | crash =>
    cases hstep
    exact h.crash.withStage
  | elapse duration =>
    cases hstep
    exact { h with }

theorem inv_run (now : Time) (actions : List Action)
    (hcareful : machine.Along Careful (initial now) actions) :
    Inv (machine.run (initial now) actions) (machine.run (initial now) actions).stage :=
  Machine.run_induction_along (I := fun s => Inv s s.stage)
    (fun _ _ _ h hcareful hstep => h.step hcareful hstep) actions (inv_initial now) hcareful

lemma Inv.lifecycle (h : Inv s s.stage) : Lifecycle s where
  kept := h.kept
  refused id hid hswap := by
    obtain ⟨status, hstatus, hstarted⟩ := h.started id hswap
    rcases hid with hid | hid
    all_goals
      rw [h.kept _ hid, Option.some.injEq] at hstatus
      rw [← hstatus] at hstarted
      cases hstarted
  once := h.once
  settled := h.settled

/-- Along a run where each order is still pending when it is marked, and no iteration leaves one
behind. -/
theorem lifecycle_of_careful (now : Time) (actions : List Action)
    (hcareful : machine.Along Careful (initial now) actions) :
    Lifecycle (machine.run (initial now) actions) :=
  (inv_run now actions hcareful).lifecycle

/-- Buys below 2000. -/
def limitBuy : LimitOrder :=
  ⟨1, .LIMIT_BUY, "USDC", "ETH", 2000, none, none, .PENDING, none, none⟩

/-- An iteration triggers the order and executes it. -/
def executed : List Action :=
  [.createLimitOrder limitBuy, .checkLimitOrders, .take (.prices fun _ => 1900), .take .ok,
    .cancelOrder 0 1, .take (.wallet true), .take .ok, .take (.swapped true), .take .ok, .take .ok]

theorem executed_lifecycle : Lifecycle (machine.run (initial 0) executed) :=
  lifecycle_of_careful 0 executed (by decide +kernel)

/-- `cancel_order` returns True while the prices are fetched. -/
def cancelled : List Action :=
  [.createLimitOrder limitBuy, .checkLimitOrders, .cancelOrder 0 1, .take (.prices fun _ => 1900),
    .take .ok, .take (.wallet true), .take .ok, .take (.swapped true)]

theorem cancelled_order_is_swapped :
    ¬ ∀ (now : Time) (actions : List Action), Lifecycle (machine.run (initial now) actions) := by
  intro h
  have hrefused := (h 0 cancelled).refused 0 (.inl (by decide +kernel))
  revert hrefused
  decide +kernel

end Suwappu.OrderService
