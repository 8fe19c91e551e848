import Suwappu.Autopilot.Spending

/-!
# Executions are accounted for

`accounted_of_careful`: where no write that follows an execution throws, and buys are sealed and
executed on one day, every executed buy is counted on its day and held until a sell closes it, and
nothing is sold twice.
-/

namespace Suwappu.Autopilot

variable {S : Strings} {agent : AutopilotAgent} {s : State}

/-- Every buy whose writes are done is one of the decisions its day counts, and held; distinct buys
have distinct decisions; and what is sold is not about to be sold again. -/
structure Accounted (s : State) : Prop where
  counted : ∀ buy ∈ recorded s.stage.buying s.buys, ∃ decision ∈ s.decisions[buy.decisionId]?,
    decision.sizeUsd = buy.sizeUsd ∧ ∀ now, startOfUtcDay now = startOfUtcDay buy.executedAt →
      decision ∈ s.todaysBuys now
  held : ∀ buy ∈ recorded s.stage.buying s.buys, s.Held buy
  distinct : (s.buys.map Buy.decisionId).Nodup
  once : (s.sells.map Sell.positionId).Nodup
  again : ∀ portfolio exit positions, s.stage = .sell portfolio exit positions →
    exit.position.id ∉ s.sells.map Sell.positionId

/-- A counted decision is among those of the day of its execution. -/
lemma State.Counted.mem_todaysBuys {buy : Buy} (h : s.Counted buy) :
    ∃ decision ∈ s.decisions[buy.decisionId]?, decision.sizeUsd = buy.sizeUsd ∧
      ∀ now, startOfUtcDay now = startOfUtcDay buy.executedAt → decision ∈ s.todaysBuys now := by
  obtain ⟨decision, hdecision, haction, hfilled, hgate, hsize, hsince⟩ := h
  refine ⟨decision, hdecision, hsize, fun now hnow => ?_⟩
  simp only [State.todaysBuys, List.mem_filter, decide_eq_true_eq]
  exact ⟨List.mem_of_getElem? hdecision, hnow.trans_le hsince, haction, by simp [hfilled], hgate⟩

lemma Inv.accounted (h : Inv S agent s) : Accounted s where
  counted buy hbuy := (h.accounts.counted buy hbuy).mem_todaysBuys
  held := h.accounts.held
  distinct := h.accounts.distinct
  once := h.accounts.once
  again portfolio exit positions hstage := by
    obtain ⟨haccounts, hknows⟩ := h
    rw [hstage] at haccounts hknows
    exact haccounts.not_sold (hknows.1.subset List.mem_cons_self)

/-- In careful runs. -/
theorem accounted_of_careful (now : Time) (actions : List Action)
    (h : (machine S agent).Along Careful (initial now) actions) :
    Accounted ((machine S agent).run (initial now) actions) :=
  (Machine.run_induction_along (I := Inv S agent) (fun _ _ _ hs hcareful hstep =>
    inv_step hs hcareful hstep) actions (inv_initial now) h).accounted

theorem first_buy_accounted :
    Accounted ((machine lowerCase paperAgent).run (initial 0) firstCycle) :=
  accounted_of_careful 0 firstCycle (by decide +kernel)

/-- The executor has answered with `ok`, and the update of the decision throws. -/
theorem unsettled_buy_is_not_counted :
    ¬ ∀ (S : Strings) (agent : AutopilotAgent) (now : Time) (actions : List Action),
      Accounted ((machine S agent).run (initial now) actions) := by
  intro h
  have hcounted := (h lowerCase paperAgent 0 (firstCycle.take 17 ++ [.take .throws])).counted
    ⟨0, "0xaa", 50, 0, 100⟩ (by decide +kernel)
  obtain ⟨decision, hdecision, -, hday⟩ := hcounted
  have hmem := hday 0 rfl
  have hnone : ((machine lowerCase paperAgent).run (initial 0)
      (firstCycle.take 17 ++ [.take .throws])).todaysBuys 0 = [] := by decide +kernel
  rw [hnone] at hmem
  cases hmem

end Suwappu.Autopilot
