import Suwappu.Autopilot.Cycle
import Suwappu.Lib.Rows

/-!
# What the tables say of the executions

An executed buy is recorded by two writes, an executed sell by two. As long as none of them throws,
and a buy is what the engine said and happens on the day it was sealed, the tables account for all
executions, and the summary a cycle works with is up to date whenever a gate has read it.
-/

namespace Suwappu.Autopilot

variable (S : Strings) (agent : AutopilotAgent)

/-- A buy is executed and its position not written yet. -/
def Stage.buying : Stage → Bool
  | .settleBuy _ _ result _ => result.ok
  | .openPosition _ _ _     => true
  | .note next              => next.buying
  | _                       => false

/-- A sell is executed and its position not closed yet. -/
def Stage.selling : Stage → Bool
  | .settleSell _ _ result _  => result.ok
  | .closePosition _ _ _ _    => true
  | .note next                => next.selling
  | _                         => false

/-- All but the last while that is pending. -/
def recorded {α : Type} (pending : Bool) (l : List α) : List α := if pending then l.dropLast else l

/-- A decision to buy is executed on the day it was sealed, and the thesis says to buy. -/
def Entry.Timely (entry : Entry) (s : State) : Prop :=
  entry.draft.action = .buy ∧
    ∃ decision ∈ s.decisions[entry.decisionId]?, startOfUtcDay s.now ≤ decision.sealedAt

instance Entry.decidableTimely (entry : Entry) (s : State) : Decidable (entry.Timely s) := by
  unfold Entry.Timely
  infer_instance

/-- No write that follows an execution throws, and buys are timely. -/
def Careful (s : State) : Action → Prop
  | .take .throws => s.stage.buying = false ∧ s.stage.selling = false
  | .take _       =>
    match s.stage with
    | .buy _ entry _ => entry.Timely s
    | _              => True
  | _             => True

instance decidableCareful (s : State) : ∀ a, Decidable (Careful s a) := by
  intro a
  unfold Careful
  split
  · infer_instance
  · split <;> infer_instance
  · infer_instance

/-- The decision of a buy is one that a day's spend counts. -/
def State.Counted (s : State) (buy : Buy) : Prop :=
  ∃ decision, s.decisions[buy.decisionId]? = some decision ∧ decision.action = .buy ∧
    decision.status = .filled ∧ decision.gatePassed = true ∧ decision.sizeUsd = buy.sizeUsd ∧
    startOfUtcDay buy.executedAt ≤ decision.sealedAt

/-- A buy has a position, which is open unless a sell has closed it. -/
def State.Held (s : State) (buy : Buy) : Prop :=
  ∃ id position, s.positions[id]? = some position ∧ position.entryDecisionId = buy.decisionId ∧
    position.tokenAddress = buy.tokenAddress ∧ position.costBasisUsd = buy.sizeUsd ∧
    (position.status = .closed → ∃ sell ∈ s.sells, sell.positionId = id)

/-- The buy of an entry when it is executed. -/
def Entry.toBuy (entry : Entry) (agent : AutopilotAgent) (s : State) : Buy :=
  ⟨entry.decisionId, entry.draft.tokenAddress, entry.draft.sizeUsd, s.now, s.cashUsd agent⟩

/-- What the buys since a time add up to. -/
def State.boughtSince (s : State) (t : Time) : ℚ :=
  Window.sumSince Buy.executedAt Buy.sizeUsd s.buys t

/-- What the tables say of the recorded buys and sells, and the limits the book keeps. -/
structure Accounts (s : State) (buys : List Buy) (sells : List Sell) : Prop where
  counted : ∀ buy ∈ buys, s.Counted buy
  held : ∀ buy ∈ buys, s.Held buy
  distinct : (s.buys.map Buy.decisionId).Nodup
  positive : ∀ buy ∈ s.buys, 0 < buy.sizeUsd
  sized : ∀ decision ∈ s.decisions, decision.action = .buy → decision.gatePassed = true →
    0 < decision.sizeUsd
  sold : ∀ sell ∈ sells, ∃ position, s.positions[sell.positionId]? = some position ∧
    position.status = .closed
  once : (s.sells.map Sell.positionId).Nodup
  tokens : (s.openPositions.map fun position => S.norm position.tokenAddress).Nodup
  slots : s.openPositions.length ≤ agent.rules.maxOpenPositions
  capped : s.buys ≠ [] → s.boughtSince (startOfUtcDay s.now) ≤ agent.rules.dailySpendCapUsd

/-- A summary that is up to date, and not behind with what is spent. -/
structure State.Current (s : State) (portfolio : PortfolioState) : Prop where
  equity : portfolio.equityUsd = s.cashUsd agent + s.marketValueUsd
  deployed : portfolio.deployedUsd = s.deployedUsd
  openPositions : portfolio.openPositions = s.openPositions
  spent : s.boughtSince (startOfUtcDay s.now) ≤ portfolio.spentTodayUsd

/-- The decision is sealed and waits for its execution. -/
def State.Sealed (s : State) (id : ℕ) : Prop :=
  ∃ decision, s.decisions[id]? = some decision ∧ decision.status = .sealed

/-- So does the decision of an entry. -/
def State.Ready (s : State) (entry : Entry) : Prop :=
  ∃ decision, s.decisions[entry.decisionId]? = some decision ∧ decision.status = .sealed ∧
    decision.action = entry.draft.action ∧ decision.gatePassed = true ∧
    decision.sizeUsd = entry.draft.sizeUsd

/-- The last buy is the entry's, and there is room for its position. -/
structure State.Bought (s : State) (entry : Entry) (buys : List Buy) (buy : Buy) : Prop where
  last : s.buys = buys ++ [buy]
  decisionId : buy.decisionId = entry.decisionId
  tokenAddress : buy.tokenAddress = entry.draft.tokenAddress
  sizeUsd : buy.sizeUsd = entry.draft.sizeUsd
  fresh : ∀ position ∈ s.openPositions,
    S.norm position.tokenAddress ≠ S.norm entry.draft.tokenAddress
  slots : s.openPositions.length < agent.rules.maxOpenPositions

/-- The last sell is the exit's. -/
def State.Sold (s : State) (exit : Exit) : Prop :=
  ∃ sells sell, s.sells = sells ++ [sell] ∧ sell.positionId = exit.position.id

/-- What a stage of the cycle has made sure of. -/
def Knows (s : State) : Stage → Prop
  | .exits _ positions => positions.Sublist s.openPositions
  | .formExit _ position _ positions => (position :: positions).Sublist s.openPositions
  | .sealExit _ position _ thesis gate positions =>
    (position :: positions).Sublist s.openPositions ∧
      (thesis.action = .buy → gate.passed = false)
  | .anchorExit _ exit positions | .sell _ exit positions =>
    (exit.position :: positions).Sublist s.openPositions ∧ s.Sealed exit.decisionId
  | .settleSell _ exit result positions =>
    (exit.position :: positions).Sublist s.openPositions ∧ s.Sealed exit.decisionId ∧
      (result.ok = true → s.Sold exit)
  | .closePosition _ exit _ positions =>
    (exit.position :: positions).Sublist s.openPositions ∧ s.Sold exit
  | .screen portfolio | .entries portfolio _ | .security portfolio _ _ _ =>
    s.Current agent portfolio
  | .sealEntry portfolio _ draft gate _ =>
    s.Current agent portfolio ∧
      (draft.action = .buy → gate.passed = true → Affordable S draft portfolio agent.rules)
  | .anchorEntry portfolio entry _ | .failEntry portfolio entry _ | .buy portfolio entry _ =>
    s.Current agent portfolio ∧ s.Ready entry ∧
      (entry.draft.action = .buy → Affordable S entry.draft portfolio agent.rules)
  | .settleBuy portfolio entry result _ =>
    s.Ready entry ∧
      if result.ok then
        entry.draft.action = .buy ∧ ∃ buys buy, s.Bought S agent entry buys buy ∧
          ∃ decision ∈ s.decisions[entry.decisionId]?,
            startOfUtcDay buy.executedAt ≤ decision.sealedAt
      else s.Current agent portfolio
  | .openPosition entry _ _ =>
    ∃ buys buy, s.Bought S agent entry buys buy ∧ s.Counted buy
  | .note next => Knows s next
  | _ => True

/-- What holds before a stage, in runs that are careful. -/
structure Before (s : State) (stage : Stage) : Prop where
  accounts : Accounts S agent s (recorded stage.buying s.buys) (recorded stage.selling s.sells)
  knows : Knows S agent s stage

variable {S agent} {s s' : State} {buys : List Buy} {sells : List Sell} {buy : Buy}
  {position : OpenPositionSummary} {portfolio : PortfolioState} {entry : Entry} {exit : Exit}
  {thesis : Thesis} {gate : GateVerdict} {result : ExecutionResult}

/-! ### Days -/

lemma startOfUtcDay_mono {t t' : Time} (h : t ≤ t') : startOfUtcDay t ≤ startOfUtcDay t' :=
  Nat.mul_le_mul_right DAY (Nat.div_le_div_right h)

/-- The start of a day is at or before what is on the day. -/
lemma startOfUtcDay_le_iff {t t' : Time} :
    startOfUtcDay t ≤ startOfUtcDay t' ↔ startOfUtcDay t ≤ t' := by
  constructor
  · intro h
    exact h.trans (Nat.div_mul_le_self t' DAY)
  · intro h
    have hday : startOfUtcDay t / DAY = t / DAY := Nat.mul_div_cancel _ (by norm_num [DAY])
    exact Nat.mul_le_mul_right DAY (hday ▸ Nat.div_le_div_right h)

/-! ### Open positions -/

lemma mem_openPositions : position ∈ s.openPositions ↔
    ∃ (id : ℕ) (row : AutopilotPosition), s.positions[id]? = some row ∧ row.status = .open_ ∧
      row.summary id = position := by
  simp only [State.openPositions, List.mem_map, List.mem_filter, List.mem_zipIdx_iff_getElem?,
    Prod.exists, decide_eq_true_eq]
  constructor
  · rintro ⟨row, id, ⟨hrow, hopen⟩, rfl⟩
    exact ⟨id, row, hrow, hopen, rfl⟩
  · rintro ⟨id, row, hrow, hopen, rfl⟩
    exact ⟨row, id, ⟨hrow, hopen⟩, rfl⟩

lemma openPositions_markPosition {token : String} {price : ℚ} :
    (s.markPosition token price).openPositions = s.openPositions := by
  simp only [State.openPositions, State.markPosition, List.zipIdx_map, List.filter_map,
    List.map_map]
  rw [List.filter_congr (q := fun row => row.1.status = .open_)]
  · refine List.map_congr_left fun row _ => ?_
    simp only [Function.comp_apply, Prod.map_fst, Prod.map_snd, id_eq]
    split_ifs <;> rfl
  · intro row _
    simp only [Function.comp_apply, Prod.map_fst]
    split_ifs <;> rfl

lemma openPositions_openPosition {id : ℕ} : (s.openPosition thesis result id).openPositions =
    s.openPositions ++ [⟨s.positions.length, thesis.chain, thesis.tokenAddress, thesis.sizeUsd,
      result.fillPriceUsd.getD 0, thesis.exit.takeProfitPct, thesis.exit.stopLossPct, s.now⟩] := by
  simp [State.openPositions, State.openPosition, List.zipIdx_append, AutopilotPosition.summary]

/-- What is sold is no longer open, and nothing else. -/
lemma openPositions_closePosition {price : ℚ} {id : ℕ} :
    (s.closePosition position price id).openPositions =
      s.openPositions.filter fun other => other.tokenAddress ≠ position.tokenAddress := by
  simp only [State.openPositions, State.closePosition, List.zipIdx_map, List.filter_map,
    List.map_map, List.filter_filter]
  rw [List.filter_congr (q := fun row =>
    row.1.tokenAddress ≠ position.tokenAddress && row.1.status = .open_)]
  · refine List.map_congr_left fun row hrow => ?_
    simp_all
  · intro row _
    simp only [Function.comp_apply, Prod.map_fst]
    split_ifs with h <;> grind

/-! ### Writes and the accounts -/

lemma State.Held.mono (h : s.Held buy)
    (hrows : ∀ (id : ℕ) row, s.positions[id]? = some row → ∃ row', s'.positions[id]? = some row' ∧
      row'.entryDecisionId = row.entryDecisionId ∧ row'.tokenAddress = row.tokenAddress ∧
      row'.costBasisUsd = row.costBasisUsd ∧
      (row'.status = .closed → row.status = .closed ∨ ∃ sell ∈ s'.sells, sell.positionId = id))
    (hsells : ∀ sell ∈ s.sells, sell ∈ s'.sells) : s'.Held buy := by
  obtain ⟨id, row, hrow, hentry, htoken, hcost, hclosed⟩ := h
  obtain ⟨row', hrow', hentry', htoken', hcost', hclosed'⟩ := hrows id row hrow
  refine ⟨id, row', hrow', hentry' ▸ hentry, htoken' ▸ htoken, hcost' ▸ hcost, fun h => ?_⟩
  rcases hclosed' h with h | h
  · obtain ⟨sell, hsell, hid⟩ := hclosed h
    exact ⟨sell, hsells sell hsell, hid⟩
  · exact h

lemma State.Counted.updateDecision {id : ℕ} {f : AutopilotDecision → AutopilotDecision}
    (h : s.Counted buy) (hid : s.Sealed id) : (s.updateDecision id f).Counted buy := by
  obtain ⟨decision, hdecision, haction, hfilled, hrest⟩ := h
  obtain ⟨waiting, hwaiting, hsealed⟩ := hid
  have hne : id ≠ buy.decisionId := by
    rintro rfl
    rw [hdecision, Option.some.injEq] at hwaiting
    rw [← hwaiting, hfilled] at hsealed
    cases hsealed
  refine ⟨decision, ?_, haction, hfilled, hrest⟩
  simp [State.updateDecision, hdecision, hne]

lemma State.Ready.sealed (h : s.Ready entry) : s.Sealed entry.decisionId := by
  obtain ⟨decision, hdecision, hsealed, -⟩ := h
  exact ⟨decision, hdecision, hsealed⟩

namespace Accounts

lemma positive_le (h : Accounts S agent s buys sells) : ∀ buy ∈ s.buys, 0 ≤ buy.sizeUsd :=
  fun buy hbuy => (h.positive buy hbuy).le

/-- All executed buys are among those of the day. -/
lemma boughtSince_le (h : Accounts S agent s s.buys sells) (t : Time) :
    s.boughtSince (startOfUtcDay t) ≤ s.spentTodayUsd t := by
  have hkeys : ((s.buys.filter fun buy => startOfUtcDay t ≤ buy.executedAt).map
      Buy.decisionId).Nodup := h.distinct.sublist (List.filter_sublist.map _)
  refine Rows.sum_le_sum_filter hkeys ?_ fun decision hdecision hcounts =>
    (h.sized decision hdecision hcounts.2.1 hcounts.2.2.2).le
  intro buy hbuy
  obtain ⟨hmem, hsince⟩ := List.mem_filter.mp hbuy
  obtain ⟨decision, hrow, haction, hfilled, hgate, hsize, hday⟩ := h.counted buy hmem
  have hdate : startOfUtcDay t ≤ buy.executedAt := of_decide_eq_true hsince
  exact ⟨decision, hrow, ⟨(startOfUtcDay_le_iff.mpr hdate).trans hday, haction, by simp [hfilled],
    hgate⟩, hsize⟩

lemma boughtSince_elapse (h : Accounts S agent s buys sells) (duration : Time) :
    s.boughtSince (startOfUtcDay (s.now + duration)) ≤ s.boughtSince (startOfUtcDay s.now) :=
  Window.sumSince_anti_of_nonneg h.positive_le (startOfUtcDay_mono (Nat.le_add_right _ _))

lemma elapse (h : Accounts S agent s buys sells) (duration : Time) :
    Accounts S agent { s with now := s.now + duration } buys sells where
  __ := h
  capped hbuys := (h.boughtSince_elapse duration).trans (h.capped hbuys)

lemma markPosition (h : Accounts S agent s buys sells) (token : String) (price : ℚ) :
    Accounts S agent (s.markPosition token price) buys sells where
  __ := h
  held buy hbuy := by
    refine (h.held buy hbuy).mono (fun id row hrow => ?_) fun _ => id
    simp only [State.markPosition, List.getElem?_map, hrow, Option.map_some]
    split_ifs <;> simp +contextual
  sold sell hsell := by
    obtain ⟨row, hrow, hclosed⟩ := h.sold sell hsell
    exact ⟨row, by simp [State.markPosition, hrow, hclosed], hclosed⟩
  tokens := openPositions_markPosition (s := s) ▸ h.tokens
  slots := openPositions_markPosition (s := s) ▸ h.slots

lemma sealDecision (h : Accounts S agent s buys sells)
    (hsized : thesis.action = .buy → gate.passed = true → 0 < thesis.sizeUsd) :
    Accounts S agent (s.sealDecision thesis gate) buys sells where
  __ := h
  counted buy hbuy := by
    obtain ⟨decision, hdecision, hrest⟩ := h.counted buy hbuy
    have hlt : buy.decisionId < s.decisions.length := (List.getElem?_eq_some_iff.mp hdecision).1
    exact ⟨decision, by rw [State.sealDecision, List.getElem?_append_left hlt, hdecision], hrest⟩
  sized decision hdecision := by
    rcases List.mem_append.mp hdecision with hold | hnew
    · exact h.sized decision hold
    · rw [List.mem_singleton.mp hnew]
      exact hsized

lemma updateDecision (h : Accounts S agent s buys sells) {id : ℕ} (hid : s.Sealed id)
    {f : AutopilotDecision → AutopilotDecision} (hf : ∀ decision, (f decision).action =
      decision.action ∧ (f decision).gatePassed = decision.gatePassed ∧
      (f decision).sizeUsd = decision.sizeUsd) :
    Accounts S agent (s.updateDecision id f) buys sells where
  __ := h
  counted buy hbuy := (h.counted buy hbuy).updateDecision hid
  sized decision hdecision := by
    obtain ⟨i, hi⟩ := List.mem_iff_getElem?.mp hdecision
    rw [State.updateDecision, List.getElem?_modify] at hi
    obtain ⟨old, hold, rfl⟩ := Option.map_eq_some_iff.mp hi
    have hsized := h.sized old (List.mem_of_getElem? hold)
    split_ifs
    · obtain ⟨haction, hgate, hsize⟩ := hf old
      rwa [haction, hgate, hsize]
    · exact hsized

lemma settleDecision (h : Accounts S agent s buys sells) {id : ℕ} (hid : s.Sealed id) (ok : Bool) :
    Accounts S agent (s.settleDecision id ok) buys sells :=
  h.updateDecision hid fun _ => ⟨rfl, rfl, rfl⟩

/-- An executed buy, of a sealed decision and within the cap. -/
lemma executeBuy (h : Accounts S agent s s.buys sells) (hsealed : s.Sealed buy.decisionId)
    (hpositive : 0 < buy.sizeUsd)
    (hcap : s.boughtSince (startOfUtcDay s.now) + buy.sizeUsd ≤ agent.rules.dailySpendCapUsd)
    (hnow : buy.executedAt = s.now) :
    Accounts S agent { s with buys := s.buys ++ [buy] } s.buys sells where
  __ := h
  distinct := by
    have hnew : ∀ other ∈ s.buys, other.decisionId ≠ buy.decisionId := by
      intro other hother heq
      obtain ⟨decision, hdecision, -, hfilled, -⟩ := h.counted other hother
      obtain ⟨waiting, hwaiting, hsealed⟩ := hsealed
      rw [← heq, hdecision, Option.some.injEq] at hwaiting
      rw [← hwaiting, hfilled] at hsealed
      cases hsealed
    simpa [List.nodup_append, h.distinct] using hnew
  positive other hother := by
    rcases List.mem_append.mp hother with hold | hnew
    · exact h.positive other hold
    · rwa [List.mem_singleton.mp hnew]
  capped _ := by
    have hday : startOfUtcDay s.now ≤ buy.executedAt := hnow ▸ Nat.div_mul_le_self _ _
    simpa [State.boughtSince, hday] using hcap

/-- The position of the last buy. -/
lemma openPosition (h : Accounts S agent s buys sells) (hbought : s.Bought S agent entry buys buy)
    (hcounted : s.Counted buy) :
    Accounts S agent (s.openPosition entry.draft result entry.decisionId) (buys ++ [buy])
      sells where
  __ := h
  counted other hother := by
    rcases List.mem_append.mp hother with hold | hnew
    · exact h.counted other hold
    · rwa [List.mem_singleton.mp hnew]
  held other hother := by
    rcases List.mem_append.mp hother with hold | hnew
    · refine (h.held other hold).mono
        (fun id row hrow => ⟨row, ?_, rfl, rfl, rfl, .inl⟩) fun _ => id
      rw [State.openPosition, List.getElem?_append_left (List.getElem?_eq_some_iff.mp hrow).1, hrow]
    · rw [List.mem_singleton.mp hnew]
      refine ⟨s.positions.length, _, List.getElem?_concat_length, hbought.decisionId.symm,
        hbought.tokenAddress.symm, hbought.sizeUsd.symm, fun hclosed => ?_⟩
      cases hclosed
  sold sell hsell := by
    obtain ⟨row, hrow, hclosed⟩ := h.sold sell hsell
    refine ⟨row, ?_, hclosed⟩
    rw [State.openPosition, List.getElem?_append_left (List.getElem?_eq_some_iff.mp hrow).1, hrow]
  tokens := by
    rw [openPositions_openPosition, List.map_append, List.nodup_append]
    refine ⟨h.tokens, List.nodup_singleton _, ?_⟩
    rintro token htoken token' htoken' rfl
    obtain ⟨position, hposition, rfl⟩ := List.mem_map.mp htoken
    exact hbought.fresh position hposition (List.mem_singleton.mp htoken')
  slots := by
    rw [openPositions_openPosition, List.length_append]
    exact hbought.slots

/-- What is open has not been sold. -/
lemma not_sold (h : Accounts S agent s buys s.sells) (hopen : position ∈ s.openPositions) :
    position.id ∉ s.sells.map Sell.positionId := by
  obtain ⟨id, row, hrow, hstatus, rfl⟩ := mem_openPositions.mp hopen
  intro hmem
  obtain ⟨sell, hsell, hid⟩ := List.mem_map.mp hmem
  obtain ⟨closed, hclosed, hstatus'⟩ := h.sold sell hsell
  rw [hid, show (row.summary id).id = id from rfl, hrow, Option.some.injEq] at hclosed
  rw [← hclosed, hstatus] at hstatus'
  cases hstatus'

/-- An executed sell of what is open. -/
lemma executeSell (h : Accounts S agent s buys s.sells) (hopen : position ∈ s.openPositions)
    (decisionId : ℕ) :
    Accounts S agent { s with sells := s.sells ++ [⟨position.id, decisionId⟩] } buys s.sells where
  __ := h
  held buy hbuy := (h.held buy hbuy).mono (fun id row hrow => ⟨row, hrow, rfl, rfl, rfl, .inl⟩)
    fun _ => List.mem_append_left _
  once := by
    have hnew := h.not_sold hopen
    simpa [List.nodup_append, h.once] using hnew

/-- The position of the last sell: no other open one is of its token. -/
lemma closePosition (h : Accounts S agent s buys sells) (hopen : exit.position ∈ s.openPositions)
    {sell : Sell} (hlast : s.sells = sells ++ [sell]) (hid : sell.positionId = exit.position.id)
    (price : ℚ) :
    Accounts S agent (s.closePosition exit.position price exit.decisionId) buys s.sells where
  __ := h
  held buy hbuy := by
    refine (h.held buy hbuy).mono (fun id row hrow => ?_) fun _ => id
    simp only [State.closePosition, List.getElem?_map, hrow, Option.map_some]
    by_cases hcloses : row.tokenAddress = exit.position.tokenAddress ∧ row.status = .open_
    · rw [if_pos hcloses]
      refine ⟨_, rfl, rfl, rfl, rfl, fun _ => .inr ⟨sell, hlast ▸ List.mem_concat_self, ?_⟩⟩
      have hmem : row.summary id ∈ s.openPositions := mem_openPositions.mpr ⟨id, row, hrow,
        hcloses.2, rfl⟩
      have heq : row.summary id = exit.position := by
        refine List.inj_on_of_nodup_map h.tokens hmem hopen ?_
        rw [← hcloses.1]
        rfl
      rw [hid, ← heq]
      rfl
    · rw [if_neg hcloses]
      exact ⟨row, rfl, rfl, rfl, rfl, .inl⟩
  sold other hother := by
    have hcloses : ∀ (id : ℕ) row, s.positions[id]? = some row →
        (row.status = .closed ∨ row.tokenAddress = exit.position.tokenAddress) →
        ∃ row', (s.closePosition exit.position price exit.decisionId).positions[id]? = some row' ∧
          row'.status = .closed := by
      intro id row hrow hrow'
      simp only [State.closePosition, List.getElem?_map, hrow, Option.map_some]
      refine ⟨_, rfl, ?_⟩
      cases hstatus : row.status with
      | closed => simp [hstatus]
      | open_  => simp_all
    rcases List.mem_append.mp (hlast ▸ hother) with hold | hnew
    · obtain ⟨row, hrow, hclosed⟩ := h.sold other hold
      exact hcloses _ row hrow (.inl hclosed)
    · obtain ⟨id, row, hrow, -, hsummary⟩ := mem_openPositions.mp hopen
      have hrowid : exit.position.id = id := hsummary ▸ rfl
      rw [List.mem_singleton.mp hnew, hid, hrowid]
      exact hcloses id row hrow (.inr (hsummary ▸ rfl))
  tokens := by
    rw [openPositions_closePosition]
    exact h.tokens.sublist (List.filter_sublist.map _)
  slots := by
    rw [openPositions_closePosition]
    exact (List.length_filter_le _ _).trans h.slots

end Accounts

/-! ### Steps -/

lemma State.Current.later (h : s.Current agent portfolio) (hpositions : s'.positions = s.positions)
    (hspent : s'.boughtSince (startOfUtcDay s'.now) ≤ s.boughtSince (startOfUtcDay s.now)) :
    s'.Current agent portfolio := by
  obtain ⟨now, positions, decisions, stage, buys, sells⟩ := s
  obtain ⟨now', positions', decisions', stage', buys', sells'⟩ := s'
  obtain rfl : positions' = positions := hpositions
  exact ⟨h.equity, h.deployed, h.openPositions, hspent.trans h.spent⟩

/-- What a stage knows is about the tables, and about a day that only gets later. -/
lemma Knows.later (hpositions : s'.positions = s.positions)
    (hdecisions : s'.decisions = s.decisions)
    (hbuys : s'.buys = s.buys) (hsells : s'.sells = s.sells)
    (hspent : s'.boughtSince (startOfUtcDay s'.now) ≤ s.boughtSince (startOfUtcDay s.now)) :
    ∀ {stage : Stage}, Knows S agent s stage → Knows S agent s' stage := by
  obtain ⟨now, positions, decisions, stage, buys, sells⟩ := s
  obtain ⟨now', positions', decisions', stage', buys', sells'⟩ := s'
  obtain rfl : positions' = positions := hpositions
  obtain rfl : decisions' = decisions := hdecisions
  obtain rfl : buys' = buys := hbuys
  obtain rfl : sells' = sells := hsells
  intro stage h
  induction stage with
  | note next ih => exact ih h
  | screen portfolio | entries portfolio _ | security portfolio _ _ _ => exact h.later rfl hspent
  | sealEntry portfolio _ draft gate _ => exact ⟨h.1.later rfl hspent, h.2⟩
  | anchorEntry portfolio entry _ | failEntry portfolio entry _ | buy portfolio entry _ =>
    exact ⟨h.1.later rfl hspent, h.2⟩
  | settleBuy portfolio entry result _ =>
    obtain ⟨hready, h⟩ := h
    refine ⟨hready, ?_⟩
    split_ifs at h ⊢
    · obtain ⟨hbuy, buys, buy, hbought, hday⟩ := h
      exact ⟨hbuy, buys, buy, ⟨hbought.last, hbought.decisionId, hbought.tokenAddress,
        hbought.sizeUsd, hbought.fresh, hbought.slots⟩, hday⟩
    · exact h.later rfl hspent
  | openPosition entry _ _ =>
    obtain ⟨buys, buy, hbought, hcounted⟩ := h
    exact ⟨buys, buy, ⟨hbought.last, hbought.decisionId, hbought.tokenAddress, hbought.sizeUsd,
      hbought.fresh, hbought.slots⟩, hcounted⟩
  | _ => exact h

/-- A summary that has just been loaded. -/
lemma current_loadPortfolio (h : Accounts S agent s s.buys sells) :
    s.Current agent (loadPortfolio S agent s) where
  equity := rfl
  deployed := rfl
  openPositions := rfl
  spent := h.boughtSince_le s.now

/-- The rest of the positions to look at are not of the token that is sold. -/
lemma sublist_closePosition {positions : List OpenPositionSummary} {price : ℚ} {id : ℕ}
    (htokens : (s.openPositions.map fun position => S.norm position.tokenAddress).Nodup)
    (h : (position :: positions).Sublist s.openPositions) :
    positions.Sublist (s.closePosition position price id).openPositions := by
  have hnodup := htokens.sublist (h.map _)
  rw [List.map_cons, List.nodup_cons] at hnodup
  have hothers : ∀ other ∈ positions, other.tokenAddress ≠ position.tokenAddress := by
    intro other hother heq
    exact hnodup.1 (List.mem_map.mpr ⟨other, hother, by rw [heq]⟩)
  have hfilter : positions.filter (fun other => other.tokenAddress ≠ position.tokenAddress) =
      positions := List.filter_eq_self.mpr (by simpa using hothers)
  rw [openPositions_closePosition, ← hfilter]
  exact ((List.sublist_cons_self position positions).trans h).filter _

variable {stage next : Stage} {positions : List OpenPositionSummary} {candidates : List Candidate}
  {candidate : Candidate} {price : ℚ}

namespace Before

lemma move (h : Before S agent s stage) (hbuying : stage.buying = false)
    (hselling : stage.selling = false) (hbuying' : next.buying = false)
    (hselling' : next.selling = false) (hknows : Knows S agent s next) : Before S agent s next := by
  have haccounts := h.accounts
  rw [hbuying, hselling] at haccounts
  exact ⟨by rwa [hbuying', hselling'], hknows⟩

/-- An exit that passes is no buy. -/
lemma sealExit (h : Before S agent s (.sealExit portfolio position price thesis gate positions)) :
    Before S agent (s.sealDecision thesis gate) (.note
      (if gate.passed then
        .anchorExit portfolio ⟨position, price, thesis, s.decisions.length⟩ positions
      else .note (.note (.exits portfolio positions)))) := by
  obtain ⟨haccounts, hpositions, hgate⟩ := h
  have hsized : thesis.action = .buy → gate.passed = true → 0 < thesis.sizeUsd := by
    intro hbuy hpassed
    rw [hgate hbuy] at hpassed
    cases hpassed
  have haccounts' := haccounts.sealDecision hsized
  by_cases hpassed : gate.passed = true
  · rw [if_pos hpassed]
    refine ⟨haccounts', hpositions, _, List.getElem?_concat_length, ?_⟩
    simp [hpassed]
  · rw [if_neg hpassed]
    exact ⟨haccounts', (List.sublist_cons_self _ _).trans hpositions⟩

lemma executeSell (h : Before S agent s (.sell portfolio exit positions)) :
    Before S agent
      (if result.ok then { s with sells := s.sells ++ [⟨exit.position.id, exit.decisionId⟩] }
        else s)
      (.settleSell portfolio exit result positions) := by
  obtain ⟨haccounts, hpositions, hsealed⟩ := h
  rcases result with ⟨_ | _, fillPriceUsd⟩
  · exact ⟨haccounts, hpositions, hsealed, fun hok => by cases hok⟩
  · refine ⟨?_, hpositions, hsealed, fun _ => ⟨s.sells, _, rfl, rfl⟩⟩
    simp only [recorded, Stage.buying, Stage.selling, if_true, List.dropLast_concat]
    exact haccounts.executeSell (hpositions.subset List.mem_cons_self) _

lemma settleSell (h : Before S agent s (.settleSell portfolio exit result positions)) :
    Before S agent (s.settleDecision exit.decisionId result.ok) (.note
      (if result.ok then .closePosition portfolio exit result positions
      else .note (.exits portfolio positions))) := by
  obtain ⟨haccounts, hpositions, hsealed, hsold⟩ := h
  have haccounts' := haccounts.settleDecision hsealed result.ok
  rcases result with ⟨_ | _, fillPriceUsd⟩
  · exact ⟨haccounts', (List.sublist_cons_self _ _).trans hpositions⟩
  · exact ⟨haccounts', hpositions, hsold rfl⟩

lemma closePosition (h : Before S agent s (.closePosition portfolio exit result positions)) :
    Before S agent (s.closePosition exit.position price exit.decisionId)
      (.note (.exits portfolio positions)) := by
  obtain ⟨haccounts, hpositions, sells, sell, hlast, hid⟩ := h
  refine ⟨?_, sublist_closePosition haccounts.tokens hpositions⟩
  have hrecorded : recorded true s.sells = sells := by
    rw [recorded, if_pos rfl, hlast, List.dropLast_concat]
  have haccounts' : Accounts S agent s s.buys sells := hrecorded ▸ haccounts
  exact haccounts'.closePosition (hpositions.subset List.mem_cons_self) hlast hid price

/-- An entry that passes is one the book can afford. -/
lemma sealEntry (h : Before S agent s (.sealEntry portfolio candidate thesis gate candidates)) :
    Before S agent (s.sealDecision thesis gate) (.note
      (if gate.passed then .anchorEntry portfolio ⟨candidate, thesis, s.decisions.length⟩ candidates
      else .note (.note (.entries portfolio candidates)))) := by
  obtain ⟨haccounts, hcurrent, hgate⟩ := h
  have hsized : thesis.action = .buy → gate.passed = true → 0 < thesis.sizeUsd :=
    fun hbuy hpassed => (hgate hbuy hpassed).positive
  have haccounts' := haccounts.sealDecision hsized
  have hcurrent' : (s.sealDecision thesis gate).Current agent portfolio :=
    hcurrent.later rfl le_rfl
  by_cases hpassed : gate.passed = true
  · rw [if_pos hpassed]
    refine ⟨haccounts', hcurrent', ⟨_, List.getElem?_concat_length, ?_, rfl, hpassed, rfl⟩,
      fun hbuy => hgate hbuy hpassed⟩
    simp [hpassed]
  · rw [if_neg hpassed]
    exact ⟨haccounts', hcurrent'⟩

lemma failEntry (h : Before S agent s (.failEntry portfolio entry candidates)) :
    Before S agent (s.updateDecision entry.decisionId fun d => { d with status := .failed })
      (.note (.entries portfolio candidates)) := by
  obtain ⟨haccounts, hcurrent, hready, -⟩ := h
  exact ⟨haccounts.updateDecision hready.sealed fun _ => ⟨rfl, rfl, rfl⟩,
    hcurrent.later rfl le_rfl⟩

lemma executeBuy (h : Before S agent s (.buy portfolio entry candidates))
    (htimely : entry.Timely s) :
    Before S agent
      (if result.ok then { s with buys := s.buys ++ [entry.toBuy agent s] } else s)
      (.settleBuy portfolio entry result candidates) := by
  obtain ⟨haccounts, hcurrent, hready, hafford⟩ := h
  rcases result with ⟨_ | _, fillPriceUsd⟩
  · exact ⟨haccounts, hready, hcurrent⟩
  · obtain ⟨hbuy, hday⟩ := htimely
    have hafford' := hafford hbuy
    have hcap := (add_le_add_left hcurrent.spent _).trans hafford'.dailyCap
    have hsealed : s.Sealed (entry.toBuy agent s).decisionId := hready.sealed
    have haccounts' := haccounts.executeBuy hsealed hafford'.positive hcap rfl
    refine ⟨?_, hready, hbuy, s.buys, _, ⟨rfl, rfl, rfl, rfl, ?_, ?_⟩, hday⟩
    · simpa [recorded, Stage.buying, Stage.selling] using haccounts'
    · intro position hposition heq
      refine hafford'.fresh ⟨position, ?_, heq⟩
      rw [hcurrent.openPositions]
      exact hposition
    · exact hcurrent.openPositions ▸ hafford'.slots

lemma settleBuy (h : Before S agent s (.settleBuy portfolio entry result candidates)) :
    Before S agent (s.settleDecision entry.decisionId result.ok) (.note (.note
      (if result.ok then .openPosition entry result candidates
      else .entries portfolio candidates))) := by
  obtain ⟨haccounts, ⟨decision, hdecision, hsealed, haction, hgate, hsize⟩, hknows⟩ := h
  have haccounts' := haccounts.settleDecision ⟨decision, hdecision, hsealed⟩ result.ok
  rcases result with ⟨_ | _, fillPriceUsd⟩
  · exact ⟨haccounts', hknows.later rfl le_rfl⟩
  · obtain ⟨hbuy, buys, buy, hbought, day, hday, hsince⟩ := hknows
    obtain rfl : day = decision := by
      rw [Option.mem_def, hdecision, Option.some.injEq] at hday
      exact hday.symm
    refine ⟨haccounts', buys, buy, ⟨hbought.last, hbought.decisionId, hbought.tokenAddress,
      hbought.sizeUsd, hbought.fresh, hbought.slots⟩,
      { day with status := .filled, executedAt := some s.now }, ?_, haction.trans hbuy, rfl, hgate,
      hsize.trans hbought.sizeUsd.symm, hsince⟩
    rw [hbought.decisionId]
    simp [State.settleDecision, State.updateDecision, hdecision]

lemma openPosition (h : Before S agent s (.openPosition entry result candidates)) :
    Before S agent (s.openPosition entry.draft result entry.decisionId)
      (.loadForEntries candidates) := by
  obtain ⟨haccounts, buys, buy, hbought, hcounted⟩ := h
  refine ⟨?_, trivial⟩
  have hrecorded : recorded true s.buys = buys := by
    rw [recorded, if_pos rfl, hbought.last, List.dropLast_concat]
  have haccounts' : Accounts S agent s buys s.sells := hrecorded ▸ haccounts
  have hopened : Accounts S agent (s.openPosition entry.draft result entry.decisionId)
      (buys ++ [buy]) s.sells := haccounts'.openPosition hbought hcounted
  rw [← hbought.last] at hopened
  exact hopened

/-- What a step of a cycle keeps. -/
theorem advance {answer : Answer} (h : Before S agent s stage)
    (hcareful : ∀ portfolio entry candidates, stage = .buy portfolio entry candidates →
      entry.Timely s)
    (hadvance : advance S agent s stage answer = .ok (s', next)) : Before S agent s' next := by
  cases stage with
  | idle => cases answer <;> cases hadvance
  -- the marks
  | insertCycle | loadForMarks =>
    cases answer with
    | ok =>
      cases hadvance
      exact h.move rfl rfl rfl rfl trivial
    | _ => cases hadvance
  | mark positions =>
    cases positions with
    | nil =>
      cases answer with
      | ok =>
        cases hadvance
        exact h.move rfl rfl rfl rfl trivial
      | _ => cases hadvance
    | cons position positions =>
      cases answer with
      | price price =>
        cases price with
        | none =>
          cases hadvance
          exact h.move rfl rfl rfl rfl trivial
        | some price =>
          cases hadvance
          exact ⟨h.accounts.markPosition _ _, trivial⟩
      | _ => cases hadvance
  -- the exits
  | loadForExits =>
    cases answer with
    | ok =>
      cases hadvance
      exact h.move rfl rfl rfl rfl (List.Sublist.refl s.openPositions)
    | _ => cases hadvance
  | exits portfolio positions =>
    cases positions with
    | nil =>
      cases answer with
      | ok =>
        cases hadvance
        exact h.move rfl rfl rfl rfl trivial
      | _ => cases hadvance
    | cons position positions =>
      cases answer with
      | price price =>
        cases price with
        | none =>
          cases hadvance
          exact h.move rfl rfl rfl rfl ((List.sublist_cons_self _ _).trans h.knows)
        | some price =>
          dsimp only [Autopilot.advance] at hadvance
          split_ifs at hadvance
          · cases hadvance
            exact h.move rfl rfl rfl rfl h.knows
          · cases hadvance
            exact h.move rfl rfl rfl rfl ((List.sublist_cons_self _ _).trans h.knows)
      | _ => cases hadvance
  | formExit portfolio position price positions =>
    cases answer with
    | thesis thesis =>
      cases thesis with
      | none => cases hadvance
      | some thesis =>
        cases hadvance
        refine h.move rfl rfl rfl rfl ⟨h.knows, fun hbuy => ?_⟩
        rw [← Bool.not_eq_true]
        exact fun hpassed => (passed_buy hbuy hpassed).1 rfl
    | _ => cases hadvance
  | sealExit portfolio position price thesis gate positions =>
    cases answer with
    | ok =>
      cases hadvance
      exact h.sealExit
    | _ => cases hadvance
  | anchorExit portfolio exit positions =>
    cases answer with
    | ok =>
      dsimp only [Autopilot.advance] at hadvance
      split_ifs at hadvance
      cases hadvance
      exact h.move rfl rfl rfl rfl h.knows
    | anchored ok =>
      dsimp only [Autopilot.advance] at hadvance
      split_ifs at hadvance
      · cases hadvance
        exact h.move rfl rfl rfl rfl h.knows
      · cases hadvance
        exact h.move rfl rfl rfl rfl h.knows
    | _ => cases hadvance
  | sell portfolio exit positions =>
    dsimp only [Autopilot.advance] at hadvance
    split at hadvance
    · cases hadvance
    · cases hadvance
      exact h.executeSell
  | settleSell portfolio exit result positions =>
    cases answer with
    | ok =>
      cases hadvance
      exact h.settleSell
    | _ => cases hadvance
  | closePosition portfolio exit result positions =>
    cases answer with
    | ok =>
      cases hadvance
      exact h.closePosition
    | _ => cases hadvance
  -- the entries
  | loadForScreen =>
    cases answer with
    | ok =>
      cases hadvance
      exact h.move rfl rfl rfl rfl (current_loadPortfolio h.accounts)
    | _ => cases hadvance
  | screen portfolio =>
    cases answer with
    | candidates candidates =>
      cases hadvance
      exact h.move rfl rfl rfl rfl h.knows
    | _ => cases hadvance
  | entries portfolio candidates =>
    cases candidates with
    | nil =>
      cases answer with
      | ok =>
        cases hadvance
        exact h.move rfl rfl rfl rfl trivial
      | _ => cases hadvance
    | cons candidate candidates =>
      cases answer with
      | thesis draft =>
        dsimp only [Autopilot.advance] at hadvance
        split_ifs at hadvance
        · cases hadvance
          exact h.move rfl rfl rfl rfl trivial
        · cases draft with
          | none | some =>
            cases hadvance
            exact h.move rfl rfl rfl rfl h.knows
      | _ => cases hadvance
  | security portfolio candidate draft candidates =>
    cases answer with
    | security security =>
      cases hadvance
      exact h.move rfl rfl rfl rfl ⟨h.knows, affordable_of_passed⟩
    | _ => cases hadvance
  | sealEntry portfolio candidate draft gate candidates =>
    cases answer with
    | ok =>
      cases hadvance
      exact h.sealEntry
    | _ => cases hadvance
  | anchorEntry portfolio entry candidates =>
    cases answer with
    | ok =>
      dsimp only [Autopilot.advance] at hadvance
      split_ifs at hadvance
      cases hadvance
      exact h.move rfl rfl rfl rfl h.knows
    | anchored ok =>
      dsimp only [Autopilot.advance] at hadvance
      split_ifs at hadvance
      · cases hadvance
        exact h.move rfl rfl rfl rfl h.knows
      · cases hadvance
        exact h.move rfl rfl rfl rfl h.knows
    | _ => cases hadvance
  | failEntry portfolio entry candidates =>
    cases answer with
    | ok =>
      cases hadvance
      exact h.failEntry
    | _ => cases hadvance
  | buy portfolio entry candidates =>
    dsimp only [Autopilot.advance] at hadvance
    split at hadvance
    · cases hadvance
    · cases hadvance
      exact h.executeBuy (hcareful _ _ _ rfl)
  | settleBuy portfolio entry result candidates =>
    cases answer with
    | ok =>
      cases hadvance
      exact h.settleBuy
    | _ => cases hadvance
  | openPosition entry result candidates =>
    cases answer with
    | ok =>
      cases hadvance
      exact h.openPosition
    | _ => cases hadvance
  | loadForEntries candidates =>
    cases answer with
    | ok =>
      cases hadvance
      exact h.move rfl rfl rfl rfl (current_loadPortfolio h.accounts)
    | _ => cases hadvance
  | note next =>
    cases answer with
    | ok =>
      cases hadvance
      exact ⟨h.accounts, h.knows⟩
    | _ => cases hadvance

end Before

lemma Before.later (h : Before S agent s stage) (duration : Time) (stage' : Stage) :
    Before S agent { s with now := s.now + duration, stage := stage' } stage := by
  refine ⟨{ h.accounts.elapse duration with }, Knows.later ?_ ?_ ?_ ?_ ?_ h.knows⟩
  · rfl
  · rfl
  · rfl
  · rfl
  · have hspent := h.accounts.boughtSince_elapse duration
    simp only [State.boughtSince] at hspent ⊢
    exact hspent

/-- What holds at all times of a careful run. -/
def Inv (S : Strings) (agent : AutopilotAgent) (s : State) : Prop := Before S agent s s.stage

lemma step_take {answer : Answer} (hthrows : answer ≠ .throws)
    (hstep : step S agent s (.take answer) = .ok s') :
    ∃ s'' next, advance S agent s s.stage answer = .ok (s'', next) ∧
      s' = { s'' with stage := next } := by
  cases hadvance : advance S agent s s.stage answer with
  | error e =>
    cases answer <;> simp_all [step, Except.map]
  | ok r =>
    refine ⟨r.1, r.2, rfl, ?_⟩
    cases answer <;> simp_all [step, Except.map]

lemma Careful.timely {answer : Answer} (h : Careful s (.take answer)) (hthrows : answer ≠ .throws)
    (hstage : s.stage = .buy portfolio entry candidates) : entry.Timely s := by
  cases answer <;> simp_all [Careful]

theorem inv_step {action : Action} (h : Inv S agent s) (hcareful : Careful s action)
    (hstep : (machine S agent).step s action = .ok s') : Inv S agent s' := by
  change step S agent s action = .ok s' at hstep
  cases action with
  | runCycle =>
    simp only [step] at hstep
    split at hstep
    · rename_i hidle
      cases hstep
      have hstart : Before S agent s .insertCycle :=
        h.move (by rw [hidle]; rfl) (by rw [hidle]; rfl) rfl rfl trivial
      exact hstart.later 0 _
    · cases hstep
  | elapse duration =>
    cases hstep
    exact h.later duration _
  | take answer =>
    by_cases hthrows : answer = .throws
    · subst hthrows
      simp only [step] at hstep
      split at hstep
      · cases hstep
      · cases hstep
        have hstop : Before S agent s .idle := h.move hcareful.1 hcareful.2 rfl rfl trivial
        exact hstop.later 0 _
    · obtain ⟨s'', next, hadvance, rfl⟩ := step_take hthrows hstep
      have hnext := h.advance (fun _ _ _ hstage => hcareful.timely hthrows hstage) hadvance
      exact hnext.later 0 _

lemma inv_initial (now : Time) : Inv S agent (initial now) := by
  refine ⟨⟨nofun, nofun, List.nodup_nil, nofun, nofun, nofun, List.nodup_nil, List.nodup_nil,
    Nat.zero_le _, fun h => absurd rfl h⟩, trivial⟩

end Suwappu.Autopilot
