import Suwappu.Lib.Rows
import Suwappu.OrderService.PriceChecks

/-!
# Orders by their own conditions

`served_iff`: a check serves every pending order, each by its own condition at the market price,
just in case the orders are `Unaffected` by one another. `orders_served`: along a run of such checks
the stored peaks are the largest prices seen.
-/

namespace Suwappu.OrderService

variable {service : PriceService} {s : State} {tokens : List String} {token : String}
  {od od' : OrderData} {orders : List OrderData} {id : OrderId} {o : LimitOrder}

/-! ### Prices -/

lemma lookup_known : ((tokens.filterMap fun token => (service.known token).map fun price =>
    (token, some price)).lookup token) = if token ∈ tokens then (service.known token).map some
      else none := by
  have hfun : (fun token => (service.known token).map fun price => (token, some price)) =
      fun token => ((service.known token).map some).map fun price => (token, price) := by
    funext token
    rw [Option.map_map]
    rfl
  rw [hfun]
  split_ifs with hmem
  · refine @Rows.lookup_filterMap _ _ _ _ _ id _ _ _ _ (fun t _ ht => ?_) (.inr ⟨token, hmem, rfl⟩)
    rw [← ht]
    rfl
  · exact @Rows.lookup_filterMap _ _ _ _ _ id _ _ _ _ (fun t ht heq => absurd (heq ▸ ht) hmem)
      (.inl rfl)

lemma mem_uppers_iff :
    token ∈ (orders.map OrderData.tokenToPrice).map service.upper ↔ Asked service orders token := by
  rw [List.map_map, List.mem_map]
  rfl

lemma coingeckoIds_eq_nil_iff :
    ((((orders.map OrderData.tokenToPrice).map service.upper).filter fun token =>
      service.known token = none).filterMap fun token => TOKEN_TO_COINGECKO.lookup token) = [] ↔
      ¬ Fetches service orders := by
  rw [List.filterMap_eq_nil_iff]
  constructor
  · rintro hnone ⟨od, hod, hknown, hsome⟩
    have hmem := mem_uppers_iff.mpr (show Asked service orders _ from ⟨od, hod, rfl⟩)
    rw [hnone _ (List.mem_filter.mpr ⟨hmem, decide_eq_true hknown⟩)] at hsome
    cases hsome
  · intro hfetches token htoken
    obtain ⟨hmem, hknown⟩ := List.mem_filter.mp htoken
    obtain ⟨od, hod, rfl⟩ := mem_uppers_iff.mp hmem
    by_contra hsome
    exact hfetches ⟨od, hod, of_decide_eq_true hknown, Option.isSome_iff_ne_none.mpr hsome⟩

/-- What the check reads for a token that it has asked for. -/
lemma priceGet_of_asked (hasked : Asked service orders token) :
    priceGet (service.getPrices (orders.map OrderData.tokenToPrice)) token =
      if service.getPrice token = none ∧ ¬ Fetches service orders then some 0
      else service.getPrice token := by
  have hmem := mem_uppers_iff.mpr hasked
  have hupper : service.upper token = token := by
    obtain ⟨od, -, rfl⟩ := hasked
    exact service.upper_upper _
  have hids : _ ↔ ¬ Fetches service orders := coingeckoIds_eq_nil_iff
  have hprice : service.getPrice token = (service.known token).or (service.fetch token) := by
    rw [PriceService.getPrice, hupper]
  by_cases hfetches : Fetches service orders
  · rw [if_neg fun hnone => hnone.2 hfetches, PriceService.getPrices]
    rw [if_neg fun hnil => hids.mp hnil hfetches, priceGet, List.lookup_append, lookup_known,
      if_pos hmem, hprice]
    cases hknown : service.known token with
    | some price => rfl
    | none =>
      rw [List.lookup_graph _ (List.mem_filter.mpr ⟨hmem, decide_eq_true hknown⟩)]
      rfl
  · rw [PriceService.getPrices]
    rw [if_pos (hids.mpr hfetches), priceGet, lookup_known, if_pos hmem, hprice]
    cases hknown : service.known token with
    | some price => exact (if_neg fun hnone => nomatch hnone.1).symm
    | none =>
      have hnone : service.fetch token = none := by
        unfold PriceService.fetch
        cases hlookup : TOKEN_TO_COINGECKO.lookup token with
        | none    => rfl
        | some cg =>
          obtain ⟨od, hod, rfl⟩ := hasked
          exact absurd ⟨od, hod, hknown, by rw [hlookup]; rfl⟩ hfetches
      exact (if_pos ⟨hnone, hfetches⟩).symm

lemma priceGet_of_not_asked (hasked : ¬ Asked service orders token) :
    priceGet (service.getPrices (orders.map OrderData.tokenToPrice)) token = some 0 := by
  have hmem : token ∉ (orders.map OrderData.tokenToPrice).map service.upper :=
    fun hmem => hasked (mem_uppers_iff.mp hmem)
  unfold PriceService.getPrices
  dsimp only
  rw [priceGet]
  split_ifs
  · rw [lookup_known, if_neg hmem]
    rfl
  · have hfetch : ((((orders.map OrderData.tokenToPrice).map service.upper).filter fun token =>
        service.known token = none).map fun token => (token, service.fetch token)).lookup token =
        none := by
      rw [List.lookup_eq_none_iff]
      rintro ⟨token', price⟩ hrow
      obtain ⟨token'', htoken, hrow⟩ := List.mem_map.mp hrow
      cases hrow
      exact bne_iff_ne.mpr fun heq => hmem (heq ▸ List.mem_of_mem_filter htoken)
    rw [List.lookup_append, lookup_known, if_neg hmem, Option.none_or, hfetch]
    rfl

/-! ### The pending orders -/

lemma mem_pending : od ∈ s.pending ↔ ∃ o, s.orders[od.id]? = some o ∧ o.status = .PENDING ∧
    o.expires s.now = false ∧ o.data od.id = od := by
  unfold State.pending
  rw [List.mem_map]
  constructor
  · rintro ⟨⟨o, id⟩, hrow, rfl⟩
    obtain ⟨hrow, hpending⟩ := List.mem_filter.mp hrow
    obtain ⟨hstatus, hexpires⟩ := of_decide_eq_true hpending
    exact ⟨o, List.mem_zipIdx_iff_getElem?.mp hrow, hstatus, Bool.not_eq_true _ ▸ hexpires, rfl⟩
  · rintro ⟨o, hrow, hstatus, hexpires, hod⟩
    refine ⟨(o, od.id), List.mem_filter.mpr ⟨List.mem_zipIdx_iff_getElem?.mpr hrow, ?_⟩, hod⟩
    exact decide_eq_true ⟨hstatus, by rw [hexpires]; exact Bool.false_ne_true⟩

lemma pending_inj (h : od ∈ s.pending) (h' : od' ∈ s.pending) (hid : od.id = od'.id) :
    od = od' := by
  obtain ⟨o, ho, -, -, hod⟩ := mem_pending.mp h
  obtain ⟨o', ho', -, -, hod'⟩ := mem_pending.mp h'
  rw [hid, ho'] at ho
  cases ho
  rw [← hod, ← hod', hid]

lemma getElem?_markExpired : s.markExpired.orders[id]? = s.orders[id]?.map fun o =>
    if o.expires s.now then { o with status := .EXPIRED } else o :=
  List.getElem?_map

/-- A pending order is as it was where only others expire. -/
lemma getElem?_of_pending (h : od ∈ s.pending) : ∃ o, s.markExpired.orders[od.id]? = some o ∧
    o.status = .PENDING ∧ o.highestPriceSeen = od.highestPriceSeen := by
  obtain ⟨o, ho, hstatus, hexpires, hod⟩ := mem_pending.mp h
  refine ⟨o, ?_, hstatus, congrArg OrderData.highestPriceSeen hod⟩
  rw [getElem?_markExpired, ho, Option.map_some, hexpires]
  rfl

/-! ### One check -/

variable {price : String → ℚ}

lemma OrderData.price_eq : od.price price = price od.watched := by
  unfold OrderData.price OrderData.watched
  cases od.orderType <;> rfl

lemma OrderData.newPeak_or : (od.newPeak price).or od.highestPriceSeen =
    od.peakAfter (positivePrice (price od.watched)) := by
  unfold OrderData.newPeak OrderData.peakAfter OrderData.trails positivePrice
  rw [OrderData.price_eq]
  by_cases hpos : 0 < price od.watched
  · rw [if_pos hpos]
    cases od.orderType with
    | TRAILING_STOP =>
      by_cases hpct : 0 < od.trailingPercent.getD 0
      · simp [hpos, hpct, OrderData.peak]
      · simp [hpct, not_lt.mp hpct]
    | _ => rfl
  · rw [if_neg hpos]
    cases od.orderType with
    | TRAILING_STOP => simp [not_lt.mp hpos]
    | _ => rfl

lemma OrderData.shouldTrigger_iff : (od.shouldTrigger price ∧ 0 < od.price price) ↔
    od.Triggers (positivePrice (price od.watched)) := by
  unfold OrderData.shouldTrigger OrderData.newPeak OrderData.Triggers OrderData.Condition
    positivePrice
  rw [OrderData.price_eq]
  by_cases hpos : 0 < price od.watched
  · cases od.orderType with
    | TRAILING_STOP =>
      by_cases hpct : 0 < od.trailingPercent.getD 0
      · simp [hpos, hpct, not_le.mpr hpos, OrderData.peak]
      · simp [hpos, hpct, not_lt.mp hpct]
    | _ => simp [hpos]
  · simp [hpos]

lemma lookup_peaks (h : od ∈ s.pending) :
    (trailingPeakUpdates s.pending price).lookup od.id = od.newPeak price :=
  Rows.lookup_filterMap (fun od' hod' hid => by rw [pending_inj hod' h hid]) (.inr ⟨od, h, rfl⟩)

lemma lookup_triggered (h : od ∈ s.pending) : (triggered s.pending price).lookup od.id =
    if od.shouldTrigger price ∧ 0 < od.price price then some (od.price price) else none := by
  have hrows : triggered s.pending price = s.pending.filterMap fun od =>
      (if od.shouldTrigger price ∧ 0 < od.price price then some (od.price price) else none).map
        fun price => (od.id, price) := by
    unfold triggered
    rw [← List.filterMap_eq_map', List.filterMap_filter]
    refine List.filterMap_congr fun od _ => ?_
    simp only [decide_eq_true_eq]
    split_ifs <;> rfl
  rw [hrows]
  exact Rows.lookup_filterMap (fun od' hod' hid => by rw [pending_inj hod' h hid])
    (.inr ⟨od, h, rfl⟩)

/-- What is marked and written goes by the prices that are read. -/
lemma checked_markTriggered (h : od ∈ s.pending) :
    Checked (positivePrice (price od.watched)) (s.markExpired.markTriggered
      (triggered s.pending price) (trailingPeakUpdates s.pending price)) od := by
  obtain ⟨o, ho, hstatus, hpeak⟩ := getElem?_of_pending h
  have hrow : (s.markExpired.markTriggered (triggered s.pending price)
      (trailingPeakUpdates s.pending price)).orders[od.id]? =
        s.markExpired.orders[od.id]?.map _ := List.getElem?_mapIdx
  rw [ho, Option.map_some] at hrow
  refine ⟨_, hrow, ?_, ?_⟩
  · rw [lookup_triggered h, ← OrderData.shouldTrigger_iff]
    split_ifs with htriggers
    · exact iff_of_true rfl htriggers
    · exact iff_of_false (by rw [hstatus]; decide) htriggers
  · rw [← OrderData.newPeak_or, ← hpeak, ← lookup_peaks h]
    split <;> rfl

lemma checked_none (h : od ∈ s.pending) : Checked none s.markExpired od := by
  obtain ⟨o, ho, hstatus, hpeak⟩ := getElem?_of_pending h
  refine ⟨o, ho, iff_of_false (by rw [hstatus]; decide) ?_, hpeak⟩
  rintro ⟨price, hprice, -⟩
  cases hprice

/-- A check that finds no price has served an order that needs nothing. -/
lemma served_iff_of_checked_none (h : Checked none s od) :
    Served service s od ↔ ¬ od.Needs service := by
  obtain ⟨o, ho, hstatus, hpeak⟩ := h
  have hnone : o.status ≠ .TRIGGERED := by
    intro htriggered
    obtain ⟨price, hprice, -⟩ := hstatus.mp htriggered
    cases hprice
  constructor
  · rintro ⟨o', ho', hstatus', hpeak'⟩ hneeds
    rw [ho] at ho'
    cases ho'
    rcases hneeds with htriggers | hraised
    · exact hnone (hstatus'.mpr htriggers)
    · exact hraised (hpeak'.symm.trans hpeak)
  · intro hneeds
    refine ⟨o, ho, iff_of_false hnone fun htriggers => hneeds (.inl htriggers), ?_⟩
    by_contra hraised
    exact hneeds (.inr fun heq => hraised (hpeak.trans heq.symm))

lemma markTriggered_nil : s.markTriggered [] [] = s := by
  have horders : s.orders.mapIdx (fun _ o => o) = s.orders := by
    refine List.ext_getElem List.length_mapIdx fun i h _ => ?_
    rw [List.getElem_mapIdx]
  exact congrArg (fun orders => { s with orders }) horders

/-- The price that is read of the token of an order. -/
def OrderData.read (od : OrderData) (service : PriceService) (orders : List OrderData) : Option ℚ :=
  priceGet (service.getPrices (orders.map OrderData.tokenToPrice)) od.watched

lemma read_eq_none_iff : od.read service orders = none ↔ Unpriced service orders od.watched := by
  unfold OrderData.read Unpriced
  by_cases hasked : Asked service orders od.watched
  · rw [priceGet_of_asked hasked]
    split_ifs with hnone
    · exact iff_of_false nofun fun hunpriced => hnone.2 hunpriced.2.2
    · rw [not_and, not_not] at hnone
      exact ⟨fun hprice => ⟨hasked, hprice, hnone hprice⟩, fun hunpriced => hunpriced.2.1⟩
  · rw [priceGet_of_not_asked hasked]
    exact iff_of_false nofun fun hunpriced => hasked hunpriced.1

/-- Of a token that was asked for the market price is read, and else none. -/
lemma positivePrice_read (hread : od.read service orders ≠ none) :
    positivePrice ((od.read service orders).getD 0) =
      if Asked service orders od.watched then od.market service else none := by
  have hzero : positivePrice 0 = none := if_neg (lt_irrefl 0)
  unfold OrderData.read at hread ⊢
  split_ifs with hasked
  · rw [priceGet_of_asked hasked] at hread ⊢
    unfold OrderData.market
    split_ifs at hread ⊢ with hnone
    · rw [hnone.1, Option.getD_some, hzero]
      rfl
    · obtain ⟨price, hprice⟩ := Option.ne_none_iff_exists'.mp hread
      rw [hprice]
      rfl
  · rw [priceGet_of_not_asked hasked, Option.getD_some, hzero]

/-- A check ends without a mark, or goes by the prices that it reads. -/
lemma checkLimitOrders_cases (service : PriceService) (s : State) :
    (∃ od ∈ s.pending, Unpriced service s.pending od.watched) ∧
        s.checkLimitOrders service = s.markExpired ∨
      (∀ od ∈ s.pending, od.read service s.pending ≠ none) ∧ ∀ od ∈ s.pending,
        Checked (positivePrice ((od.read service s.pending).getD 0))
          (s.checkLimitOrders service) od := by
  unfold State.checkLimitOrders
  dsimp only
  by_cases hnil : s.pending = []
  · rw [hnil]
    exact .inr ⟨fun od hod => absurd hod List.not_mem_nil,
      fun od hod => absurd hod List.not_mem_nil⟩
  rw [if_neg hnil]
  split_ifs with hnone hempty
  · obtain ⟨od, hod, hread⟩ := List.any_eq_true.mp hnone
    exact .inl ⟨⟨od, hod, read_eq_none_iff.mp (of_decide_eq_true hread)⟩, rfl⟩
  all_goals
    refine .inr ⟨fun od hod hread => hnone ?_, fun od hod => ?_⟩
    · exact List.any_eq_true.mpr ⟨od, hod, decide_eq_true hread⟩
  · have hsame := congrArg₂ s.markExpired.markTriggered hempty.1 hempty.2
    rw [markTriggered_nil] at hsame
    rw [← hsame]
    exact checked_markTriggered hod
  · exact checked_markTriggered hod

theorem served_iff (service : PriceService) (s : State) :
    (∀ od ∈ s.pending, Served service (s.checkLimitOrders service) od) ↔
      Unaffected service s.pending := by
  rcases checkLimitOrders_cases service s with ⟨hunpriced, hcheck⟩ | ⟨hread, hchecked⟩
  · rw [hcheck]
    have hserved : ∀ od ∈ s.pending, Served service s.markExpired od ↔ ¬ od.Needs service :=
      fun od hod => served_iff_of_checked_none (checked_none hod)
    constructor
    · intro h
      have hneeds : ∀ od ∈ s.pending, ¬ od.Needs service :=
        fun od hod => (hserved od hod).mp (h od hod)
      exact ⟨fun od hod hneed => absurd hneed (hneeds od hod), fun _ => hneeds⟩
    · intro h od hod
      exact (hserved od hod).mpr (h.priced hunpriced od hod)
  · have hserved : ∀ od ∈ s.pending, Served service (s.checkLimitOrders service) od ↔
        (od.Needs service → Asked service s.pending od.watched) := by
      intro od hod
      have hchecked := hchecked od hod
      rw [positivePrice_read (hread od hod)] at hchecked
      split_ifs at hchecked with hasked
      · exact iff_of_true hchecked fun _ => hasked
      · rw [served_iff_of_checked_none hchecked]
        exact ⟨fun hneeds hneed => absurd hneed hneeds, fun h hneed => hasked (h hneed)⟩
    constructor
    · intro h
      refine ⟨fun od hod => (hserved od hod).mp (h od hod), ?_⟩
      rintro ⟨od, hod, hunpriced⟩
      exact absurd (read_eq_none_iff.mpr hunpriced) (hread od hod)
    · intro h od hod
      exact (hserved od hod).mpr (h.asked od hod)

/-! ### Peaks -/

/-- A step leaves the kind of an order, and its peak unless it has been pending. -/
def Keeps (s s' : State) : Prop :=
  s'.orders.length = s.orders.length ∧ ∀ id o, s.orders[id]? = some o → ∃ o',
    s'.orders[id]? = some o' ∧ (o'.data id).trails = (o.data id).trails ∧
      ((∀ od ∈ s.pending, od.id ≠ id) → o'.highestPriceSeen = o.highestPriceSeen)

lemma keeps_markExpired : Keeps s s.markExpired := by
  refine ⟨List.length_map _, fun id o ho => ?_⟩
  rw [getElem?_markExpired, ho]
  refine ⟨_, rfl, ?_, fun _ => ?_⟩
  all_goals
    dsimp only
    split_ifs <;> rfl

lemma keeps_markTriggered : Keeps s (s.markExpired.markTriggered (triggered s.pending price)
    (trailingPeakUpdates s.pending price)) := by
  obtain ⟨hlength, hkeeps⟩ := keeps_markExpired (s := s)
  refine ⟨List.length_mapIdx.trans hlength, fun id o ho => ?_⟩
  obtain ⟨o', ho', htrails, hpeak⟩ := hkeeps id o ho
  have hrow : (s.markExpired.markTriggered (triggered s.pending price)
      (trailingPeakUpdates s.pending price)).orders[id]? =
        s.markExpired.orders[id]?.map _ := List.getElem?_mapIdx
  rw [ho', Option.map_some] at hrow
  refine ⟨_, hrow, ?_, fun hnot => ?_⟩
  · rw [← htrails]
    split <;> rfl
  · have hpeaks : (trailingPeakUpdates s.pending price).lookup id = none :=
      Rows.lookup_filterMap (fun od hod hid => absurd hid (hnot od hod)) (.inl rfl)
    rw [hpeaks, ← hpeak hnot]
    split <;> rfl

lemma keeps_checkLimitOrders : Keeps s (s.checkLimitOrders service) := by
  unfold State.checkLimitOrders
  dsimp only
  split_ifs
  · exact keeps_markExpired
  · exact keeps_markExpired
  · exact keeps_markExpired
  · exact keeps_markTriggered

lemma mem_sees {p : ℚ} :
    (id, p) ∈ s.sees service ↔ ∃ od ∈ s.pending, od.id = id ∧ od.market service = some p := by
  unfold State.sees
  rw [List.mem_filterMap]
  refine exists_congr fun od => and_congr_right fun _ => ?_
  rw [Option.map_eq_some_iff]
  constructor
  · rintro ⟨p', hp', heq⟩
    cases heq
    exact ⟨rfl, hp'⟩
  · rintro ⟨rfl, hp⟩
    exact ⟨p, hp, rfl⟩

lemma IsPeak.insert {seen : Set ℚ} {peak : Option ℚ} (h : IsPeak seen peak) (p : ℚ) :
    IsPeak (Insert.insert p seen) (some (peak.elim p (max p))) := by
  rcases h with ⟨rfl, rfl⟩ | ⟨q, rfl, hq⟩
  · refine .inr ⟨p, rfl, ?_⟩
    rw [insert_empty_eq]
    exact isGreatest_singleton
  · exact .inr ⟨max p q, rfl, hq.insert p⟩

variable {w : Watch}

/-- What has been seen has been seen by orders, and makes their peaks. -/
structure Watched (w : Watch) : Prop where
  ids : ∀ entry ∈ w.seen, entry.1 < w.state.orders.length
  peaks : w.Peaked

lemma Watched.checkLimitOrders (h : Watched w) (hserved : ∀ od ∈ w.state.pending,
    Served service (w.state.checkLimitOrders service) od) :
    Watched ⟨w.state.checkLimitOrders service, w.seen ++ w.state.sees service⟩ := by
  obtain ⟨hlength, hkeeps⟩ : Keeps w.state (w.state.checkLimitOrders service) :=
    keeps_checkLimitOrders
  constructor
  · rintro ⟨id, p⟩ hentry
    change id < _
    rw [hlength]
    rcases List.mem_append.mp hentry with hseen | hsees
    · exact h.ids _ hseen
    · obtain ⟨od, hod, rfl, -⟩ := mem_sees.mp hsees
      obtain ⟨o, ho, -⟩ := mem_pending.mp hod
      exact (List.getElem?_eq_some_iff.mp ho).1
  · intro id o' ho' htrails
    have hid : id < w.state.orders.length := hlength ▸ (List.getElem?_eq_some_iff.mp ho').1
    obtain ⟨o, ho⟩ : ∃ o, w.state.orders[id]? = some o := ⟨_, List.getElem?_eq_getElem hid⟩
    obtain ⟨o'', ho'', htrails', hpeak⟩ := hkeeps id o ho
    change (w.state.checkLimitOrders service).orders[id]? = some o' at ho'
    rw [ho'] at ho''
    cases ho''
    have hold := h.peaks id o ho (htrails' ▸ htrails)
    change IsPeak {p | (id, p) ∈ w.seen ++ w.state.sees service} o'.highestPriceSeen
    by_cases hpending : ∃ od ∈ w.state.pending, od.id = id
    · obtain ⟨od, hod, rfl⟩ := hpending
      obtain ⟨o₁, ho₁, -, -, hdata⟩ := mem_pending.mp hod
      rw [ho] at ho₁
      cases ho₁
      obtain ⟨o₂, ho₂, -, hafter⟩ := hserved od hod
      rw [ho'] at ho₂
      cases ho₂
      have htrails : od.trails = true := by rw [← hdata, ← htrails', htrails]
      have hprev : od.highestPriceSeen = o.highestPriceSeen :=
        congrArg OrderData.highestPriceSeen hdata.symm
      have hsees : ∀ p, (od.id, p) ∈ w.state.sees service ↔ od.market service = some p := by
        intro p
        rw [mem_sees]
        constructor
        · rintro ⟨od', hod', hid, hp⟩
          rwa [pending_inj hod' hod hid] at hp
        · exact fun hp => ⟨od, hod, rfl, hp⟩
      simp only [List.mem_append, hsees]
      rw [hafter]
      cases hmarket : od.market service with
      | none =>
        simp only [reduceCtorEq, or_false]
        change IsPeak _ od.highestPriceSeen
        rw [hprev]
        exact hold
      | some p =>
        have hraised : od.peakAfter (some p) = some (o.highestPriceSeen.elim p (max p)) := by
          rw [← hprev]
          exact if_pos htrails
        rw [hraised]
        have hset : {q | (od.id, q) ∈ w.seen ∨ some p = some q} =
            Insert.insert p {q | (od.id, q) ∈ w.seen} := by
          ext q
          rw [Set.mem_insert_iff, Set.mem_ofPred, Set.mem_ofPred, Option.some_inj, or_comm,
            eq_comm (a := p)]
        rw [hset]
        exact hold.insert p
    · have hnot : ∀ od ∈ w.state.pending, od.id ≠ id := fun od hod hid => hpending ⟨od, hod, hid⟩
      have hsees : ∀ p, (id, p) ∉ w.state.sees service := by
        intro p hp
        obtain ⟨od, hod, hid, -⟩ := mem_sees.mp hp
        exact hnot od hod hid
      simp only [List.mem_append, hsees, or_false]
      rw [hpeak hnot]
      exact hold

lemma Watched.setStatus (h : Watched w) (id : OrderId) (status : OrderStatus) :
    Watched { w with state := w.state.setStatus id status } := by
  constructor
  · intro entry hentry
    exact (h.ids entry hentry).trans_eq (List.length_modify _ _ _).symm
  · intro id' o ho htrails
    have ho : (w.state.orders.modify id fun o => { o with status := status })[id']? = some o := ho
    rw [List.getElem?_modify, Option.map_eq_map, Option.map_eq_some_iff] at ho
    obtain ⟨o', ho', heq⟩ := ho
    have hkeep : (o.data id').trails = (o'.data id').trails ∧
        o.highestPriceSeen = o'.highestPriceSeen := by
      rw [← heq]
      split_ifs <;> exact ⟨rfl, rfl⟩
    rw [hkeep.2]
    exact h.peaks id' o' ho' (hkeep.1 ▸ htrails)

lemma Watched.createLimitOrder (h : Watched w) {order : LimitOrder}
    (horder : order.highestPriceSeen = none) :
    Watched { w with state := { w.state with orders := w.state.orders ++ [order] } } := by
  constructor
  · intro entry hentry
    change _ < (w.state.orders ++ [order]).length
    rw [List.length_append]
    exact Nat.lt_add_right _ (h.ids entry hentry)
  · intro id o ho htrails
    have ho : (w.state.orders ++ [order])[id]? = some o := ho
    rcases lt_or_ge id w.state.orders.length with hid | hid
    · rw [List.getElem?_append_left hid] at ho
      exact h.peaks id o ho htrails
    · -- nothing has been seen by an order that was not there
      rw [List.getElem?_append_right hid] at ho
      cases List.mem_singleton.mp (List.mem_of_getElem? ho)
      refine .inl ⟨Set.eq_empty_iff_forall_notMem.mpr fun p hp => ?_, horder⟩
      exact absurd (h.ids _ hp) (not_lt.mpr hid)

lemma Watched.step {w' : Watch} {action : WatchAction} (h : Watched w)
    (hcareful : Unaffected.step w action) (hstep : watchStep w action = .ok w') : Watched w' := by
  cases action with
  | createLimitOrder order =>
    cases hstep
    exact h.createLimitOrder rfl
  | cancelOrder id userId =>
    unfold watchStep OrderService.step at hstep
    dsimp only at hstep
    split at hstep
    · split_ifs at hstep
      · cases hstep
        exact h.setStatus id .CANCELLED
      · cases hstep
    · cases hstep
  | checkLimitOrders service =>
    cases hstep
    exact h.checkLimitOrders ((served_iff service w.state).mpr hcareful)
  | finish id status =>
    cases hstep
    exact h.setStatus id status
  | elapse duration =>
    cases hstep
    exact ⟨h.ids, h.peaks⟩

/-! ### Runs -/

/-- Orders that ask for what they watch, where all of it has a price. -/
lemma unaffected_of_priced (hasked : ∀ od ∈ orders, Asked service orders od.watched)
    (hpriced : ∀ od ∈ orders, service.getPrice od.watched ≠ none) : Unaffected service orders where
  asked := fun od hod _ => hasked od hod
  priced := fun ⟨od, hod, hunpriced⟩ => absurd hunpriced.2.1 (hpriced od hod)

lemma status_of_served (h : Served service s od) :
    s.orders[od.id]?.map LimitOrder.status = some .TRIGGERED ↔ od.Triggers (od.market service) := by
  obtain ⟨o, ho, hstatus, -⟩ := h
  rw [ho, Option.map_some, Option.some_inj, hstatus]

/-- A check does what all pending orders ask for just in case they are unaffected by one another;
where they are, other orders make no difference, and peaks are the largest prices seen. -/
theorem orders_served (now : Time) (actions : List WatchAction)
    (h : watch.Along Unaffected.step (initialWatch now) actions) :
    (∀ service (s : State), (∀ od ∈ s.pending, Served service (s.checkLimitOrders service) od) ↔
      Unaffected service s.pending) ∧
    (∀ service (s s' : State) (od : OrderData), od ∈ s.pending → od ∈ s'.pending →
      Unaffected service s.pending → Unaffected service s'.pending →
      ((s.checkLimitOrders service).orders[od.id]?.map LimitOrder.status = some .TRIGGERED ↔
        (s'.checkLimitOrders service).orders[od.id]?.map LimitOrder.status = some .TRIGGERED)) ∧
    watch.Along Serves (initialWatch now) actions ∧
    (watch.run (initialWatch now) actions).Peaked := by
  have hinitial : Watched (initialWatch now) := ⟨fun _ hentry => absurd hentry List.not_mem_nil,
    fun _ _ ho => absurd (List.mem_of_getElem? ho) List.not_mem_nil⟩
  refine ⟨served_iff, ?_, ?_, ?_⟩
  · intro service s s' od hod hod' hs hs'
    rw [status_of_served ((served_iff service s).mpr hs od hod),
      status_of_served ((served_iff service s').mpr hs' od hod')]
  · refine h.mono (I := Watched) (fun w a w' hw hC hstep => hw.step hC hstep) ?_ hinitial
    intro w a _ hcareful
    cases a with
    | checkLimitOrders service => exact (served_iff service w.state).mpr hcareful
    | _ => trivial
  · exact (Machine.run_induction_along (fun w a w' hw hC hstep => hw.step hC hstep) actions hinitial
      h).peaks

/-- ETH has a price, and no other token has. -/
def ethAt (price : ℚ) : PriceService where
  upper := fun token => token
  upper_upper := fun _ => rfl
  cached := fun token => if token = "ETH" then some price else none
  fetched := fun _ => none

/-- An order that sells ETH or the like for USDC. -/
def selling (orderType : OrderType) (fromToken : String) (triggerPrice : ℚ)
    (trailingPercent : Option ℚ) : LimitOrder where
  userId := 1
  orderType := orderType
  fromToken := fromToken
  toToken := "USDC"
  triggerPrice := triggerPrice
  trailingPercent := trailingPercent
  expiresAt := none
  status := .PENDING
  highestPriceSeen := none
  executionPrice := none

/-- A stop that trails the price of ETH. -/
def trailing : List WatchAction :=
  [.createLimitOrder (selling .TRAILING_STOP "ETH" 0 (some 10)), .checkLimitOrders (ethAt 2000),
    .checkLimitOrders (ethAt 1700)]

theorem trailing_served :
    (∀ service (s : State), (∀ od ∈ s.pending, Served service (s.checkLimitOrders service) od) ↔
      Unaffected service s.pending) ∧
    (∀ service (s s' : State) (od : OrderData), od ∈ s.pending → od ∈ s'.pending →
      Unaffected service s.pending → Unaffected service s'.pending →
      ((s.checkLimitOrders service).orders[od.id]?.map LimitOrder.status = some .TRIGGERED ↔
        (s'.checkLimitOrders service).orders[od.id]?.map LimitOrder.status = some .TRIGGERED)) ∧
    watch.Along Serves (initialWatch 0) trailing ∧
    (watch.run (initialWatch 0) trailing).Peaked :=
  orders_served 0 trailing ⟨trivial,
    unaffected_of_priced (by decide +kernel) (by decide +kernel),
    unaffected_of_priced (by decide +kernel) (by decide +kernel), trivial⟩

/-- The statuses after a check with ETH at 1500 dollars. -/
def checkedAt1500 (orders : List LimitOrder) : List OrderStatus :=
  (({ initial 0 with orders := orders } : State).checkLimitOrders (ethAt 1500)).orders.map
    LimitOrder.status

/-- A stop loss does not ask for the price that it watches, and is marked only where another order
does; an order on a token without a price keeps all others from being marked. -/
theorem orders_affect_others :
    ((selling .STOP_LOSS "ETH" 2000 none).data 0).Triggers
        (((selling .STOP_LOSS "ETH" 2000 none).data 0).market (ethAt 1500)) ∧
      checkedAt1500 [selling .STOP_LOSS "ETH" 2000 none] = [.PENDING] ∧
      checkedAt1500 [selling .STOP_LOSS "ETH" 2000 none, selling .LIMIT_SELL "ETH" 3000 none] =
        [.TRIGGERED, .PENDING] ∧
    ((selling .LIMIT_SELL "ETH" 1000 none).data 0).Triggers
        (((selling .LIMIT_SELL "ETH" 1000 none).data 0).market (ethAt 1500)) ∧
      checkedAt1500 [selling .LIMIT_SELL "ETH" 1000 none] = [.TRIGGERED] ∧
      checkedAt1500 [selling .LIMIT_SELL "ETH" 1000 none, selling .LIMIT_SELL "BTC" 90000 none] =
        [.PENDING, .PENDING] := by
  refine ⟨⟨1500, by decide +kernel, ?_⟩, by decide +kernel, by decide +kernel,
    ⟨1500, by decide +kernel, ?_⟩, by decide +kernel, by decide +kernel⟩
  · change (1500 : ℚ) ≤ 2000
    norm_num
  · change (1000 : ℚ) ≤ 1500
    norm_num

end Suwappu.OrderService
