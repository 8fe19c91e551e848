import Suwappu.OrderService.LimitOrders

/-!
# Checks of limit orders

`check_limit_orders` as one step, with the price service that it asks. A cycle goes by the prices
that the service knows or fetches at that time; the service fails neither by an exception nor by a
timeout.

Prices are exact. That the service writes to its cache is left out: within a call it reads back what
it would have found anyway.
-/

namespace Suwappu.OrderService

/-! ### The price service -/

def TOKEN_TO_COINGECKO : List (String × String) :=
  [("USDT", "tether"), ("USDC", "usd-coin"), ("DAI", "dai"), ("BUSD", "binance-usd"),
    ("FRAX", "frax"), ("TUSD", "true-usd"), ("LUSD", "liquity-usd"), ("PYUSD", "paypal-usd"),
    ("GHO", "gho"), ("USDD", "usdd"), ("USDP", "paxos-standard"), ("EURC", "euro-coin"),
    ("CRVUSD", "crvusd"), ("FDUSD", "first-digital-usd"), ("USDe", "ethena-usde"),
    ("BTC", "bitcoin"), ("ETH", "ethereum"), ("WETH", "weth"), ("WBTC", "wrapped-bitcoin"),
    ("BNB", "binancecoin"), ("WBNB", "wbnb"), ("MATIC", "matic-network"),
    ("WMATIC", "wmatic"), ("SOL", "solana"), ("ARB", "arbitrum"), ("OP", "optimism"),
    ("LINK", "chainlink"), ("UNI", "uniswap"), ("AAVE", "aave"), ("CRV", "curve-dao-token"),
    ("PEPE", "pepe"), ("SHIB", "shiba-inu")]

def STABLECOINS : List String :=
  ["USDT", "USDC", "DAI", "BUSD", "TUSD", "PYUSD", "USDP", "FDUSD"]

/-- What the service goes by at some time. -/
structure PriceService where
  /-- `str.upper` -/
  upper : String → String
  upper_upper : ∀ token, upper (upper token) = upper token
  /-- the cache, by the token in upper case -/
  cached : String → Option ℚ
  /-- what CoinGecko answers for an id -/
  fetched : String → Option ℚ

namespace PriceService

variable (service : PriceService)

/-- A price that is not fetched. -/
def known (tokenUpper : String) : Option ℚ :=
  (service.cached tokenUpper).or (if tokenUpper ∈ STABLECOINS then some 1 else none)

def fetch (tokenUpper : String) : Option ℚ :=
  (TOKEN_TO_COINGECKO.lookup tokenUpper).bind service.fetched

/-- `get_price` -/
def getPrice (token : String) : Option ℚ :=
  (service.known (service.upper token)).or (service.fetch (service.upper token))

/-- `get_prices`, by the tokens in upper case; a price may be None. -/
def getPrices (tokens : List String) : List (String × Option ℚ) :=
  let uppers := tokens.map service.upper
  let results := uppers.filterMap fun token => (service.known token).map fun price =>
    (token, some price)
  let tokensToFetch := uppers.filter fun token => service.known token = none
  let coingeckoIds := tokensToFetch.filterMap fun token => TOKEN_TO_COINGECKO.lookup token
  if coingeckoIds = [] then results
  else results ++ tokensToFetch.map fun token => (token, service.fetch token)

end PriceService

/-- `prices.get(token, 0)`, which may be None -/
def priceGet (prices : List (String × Option ℚ)) (token : String) : Option ℚ :=
  (prices.lookup token).getD (some 0)

/-! ### A check -/

/-- The token whose price is asked for. -/
def OrderData.tokenToPrice (od : OrderData) : String :=
  match od.orderType with
  | .LIMIT_BUY | .STOP_LOSS                    => od.toToken
  | .LIMIT_SELL | .TAKE_PROFIT | .TRAILING_STOP => od.fromToken

/-- The token whose price is compared. -/
def OrderData.watched (od : OrderData) : String :=
  match od.orderType with
  | .LIMIT_BUY => od.toToken
  | .LIMIT_SELL | .STOP_LOSS | .TAKE_PROFIT | .TRAILING_STOP => od.fromToken

/-- `check_limit_orders` -/
def State.checkLimitOrders (s : State) (service : PriceService) : State :=
  let orders := s.pending
  let s := s.markExpired
  if orders = [] then s else
  let prices := service.getPrices (orders.map OrderData.tokenToPrice)
  -- None is compared with a number, and the TypeError ends the check
  if orders.any fun od => priceGet prices od.watched = none then s else
  let price := fun token => (priceGet prices token).getD 0
  let triggered := triggered orders price
  let peaks := trailingPeakUpdates orders price
  if triggered = [] ∧ peaks = [] then s else s.markTriggered triggered peaks

/-! ### What an order asks for -/

/-- The peak with a price. -/
def OrderData.peak (od : OrderData) (price : ℚ) : ℚ := od.highestPriceSeen.elim price (max price)

/-- The condition of an order at a price. -/
def OrderData.Condition (od : OrderData) (price : ℚ) : Prop :=
  match od.orderType with
  | .LIMIT_BUY | .STOP_LOSS    => price ≤ od.triggerPrice
  | .LIMIT_SELL | .TAKE_PROFIT => od.triggerPrice ≤ price
  | .TRAILING_STOP             => 0 < od.trailingPercent.getD 0 ∧
    price ≤ od.peak price * (1 - od.trailingPercent.getD 0 / 100)

def positivePrice (price : ℚ) : Option ℚ := if 0 < price then some price else none

/-- The market price of the token that an order watches, where it is positive. -/
def OrderData.market (od : OrderData) (service : PriceService) : Option ℚ :=
  (service.getPrice od.watched).bind positivePrice

/-- A stop that trails its peak by a percentage. -/
def OrderData.trails (od : OrderData) : Bool :=
  od.orderType = .TRAILING_STOP ∧ 0 < od.trailingPercent.getD 0

/-- The condition holds at a price, if there is one. -/
def OrderData.Triggers (od : OrderData) (market : Option ℚ) : Prop :=
  ∃ price ∈ market, od.Condition price

/-- The peak with a price, if there is one. -/
def OrderData.peakAfter (od : OrderData) (market : Option ℚ) : Option ℚ :=
  match market with
  | some price => if od.trails then some (od.peak price) else od.highestPriceSeen
  | none       => od.highestPriceSeen

/-- The order has been checked at a price, if there was one. -/
def Checked (market : Option ℚ) (s : State) (od : OrderData) : Prop :=
  ∃ o, s.orders[od.id]? = some o ∧ (o.status = .TRIGGERED ↔ od.Triggers market) ∧
    o.highestPriceSeen = od.peakAfter market

/-- A check has done for the order what the order asks for. -/
def Served (service : PriceService) (s : State) (od : OrderData) : Prop :=
  Checked (od.market service) s od

/-- The order has to be marked, or its peak raised. -/
def OrderData.Needs (od : OrderData) (service : PriceService) : Prop :=
  od.Triggers (od.market service) ∨ od.peakAfter (od.market service) ≠ od.highestPriceSeen

/-- The price of a token is asked for, under just this spelling. -/
def Asked (service : PriceService) (orders : List OrderData) (token : String) : Prop :=
  ∃ od ∈ orders, service.upper od.tokenToPrice = token

/-- Some price is fetched. -/
def Fetches (service : PriceService) (orders : List OrderData) : Prop :=
  ∃ od ∈ orders, service.known (service.upper od.tokenToPrice) = none ∧
    (TOKEN_TO_COINGECKO.lookup (service.upper od.tokenToPrice)).isSome

instance (service : PriceService) (orders : List OrderData) (token : String) :
    Decidable (Asked service orders token) :=
  inferInstanceAs (Decidable (∃ od ∈ orders, _))

instance (service : PriceService) (orders : List OrderData) :
    Decidable (Fetches service orders) :=
  inferInstanceAs (Decidable (∃ od ∈ orders, _ ∧ _))

/-- A price is asked for, and the answer is None. -/
def Unpriced (service : PriceService) (orders : List OrderData) (token : String) : Prop :=
  Asked service orders token ∧ service.getPrice token = none ∧ Fetches service orders

/-- Each order that is to be written to has its price asked for; where an order watches a token
without a price, none is to be written to. -/
structure Unaffected (service : PriceService) (orders : List OrderData) : Prop where
  asked : ∀ od ∈ orders, od.Needs service → Asked service orders od.watched
  priced : (∃ od ∈ orders, Unpriced service orders od.watched) →
    ∀ od ∈ orders, ¬ od.Needs service

/-! ### Histories -/

/-- The orders, and the prices that each has seen while it was pending. -/
structure Watch where
  state : State
  seen : List (OrderId × ℚ)

inductive WatchAction where
  | createLimitOrder (order : LimitOrder)
  | cancelOrder (id : OrderId) (userId : UserId)
  | checkLimitOrders (service : PriceService)
  /-- a triggered order is executed, or fails -/
  | finish (id : OrderId) (status : OrderStatus)
  | elapse (duration : Time)

/-- The prices that the pending orders see. -/
def State.sees (s : State) (service : PriceService) : List (OrderId × ℚ) :=
  s.pending.filterMap fun od => (od.market service).map fun price => (od.id, price)

def watchStep (w : Watch) : WatchAction → Except Error Watch
  | .createLimitOrder order =>
    (step w.state (.createLimitOrder order)).map fun s => { w with state := s }
  | .cancelOrder id userId =>
    (step w.state (.cancelOrder id userId)).map fun s => { w with state := s }
  | .checkLimitOrders service =>
    .ok ⟨w.state.checkLimitOrders service, w.seen ++ w.state.sees service⟩
  | .finish id status => .ok { w with state := w.state.setStatus id status }
  | .elapse duration  => .ok { w with state.now := w.state.now + duration }

def watch : Machine Watch WatchAction Error := ⟨watchStep⟩

def initialWatch (now : Time) : Watch := ⟨initial now, []⟩

/-- The largest of some prices, if there are any. -/
def IsPeak (seen : Set ℚ) (peak : Option ℚ) : Prop :=
  seen = ∅ ∧ peak = none ∨ ∃ p, peak = some p ∧ IsGreatest seen p

/-- The stored peak of a trailing stop is the largest price that it has seen. -/
def Watch.Peaked (w : Watch) : Prop :=
  ∀ id o, w.state.orders[id]? = some o → (o.data id).trails = true →
    IsPeak {p | (id, p) ∈ w.seen} o.highestPriceSeen

/-- The checks of a run are of orders that do not affect one another. -/
def Unaffected.step (w : Watch) : WatchAction → Prop
  | .checkLimitOrders service => Unaffected service w.state.pending
  | _                         => True

/-- A check serves all orders that are pending. -/
def Serves (w : Watch) : WatchAction → Prop
  | .checkLimitOrders service =>
    ∀ od ∈ w.state.pending, Served service (w.state.checkLimitOrders service) od
  | _                         => True

end Suwappu.OrderService
