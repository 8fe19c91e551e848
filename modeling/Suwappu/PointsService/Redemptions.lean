import Suwappu.PointsService.Operations

/-!
# Redemptions

The three calls of the bot that spend the points of a user, with the idempotency keys that guard
them. Every call is a transaction that commits or is rolled back as a whole. The answer of a
provider is an argument of the call, and so is whether the value of a gas rebate is worth something.
-/

namespace Suwappu.PointsService.Redemptions

abbrev UserId := ℕ

abbrev RewardId := ℕ

/-- The place of the row. -/
abbrev OrderId := ℕ

/-- Seconds; durations may be negative. -/
abbrev Instant := ℤ

inductive SubscriptionTier where
  | free | pro | premium | enterprise
deriving DecidableEq, Repr

/-- The place in `tier_order` -/
def SubscriptionTier.index : SubscriptionTier → ℕ
  | .free       => 0
  | .pro        => 1
  | .premium    => 2
  | .enterprise => 3

structure Subscription where
  tier : Option SubscriptionTier
  startedAt : Option Instant
  expiresAt : Option Instant
deriving DecidableEq

structure Reward where
  name : String
  isActive : Bool
  rewardType : String
  rewardCategory : String
  pointsCost : ℤ
  rewardValue : String
  durationDays : Option ℤ
deriving DecidableEq

inductive RedemptionStatus where
  | completed | applied | refunded
deriving DecidableEq, Repr

structure PointRedemption where
  userId : UserId
  pointsSpent : ℤ
  rewardType : String
  rewardValue : String
  status : RedemptionStatus
  completedAt : Option Instant
  expiresAt : Option Instant
  idempotencyKey : Option String
deriving DecidableEq

/-- A row of `point_transactions`; the item is what its description names. -/
structure PointTransaction where
  userId : UserId
  amount : ℤ
  action : Action
  item : String
deriving DecidableEq

inductive OrderStatus where
  | pending | fulfilled | failed | refunded
deriving DecidableEq, Repr

structure RedemptionOrder where
  userId : UserId
  rewardId : RewardId
  category : String
  pointsSpent : ℤ
  status : OrderStatus
  provider : String
  providerRef : Option String
  rewardName : String
  rewardValue : String
  idempotencyKey : Option String
  error : Option String
  fulfilledAt : Option Instant
deriving DecidableEq

structure State where
  now : Instant
  accounts : UserId → Option Account
  redemptions : List PointRedemption
  transactions : List PointTransaction
  subscriptions : UserId → Option Subscription
  orders : List RedemptionOrder
  rewards : RewardId → Option Reward

/-- What a call says, with what its text names. -/
inductive Message where
  /-- That reward isn't available — partner redemptions aren't live yet. -/
  | partner
  /-- No points account found -/
  | noAccount
  /-- Not enough points. You have `have`, need `need`. -/
  | notEnough (have' need : ℤ)
  /-- Successfully redeemed `rewardType`! -/
  | redeemed (rewardType : String)
  /-- That reward isn't available. -/
  | unavailable
  /-- Unknown subscription tier. -/
  | unknownTier
  /-- `tier` active until `expiry` -/
  | active (tier : SubscriptionTier) (expiry : Instant)
  /-- That reward isn't a marketplace reward. -/
  | notMarketplace
  /-- That reward isn't available yet — your points were not spent. -/
  | refunded
  /-- `rewardName` is on its way — order #`order`. -/
  | onItsWay (rewardName : String) (order : OrderId)
  /-- Redemption failed — your points were not spent. -/
  | failed
  /-- Redemption failed — a conflicting redemption already used this request. -/
  | conflicting
  /-- Successfully redeemed `rewardType`! (replayed) -/
  | replayed (rewardType : String)
  /-- Successfully redeemed `rewardType`! (replayed) (order #`order` pending) -/
  | replayedPending (rewardType : String) (order : OrderId)
deriving DecidableEq

structure Reply where
  success : Bool
  message : Message
  expiry : Option Instant
  order : Option OrderId
deriving DecidableEq

def Reply.refuse (message : Message) : Reply := ⟨false, message, none, none⟩

/-! ### Keys -/

/-- The row has the key of the user. -/
def PointRedemption.Keyed (user : UserId) (key : Option String) (r : PointRedemption) : Prop :=
  r.userId = user ∧ r.idempotencyKey = key ∧ key ≠ none

instance (user : UserId) (key : Option String) : DecidablePred (PointRedemption.Keyed user key) :=
  fun _ => inferInstanceAs (Decidable (_ ∧ _ ∧ _))

/-- The unique index of the redemptions refuses the key. -/
def State.conflicts (s : State) (user : UserId) (key : Option String) : Bool :=
  s.redemptions.any (PointRedemption.Keyed user key ·)

/-- The unique index of the orders refuses the key, also that of another user. -/
def State.orderConflicts (s : State) (key : Option String) : Bool :=
  s.orders.any fun o => key ≠ none ∧ o.idempotencyKey = key

def State.replayIdempotentRedemption (s : State) (user : UserId) (key : Option String)
    (expectedAmount : Option ℤ) : Bool × Message × Option PointRedemption :=
  if key.getD "" = "" then (false, .failed, none)
  else match s.redemptions.reverse.find? (PointRedemption.Keyed user key ·) with
    | none          => (false, .failed, none)
    | some existing =>
      if ∃ amount ∈ expectedAmount, existing.pointsSpent ≠ amount then (false, .conflicting, none)
      else if existing.status = .completed then
        (true, .replayed existing.rewardType, some existing)
      else (false, .failed, some existing)

/-! ### `spend_points` -/

/-- What is checked before points are spent. -/
def State.checkSpend (s : State) (user : UserId) (amount : ℤ) (rewardType : String) :
    Except Message Account :=
  if rewardType ∈ ["partner_transfer", "miles", "cashout", "stablecoin"] then .error .partner
  else match s.accounts user with
    | none         => .error .noAccount
    | some account =>
      if account.currentPoints < amount then .error (.notEnough account.currentPoints amount)
      else .ok account

def State.spendPoints (s : State) (user : UserId) (amount : ℤ) (rewardType rewardValue : String)
    (durationDays : Option ℤ) (key : Option String) : State × Reply :=
  match s.checkSpend user amount rewardType with
  | .error message => (s, .refuse message)
  | .ok account =>
    if s.conflicts user key then
      let (success, message, _) := s.replayIdempotentRedemption user key (some amount)
      (s, ⟨success, message, none, none⟩)
    else ({ s with
      accounts := Function.update s.accounts user (some (account.debit amount))
      redemptions := s.redemptions ++ [⟨user, amount, rewardType, rewardValue, .completed, s.now,
        durationDays.map fun days => s.now + days * 86400, key⟩]
      transactions := s.transactions ++ [⟨user, -amount, .redemption, rewardType⟩] },
      ⟨true, .redeemed rewardType, none, none⟩)

/-! ### `redeem_subscription_reward` -/

/-- `_coerce_tier` -/
def coerceTier (value : String) : Option SubscriptionTier :=
  match value.toLower with
  | "free"       => some .free
  | "pro"        => some .pro
  | "premium"    => some .premium
  | "enterprise" => some .enterprise
  | _            => none

/-- The account of a user who can pay the cost. -/
def State.checkBalance (s : State) (user : UserId) (cost : ℤ) : Except Message Account :=
  match s.accounts user with
  | none         => .error (.notEnough 0 cost)
  | some account =>
    if account.currentPoints < cost then .error (.notEnough account.currentPoints cost)
    else .ok account

/-- What is checked before a subscription is granted. -/
def State.checkSubscription (s : State) (user : UserId) (rewardId : RewardId) :
    Except Message (Reward × SubscriptionTier × Account) :=
  match (s.rewards rewardId).filter Reward.isActive with
  | none => .error .unavailable
  | some reward =>
    if reward.rewardType ≠ "subscription" then .error .unavailable
    else match coerceTier reward.rewardValue with
      | none       => .error .unknownTier
      | some .free => .error .unknownTier
      | some tier  => do
        let account ← s.checkBalance user reward.pointsCost
        return (reward, tier, account)

/-- `duration_days or 30` -/
def Reward.duration (reward : Reward) : ℤ :=
  match reward.durationDays with
  | none | some 0 => 30
  | some days     => days

/-- An extension keeps the later of the two dates and the higher of the two tiers. -/
def Subscription.extend (sub : Subscription) (now : Instant) (target : SubscriptionTier)
    (duration : ℤ) : Subscription where
  tier :=
    if (sub.tier.getD .free).index ≤ target.index then some target else sub.tier
  startedAt := some (sub.startedAt.getD now)
  expiresAt := some (max now (sub.expiresAt.getD now) + duration * 86400)

def State.redeemSubscriptionReward (s : State) (user : UserId) (rewardId : RewardId)
    (key : Option String) : State × Reply :=
  match s.checkSubscription user rewardId with
  | .error message => (s, .refuse message)
  | .ok (reward, target, account) =>
    if s.conflicts user key then
      let (success, message, _) := s.replayIdempotentRedemption user key none
      (s, ⟨success, message, if success then (s.subscriptions user).bind (·.expiresAt) else none,
        none⟩)
    else
      let sub :=
        ((s.subscriptions user).getD ⟨none, none, none⟩).extend s.now target reward.duration
      ({ s with
        accounts := Function.update s.accounts user (some (account.debit reward.pointsCost))
        subscriptions := Function.update s.subscriptions user (some sub)
        redemptions := s.redemptions ++ [⟨user, reward.pointsCost, "subscription",
          reward.rewardValue, .completed, s.now, none, key⟩]
        transactions := s.transactions ++
          [⟨user, -reward.pointsCost, .redemption, reward.name⟩] },
        ⟨true, .active (sub.tier.getD .free) (sub.expiresAt.getD s.now), sub.expiresAt, none⟩)

/-! ### `redeem_marketplace_reward` -/

/-- `ASYNC_CATEGORIES`, each with the sandbox for its provider -/
def asyncCategories : List String := ["gift_card", "travel", "merch", "donation", "experience"]

/-- What `fulfill` returns. -/
structure FulfillResult where
  status : String
  providerRef : Option String
  error : Option String
deriving DecidableEq

/-- What is checked before an order is made. -/
def State.checkMarketplace (s : State) (user : UserId) (rewardId : RewardId) :
    Except Message (Reward × Account) :=
  match (s.rewards rewardId).filter Reward.isActive with
  | none => .error .unavailable
  | some reward =>
    if reward.rewardCategory ∉ asyncCategories then .error .notMarketplace
    else do
      let account ← s.checkBalance user reward.pointsCost
      return (reward, account)

/-- The reply to a conflict, with the order that has the key. -/
def State.replayOrder (s : State) (user : UserId) (key : Option String) : Reply :=
  match s.replayIdempotentRedemption user key none with
  | (success, message, none) => ⟨success, message, none, none⟩
  | (success, message, some existing) =>
    match s.orders.findIdx? (fun o => o.idempotencyKey = key) with
    | none   => ⟨success, message, none, none⟩
    | some i =>
      ⟨success,
        if success = true ∧ ∀ o ∈ s.orders[i]?, o.status ∉ [.fulfilled, .refunded] then
          .replayedPending existing.rewardType i
        else message,
        none, some i⟩

/-- `fulfill` has no result where it crashes. -/
def State.redeemMarketplaceReward (s : State) (user : UserId) (rewardId : RewardId)
    (key : Option String) (fulfill : Option FulfillResult) : State × Reply :=
  match s.checkMarketplace user rewardId with
  | .error message => (s, .refuse message)
  | .ok (reward, account) =>
    if s.conflicts user key ∨ s.orderConflicts key then (s, s.replayOrder user key)
    else
      let cost := reward.pointsCost
      let redemption : PointRedemption := ⟨user, cost, reward.rewardCategory, reward.rewardValue,
        .completed, s.now, none, key⟩
      let spent : PointTransaction := ⟨user, -cost, .redemption, reward.name⟩
      let order : RedemptionOrder := ⟨user, rewardId, reward.rewardCategory, cost, .pending,
        "sandbox", none, reward.name, reward.rewardValue, key, none, none⟩
      let orderId := s.orders.length
      let result := fulfill.getD ⟨"failed", none, some "provider error"⟩
      if result.status = "fulfilled" then
        ({ s with
          accounts := Function.update s.accounts user (some (account.debit cost))
          redemptions := s.redemptions ++ [redemption]
          transactions := s.transactions ++ [spent]
          orders := s.orders ++ [{ order with
            status := .fulfilled, providerRef := result.providerRef, fulfilledAt := some s.now }] },
          ⟨true, .onItsWay reward.name orderId, none, some orderId⟩)
      else
        let error := (result.error.filter (· ≠ "")).getD "provider not configured"
        ({ s with
          accounts := Function.update s.accounts user (some ((account.debit cost).debit (-cost)))
          redemptions := s.redemptions ++ [{ redemption with status := .refunded }]
          transactions := s.transactions ++
            [spent, ⟨user, cost, .redemptionRefund, reward.name⟩]
          orders := s.orders ++ [{ order with
            status := .refunded, providerRef := result.providerRef
            error := some (String.ofList (error.toList.take 255)) }] },
          ⟨false, .refunded, none, some orderId⟩)

/-! ### Runs -/

inductive Call where
  | spendPoints (amount : ℤ) (rewardType rewardValue : String) (durationDays : Option ℤ)
  | redeemSubscriptionReward (rewardId : RewardId)
  | redeemMarketplaceReward (rewardId : RewardId)
deriving DecidableEq

def State.redeem (s : State) (user : UserId) (key : Option String)
    (fulfill : Option FulfillResult) :
    Call → State × Reply
  | .spendPoints amount rewardType rewardValue durationDays =>
    s.spendPoints user amount rewardType rewardValue durationDays key
  | .redeemSubscriptionReward rewardId => s.redeemSubscriptionReward user rewardId key
  | .redeemMarketplaceReward rewardId  => s.redeemMarketplaceReward user rewardId key fulfill

/-- An unused gas rebate of the user. -/
def PointRedemption.GasRebate (user : UserId) (r : PointRedemption) : Prop :=
  r.userId = user ∧ r.rewardType = "gas_rebate" ∧ r.status = .completed

instance (user : UserId) : DecidablePred (PointRedemption.GasRebate user) :=
  fun _ => inferInstanceAs (Decidable (_ ∧ _ ∧ _))

/-- `worth` says of which values `float` is not an error, nor at most zero. -/
def State.consumeGasRebate (s : State) (user : UserId) (worth : String → Bool) : State :=
  match s.redemptions.findIdx? (PointRedemption.GasRebate user ·) with
  | none   => s
  | some i =>
    { s with redemptions := s.redemptions.modify i fun r =>
        if worth r.rewardValue then { r with status := .applied, completedAt := some s.now }
        else r }

inductive Step where
  | redeem (user : UserId) (key : Option String) (fulfill : Option FulfillResult) (call : Call)
  | consumeGasRebate (user : UserId) (worth : String → Bool)
  /-- Whatever the rest of the program does to the other rows; its own redemptions have no key. -/
  | elsewhere (s : State)

def State.step (s : State) : Step → State
  | .redeem user key fulfill call => (s.redeem user key fulfill call).1
  | .consumeGasRebate user worth  => s.consumeGasRebate user worth
  | .elsewhere s' => { s' with redemptions :=
      s.redemptions ++ s'.redemptions.map fun r => { r with idempotencyKey := none } }

def State.run (s : State) (steps : List Step) : State := steps.foldl State.step s

/-! ### Replays -/

/-- What the call checks before it spends points. -/
def State.Passes (s : State) (user : UserId) : Call → Prop
  | .spendPoints amount rewardType _ _ => (s.checkSpend user amount rewardType).isOk = true
  | .redeemSubscriptionReward rewardId => (s.checkSubscription user rewardId).isOk = true
  | .redeemMarketplaceReward rewardId  => (s.checkMarketplace user rewardId).isOk = true

instance decidablePasses (s : State) (user : UserId) : ∀ call, Decidable (s.Passes user call)
  | .spendPoints .. | .redeemSubscriptionReward _ | .redeemMarketplaceReward _ =>
    inferInstanceAs (Decidable (_ = true))

/-- The call commits: its redemption is there. -/
def State.Commits (s : State) (user : UserId) (key : Option String) (fulfill : Option FulfillResult)
    (call : Call) : Prop :=
  ∃ r, (s.redeem user key fulfill call).1.redemptions = s.redemptions ++ [r]

/-- What `spend_points` expects the original to have cost. -/
def Call.expectedAmount : Call → Option ℤ
  | .spendPoints amount _ _ _ => some amount
  | _                         => none

/-- The redemption with the key is as it was when it was completed. -/
def State.StillCompleted (s : State) (user : UserId) (key : String) : Prop :=
  ∃ r ∈ s.redemptions, r.Keyed user (some key) ∧ r.status = .completed

instance decidableStillCompleted (s : State) (user : UserId) (key : String) :
    Decidable (s.StillCompleted user key) :=
  inferInstanceAs (Decidable (∃ r ∈ s.redemptions, r.Keyed user (some key) ∧ r.status = .completed))

end Suwappu.PointsService.Redemptions
