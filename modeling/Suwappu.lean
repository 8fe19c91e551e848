import Suwappu.Primitives.TimeCurve.Solvency
import Suwappu.Bonds.Accounting
import Suwappu.HyperCore.CoreRouter.Basic
import Suwappu.HyperCore.CoreRouter.BoundUser
import Suwappu.HyperCore.CoreRouter.Credits
import Suwappu.Lib.Canonical
import Suwappu.Lib.Cycles
import Suwappu.Lib.Erc20
import Suwappu.Lib.Erc721
import Suwappu.Near.ArbiterV2.Basic
import Suwappu.Near.ArbiterV2.Methods
import Suwappu.Near.ArbiterV2.PaysOnce
import Suwappu.Near.ArbiterV3.Basic
import Suwappu.Near.ArbiterV3.Methods
import Suwappu.Near.ArbiterV3.PaysOnce
import Suwappu.Positions.Basic
import Suwappu.Positions.Supply
import Suwappu.Primitives.AmortizingVault.BadDebt
import Suwappu.Primitives.AmortizingVault.SharePrice
import Suwappu.Primitives.MutualCredit.Basic
import Suwappu.Primitives.MutualCredit.Change
import Suwappu.Primitives.MutualCredit.Defaults
import Suwappu.Primitives.MutualCredit.Limits
import Suwappu.Primitives.MutualCredit.Terms
import Suwappu.Searcher.BuilderDataset
import Suwappu.Searcher.EventIds
import Suwappu.Searcher.OmsReplay
import Suwappu.Staking.Basic
import Suwappu.Staking.Solvency
import Suwappu.HotWallet.CustodialBalance
import Suwappu.HotWallet.LostUpdates
import Suwappu.Lib.JsonRoundTrip
import Suwappu.Lib.PrimeGroup
import Suwappu.Lib.Shamir
import Suwappu.MpcSigner.Bytes
import Suwappu.MpcSigner.Dkg
import Suwappu.MpcSigner.DkgAgreement
import Suwappu.MpcSigner.Elog
import Suwappu.MpcSigner.Frost
import Suwappu.MpcSigner.FrostSigning
import Suwappu.MpcSigner.Round3
import Suwappu.Near.ArbiterHttp.Basic
import Suwappu.Near.ArbiterHttp.Evaluable
import Suwappu.Positions.Relayers
import Suwappu.Searcher.EventJson
import Suwappu.Searcher.EventRoundTrip
import Suwappu.Searcher.Graph
import Suwappu.Searcher.LookAhead
import Suwappu.ApprovalService.Basic
import Suwappu.ApprovalService.SingleUse
import Suwappu.Autopilot.Cycle
import Suwappu.Autopilot.Failures
import Suwappu.HotWallet.CreditedOnce
import Suwappu.HotWallet.Refunds
import Suwappu.P2P.Escrow
import Suwappu.P2P.Frozen
import Suwappu.PolicyService.Basic
import Suwappu.PolicyService.Caps
import Suwappu.SwapEngine.ExecuteSwap
import Suwappu.SwapEngine.SpendingLimit
import Suwappu.CopyService.ClaimedOnce
import Suwappu.OrderService.DcaOrders
import Suwappu.OrderService.Lifecycle
import Suwappu.OrderService.SpentOnce
import Suwappu.PointsService.Balances
import Suwappu.ReferralService.Agreement
import Suwappu.ReferralService.PaidOnce
import Suwappu.SeasonsService.Accrual
import Suwappu.SeasonsService.Caps
import Suwappu.SwapEngine.AfterBroadcast
import Suwappu.HyperCore.CoreRouter.OrderSize
import Suwappu.Lib.Interest
import Suwappu.Near.ArbiterV3.StorageReserve
import Suwappu.Positions.MintState
import Suwappu.Primitives.AmortizingVault.Liquidation
import Suwappu.Primitives.MutualCredit.Poking
import Suwappu.Primitives.TimeCurve.Trades
import Suwappu.Staking.Bonuses
import Suwappu.SeasonsService.Settlement
import Suwappu.Execution.Lifecycle
import Suwappu.Execution.Store
import Suwappu.Execution.Materialised
import Suwappu.Execution.Replay
import Suwappu.Near.ArbiterGithub.Iso8601
import Suwappu.Searcher.Routes
import Suwappu.Searcher.UnimodalSizing
import Suwappu.ExecutionSync.Optimizer
import Suwappu.LlmBudget.RateBound
import Suwappu.PolicyService.Alone
import Suwappu.Lib.Doubles
import Suwappu.Lib.JsJson
import Suwappu.Lib.JsJsonRoundTrip
import Suwappu.Seal.Canonical
import Suwappu.Seal.Commitment
import Suwappu.Lib.Blum
import Suwappu.MpcSigner.PiMod
import Suwappu.SwapEngine.QuoteRace
import Suwappu.SeasonsService.Funnels
import Suwappu.CopyService.ProfitConserved
import Suwappu.OrderService.OwnConditions
import Suwappu.PointsService.Atomic
import Suwappu.PointsService.Replay
import Suwappu.Memberships.Value
import Suwappu.Memberships.Settled
import Suwappu.MpcSigner.FrostKeys
import Suwappu.MpcSigner.OneShot
import Suwappu.Searcher.ProfitableSizing
