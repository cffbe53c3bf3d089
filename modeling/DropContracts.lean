import DropContracts.Base.Exec
import DropContracts.Base.Decimal
import DropContracts.Base.Shares
import DropContracts.Base.Filling
import DropContracts.Base.StorageMap
import DropContracts.Base.Run
import DropContracts.Base.Custody
import DropContracts.Base.IndexedMap
import DropContracts.Base.Paging
import DropContracts.Base.Window
import DropContracts.Base.BitFields
import DropContracts.Base.Fields
import DropContracts.Base.Tally
import DropContracts.Packages.Cosmos
import DropContracts.Packages.PuppeteerMsg
import DropContracts.Packages.InterchainQuery
import DropContracts.Packages.Version
import DropContracts.Packages.Cw721
import DropContracts.Packages.Ownable
import DropContracts.Token.Contract
import DropContracts.Core.State
import DropContracts.Core.Messages
import DropContracts.Core.Tick
import DropContracts.Core.TickCase
import DropContracts.Core.Forward
import DropContracts.Core.Execute
import DropContracts.Core.Batches
import DropContracts.Core.IdleTick
import DropContracts.Core.Payout
import DropContracts.Core.LifeCycle
import DropContracts.Core.Refusals
import DropContracts.Core.LsmShares
import DropContracts.Core.ExchangeRate
import DropContracts.Core.Fees
import DropContracts.Core.Redemption
import DropContracts.Core.FeeArithmetic
import DropContracts.Core.Maturity
import DropContracts.Core.Transit
import DropContracts.Puppeteer.Contract
import DropContracts.Puppeteer.Queries
import DropContracts.Puppeteer.ReplyIds
import DropContracts.Puppeteer.Replies
import DropContracts.Puppeteer.UnbondingQueries
import DropContracts.Puppeteer.Account
import DropContracts.Distribution.Contract
import DropContracts.Distribution.Plans
import DropContracts.Strategy.Contract
import DropContracts.Strategy.Delegations
import DropContracts.ValidatorsSet.Contract
import DropContracts.ValidatorsSet.Voting
import DropContracts.Factory.Contract
import DropContracts.WithdrawalManager.Contract
import DropContracts.RewardsManager.Contract
import DropContracts.AstroportExchangeHandler.Contract
import DropContracts.Puppeteer.Reconstruct
import DropContracts.Puppeteer.QueryResults
import DropContracts.Puppeteer.Versions
import DropContracts.AutoWithdrawer.Contract
import DropContracts.Factory.Deployment
import DropContracts.AutoWithdrawer.Queries
import DropContracts.System.Bank
import DropContracts.Pump.Contract
import DropContracts.Pump.Fees
import DropContracts.ValidatorsStats.Contract
import DropContracts.ValidatorsStats.History
import DropContracts.ValidatorsStats.Uptime
import DropContracts.ValidatorsStats.Jailings
import DropContracts.System.World
import DropContracts.System.Scenario
import DropContracts.System.TokenContract
import DropContracts.System.Configuration
import DropContracts.System.StepCase
import DropContracts.System.Spending
import DropContracts.System.FlowInvariant
import DropContracts.System.BatchStep
import DropContracts.System.BatchInvariant
import DropContracts.System.LsmInvariant
import DropContracts.System.Requests
import DropContracts.System.VoucherRequests
import DropContracts.System.Rates
import DropContracts.System.Undelegations
import DropContracts.System.Payouts
import DropContracts.System.LifeCycle
import DropContracts.System.Responses
import DropContracts.System.Callback
import DropContracts.System.Transitions
import DropContracts.System.Expiry
import DropContracts.System.Denominations
import DropContracts.System.Shares
import DropContracts.System.Redemptions
import DropContracts.System.Solvency
import DropContracts.System.Settlement
import DropContracts.System.SettledPayments
import DropContracts.System.Rules
import DropContracts.System.Administration
import DropContracts.System.Pausing
import DropContracts.System.Refinement
import DropContracts.System.Instantiation
import DropContracts.System.BondValue
import DropContracts.System.FeeLedger
import DropContracts.System.FeeBase
import DropContracts.System.Snapshots
import DropContracts.System.Heights
import DropContracts.System.Freshness
import DropContracts.System.RemoteChain
import DropContracts.System.Upkeep
import DropContracts.System.Liveness
import DropContracts.System.Releases
import DropContracts.System.Backing
import DropContracts.System.Staking
import DropContracts.System.Rewards
import DropContracts.System.MovingAssets
import DropContracts.System.SingleFlight
import DropContracts.System.Observation
import DropContracts.System.Vouchers
import DropContracts.System.Bondings
import DropContracts.System.Deposits
import DropContracts.System.VoucherPayments
import DropContracts.System.Cycles
import DropContracts.Governance.ProposalVotes
import DropContracts.Governance.ProviderProposals
import DropContracts.Governance.VotesQuery
import DropContracts.Governance.Scoring
