import FootballIQ.AuditTampering
import FootballIQ.Cancellation
import FootballIQ.Capacity
import FootballIQ.Conservation
import FootballIQ.CurrencyRuns
import FootballIQ.Deliveries
import FootballIQ.DepositAgreement
import FootballIQ.DepositIntents
import FootballIQ.Difficulty
import FootballIQ.EntryGate
import FootballIQ.EscrowExit
import FootballIQ.FeePayment
import FootballIQ.FirstScorer
import FootballIQ.FootballData
import FootballIQ.GroupedScoring
import FootballIQ.Leaderboard
import FootballIQ.LedgerInvariant
import FootballIQ.LedgerReplays
import FootballIQ.Lifecycle
import FootballIQ.LockTime
import FootballIQ.MarketPartition
import FootballIQ.OtpRuns
import FootballIQ.PayoutFinality
import FootballIQ.PayoutRace
import FootballIQ.PiiCrypto
import FootballIQ.PostingOrder
import FootballIQ.PrizePool
import FootballIQ.PrizeShares
import FootballIQ.RankOrder
import FootballIQ.ReportedResults
import FootballIQ.RequestThrottle
import FootballIQ.ResultFeed
import FootballIQ.ResultPickup
import FootballIQ.Revocation
import FootballIQ.RiskAgreement
import FootballIQ.ScoreBounds
import FootballIQ.SettingsRuns
import FootballIQ.SlipChecks
import FootballIQ.Stats
import FootballIQ.TokenRotation
import FootballIQ.WalletPages
import FootballIQ.WebhookInbox
import FootballIQ.AccessControl
import FootballIQ.Bookkeeping
import FootballIQ.CatalogRuns
import FootballIQ.LeaderboardRuns
import FootballIQ.LockSchedule
import FootballIQ.OutboxDrain
import FootballIQ.Pursuit
import FootballIQ.StatsRuns
import FootballIQ.FormGuide
import FootballIQ.RatingRuns
