import BrivoUsbs.Properties.Allowlist
import BrivoUsbs.Properties.AllowlistJournal
import BrivoUsbs.Properties.BatchMint
import BrivoUsbs.Properties.BatchRedemption
import BrivoUsbs.Properties.ClaimableTimestamp
import BrivoUsbs.Properties.ComparisonLimits
import BrivoUsbs.Properties.Compliance
import BrivoUsbs.Properties.Conversions
import BrivoUsbs.Properties.DepositSlots
import BrivoUsbs.Properties.FactoryDeployment
import BrivoUsbs.Properties.FrozenAccounts
import BrivoUsbs.Properties.LatestPrice
import BrivoUsbs.Properties.MintFees
import BrivoUsbs.Properties.NumberFormats
import BrivoUsbs.Properties.OracleRecovery
import BrivoUsbs.Properties.OracleRefinement
import BrivoUsbs.Properties.Outsiders
import BrivoUsbs.Properties.Pausing
import BrivoUsbs.Properties.PriceAssignment
import BrivoUsbs.Properties.PriceRecord
import BrivoUsbs.Properties.PriceSources
import BrivoUsbs.Properties.RateCheckOracle
import BrivoUsbs.Properties.RedemptionPrices
import BrivoUsbs.Properties.Reentrancy
import BrivoUsbs.Properties.RoleMembers
import BrivoUsbs.Properties.SettlementPrice
import BrivoUsbs.Properties.Solvency
import BrivoUsbs.Properties.TokenJournal
import BrivoUsbs.Properties.Upgrades
