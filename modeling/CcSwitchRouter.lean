import CcSwitchRouter.Auth.SignedRuns
import CcSwitchRouter.Contracts.Anniversaries
import CcSwitchRouter.Contracts.Budgets
import CcSwitchRouter.Contracts.Expiry
import CcSwitchRouter.Contracts.FreeUsage
import CcSwitchRouter.Contracts.HeldMonth
import CcSwitchRouter.Contracts.Meter
import CcSwitchRouter.Contracts.Paid
import CcSwitchRouter.Contracts.Posting
import CcSwitchRouter.Contracts.ShareScopeRuns
import CcSwitchRouter.Contracts.TimeTexts
import CcSwitchRouter.Finance.CommissionRuns
import CcSwitchRouter.Finance.DisputeResolution
import CcSwitchRouter.Finance.HoldRuns
import CcSwitchRouter.Finance.Policy
import CcSwitchRouter.Ingress.BodyRuns
import CcSwitchRouter.Ingress.ImageRequest
import CcSwitchRouter.Payments.Decimals
import CcSwitchRouter.Payments.Reversals
import CcSwitchRouter.Pricing.Display
import CcSwitchRouter.Pricing.TariffRuns
import CcSwitchRouter.Proxy.ConcurrencyRuns
import CcSwitchRouter.Proxy.StreamCuts
import CcSwitchRouter.Settlement.QuotaIncome
import CcSwitchRouter.Traffic.LimitRuns
import CcSwitchRouter.Traffic.Recent
import CcSwitchRouter.Tunnel.Draining
import CcSwitchRouter.Tunnel.Leases
import CcSwitchRouter.Tunnel.Rollback
import CcSwitchRouter.Wallet.Replay
