import ForwardX.Fxp.UdpAccounting
import ForwardX.Fxp.UdpNonce
import ForwardX.Fxp.UdpRoundTrip
import ForwardX.Fxp.UdpExit
import ForwardX.Panel.TrafficReports
import ForwardX.Agent.TrafficExactlyOnce
import ForwardX.Panel.TrafficBillingTotals
import ForwardX.Panel.RuleRetirement
import ForwardX.Panel.SubscriptionPorts
import ForwardX.Panel.PaymentFulfilment
import ForwardX.Panel.DiscountAccounting
import ForwardX.Panel.PaymentRecovery
import ForwardX.Panel.TrafficCycleResets
import ForwardX.Panel.Credits
import ForwardX.Panel.TrafficStatistics
import ForwardX.Panel.AgentEnvelopes
import ForwardX.Panel.PortReservations
import ForwardX.Panel.PortBackfill
import ForwardX.Panel.PortInvariant
import ForwardX.Panel.ChallengeUse
import ForwardX.Panel.AccessRecovery
import ForwardX.Panel.KeyedTaskDispatcher
import ForwardX.Panel.RuleQuotaBound
import ForwardX.Panel.HeartbeatGate
import ForwardX.Panel.GroupEvaluationQueue
import ForwardX.Panel.SilenceTimers
import ForwardX.Panel.SilenceDeadlines
import ForwardX.Panel.RuntimeRecovery
import ForwardX.Panel.FastLiveness
import ForwardX.Agent.XrayRestartRace
import ForwardX.Agent.XrayAgreement
import ForwardX.Agent.XrayCrashes
import ForwardX.Panel.EntryHysteresis
import ForwardX.Fxp.ConnGates
import ForwardX.Fxp.SecureFrames
import ForwardX.Agent.ActionStatus
import ForwardX.Agent.PanelSwitchFailures
import ForwardX.Agent.PanelFallback
import ForwardX.Panel.DatabaseSwitch
import ForwardX.Panel.ImportRowByRow
import ForwardX.Panel.RateLimitPrune
import ForwardX.Panel.RetryAfter
import ForwardX.Fxp.UdpHeader
import ForwardX.Fxp.ReplayHistory
import ForwardX.Fxp.UdpReclaim
import ForwardX.Fxp.ExitSelection
import ForwardX.Fxp.UdpRing
import ForwardX.Fxp.ProxyProtocol
import ForwardX.Panel.XrayReports
import ForwardX.Panel.PortPolicy
import ForwardX.Panel.PortBlocks
import ForwardX.Panel.TrafficResetDates
import ForwardX.Panel.SlidingWindow
import ForwardX.Panel.ClockConsensus
import ForwardX.Panel.AsyncPool
import ForwardX.Panel.QueryCache
import ForwardX.Panel.AgentEvents
import ForwardX.Panel.DdnsValues
import ForwardX.Panel.DnsDiff
import ForwardX.Agent.HealthDecisions
import ForwardX.Panel.FailoverSelection
import ForwardX.Panel.QuickConfigTopology
import ForwardX.Agent.ConntrackTotals
import ForwardX.Agent.DnsWatch
