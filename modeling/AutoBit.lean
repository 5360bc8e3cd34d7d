import AutoBit.Library.Rounding
import AutoBit.Basic
import AutoBit.Health.Snapshot
import AutoBit.Health.Evidence
import AutoBit.Health.Consistency
import AutoBit.Health.Recovery
import AutoBit.Health.RoundTrip
import AutoBit.Store.Fencing
import AutoBit.Alerts.Delivery
import AutoBit.Broker.Accounting
import AutoBit.Data.Collection
import AutoBit.Health.Persistence
import AutoBit.Health.Reload
import AutoBit.Library.HashChain
import AutoBit.Library.Transaction
import AutoBit.Library.Triple
import AutoBit.Risk.Accumulation
import AutoBit.Risk.Cooldown
import AutoBit.Risk.DailyHalt
import AutoBit.Service.RiskAgreement
import AutoBit.Store.Lifecycle
import AutoBit.Store.Columns
import AutoBit.Store.Session
import AutoBit.Store.Refinement
import AutoBit.Backtest.Bars
import AutoBit.Backtest.Conservation
import AutoBit.Backtest.Metrics
import AutoBit.Broker.Agreement
import AutoBit.Data.Agreement
import AutoBit.Data.Causality
import AutoBit.Data.Truncation
import AutoBit.Library.Calendar
import AutoBit.Library.Combinations
import AutoBit.Library.CostBasis
import AutoBit.Library.Peaks
import AutoBit.Library.Ranking
import AutoBit.Library.While
import AutoBit.Live.Candle
import AutoBit.Live.CandleSteps
import AutoBit.Live.Chronicle
import AutoBit.Live.Codec
import AutoBit.Live.Refusal
import AutoBit.Live.Storage
import AutoBit.Reporting.Drawdown
import AutoBit.Reporting.Metrics
import AutoBit.Reporting.TradeLedger
import AutoBit.Risk.Antitone
import AutoBit.Risk.Environments
import AutoBit.Risk.Followup
import AutoBit.Service.RiskPayload
import AutoBit.Service.Scheduler
import AutoBit.Strategy.Gate
import AutoBit.Strategy.Trailing
import AutoBit.Strategy.Trend
import AutoBit.Validation.Folds
import AutoBit.Validation.OrderLog
import AutoBit.Validation.OrderReaders
import AutoBit.Validation.Overfit
import AutoBit.Validation.Overfitting
import AutoBit.Validation.Stitching
import AutoBit.Broker.Growth
import AutoBit.Broker.Holding
import AutoBit.Broker.Observations
import AutoBit.Data.History
import AutoBit.Service.Candles
import AutoBit.Service.Cycle
import AutoBit.Service.CycleSteps
import AutoBit.Service.HeldCandles
import AutoBit.Service.HeldEvidence
import AutoBit.Broker.Marks
import AutoBit.Service.Completions
import AutoBit.Broker.Guard
import AutoBit.Broker.Dates
import AutoBit.Broker.Firing
import AutoBit.Data.Checkpointless
import AutoBit.Library.Spaced
import AutoBit.Live.Facts
import AutoBit.Live.Holding
import AutoBit.Service.Chronicle
import AutoBit.Service.Protection
import AutoBit.Service.Resolution
import AutoBit.Service.Scheduled
import AutoBit.Validation.Conserved
import AutoBit.Validation.WalkForward
