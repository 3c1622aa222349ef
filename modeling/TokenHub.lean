import TokenHub.Lib.Runs
import TokenHub.Ledger.BalanceRuns
import TokenHub.Ledger.CommandRuns
import TokenHub.Ledger.RecoveryRuns
import TokenHub.Rent.PaymentMoves
import TokenHub.Rent.ReconcileMoves
import TokenHub.Rent.Configuration
import TokenHub.Rent.LifecycleRuns
import TokenHub.Rent.BillSlices
import TokenHub.Rent.BillRuns
import TokenHub.Rent.BillWhole
import TokenHub.Economy.Evolution
import TokenHub.Economy.EvolutionRuns
import TokenHub.Economy.Enablement
import TokenHub.Economy.EnablementRuns
import TokenHub.Audit.Rows
import TokenHub.Audit.Verification
import TokenHub.Audit.ChainRuns
import TokenHub.Rent.Dates
import TokenHub.Audit.EvidenceRuns
import TokenHub.Insurance.Coverage
import TokenHub.Lib.Tiling
import TokenHub.Insurance.Premiums
import TokenHub.Insurance.Renewal
import TokenHub.Insurance.Commands
import TokenHub.Insurance.Filing
import TokenHub.Insurance.Decision
import TokenHub.Insurance.System
import TokenHub.Insurance.Lifecycle
import TokenHub.Insurance.PremiumMoves
import TokenHub.Insurance.RenewalMoves
import TokenHub.Insurance.CommandMoves
import TokenHub.Insurance.ClaimMoves
import TokenHub.Insurance.ClaimInvariant
import TokenHub.Insurance.FilingSteps
import TokenHub.Insurance.DecisionSteps
import TokenHub.Insurance.EffectSteps
import TokenHub.Insurance.SystemRuns
import TokenHub.Insurance.ClaimRuns
import TokenHub.Insurance.CoverageRuns
import TokenHub.Lib.Search
import TokenHub.Payroll.Schedule
import TokenHub.Payroll.Boundaries
import TokenHub.Payroll.ScheduleRuns
import TokenHub.Attendance.Intervals
import TokenHub.Attendance.Writer
import TokenHub.Lib.Ordered
import TokenHub.HallPass.Lifecycle
import TokenHub.HallPass.PassDay
import TokenHub.HallPass.DayRuns
import TokenHub.Store.Products
import TokenHub.Store.Entitlements
import TokenHub.Store.Requests
import TokenHub.Store.Purchase
import TokenHub.Store.Reversal
import TokenHub.Store.System
import TokenHub.Store.LineageMoves
import TokenHub.Store.EntitlementSteps
import TokenHub.Store.RequestSteps
import TokenHub.Store.PurchaseSteps
import TokenHub.Ledger.ReversalSteps
import TokenHub.Store.ReversalSteps
import TokenHub.Store.CommandSteps
import TokenHub.Store.LineageBalance
import TokenHub.Store.LineageRuns
import TokenHub.Ledger.ChargeReplay
import TokenHub.Store.PurchaseCharge
import TokenHub.Store.PurchaseRuns
import TokenHub.Store.StockRuns
import TokenHub.Ledger.Readers
import TokenHub.Ledger.ReaderAgreement
import TokenHub.Payroll.Settings
import TokenHub.Payroll.SettingsRuns
import TokenHub.Obligations.Succession
import TokenHub.Obligations.SuccessionRuns
import TokenHub.Configuration.Transfer
import TokenHub.Configuration.TransferRuns
import TokenHub.Identity.Rows
import TokenHub.Identity.Seats
import TokenHub.Identity.ClaimCodes
import TokenHub.Identity.Roster
import TokenHub.Identity.SeatRuns
import TokenHub.Identity.Setup
import TokenHub.Identity.SetupSteps
import TokenHub.Identity.SetupMoves
import TokenHub.Identity.SetupRuns
import TokenHub.TeacherRecovery.Attempts
import TokenHub.TeacherRecovery.AttemptSteps
import TokenHub.TeacherRecovery.AttemptRuns
import TokenHub.Attendance.Pairing
import TokenHub.Status.Measurements
import TokenHub.Status.Telemetry
import TokenHub.Status.TelemetryRuns
import TokenHub.Ledger.Transfer
import TokenHub.Ledger.TransferRuns
import TokenHub.Ledger.Penalty
import TokenHub.Ledger.PenaltyRuns
import TokenHub.Backup.BackupRuns
import TokenHub.Support.SystemAdmin
import TokenHub.Support.Disclosure
import TokenHub.Support.Lifecycle
import TokenHub.Support.DisclosureRuns
import TokenHub.Insurance.PremiumPayments
import TokenHub.Insurance.PremiumWrites
import TokenHub.Insurance.PremiumAnswers
import TokenHub.Insurance.PremiumRuns
import TokenHub.Ledger.PayrollAllocation
import TokenHub.Lib.Apportionment
import TokenHub.Ledger.AllocationReading
import TokenHub.Lib.Rounding
import TokenHub.Ledger.AllocationLaws
import TokenHub.Ledger.FeePlan
import TokenHub.Ledger.FeePlanRuns
import TokenHub.Lib.WallClock
import TokenHub.Time.ClassDays
import TokenHub.Rent.DueDates
import TokenHub.Rent.LateFees
import TokenHub.Rent.LateFeeRuns
import TokenHub.Rent.StudentView
import TokenHub.Rent.StudentViewTotals
import TokenHub.Attendance.WorkDays
import TokenHub.Attendance.Sweeps
import TokenHub.Attendance.WorkDayRuns
import TokenHub.Audit.EvidenceBatch
import TokenHub.Insurance.ClaimBasis
import TokenHub.Insurance.ClaimBasisRuns
import TokenHub.Economy.EngineTimeline
import TokenHub.Economy.SavingsAccrual
import TokenHub.Economy.BandVerdicts
import TokenHub.TeacherRecovery.Secrecy
import TokenHub.Ledger.CycleReads
import TokenHub.Economy.DoublingTime
import TokenHub.Economy.DoublingCeiling
import TokenHub.Economy.DoublingMismatch
import TokenHub.Attendance.FrozenEvidence
import TokenHub.Attendance.Memberships
import TokenHub.Attendance.PayrollSettlement
import TokenHub.Attendance.SettlementRuns
import TokenHub.Attendance.HistoricalReplay
import TokenHub.Attendance.ReplayExclusion
import TokenHub.Attendance.ReplayOnce
import TokenHub.Insurance.FiledPeriods
import TokenHub.Ledger.SettledOrigins
import TokenHub.Savings.Windows
import TokenHub.Savings.Runs
import TokenHub.Savings.Loop
import TokenHub.Savings.Schedule
