import AppHost.Account
import AppHost.AppSpec
import AppHost.Child
import AppHost.Clock
import AppHost.Config.Basic
import AppHost.Config.Decode
import AppHost.Config.Load
import AppHost.Config.Validate
import AppHost.Decimal.Binary64
import AppHost.Endpoint
import AppHost.Endpoint.Directory
import AppHost.Endpoint.Listen
import AppHost.Endpoint.Port
import AppHost.Exit
import AppHost.Failure
import AppHost.Files.Basic
import AppHost.Files.Change
import AppHost.Json.Basic
import AppHost.Json.Printer
import AppHost.Json.Reader
import AppHost.Launch.Attempt
import AppHost.Launch.Command
import AppHost.Launch.Input
import AppHost.Launch.Launcher
import AppHost.Launch.Provision
import AppHost.Launch.Report
import AppHost.Limit
import AppHost.Main
import AppHost.OsError
import AppHost.Path
import AppHost.Pool
import AppHost.Proofs.ExitNotice
import AppHost.Proofs.FaultReport
import AppHost.Proofs.Files.Growth
import AppHost.Proofs.Headroom
import AppHost.Proofs.Json.RoundTrip
import AppHost.Proofs.Json.Unambiguous
import AppHost.Proofs.Key
import AppHost.Proofs.Launch.Bookmarks
import AppHost.Proofs.Launch.Briefing
import AppHost.Proofs.Launch.Kills
import AppHost.Proofs.Launch.LastReport
import AppHost.Proofs.Launch.Outcome
import AppHost.Proofs.Launch.Output
import AppHost.Proofs.Launch.Refusals
import AppHost.Proofs.Launch.Shell
import AppHost.Proofs.Launch.Signals
import AppHost.Proofs.Launch.Superuser
import AppHost.Proofs.Launch.Validated
import AppHost.Proofs.Pool.Renaming
import AppHost.Proofs.Pool.Runs
import AppHost.Proofs.Pool.Succession
import AppHost.Proofs.Pool.Table
import AppHost.Proofs.Pool.Vacancy
import AppHost.Proofs.Ports
import AppHost.Proofs.Registry.Crowd
import AppHost.Proofs.Registry.HardLimit
import AppHost.Proofs.Registry.Isolation
import AppHost.Proofs.Registry.Lineage
import AppHost.Proofs.Registry.OneWorker
import AppHost.Proofs.Registry.Renaming
import AppHost.Proofs.Registry.Reports
import AppHost.Proofs.Registry.Rest
import AppHost.Proofs.Registry.Retries
import AppHost.Proofs.Registry.Runs
import AppHost.Proofs.Registry.Service
import AppHost.Proofs.Registry.Share
import AppHost.Proofs.Registry.Stopping
import AppHost.Proofs.Registry.Trace
import AppHost.Proofs.Registry.Traffic
import AppHost.Proofs.Registry.Transports
import AppHost.Proofs.SoftLimit
import AppHost.Proofs.Text.Lines
import AppHost.Proofs.Validation
import AppHost.Proofs.Worker.Accounts
import AppHost.Proofs.Worker.Attempts
import AppHost.Proofs.Worker.Closed
import AppHost.Proofs.Worker.Effects
import AppHost.Proofs.Worker.EntryLaws
import AppHost.Proofs.Worker.IdleSignals
import AppHost.Proofs.Worker.IdleTimer
import AppHost.Proofs.Worker.LateExpiry
import AppHost.Proofs.Worker.Leaving
import AppHost.Proofs.Worker.Life
import AppHost.Proofs.Worker.Logs
import AppHost.Proofs.Worker.Outcome
import AppHost.Proofs.Worker.Reaping
import AppHost.Proofs.Worker.ReleaseTimers
import AppHost.Proofs.Worker.Renaming
import AppHost.Proofs.Worker.Settling
import AppHost.Proofs.Worker.Sound
import AppHost.Proofs.Worker.Starting
import AppHost.Proofs.Worker.Waiters
import AppHost.Proofs.Worker.Watch
import AppHost.Registry
import AppHost.Signal
import AppHost.Simulation.EntryScript
import AppHost.Simulation.Forwarding
import AppHost.Simulation.Instance
import AppHost.Simulation.Machine
import AppHost.Simulation.Plan
import AppHost.Simulation.Script
import AppHost.Simulation.StandIn
import AppHost.Simulation.Supervision
import AppHost.Simulation.World
import AppHost.Startup
import AppHost.Text.Digits
import AppHost.Text.Lines
import AppHost.Text.Printable
import AppHost.Toml.Document
import AppHost.Toml.Number
import AppHost.Toml.Reader
import AppHost.Toml.Scan
import AppHost.Worker.Basic
import AppHost.Worker.Entry
import AppHost.Worker.Step
