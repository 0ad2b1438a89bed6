import VirtualClock.AdvanceRequest
import VirtualClock.Clock
import VirtualClock.ClockId
import VirtualClock.CommandLine
import VirtualClock.CommandLine.Arguments
import VirtualClock.CommandLine.Switch
import VirtualClock.Config
import VirtualClock.Config.Lookup
import VirtualClock.Duration
import VirtualClock.Duration.Text
import VirtualClock.Environment
import VirtualClock.EventLoop
import VirtualClock.Failure
import VirtualClock.FakeTime
import VirtualClock.FileTree
import VirtualClock.Main
import VirtualClock.Mode
import VirtualClock.Path
import VirtualClock.Proofs.AdvanceRequest.WireForm
import VirtualClock.Proofs.Clock.Coherence
import VirtualClock.Proofs.Clock.Frame
import VirtualClock.Proofs.Clock.Overlay
import VirtualClock.Proofs.Clock.Sameness
import VirtualClock.Proofs.Clock.Successive
import VirtualClock.Proofs.CommandLine.ModeResolution
import VirtualClock.Proofs.CommandLine.Outcome
import VirtualClock.Proofs.Config.Sources
import VirtualClock.Proofs.EventLoop.Queueing
import VirtualClock.Proofs.EventLoop.Tickets
import VirtualClock.Proofs.FakeTime.Calls
import VirtualClock.Proofs.FakeTime.Schedule
import VirtualClock.Proofs.History.Accounting
import VirtualClock.Proofs.History.Advances
import VirtualClock.Proofs.History.Armings
import VirtualClock.Proofs.History.CallbackIdles
import VirtualClock.Proofs.History.Capabilities
import VirtualClock.Proofs.History.Evolution
import VirtualClock.Proofs.History.FiringOrder
import VirtualClock.Proofs.History.Lifetime
import VirtualClock.Proofs.History.Moves
import VirtualClock.Proofs.History.Numbering
import VirtualClock.Proofs.History.Passage
import VirtualClock.Proofs.History.Readings
import VirtualClock.Proofs.History.Registrations
import VirtualClock.Proofs.History.Stillness
import VirtualClock.Proofs.History.Teardown
import VirtualClock.Proofs.History.TimerOrder
import VirtualClock.Proofs.History.Transitions
import VirtualClock.Proofs.Isolation.Belonging
import VirtualClock.Proofs.Isolation.Counterpart
import VirtualClock.Proofs.Isolation.Erasure
import VirtualClock.Proofs.Isolation.Likeness
import VirtualClock.Proofs.Isolation.Selection
import VirtualClock.Proofs.Isolation.Shadow
import VirtualClock.Proofs.Keyed
import VirtualClock.Proofs.Mode.Spelling
import VirtualClock.Proofs.RealTime.Armings
import VirtualClock.Proofs.RealTime.Deadlines
import VirtualClock.Proofs.RealTime.Equivalence
import VirtualClock.Proofs.RealTime.Expiring
import VirtualClock.Proofs.RealTime.Following
import VirtualClock.Proofs.RealTime.Lapsing
import VirtualClock.Proofs.RealTime.Sources
import VirtualClock.Proofs.RealTime.Tokens
import VirtualClock.Proofs.RealTime.Wiring
import VirtualClock.Proofs.Registry.Handles
import VirtualClock.Proofs.Replay.Agenda
import VirtualClock.Proofs.Replay.Arming
import VirtualClock.Proofs.Replay.Patience
import VirtualClock.Proofs.Replay.Playing
import VirtualClock.Proofs.Replay.Steps
import VirtualClock.Proofs.Simulation.Confinement
import VirtualClock.Proofs.Simulation.Firings
import VirtualClock.Proofs.Simulation.Landing
import VirtualClock.Proofs.Simulation.Operations
import VirtualClock.Proofs.Simulation.Pacing
import VirtualClock.Proofs.Simulation.Refinement
import VirtualClock.Proofs.Simulation.Retargeting
import VirtualClock.Proofs.Simulation.Settling
import VirtualClock.Proofs.Simulation.Simulator
import VirtualClock.Proofs.Simulation.Splitting
import VirtualClock.Proofs.Simulation.Unlooped
import VirtualClock.Proofs.Text.Encoding
import VirtualClock.Proofs.Text.Numerals
import VirtualClock.Proofs.Text.Trimming
import VirtualClock.Proofs.TimerList.Armed
import VirtualClock.Proofs.TimerList.Due
import VirtualClock.Proofs.TimerList.Order
import VirtualClock.Proofs.TimerList.Placements
import VirtualClock.Proofs.TimerList.Ties
import VirtualClock.Proofs.TimerSetting.Grammar
import VirtualClock.Proofs.Timespec.Clamping
import VirtualClock.Proofs.Timespec.RoundTrip
import VirtualClock.Proofs.World.Calls
import VirtualClock.Proofs.World.Coherence
import VirtualClock.Proofs.World.Elsewhere
import VirtualClock.Proofs.World.Failures
import VirtualClock.Proofs.World.Lone
import VirtualClock.Proofs.World.Moment
import VirtualClock.Proofs.World.Overlay
import VirtualClock.Proofs.World.Progress
import VirtualClock.Proofs.World.Queueing
import VirtualClock.Proofs.World.Reachable
import VirtualClock.Proofs.World.RunningTask
import VirtualClock.Proofs.World.Scheduler
import VirtualClock.Proofs.World.Scripts
import VirtualClock.Proofs.World.Turns
import VirtualClock.Registry
import VirtualClock.Replay
import VirtualClock.Scenario
import VirtualClock.Script
import VirtualClock.Text.Blank
import VirtualClock.Text.Combining
import VirtualClock.Text.Decimal
import VirtualClock.Text.Integer
import VirtualClock.Text.Quoted
import VirtualClock.Text.Terminal
import VirtualClock.Text.Unprintable
import VirtualClock.Text.Utf8
import VirtualClock.TimerList
import VirtualClock.TimerSetting
import VirtualClock.Timespec
import VirtualClock.Toml.DateTime
import VirtualClock.Toml.Document
import VirtualClock.Toml.Number
import VirtualClock.Toml.Strings
import VirtualClock.Toml.Value
import VirtualClock.World
import VirtualClock.World.Dispatch
