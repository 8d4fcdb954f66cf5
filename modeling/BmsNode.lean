import BmsNode.Packet.Detection
import BmsNode.Packet.Bounds
import BmsNode.Timers.Integrity
import BmsNode.Timers.Ideal
import BmsNode.Timers.Drain
import BmsNode.Machine.Reception
import BmsNode.Machine.LoadSafety
import BmsNode.Machine.StateRuns
import BmsNode.Machine.LeftoverTimeout
import BmsNode.Machine.ShuntCommand
import BmsNode.Machine.SleepEntry
import BmsNode.Machine.ReplyRoom
import BmsNode.Serial.AllOrNothing
import BmsNode.Config.Detection
import BmsNode.Config.CrcLoop
import BmsNode.Config.Parameters
import BmsNode.Shunting.Divisors
import BmsNode.Shunting.Monotone
import BmsNode.Shunting.DeadMan
import BmsNode.Testing.AutoOff
import BmsNode.Sampling.Filter
import BmsNode.Leds.Waveform
import BmsNode.Engine.Visits
import BmsNode.Command.FrameOnly
import BmsNode.Command.Collision
import BmsNode.Command.ReplyChain
import BmsNode.Config.Registers
import BmsNode.Command.Server
import BmsNode.Machine.Server
import BmsNode.Packet.Stream
import BmsNode.Machine.Transmission
import BmsNode.Transition.Progress
import BmsNode.Machine.Turnaround
import BmsNode.Transition.Rounds
import BmsNode.Machine.Bus
import BmsNode.Engine.Alongside
import BmsNode.Machine.Watchdog
import BmsNode.Transition.Schedule
import BmsNode.Machine.Rig
import BmsNode.Machine.Analog
import BmsNode.Shunting.Cadence
import BmsNode.Sampling.Interpolation
import BmsNode.Sampling.Thermistor
import BmsNode.Shunting.Derating
import BmsNode.Machine.Service
import BmsNode.Machine.Request
import BmsNode.Machine.Commissioning
import BmsNode.Machine.Measurement
import BmsNode.Machine.Attention
import BmsNode.Machine.TestTime
