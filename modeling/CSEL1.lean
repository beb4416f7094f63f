import CSEL1.Transition.Basic
import CSEL1.Text.Decimal
import CSEL1.Text.Scan
import CSEL1.Text.Buffer
import CSEL1.Driver.Basic
import CSEL1.Display.Basic
import CSEL1.Display.Lines
import CSEL1.Client.Basic
import CSEL1.Daemon.Basic
import CSEL1.Daemon.Events
import CSEL1.Daemon.Control
import CSEL1.Daemon.TimerSafety
import CSEL1.Daemon.Codec
import CSEL1.Daemon.AutomaticMode
import CSEL1.Daemon.ModeAgreement
import CSEL1.Daemon.FailedWrites
import CSEL1.Daemon.FailedReads
import CSEL1.Daemon.Threads
import CSEL1.Driver.Module
import CSEL1.Queue.Channel
import CSEL1.Queue.Exchange
import CSEL1.Queue.Conservation
import CSEL1.Daemon.Messages
import CSEL1.Daemon.FrequencyPath
import CSEL1.Daemon.Leftovers
import CSEL1.Daemon.Presses
import CSEL1.Daemon.Ladders
import CSEL1.Client.Replies
import CSEL1.Button.Poll
import CSEL1.Memory.Slice
import CSEL1.Misc.Basic
import CSEL1.Misc.LastWrite
import CSEL1.Misc.Slices
import CSEL1.Daemon.DisplayLock
import CSEL1.Daemon.FrequencyLine
import CSEL1.Daemon.TemperaturePath
import CSEL1.Text.Numeral
import CSEL1.Driver.Stores
import CSEL1.Driver.Waveform
import CSEL1.Display.LatestText
import CSEL1.Daemon.Rendering
import CSEL1.Misc.DeviceTree
import CSEL1.Misc.Loading
import CSEL1.Misc.FailedCopy
import CSEL1.Misc.Pieces
import CSEL1.Blink.Basic
import CSEL1.Blink.DutyCycle
import CSEL1.Text.Reads
import CSEL1.Socket.Basic
import CSEL1.Socket.Recognition
import CSEL1.KernelList.Basic
import CSEL1.KernelList.Unloading
import CSEL1.Socket.Pair
import CSEL1.Kthread.Basic
import CSEL1.Transition.Progress
import CSEL1.Kthread.Unload
import CSEL1.MemLeaks.Basic
import CSEL1.Listing.Basic
import CSEL1.Listing.Scan
import CSEL1.Misc.Sysfs
import CSEL1.Transition.Leaks
import CSEL1.Button.Loading
import CSEL1.Unix.Chain
import CSEL1.Daemon.Daemonize
import CSEL1.Queue.Service
import CSEL1.Queue.Stopping
import CSEL1.Gpio.Basic
import CSEL1.Gpio.Opening
import CSEL1.Transition.Publish
import CSEL1.Daemon.Panel
import CSEL1.Daemon.EventLoop
import CSEL1.Daemon.PowerLed
import CSEL1.Daemon.Notified
import CSEL1.Client.Fan
import CSEL1.Queue.Atomic
import CSEL1.Queue.InTurn
