import JingOS.Lib.Mealy
import JingOS.Lib.Window
import JingOS.Lib.Ring
import JingOS.Lib.RoundRobin
import JingOS.Lib.U64
import JingOS.Lib.Checked
import JingOS.Lib.Hoare
import JingOS.Lib.Text
import JingOS.Lib.TextGrid
import JingOS.Lib.Ascii
import JingOS.Lib.ByteMem
import JingOS.Lib.X86
import JingOS.Lib.X86Decode
import JingOS.Task.Table
import JingOS.Task.Spec
import JingOS.Task.Invariant
import JingOS.Task.Fairness
import JingOS.Task.Selection
import JingOS.Task.Ledger
import JingOS.Task.Sleep
import JingOS.Task.Eager
import JingOS.Task.Commute
import JingOS.Keyboard.Decoder
import JingOS.Keyboard.Tracking
import JingOS.Keyboard.Repeat
import JingOS.Interrupts.Scancode
import JingOS.Interrupts.Timer
import JingOS.Interrupts.Pit
import JingOS.Memory.Map
import JingOS.Memory.Frames
import JingOS.Memory.Paging
import JingOS.Memory.Translation
import JingOS.Framebuffer.Writer
import JingOS.Framebuffer.Pixels
import JingOS.Framebuffer.Console
import JingOS.Syscall.Dispatch
import JingOS.Memory.Accounting
import JingOS.Syscall.Stub
import JingOS.Syscall.Interrupt
import JingOS.Syscall.Fast
import JingOS.Host.Script
import JingOS.Host.Parsing
import JingOS.Usermode.Session
import JingOS.Usermode.Code
import JingOS.Monitor.Line
import JingOS.Monitor.Editor
import JingOS.Monitor.History
import JingOS.Monitor.Recall
import JingOS.Monitor.World
import JingOS.Monitor.Command
import JingOS.Monitor.Keeping
import JingOS.Monitor.Words
import JingOS.Monitor.Reports
import JingOS.Monitor.Keys
import JingOS.Monitor.Safety
import JingOS.Monitor.Desk
import JingOS.Monitor.Rounds
import JingOS.Monitor.Printable
import JingOS.Host.Forwarder
import JingOS.Monitor.Browsing
import JingOS.Monitor.Typing
import JingOS.Monitor.Survival
import JingOS.Monitor.Resume
import JingOS.Monitor.Batch
import JingOS.Monitor.Serial
import JingOS.Monitor.Automatic
import JingOS.Monitor.Screen
import JingOS.Keyboard.Layout
import JingOS.Monitor.Inputs
import JingOS.Lib.Binding
import JingOS.Lib.SingleCore
import JingOS.Interrupts.Atomic
import JingOS.Startup.Scaffold
import JingOS.Startup.Mapping
import JingOS.Startup.Probe
import JingOS.Startup.Kernel
import JingOS.Monitor.Endings
import JingOS.Startup.Machine
import JingOS.Host.Options
import JingOS.Host.Runner
import JingOS.Monitor.RingThree
import JingOS.Monitor.Transcript
import JingOS.Lib.Numerals
import JingOS.Monitor.Numbers
import JingOS.Host.Rendering
import JingOS.Monitor.Delivery
import JingOS.Monitor.Runs
