import LifeOS.Library.Ring
import LifeOS.Library.Runs
import LifeOS.Fs.Contents
import LifeOS.Fs.Refinement
import LifeOS.Fs.Rename
import LifeOS.Fs.Lookup
import LifeOS.Fs.Stale
import LifeOS.Fs.Accounting
import LifeOS.Mm.Pages
import LifeOS.Sched.Contexts
import LifeOS.Console.Window
import LifeOS.Console.Scrollback
import LifeOS.Console.Editor
import LifeOS.Console.Queue
import LifeOS.Console.Chords
import LifeOS.Console.Attributes
import LifeOS.Console.Echo
import LifeOS.Console.Backspace
import LifeOS.Hmi.Grid
import LifeOS.Acpi.Search
import LifeOS.Acpi.Accessors
import LifeOS.Acpi.Bounds
import LifeOS.Power
import LifeOS.Kernel
import LifeOS.Boot.Layout
import LifeOS.Boot.Mapping
import LifeOS.Sched.Yield
import LifeOS.Sched.Entry
import LifeOS.Sched.Placement
import LifeOS.Console.Recall
import LifeOS.Console.Prompts
import LifeOS.Drivers.Scancodes
import LifeOS.Drivers.Registry
import LifeOS.Boot.Paging
import LifeOS.Inventory.Gather
import LifeOS.Console.Numbers
import LifeOS.Gui.Border
import LifeOS.Gui.Line
import LifeOS.Kernel.Processor
import LifeOS.Kernel.Frame
import LifeOS.Boot.Handover
import LifeOS.Console.Transcript
import LifeOS.Console.Session
import LifeOS.Kernel.Screen
import LifeOS.Boot.Stale
