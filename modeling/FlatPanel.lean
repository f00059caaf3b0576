import FlatPanel.Library.Runs
import FlatPanel.Emu
import FlatPanel.Usbd
import FlatPanel.Mirror
import FlatPanel.Recovery
import FlatPanel.Steps
import FlatPanel.Traffic
import FlatPanel.Acknowledge
import FlatPanel.Faultless
import FlatPanel.Coherence
import FlatPanel.Replies
import FlatPanel.Reader
import FlatPanel.Brightness
import FlatPanel.Connection
import FlatPanel.Transparency
import FlatPanel.Frame
import FlatPanel.Lines
import FlatPanel.Link
import FlatPanel.Ownership
import FlatPanel.Clock
import FlatPanel.Commands
import FlatPanel.Script
import FlatPanel.Framing
import FlatPanel.Idle
import FlatPanel.Writing
import FlatPanel.Opening
import FlatPanel.Search
import FlatPanel.Library.Cells
import FlatPanel.Table
import FlatPanel.Reports
import FlatPanel.Faults
import FlatPanel.Silence
import FlatPanel.Library.Beside
import FlatPanel.Process
import FlatPanel.Receiving
import FlatPanel.Delivery
import FlatPanel.Leaving
import FlatPanel.Talk
import FlatPanel.Lamp
import FlatPanel.Resending
import FlatPanel.Library.Decimal
import FlatPanel.Settings
import FlatPanel.Bench
import FlatPanel.Wired
import FlatPanel.Objects
