import Partman.Lib.Mem
import Partman.Lib.Le
import Partman.Lib.Crc
import Partman.Model.MemUtils
import Partman.Model.Crc32
import Partman.Model.ImgCtx
import Partman.Model.Guid
import Partman.Model.Mbr
import Partman.Model.Gpt
import Partman.Model.SchemCtx
import Partman.Model.Search
import Partman.Model.Scan
import Partman.Model.Main
import Partman.Model.StrTrim
import Partman.Disk.Geometry
import Partman.Edit.Change
import Partman.Edit.Invariant
import Partman.Disk.Recovery
import Partman.Disk.Interrupt
import Partman.Disk.Reads
import Partman.Disk.Flags
import Partman.Disk.Conformant
import Partman.Disk.Checksums
import Partman.Edit.Start
import Partman.Edit.Last
import Partman.Edit.Allocated
import Partman.Edit.Space
import Partman.Disk.Chs
import Partman.Disk.Unedited
import Partman.Disk.Entries
import Partman.Edit.Storable
import Partman.Edit.Reload
import Partman.Text.Size
import Partman.Text.Grammar
import Partman.Text.Trim
import Partman.Text.GuidText
import Partman.Text.Registry
import Partman.Disk.CrcCalls
import Partman.Disk.Header
import Partman.Disk.Layout
import Partman.Disk.TableReads
import Partman.Disk.Unmap
import Partman.Lib.Loop
import Partman.Model.Session
import Partman.Session.Durable
import Partman.Session.Frame
import Partman.Text.Typed
import Partman.Edit.Answers
import Partman.Lib.Layout
import Partman.Session.Layouts
import Partman.Session.Whole
import Partman.Lib.Getopt
import Partman.Model.Options
import Partman.Model.Program
import Partman.Session.Crash
import Partman.Session.Growth
import Partman.Text.Options
import Partman.Edit.Defaults
import Partman.Lib.Lines
import Partman.Model.Report
import Partman.Session.Defaults
import Partman.Session.Made
import Partman.Session.Report
import Partman.Session.Typed
import Partman.Session.Contexts
import Partman.Session.Foreign
