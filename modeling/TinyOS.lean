import TinyOS.Ramfs.Protection
import TinyOS.Ramfs.HiddenNames
import TinyOS.Fat32.Listing
import TinyOS.Vfs.Quotas
import TinyOS.Tcp.Reset
import TinyOS.Tcp.RecvStream
import TinyOS.Tcp.Window
import TinyOS.Tcp.WindowUpdate
import TinyOS.Tcp.Reserve
import TinyOS.Proc.ReadyRing
import TinyOS.Proc.MutexOwner
import TinyOS.Proc.Reaper
import TinyOS.Proc.SpawnLimits
import TinyOS.Mem.FrameOwner
import TinyOS.Mem.RealRam
import TinyOS.Pipe.Pipeline
import TinyOS.User.Throttle
import TinyOS.Firewall.Block
import TinyOS.Audit.Integrity
import TinyOS.Pae.Isolation
import TinyOS.Elf.Failure
import TinyOS.Net.ArpProvenance
import TinyOS.Net.Udp
import TinyOS.Net.Dns
import TinyOS.Net.DhcpLease
import TinyOS.Net.Receive
import TinyOS.Ramfs.Accepted
import TinyOS.Ramfs.Overwrite
import TinyOS.Shell.Canonical
import TinyOS.Shell.Move
import TinyOS.Shell.Wildcard
import TinyOS.Time.Calendar
import TinyOS.Editor.File
import TinyOS.Editor.Refines
