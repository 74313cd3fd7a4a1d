import NetworkFs.Control.Ctl
import NetworkFs.Grammar.Try
import NetworkFs.World
import NetworkFs.Wrapper.Curl
import NetworkFs.Dav.Method
import NetworkFs.Dav.Propfind
import NetworkFs.Dav.Lock
import NetworkFs.Dav.Callbacks
import NetworkFs.Dav.Steps
import NetworkFs.Dav.LockBalance
import NetworkFs.Dav.Frame
import NetworkFs.Dav.Exceptions
import NetworkFs.Dav.Replies
import NetworkFs.Dav.Steady
import NetworkFs.Data.Splice
import NetworkFs.Dav.Creation
import NetworkFs.Dav.Tokens
import NetworkFs.Dav.Compensation
import NetworkFs.Dav.Listing
import NetworkFs.Dav.Truncation
import NetworkFs.Concurrency.Client
import NetworkFs.Dav.Interleaving
import NetworkFs.Dav.CreationRace
import NetworkFs.Dav.Accounting
import NetworkFs.Cli.CombineUrl
import NetworkFs.Memory.CString
import NetworkFs.Dav.HeaderLines
import NetworkFs.Dav.HeaderNames
import NetworkFs.Dav.Options
import NetworkFs.Dav.LockToken
import NetworkFs.Dav.LockReply
import NetworkFs.Cli.ReplacePassword
import NetworkFs.Dav.Decoding
import NetworkFs.Data.TableCrc
import NetworkFs.Dav.RangeText
import NetworkFs.Grammar.VTable
import NetworkFs.Template.Buffer
import NetworkFs.Dav.FailStop
import NetworkFs.Data.Calendar
import NetworkFs.Text.Strptime
import NetworkFs.Dav.Times
import NetworkFs.Concurrency.Custody
import NetworkFs.Wrapper.HandlePool
import NetworkFs.Control.Goto
import NetworkFs.Grammar.Expand
import NetworkFs.Grammar.Structured
import NetworkFs.Dav.Writing
import NetworkFs.Dav.Resources
import NetworkFs.Dav.Metadata
import NetworkFs.Dav.Symlinks
import NetworkFs.Dav.Resizing
import NetworkFs.Dav.Copying
import NetworkFs.Text.Reference
import NetworkFs.Wrapper.ResourceUrl
import NetworkFs.Dav.LockTable
import NetworkFs.Control.Simulate
import NetworkFs.Dav.FileSystem
import NetworkFs.Dav.Moving
import NetworkFs.Dav.Session
import NetworkFs.Dav.Serving
import NetworkFs.Dav.ServerLocks
import NetworkFs.Dav.Writers
import NetworkFs.Wrapper.AtomicPool
import NetworkFs.Dav.Frozen
