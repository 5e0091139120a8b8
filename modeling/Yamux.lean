import Yamux.Core.Prog
import Yamux.Core.Interference
import Yamux.Core.Footprint
import Yamux.Core.Pipe
import Yamux.Core.Separation
import Yamux.Core.Allocator
import Yamux.Core.RedBlack
import Yamux.Native.Bio
import Yamux.Native.Header
import Yamux.Native.State
import Yamux.Native.Stream
import Yamux.Native.Session
import Yamux.Native.Changes
import Yamux.Native.Sends
import Yamux.Core.Tracking
import Yamux.Native.Intake
import Yamux.Native.Footprint
import Yamux.Native.Api
import Yamux.Native.Beside
import Yamux.Allocation.Counter
import Yamux.Allocation.Collision
import Yamux.Allocation.Racing
import Yamux.Sequential.Stream
import Yamux.Sequential.Receive
import Yamux.Sequential.Process
import Yamux.Receive.Quiet
import Yamux.Receive.Totality
import Yamux.Sequential.Rounds
import Yamux.Sequential.Extension
import Yamux.Receive.Chunking
import Yamux.Sequential.Window
import Yamux.Network.Frames
import Yamux.Receive.Absorption
import Yamux.Receive.Isolation
import Yamux.Receive.Draining
import Yamux.Network.Model
import Yamux.Network.Delivery
import Yamux.Network.Handshake
import Yamux.Native.Fifo
import Yamux.Failure.Bio
import Yamux.Failure.Stream
import Yamux.Failure.Credit
import Yamux.Core.Ends
import Yamux.Core.Triples
import Yamux.Core.Threads
import Yamux.Core.Typestate
import Yamux.Readiness.Calls
import Yamux.Readiness.Reading
import Yamux.Readiness.Writing
import Yamux.Readiness.Roles
import Yamux.Readiness.Wakeups
import Yamux.Receive.Memory
import Yamux.Sending.Queueing
import Yamux.Sending.Whole
import Yamux.Sending.Amounts
import Yamux.Sending.Balance
import Yamux.Receive.Rejection
import Yamux.Receive.Accepting
import Yamux.Receive.Replies
import Yamux.Sending.Acknowledging
import Yamux.Receive.Headers
import Yamux.Receive.Ending
import Yamux.Failure.Bounds
import Yamux.Epoll.Loop
import Yamux.Epoll.Records
import Yamux.Epoll.Mirror
import Yamux.Epoll.Dispatch
import Yamux.Lifecycle.Course
import Yamux.Lifecycle.Reset
import Yamux.Core.Locking
import Yamux.Core.Alike
import Yamux.Core.Matching
import Yamux.Core.Refinement
import Yamux.Locking.Stream
import Yamux.Locking.Session
import Yamux.Locking.Order
import Yamux.Locking.Discipline
import Yamux.Locking.Atomic
import Yamux.Locking.Guarding
import Yamux.Locking.Sections
import Yamux.Locking.StreamSections
import Yamux.Locking.SessionSections
import Yamux.Locking.Interleaving
import Yamux.Buffer.Native
import Yamux.Buffer.Layout
import Yamux.Buffer.Calls
import Yamux.Buffer.Runs
import Yamux.Tree.Native
import Yamux.Tree.Layout
import Yamux.Tree.Insert
import Yamux.Tree.Remove
import Yamux.Tree.Search
import Yamux.Tree.Index
import Yamux.Tree.Freeing
import Yamux.Tree.Events
import Yamux.Tree.Streams
