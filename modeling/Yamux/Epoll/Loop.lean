import Mathlib.Tactic

/-!
# The event loop

`event-epoll.c` keeps a record for each descriptor that the application listens to, in a
tree ordered by descriptor. The kernel is given the address of the record, and hands it back
when the descriptor is ready. A record has an identity of its own, which is never given to
another one, and a mark that says whether it was removed.
-/

namespace Yamux.Epoll

/-! ## Flags -/

def EVENT_NONE : UInt32 := 0x00
def EVENT_IN : UInt32 := 0x01
def EVENT_OUT : UInt32 := 0x02

def EPOLLIN : UInt32 := 0x001
def EPOLLOUT : UInt32 := 0x004
def EPOLLERR : UInt32 := 0x008
def EPOLLHUP : UInt32 := 0x010

/-- Whether a flag is set. -/
def hasEvent (flags flag : UInt32) : Bool := flags &&& flag != 0

/-- The mask that is registered for the flags of a record. -/
def epollMask (flags : UInt32) : UInt32 :=
  (if hasEvent flags EVENT_IN then EPOLLIN else 0) |||
    (if hasEvent flags EVENT_OUT then EPOLLOUT else 0)

/-- Non-empty flags from `EVENT_IN | EVENT_OUT`. -/
def Wanted (flags : UInt32) : Prop :=
  flags = EVENT_IN ∨ flags = EVENT_OUT ∨ flags = EVENT_IN ||| EVENT_OUT

/-! ## The kernel's side -/

/-- `struct epoll_event`, whose data is the address of a record. -/
structure EpollEvent where
  events : UInt32
  ptr : Nat
  deriving DecidableEq, Repr

/-- The interest list of an epoll instance: what is registered for each descriptor. -/
abbrev Interest := Int → Option EpollEvent

/-- The operations of `epoll_ctl`. -/
inductive CtlOp where
  | add
  | mod
  | del
  deriving DecidableEq, Repr

/-- Adding takes a descriptor that is not registered, the other two take one that is. -/
def CtlOp.takes : CtlOp → Bool → Bool
  | .add, registered => !registered
  | .mod, registered => registered
  | .del, registered => registered

/-- What is registered afterwards. -/
def CtlOp.leaves (ee : EpollEvent) : CtlOp → Option EpollEvent
  | .add => some ee
  | .mod => some ee
  | .del => none

/-- `epoll_ctl`, which may also fail for an outside reason. -/
def epollCtl (interest : Interest) (fine : Bool) (op : CtlOp) (fd : Int) (ee : EpollEvent) :
    Int × Interest :=
  if op.takes (interest fd).isSome && fine then
    (0, Function.update interest fd (op.leaves ee))
  else (-1, interest)

/-- What the outside decides in a call: whether `malloc` finds memory, and whether `epoll_ctl`
is spared an outside failure. -/
structure Outside where
  mem : Bool
  ctl : Bool
  deriving DecidableEq, Repr

/-! ## Records and the loop -/

section Loop

variable {φ δ : Type}

/-- `struct event`, where `φ` names the functions and `δ` what their data points to. -/
structure Event (φ δ : Type) where
  fd : Int
  flags : UInt32
  sendFn : Option φ
  recvFn : Option φ
  sendData : Option δ
  recvData : Option δ
  deriving DecidableEq, Repr

/-- `event_new`, where there is memory. -/
def eventNew (fd : Int) : Event φ δ where
  fd := fd
  flags := EVENT_NONE
  sendFn := none
  recvFn := none
  sendData := none
  recvData := none

/-- A record in memory. `event_free` leaves the mark. -/
structure Record (φ δ : Type) where
  event : Event φ δ
  removed : Bool

/-- `struct event_loop` with the memory of its records and the interest list behind `epfd`.
Memory from `fresh` on has not been given out yet. -/
structure EventLoop (φ δ : Type) where
  events : Int → Option Nat
  stop : Bool
  records : Nat → Record φ δ
  fresh : Nat
  interest : Interest

/-- `event_loop_new`. -/
def eventLoopNew : EventLoop φ δ where
  events := fun _ => none
  stop := false
  records := fun _ => ⟨eventNew 0, true⟩
  fresh := 0
  interest := fun _ => none

namespace EventLoop

/-- `find_event`: the address of the record for a descriptor. -/
def findEvent (loop : EventLoop φ δ) (fd : Int) : Option Nat := loop.events fd

/-- Write to a record that is in use. -/
def put (loop : EventLoop φ δ) (p : Nat) (e : Event φ δ) : EventLoop φ δ :=
  { loop with records := Function.update loop.records p ⟨e, false⟩ }

/-- Put a new record into the tree. -/
def insert (loop : EventLoop φ δ) (fd : Int) : EventLoop φ δ :=
  { loop.put loop.fresh (eventNew fd) with
    events := Function.update loop.events fd (some loop.fresh)
    fresh := loop.fresh + 1 }

/-- Take a record out of the tree and free it. -/
def remove (loop : EventLoop φ δ) (p : Nat) : EventLoop φ δ :=
  { loop with
    events := Function.update loop.events (loop.records p).event.fd none
    records := Function.update loop.records p ⟨(loop.records p).event, true⟩ }

end EventLoop

/-! ## `event_add` -/

/-- The record with new callbacks for the flags that are set. -/
def Event.withCallback (e : Event φ δ) (flags : UInt32) (fn : Option φ) (data : Option δ) :
    Event φ δ :=
  let e := if hasEvent flags EVENT_IN then { e with recvFn := fn, recvData := data } else e
  if hasEvent flags EVENT_OUT then { e with sendFn := fn, sendData := data } else e

/-- The first part of `event_add`: the record of the descriptor, a new one if there is none and
memory for it. -/
def EventLoop.recordFor (loop : EventLoop φ δ) (fd : Int) (mem : Bool) :
    Option (Nat × EventLoop φ δ) :=
  match loop.findEvent fd with
  | some p => some (p, loop)
  | none => if mem then some (loop.fresh, loop.insert fd) else none

/-- `event_add`. The record is changed before the kernel is asked. -/
def eventAdd (loop : EventLoop φ δ) (fd : Int) (flags : UInt32) (fn : Option φ)
    (data : Option δ) (out : Outside) : Int × EventLoop φ δ :=
  match loop.recordFor fd out.mem with
  | none => (-1, loop)
  | some (p, loop) =>
    let e := (loop.records p).event.withCallback flags fn data
    let op := if e.flags = EVENT_NONE then CtlOp.add else CtlOp.mod
    let e := { e with flags := e.flags ||| flags }
    let (r, interest) := epollCtl loop.interest out.ctl op fd ⟨epollMask e.flags, p⟩
    let loop := { loop.put p e with interest := interest }
    if r ≠ 0 then (-1, loop) else (0, loop)

/-! ## `event_delete` -/

/-- `event_delete`. -/
def eventDelete (loop : EventLoop φ δ) (fd : Int) (flags : UInt32) (out : Outside) :
    Int × EventLoop φ δ :=
  match loop.findEvent fd with
  | none => (-1, loop)
  | some p =>
    let e := (loop.records p).event
    let e := { e with flags := e.flags &&& ~~~flags }
    let op := if e.flags = EVENT_NONE then CtlOp.del else CtlOp.mod
    let (r, interest) := epollCtl loop.interest out.ctl op fd ⟨epollMask e.flags, p⟩
    let loop := { loop.put p e with interest := interest }
    if r ≠ 0 then (-1, loop)
    else if e.flags = 0 then (0, loop.remove p)
    else (0, loop)

/-- `event_stop`. -/
def eventStop (loop : EventLoop φ δ) : EventLoop φ δ := { loop with stop := true }

/-- The calls that change what the application listens to. -/
inductive Request (φ δ : Type) where
  | add (fd : Int) (flags : UInt32) (fn : Option φ) (data : Option δ)
  | delete (fd : Int) (flags : UInt32)
  deriving DecidableEq, Repr

/-- The result of a call and the loop that it leaves. -/
def Request.code (loop : EventLoop φ δ) (out : Outside) : Request φ δ → Int × EventLoop φ δ
  | .add fd flags fn data => eventAdd loop fd flags fn data out
  | .delete fd flags => eventDelete loop fd flags out

end Loop

end Yamux.Epoll
