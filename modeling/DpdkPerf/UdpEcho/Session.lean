import DpdkPerf.Machine.SlotMap
import Mathlib.Data.Finset.Insert

/-! The data the control handlers of udp-echo share: the session pool, the
hash from vpp handles to pool indices, and the messages of the event queue.
Addresses are 64-bit words and zero is the null pointer. -/
namespace DpdkPerf.UdpEcho

abbrev Address := UInt64

inductive ConnectionState where
  | start | attached | bound | ready | failed | disconnecting | detached
  deriving DecidableEq, Repr

/-- The end points of a session. An `ip46_address_t` is its sixteen bytes. -/
structure Transport where
  rmtIp : List UInt8 := []
  rmtPort : UInt16 := 0
  lclIp : List UInt8 := []
  lclPort : UInt16 := 0
  isIp4 : UInt8 := 0
  deriving DecidableEq, Repr

/-- The default values are what `clib_memset (session, 0, ...)` leaves. -/
structure AppSession where
  sessionIndex : Nat := 0
  rxFifo : Address := 0
  txFifo : Address := 0
  vppEvtQ : Address := 0
  isDgram : Bool := false
  transport : Transport := {}
  deriving DecidableEq, Repr

/-- The memory of a slot outlives the session in it: `pool_put` changes only
which slots are live, and the next `pool_get` of the slot finds the old
record there. -/
structure Pool where
  live : Finset Nat
  elt : Nat → AppSession

namespace Pool

def get (p : Pool) (slot : Nat) : Pool := { p with live := insert slot p.live }

def put (p : Pool) (slot : Nat) : Pool := { p with live := p.live.erase slot }

def set (p : Pool) (slot : Nat) (session : AppSession) : Pool :=
  { p with elt := Function.update p.elt slot session }

@[simp] theorem get_live (p : Pool) (slot : Nat) : (p.get slot).live = insert slot p.live := rfl
@[simp] theorem get_elt (p : Pool) (slot : Nat) : (p.get slot).elt = p.elt := rfl
@[simp] theorem put_live (p : Pool) (slot : Nat) : (p.put slot).live = p.live.erase slot := rfl
@[simp] theorem put_elt (p : Pool) (slot : Nat) : (p.put slot).elt = p.elt := rfl
@[simp] theorem set_live (p : Pool) (slot : Nat) (session : AppSession) :
    (p.set slot session).live = p.live := rfl
@[simp] theorem set_elt (p : Pool) (slot : Nat) (session : AppSession) :
    (p.set slot session).elt = Function.update p.elt slot session := rfl

end Pool

/-- What `unformat_uri` fills in when it accepts the text. -/
structure SessionEndpoint where
  ip : List UInt8
  port : UInt16
  isIp4 : UInt8
  deriving DecidableEq, Repr

structure SessionBoundMsg where
  retval : Int32
  rxFifo : Address
  txFifo : Address
  vppEvtQ : Address
  lclIp : List UInt8
  lclIsIp4 : UInt8
  lclPort : UInt16
  deriving DecidableEq, Repr

structure SessionAcceptedMsg where
  context : UInt32
  handle : UInt64
  serverRxFifo : Address
  serverTxFifo : Address
  vppEventQueueAddress : Address
  ip : List UInt8
  isIp4 : UInt8
  port : UInt16
  deriving DecidableEq, Repr

structure SessionConnectedMsg where
  retval : Int32
  serverRxFifo : Address
  serverTxFifo : Address
  vppEventQueueAddress : Address
  ctRxFifo : Address
  lclIp : List UInt8
  isIp4 : UInt8
  lclPort : UInt16
  deriving DecidableEq, Repr

structure SessionDisconnectedMsg where
  context : UInt32
  handle : UInt64
  deriving DecidableEq, Repr

/-- A control message of the event queue, by its event type. -/
inductive SessionEvent where
  | bound (mp : SessionBoundMsg)
  | accepted (mp : SessionAcceptedMsg)
  | connected (mp : SessionConnectedMsg)
  | disconnected (mp : SessionDisconnectedMsg)
  | unhandled (eventType : UInt8)
  deriving DecidableEq, Repr

inductive Reply where
  | accepted (handle : UInt64) (context : UInt32) (retval : Int32)
  | disconnected (handle : UInt64) (context : UInt32) (retval : Int32)
  deriving DecidableEq, Repr

/-- A reply together with the event queue it is posted to. Posting to the
null queue is recorded like any other; the program faults on it. -/
structure Post where
  queue : Address
  reply : Reply
  deriving DecidableEq, Repr

/-- The fields of `udp_echo_main_t` that the control handlers use, and
`clientSessionIndex`, the field of that name in the fifo at each address. -/
structure UdpEchoMain where
  sessions : Pool
  sessionIndexByVppHandles : AList fun _ : UInt64 => Nat
  connectUri : List UInt8
  isConnected : Bool
  vppEventQueue : Address
  cutThroughSessionIndex : Nat
  connectedSession : Nat
  state : ConnectionState
  clientSessionIndex : Address → Nat

/-- `~0` as a `u32`, the cut-through index that means there is none. -/
def noSession : Nat := 2 ^ 32 - 1

/-- No session and no handle. The memory behind the pool is arbitrary, as
the free slots may have been used before. -/
def UdpEchoMain.initial (isConnected : Bool) (connectUri : List UInt8)
    (memory : Nat → AppSession) (fifos : Address → Nat) : UdpEchoMain where
  sessions := ⟨∅, memory⟩
  sessionIndexByVppHandles := ∅
  connectUri := connectUri
  isConnected := isConnected
  vppEventQueue := 0
  cutThroughSessionIndex := noSession
  connectedSession := 0
  state := .start
  clientSessionIndex := fifos

end DpdkPerf.UdpEcho
