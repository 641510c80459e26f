import ControlEngine.Socket.TcpMessage
import ControlEngine.Socket.ReadData
import Mathlib.Logic.Function.Basic

/-!
# One client and the steps that its threads take on it

Several threads work on one `TcpSocketClient`: the controllers of the connection,
of the writer and of the reader, and whoever calls `restartNetwork`.  Each read or
write of `connectionStatus` and `socketObject`, each system call and each operation
on the queue or the mutex is one `Event`.  `Client` is what the threads share,
together with the part of the kernel's table of descriptors that belongs to this
client, and `after` is the effect of an event on it.

A descriptor is a number.  The kernel hands out numbers again that were closed, so
the table maps each open number to the socket object behind it, and every object
has a number of its own.  Reads of `socketObject` for a log text change nothing
and are left out.
-/

namespace ControlEngine

/-- A file descriptor, or the `-1` of a failed call. -/
abbrev Fd := ℤ

/-- The threads that work on one client. -/
inductive Tid
  | controller
  | writer
  | reader
  | restart (i : ℕ)
deriving DecidableEq, Repr

/-- What a call of `send` transmits: a field of a frame, or the text of a ping. -/
inductive SendCall
  | frame (m : TcpMessage) (part : FramePart)
  | ping
deriving DecidableEq, Repr

/-- The calls that prepare a new socket. -/
inductive SetupCall
  | F_GETFL
  | F_SETFL
  | setsockopt
  | bind
  | listen
deriving DecidableEq, Repr

/-- One step of a thread, as the others can notice it. -/
inductive Event
  /-- A read that decides about a branch. -/
  | look
  | setConnectionStatus (value : Bool)
  /-- `socketObject` is read, as the argument of a call other than `close`. -/
  | useSocketObject
  /-- `socketObject` is read, as the argument of `close`. -/
  | takeSocketObject
  | assignSocketObject (fd : Fd)
  | close (fd : Fd) (object : Option ℕ)
  | socket (fd : Fd) (object : ℕ)
  | socketFailed
  | accept (listener : Option ℕ) (fd : Fd) (object : ℕ)
  | acceptFailed (listener : Option ℕ)
  | setup (call : SetupCall) (object : Option ℕ) (result : ℤ)
  | push (m : TcpMessage)
  | pop (m : TcpMessage)
  | lock
  | send (call : SendCall) (object : Option ℕ) (bytes : List Byte) (result : ℤ)
  /-- `sendMutex` is unlocked, and `sendData` returns. -/
  | unlock (m : TcpMessage) (result : ℤ)
  | enterReadData
  | recv (object : Option ℕ) (result : RecvResult)
deriving DecidableEq, Repr

/-- What the threads share.  `descriptors` are the open descriptors that `socket`
and `accept` returned to this client, and `created` counts the objects. -/
structure Client where
  connectionStatus : Bool
  socketObject : Fd
  sendMutex : Option Tid
  writeBuffer : List TcpMessage
  descriptors : Fd → Option ℕ
  created : ℕ

/-- The client that a `NetworkDescription` starts with. -/
def Client.start : Client where
  connectionStatus := false
  socketObject := 0
  sendMutex := none
  writeBuffer := []
  descriptors _ := none
  created := 0

/-- The effect of an event. -/
def Client.after (c : Client) : Event → Client
  | .setConnectionStatus value => { c with connectionStatus := value }
  | .assignSocketObject fd => { c with socketObject := fd }
  | .close fd _ => { c with descriptors := Function.update c.descriptors fd none }
  | .socket fd object =>
      { c with
        descriptors := Function.update c.descriptors fd (some object)
        created := c.created + 1 }
  | .accept _ fd object =>
      { c with
        descriptors := Function.update c.descriptors fd (some object)
        created := c.created + 1 }
  | .push m => { c with writeBuffer := c.writeBuffer ++ [m] }
  | .pop _ => { c with writeBuffer := c.writeBuffer.tail }
  | .lock => { c with sendMutex := some .writer }
  | .unlock _ _ => { c with sendMutex := none }
  | .look | .useSocketObject | .takeSocketObject | .socketFailed | .acceptFailed _
  | .setup _ _ _ | .send _ _ _ _ | .enterReadData | .recv _ _ => c

/-- `Queue::size`, an `int`.  It takes no lock; that what it reads is the length of the queue at
one moment is assumed where the threads call it. -/
def queueSize (queue : List TcpMessage) : ℤ := (BitVec.ofNat 32 queue.length).toInt

/-! ## `closeSocket` -/

/-- The points of a call of `closeSocket`. -/
inductive ClosePc
  | clear
  | fetch
  | close (fd : Fd)
deriving DecidableEq, Repr

/-- One step of `closeSocket`, and where it stands afterwards, if it has not
returned. -/
def closeSocket (c : Client) : ClosePc → Event × Option ClosePc
  | .clear => (.setConnectionStatus false, some .fetch)
  | .fetch => (.takeSocketObject, some (.close c.socketObject))
  | .close fd => (.close fd (c.descriptors fd), none)

/-- Some steps of a call of `closeSocket`, one after the other. -/
def Client.closeFrom (c : Client) : ℕ → Option ClosePc → Client × Option ClosePc
  | steps + 1, some pc => (c.after (closeSocket c pc).1).closeFrom steps (closeSocket c pc).2
  | _, pc => (c, pc)

/-- `closeSocket`, when no other thread interferes. -/
def Client.closeSocket (c : Client) : Client :=
  { c with
    connectionStatus := false
    descriptors := Function.update c.descriptors c.socketObject none }

theorem Client.closeFrom_clear (c : Client) :
    c.closeFrom 3 (some .clear) = (c.closeSocket, none) :=
  rfl

end ControlEngine
