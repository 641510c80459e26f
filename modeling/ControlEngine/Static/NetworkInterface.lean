import ControlEngine.System.Client

/-!
# The network interface

`NetworkInterface` keeps the list of the network descriptions.  The controllers fetch the
index of a description under a mutex: each kind of controller takes the first description
that no controller of its kind is attached to, and `fetchNetworkDescription` looks one up
by its text.  A fetch that finds nothing throws, and leaves the mutex locked.

The end point of a description is kept twice, in the description and in its socket client.
`setNetworkIndexAddress` and `setNetworkIndexPort` write the first, and
`buildInternalSocketAddress` reads the second.
-/

namespace ControlEngine

/-- A socket client: its end point, the port in its `internalSocketAddress` once that was
written, and what the threads share of it. -/
structure TcpSocketClient where
  hostAddress : List Byte
  hostPort : ℤ
  sin_port : Option (BitVec 16)
  client : Client

/-- The constructor of `TcpSocketClient`. -/
def TcpSocketClient.new (addr : List Byte) (port : ℤ) : TcpSocketClient where
  hostAddress := addr
  hostPort := port
  sin_port := none
  client := Client.start

/-- A network description.  Its write buffer is part of the `Client`. -/
structure NetworkDescription where
  hostAddress : List Byte
  description : List Byte
  hostPort : ℤ
  useTcpSock : Bool
  socketServerClientFlag : Bool
  connectionControllerAttached : Bool
  writerControllerAttached : Bool
  readerControllerAttached : Bool
  executerControllerAttached : Bool
  socketClient : TcpSocketClient

/-- The constructor of `NetworkDescription`. -/
def NetworkDescription.new (hA : List Byte) (hP : ℤ) (desc : List Byte) (sTF sSCF : Bool) :
    NetworkDescription where
  hostAddress := hA
  description := desc
  hostPort := hP
  useTcpSock := sTF
  socketServerClientFlag := sSCF
  connectionControllerAttached := false
  writerControllerAttached := false
  readerControllerAttached := false
  executerControllerAttached := false
  socketClient := TcpSocketClient.new hA hP

/-- One entry of the configuration of the interface. -/
structure NetworkSettings where
  address : List Byte
  port : ℤ
  description : List Byte
  protocal : List Byte
  connectionType : List Byte
deriving DecidableEq, Repr

/-- `NetworkInterface`; `getDescriptionMutex` says whether the mutex is locked. -/
structure NetworkInterface where
  networkList : List NetworkDescription
  getDescriptionMutex : Bool

namespace NetworkInterface

/-- `iniNetworkInterface` on a new interface. -/
def iniNetworkInterface (settings : List NetworkSettings) : NetworkInterface where
  networkList := settings.map fun entry =>
    NetworkDescription.new entry.address entry.port entry.description
      (entry.protocal = [84, 67, 80]) (entry.connectionType = [83, 101, 114, 118, 101, 114])
  getDescriptionMutex := false

/-! ## Fetching an index -/

/-- `_FATAL_NETWORK_DESCRIPTION_FETCH`. -/
def FATAL_NETWORK_DESCRIPTION_FETCH : String :=
  " *** The NetworkInterface was unable to find a NetworkDescription for get() ***"

/-- `return i`, where `i` is a `size_t` and the result an `int`. -/
def returnedIndex (i : ℕ) : ℤ := (BitVec.ofNat 32 i).toInt

/-- The loop of the four fetches: the first description that is wanted is attached, and its
index returned.  While the mutex is locked the call blocks. -/
def fetch (wanted : NetworkDescription → Bool)
    (attach : NetworkDescription → NetworkDescription) (n : NetworkInterface) :
    Option (Except Thrown ℤ × NetworkInterface) :=
  if n.getDescriptionMutex then none
  else
    match n.networkList.findIdx? wanted with
    | some i => some (.ok (returnedIndex i),
        { n with networkList := n.networkList.modify i attach })
    -- the mutex is not unlocked before the throw
    | none => some (.error (.literal FATAL_NETWORK_DESCRIPTION_FETCH),
        { n with getDescriptionMutex := true })

def fetchNetworkDescriptionConnectionController (n : NetworkInterface) :
    Option (Except Thrown ℤ × NetworkInterface) :=
  n.fetch (fun d => !d.connectionControllerAttached)
    fun d => { d with connectionControllerAttached := true }

def fetchNetworkDescriptionWriterController (n : NetworkInterface) :
    Option (Except Thrown ℤ × NetworkInterface) :=
  n.fetch (fun d => !d.writerControllerAttached)
    fun d => { d with writerControllerAttached := true }

def fetchNetworkDescriptionReaderController (n : NetworkInterface) :
    Option (Except Thrown ℤ × NetworkInterface) :=
  n.fetch (fun d => !d.readerControllerAttached)
    fun d => { d with readerControllerAttached := true }

def fetchNetworkDescription (desc : List Byte) (n : NetworkInterface) :
    Option (Except Thrown ℤ × NetworkInterface) :=
  n.fetch (fun d => d.description = desc) fun d => { d with executerControllerAttached := true }

/-! ## Changing an end point -/

/-- `restartNetwork`, which calls `closeSocket`; an index that is out of range is none. -/
def restartNetwork (i : ℕ) (n : NetworkInterface) : Option NetworkInterface :=
  if i < n.networkList.length then
    some { n with
      networkList := n.networkList.modify i fun d =>
        let c := d.socketClient.client
        { d with
          socketClient.client := (c.after (.setConnectionStatus false)).after
            (.close c.socketObject (c.descriptors c.socketObject)) } }
  else
    none

/-- `setNetworkIndexAddress`. -/
def setNetworkIndexAddress (addr : List Byte) (i : ℕ) (n : NetworkInterface) :
    Option NetworkInterface :=
  restartNetwork i
    { n with networkList := n.networkList.modify i fun d => { d with hostAddress := addr } }

/-- `setNetworkIndexPort`. -/
def setNetworkIndexPort (port : ℤ) (i : ℕ) (n : NetworkInterface) : Option NetworkInterface :=
  restartNetwork i
    { n with networkList := n.networkList.modify i fun d => { d with hostPort := port } }

end NetworkInterface

/-- `htons`, of an `int`: the port that its result stands for. -/
def htons (port : ℤ) : BitVec 16 := BitVec.ofInt 16 port

/-- `buildInternalSocketAddress`, for the result of its `setsockopt`. -/
def TcpSocketClient.buildInternalSocketAddress (setsockopt : ℤ) (t : TcpSocketClient) :
    ℤ × TcpSocketClient :=
  if setsockopt = -1 then (1, t) else (0, { t with sin_port := some (htons t.hostPort) })

end ControlEngine
