import ControlEngine.System.Client

/-!
# The threads

Each thread is a program counter and the local variables that are alive there.  A
step of a thread reads the client, may depend on the outcome of a system call, and
is one `Event`; it is impossible where the thread blocks or where a call cannot
have that outcome.  `closeSocket` is called in three of the threads, and by
`restartNetwork` on whatever thread calls that.

The reader stops when `readData` throws; `ThreadOrchestrator` may start it again.
Sleeping, the log and the `catch` clauses that nothing reaches are left out.
-/

namespace ControlEngine

/-- What a system call, or the memory of an uninitialised variable, contributes to
a step. -/
inductive Outcome
  | plain
  | returns (n : ℤ)
  | receives (result : RecvResult)
  | holds (messageSize : BitVec 64) (messageType : BitVec 32)
deriving DecidableEq, Repr

/-- The parameters of the system: the allocator, the order of bytes in a word, and
the `Auto-Reconnect` flag. -/
structure Environment where
  alloc : Allocator
  order : ByteOrder
  autoReconnect : Bool

/-! ## The writer -/

/-- `NetworkWriterController::startThread` and the `sendData` that it calls. -/
inductive WriterPc
  | pollStatus
  | pollSize
  | pop
  | enter (m : TcpMessage)
  | lock (m : TcpMessage)
  | fetch (m : TcpMessage) (part : FramePart)
  | send (m : TcpMessage) (part : FramePart) (fd : Fd)
  | failing (m : TcpMessage) (pc : ClosePc)
  | unlock (m : TcpMessage) (result : ℤ)
deriving DecidableEq, Repr

/-- Behind a successful `send` of a part. -/
def WriterPc.afterSend (m : TcpMessage) (n : ℤ) : FramePart → WriterPc
  | .size => .fetch m .type
  | .type => .fetch m .payload
  | .payload => .unlock m n

/-- A step of the writer.  The branch of `sendData` that finds the client not
connected unlocks the mutex without having locked it. -/
def writerStep (env : Environment) (c : Client) :
    WriterPc → Outcome → Option (Event × WriterPc)
  | .pollStatus, .plain => some (.look, if c.connectionStatus then .pollSize else .pollStatus)
  | .pollSize, .plain => some (.look, if queueSize c.writeBuffer > 0 then .pop else .pollStatus)
  | .pop, .plain => c.writeBuffer.head?.map fun m => (.pop m, .enter m)
  | .enter m, .plain => some (.look, if c.connectionStatus then .lock m else .unlock m (-1))
  | .lock m, .plain => if c.sendMutex = none then some (.lock, .fetch m .size) else none
  | .fetch m part, .plain => some (.useSocketObject, .send m part c.socketObject)
  | .send m part fd, .returns n =>
      if -1 ≤ n ∧ n ≤ (m.partBytes env.order part).length then
        some (.send (.frame m part) (c.descriptors fd) (m.partBytes env.order part) n,
          if n = -1 then .failing m .clear else WriterPc.afterSend m n part)
      else
        none
  | .failing m pc, .plain =>
      some ((closeSocket c pc).1, (closeSocket c pc).2.elim (.unlock m (-1)) (.failing m))
  | .unlock m result, .plain => some (.unlock m result, .pollStatus)
  | _, _ => none

/-! ## The reader -/

/-- `NetworkReaderController::startThread` and the `readData` that it calls. -/
inductive ReaderPc
  | poll
  | enter
  | fetch (f : ReadFrame)
  | recv (f : ReadFrame) (fd : Fd)
  | failing (what : String) (pc : ClosePc)
  | exited
  | terminated
deriving DecidableEq, Repr

/-- Where the reader stands for a state of `readData`. -/
def ReaderPc.ofProgress : ReadProgress → ReaderPc
  | .receiving f => .fetch f
  | .returned _ => .poll
  | .failed what _ => .failing what .clear
  | .escaped (.exception _) _ => .exited
  | .escaped (.literal _) _ => .terminated

/-- The results that `recv` can have for a request. -/
def RecvResult.fits (requested : ℕ) : RecvResult → Bool
  | .data chunk => chunk.length ≤ requested
  | .error => true

/-- A step of the reader. -/
def readerStep (env : Environment) (c : Client) :
    ReaderPc → Outcome → Option (Event × ReaderPc)
  | .poll, .plain => some (.look, if c.connectionStatus then .enter else .poll)
  | .enter, .holds messageSize messageType =>
      some (.enterReadData, ReaderPc.ofProgress
        (readData c.connectionStatus (TcpMessage.fresh messageSize messageType)))
  | .fetch f, .plain => some (.useSocketObject, .recv f c.socketObject)
  | .recv f fd, .receives result =>
      if result.fits f.requested then
        some (.recv (c.descriptors fd) result,
          ReaderPc.ofProgress (f.receive env.alloc env.order result))
      else
        none
  | .failing what pc, .plain =>
      some ((closeSocket c pc).1, (closeSocket c pc).2.elim .exited (.failing what))
  | .exited, .plain => some (.look, .poll)
  | _, _ => none

/-! ## The connection controller -/

/-- `NetworkConnectionControllerState`. -/
inductive NetworkConnectionControllerState
  | TO_BUILD
  | TO_CONNECT
  | CONNECTED
  | DISCONNECTED
deriving DecidableEq, Repr

/-- `NetworkConnectionController::startThread`: the loop, `createSocket` and the
calls that prepare the socket, `acceptSocket`, and `ping`. -/
inductive ControllerPc
  | testBuild (state : NetworkConnectionControllerState)
  | socket
  | storeSocket (fd : Fd)
  | setupFetch (call : SetupCall)
  | setup (call : SetupCall) (fd : Fd)
  | acceptFetch
  | accept (fd : Fd)
  | closeListenerFetch (tempSocketObject : Fd)
  | closeListener (tempSocketObject : Fd) (fd : Fd)
  | storeAccepted (tempSocketObject : Fd)
  | setStatus
  | testStatus (state : NetworkConnectionControllerState)
  | pingTest
  | pingFetch
  | pingSend (fd : Fd)
  | pingFailing (pc : ClosePc)
deriving DecidableEq, Repr

/-- The call that follows in the preparation of a socket. -/
def SetupCall.next : SetupCall → Option SetupCall
  | F_GETFL => some F_SETFL
  | F_SETFL => some setsockopt
  | setsockopt => some bind
  | bind => some listen
  | listen => none

/-- The text of a ping. -/
def pingBytes : List Byte := [112, 105, 110, 103]

/-- The end of the loop's body: a new build, if the flag asks for it. -/
def reconnect (env : Environment) (state : NetworkConnectionControllerState) :
    NetworkConnectionControllerState :=
  if env.autoReconnect ∧ state = .DISCONNECTED then .TO_BUILD else state

/-- A step of the connection controller. -/
def controllerStep (env : Environment) (c : Client) :
    ControllerPc → Outcome → Option (Event × ControllerPc)
  | .testBuild state, .plain =>
      some (.look,
        if c.connectionStatus = false ∧ state = .TO_BUILD then .socket
        else if state = .TO_CONNECT then .acceptFetch
        else .testStatus state)
  | .socket, .returns n =>
      if n = -1 then some (.socketFailed, .storeSocket (-1))
      else if 0 ≤ n ∧ c.descriptors n = none then some (.socket n c.created, .storeSocket n)
      else none
  | .storeSocket fd, .plain =>
      some (.assignSocketObject fd, .setupFetch (if fd < 0 then .setsockopt else .F_GETFL))
  | .setupFetch call, .plain => some (.useSocketObject, .setup call c.socketObject)
  | .setup call fd, .returns n =>
      some (.setup call (c.descriptors fd) n, call.next.elim .acceptFetch .setupFetch)
  | .acceptFetch, .plain => some (.useSocketObject, .accept c.socketObject)
  | .accept fd, .returns n =>
      if n = -1 then some (.acceptFailed (c.descriptors fd), .testStatus .TO_CONNECT)
      else if 0 ≤ n ∧ n ≠ fd ∧ c.descriptors n = none then
        some (.accept (c.descriptors fd) n c.created, .closeListenerFetch n)
      else none
  | .closeListenerFetch t, .plain => some (.takeSocketObject, .closeListener t c.socketObject)
  | .closeListener t fd, .plain => some (.close fd (c.descriptors fd), .storeAccepted t)
  | .storeAccepted t, .plain => some (.assignSocketObject t, .setStatus)
  | .setStatus, .plain => some (.setConnectionStatus true, .testStatus .CONNECTED)
  | .testStatus state, .plain =>
      some (.look,
        if state = .CONNECTED then
          if c.connectionStatus = false then .testBuild (reconnect env .DISCONNECTED)
          else .pingTest
        else .testBuild (reconnect env state))
  | .pingTest, .plain =>
      some (.look, if c.connectionStatus then .pingFetch else .testBuild .CONNECTED)
  | .pingFetch, .plain => some (.useSocketObject, .pingSend c.socketObject)
  | .pingSend fd, .returns n =>
      if -1 ≤ n ∧ n ≤ pingBytes.length then
        some (.send .ping (c.descriptors fd) pingBytes n,
          if n = -1 then .pingFailing .clear else .testBuild .CONNECTED)
      else
        none
  | .pingFailing pc, .plain =>
      some ((closeSocket c pc).1,
        (closeSocket c pc).2.elim (.testBuild .CONNECTED) .pingFailing)
  | _, _ => none

/-! ## `restartNetwork` -/

/-- A caller of `restartNetwork`, between its calls or inside one. -/
abbrev RestartPc := Option ClosePc

/-- A step of a caller of `restartNetwork`. -/
def restartStep (c : Client) : RestartPc → Outcome → Option (Event × RestartPc)
  | none, .plain => some (.look, some .clear)
  | some pc, .plain => some (closeSocket c pc)
  | _, _ => none

/-! ## All of them -/

/-- The program counters of a thread. -/
def Tid.Pc : Tid → Type
  | .controller => ControllerPc
  | .writer => WriterPc
  | .reader => ReaderPc
  | .restart _ => RestartPc

/-- A step of a thread. -/
def threadStep (env : Environment) (c : Client) :
    (t : Tid) → t.Pc → Outcome → Option (Event × t.Pc)
  | .controller => controllerStep env c
  | .writer => writerStep env c
  | .reader => readerStep env c
  | .restart _ => restartStep c

/-- Where a thread begins. -/
def Tid.start : (t : Tid) → t.Pc
  | .controller => .testBuild .TO_BUILD
  | .writer => .pollStatus
  | .reader => .poll
  | .restart _ => none

end ControlEngine
