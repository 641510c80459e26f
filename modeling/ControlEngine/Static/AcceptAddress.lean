import ControlEngine.Static.NetworkInterface
import ControlEngine.Support.Block

/-!
# The address length that is handed to `accept`

`acceptSocket` passes `internalSocketAddress` to `accept` twice: as the place for the
address of the peer, and, under a cast, as the place of its length.  The length is
therefore the number in the first four bytes of the address, which are the family and the
port.  The port stands there in network order, so its low-order byte is the most
significant one of the length, with the sign bit.

`accept` itself is a parameter that carries its contract with it.  The machine is little
endian.
-/

namespace ControlEngine

/-- `struct sockaddr_in`, byte by byte: the family, the port in network order, the address
and the padding. -/
structure SockaddrIn where
  bytes : List Byte
  size : bytes.length = 16
deriving DecidableEq

/-- Some bytes of the structure are overwritten. -/
def SockaddrIn.write (address : SockaddrIn) (offset : ℕ) (cells : List Byte) : SockaddrIn where
  bytes := store address.bytes offset cells
  size := by rw [length_store, address.size]

/-- The `int` that is read where the structure begins. -/
def SockaddrIn.firstInt (address : SockaddrIn) : ℤ :=
  (ByteOrder.little.decode 32 (address.bytes.take 4)).toInt

def AF_INET : BitVec 16 := 2

def INADDR_ANY : BitVec 32 := 0

/-- A client that waits for its connection to be accepted: the descriptor that the
connection gets, and the address of the client. -/
structure PendingClient where
  fd : ℕ
  address : SockaddrIn
deriving DecidableEq

/-- `accept`, for the structure it is given, the length it finds, and the first client that
waits: the returned value and the structure afterwards.  It fails with `EINVAL` for a
negative length, and when nobody waits; a call that fails writes nothing. -/
structure AcceptCall where
  accept : SockaddrIn → ℤ → Option PendingClient → Fd × SockaddrIn
  invalid : ∀ {address length pending}, length < 0 →
    accept address length pending = (-1, address)
  nobody : ∀ {address length}, accept address length none = (-1, address)
  accepts : ∀ {address length client}, 0 ≤ length →
    (accept address length (some client)).1 = client.fd

/-- An `accept` that writes the address of the client, as much of it as fits, and then its
length. -/
def AcceptCall.plain : AcceptCall where
  accept address length pending :=
    match pending with
    | none => (-1, address)
    | some client =>
        if length < 0 then (-1, address)
        else
          (client.fd, (address.write 0 (client.address.bytes.take length.toNat)).write 0
            (ByteOrder.little.encode 4 (16 : BitVec 32)))
  invalid := by
    intro address length pending hlength
    cases pending with
    | none => rfl
    | some client => simp [hlength]
  nobody := rfl
  accepts := by
    intro address length client hlength
    simp [not_lt.mpr hlength]

/-- A socket client that serves a port. -/
structure ServerSocket where
  hostPort : ℤ
  internalSocketAddress : SockaddrIn
  socketObject : Fd
  connectionStatus : Bool

/-- An attempt to accept a connection: who waits, the length that `accept` was given, and
the result of `acceptSocket`. -/
structure AcceptAttempt where
  pending : Option PendingClient
  length : ℤ
  result : ℤ
deriving DecidableEq

namespace ServerSocket

/-- `buildInternalSocketAddress` behind a `setsockopt` that has succeeded. -/
def buildInternalSocketAddress (s : ServerSocket) : ServerSocket :=
  let sin_family := ByteOrder.little.encode 2 AF_INET
  let sin_addr := ByteOrder.little.encode 4 INADDR_ANY
  let sin_port := ByteOrder.big.encode 2 (htons s.hostPort)
  { s with
    internalSocketAddress :=
      ((s.internalSocketAddress.write 0 sin_family).write 4 sin_addr).write 2 sin_port }

/-- `acceptSocket`: its result, and the client afterwards. -/
def acceptSocket (k : AcceptCall) (s : ServerSocket) (pending : Option PendingClient) :
    ℤ × ServerSocket :=
  let (tempSocketObject, address) :=
    k.accept s.internalSocketAddress s.internalSocketAddress.firstInt pending
  if tempSocketObject = -1 then
    (1, { s with internalSocketAddress := address })
  else
    (0, { s with
      internalSocketAddress := address
      socketObject := tempSocketObject
      connectionStatus := true })

/-- The attempts of one build cycle: `TO_CONNECT` tries again until a connection is
accepted. -/
def attempts (k : AcceptCall) (s : ServerSocket) :
    List (Option PendingClient) → List AcceptAttempt × ServerSocket
  | [] => ([], s)
  | pending :: later =>
      let (result, s') := s.acceptSocket k pending
      let attempt := ⟨pending, s.internalSocketAddress.firstInt, result⟩
      if result = 0 then
        ([attempt], s')
      else
        let (more, last) := s'.attempts k later
        (attempt :: more, last)

/-- The attempts of any number of build cycles, each of which builds the address anew. -/
def buildCycles (k : AcceptCall) (s : ServerSocket) :
    List (List (Option PendingClient)) → List AcceptAttempt
  | [] => []
  | cycle :: later =>
      let (made, s') := s.buildInternalSocketAddress.attempts k cycle
      made ++ s'.buildCycles k later

end ServerSocket

/-- The length is a valid one, and a client that waits is accepted. -/
def AcceptAttempt.Valid (attempt : AcceptAttempt) : Prop :=
  0 ≤ attempt.length ∧ (attempt.pending.isSome → attempt.result = 0)

/-! ## The length -/

variable {k : AcceptCall} {s : ServerSocket}

theorem take_four_buildInternalSocketAddress (s : ServerSocket) :
    s.buildInternalSocketAddress.internalSocketAddress.bytes.take 4 =
      [2, 0, UInt8.ofNat ((htons s.hostPort).toNat / 256), UInt8.ofNat (htons s.hostPort).toNat] := by
  obtain ⟨hostPort, ⟨bytes, hsize⟩, socketObject, connectionStatus⟩ := s
  match bytes, hsize with
  | _ :: _ :: _ :: _ :: rest, _ =>
      simp [ServerSocket.buildInternalSocketAddress, SockaddrIn.write, store, ByteOrder.encode,
        ByteOrder.bytesOf, littleEndian, AF_INET]

/-- The port in the structure is the one that a description's client keeps. -/
theorem sin_port_buildInternalSocketAddress {t : TcpSocketClient} (hport : t.hostPort = s.hostPort) :
    (t.buildInternalSocketAddress 0).2.sin_port =
      some (ByteOrder.big.decode 16
        ((s.buildInternalSocketAddress.internalSocketAddress.bytes.drop 2).take 2)) := by
  have hbytes : (s.buildInternalSocketAddress.internalSocketAddress.bytes.drop 2).take 2 =
      ByteOrder.big.encode 2 (htons s.hostPort) := by
    rw [List.take_drop, take_four_buildInternalSocketAddress]
    rfl
  have hdecode : ByteOrder.big.decode 16 (ByteOrder.big.encode 2 (htons s.hostPort)) =
      htons s.hostPort := ByteOrder.big.decode_encode rfl _
  rw [hbytes, hdecode, ← hport]
  rfl

/-- The low-order byte of the port carries the sign of the length. -/
theorem firstInt_buildInternalSocketAddress_nonneg_iff (s : ServerSocket) :
    0 ≤ s.buildInternalSocketAddress.internalSocketAddress.firstInt ↔ s.hostPort % 256 < 128 := by
  have hport : (htons s.hostPort).toNat = (s.hostPort % 65536).toNat := by
    rw [htons, BitVec.toNat_ofInt]
    rfl
  have hlow : (((s.hostPort % 65536).toNat % 256 : ℕ) : ℤ) = s.hostPort % 256 := by omega
  have hhigh : (s.hostPort % 65536).toNat / 256 < 256 := by omega
  rw [SockaddrIn.firstInt, take_four_buildInternalSocketAddress, hport, ByteOrder.decode,
    BitVec.toInt_eq_toNat_cond, BitVec.toNat_ofNat]
  simp only [ByteOrder.valueOf, ofLittleEndian_cons, ofLittleEndian_nil, UInt8.toNat_ofNat',
    UInt8.reduceToNat, Nat.reducePow]
  generalize (s.hostPort % 65536).toNat / 256 = high at hhigh
  generalize (s.hostPort % 65536).toNat % 256 = low at hlow
  rw [← hlow]
  omega

/-! ## The attempts -/

theorem acceptSocket_fails {pending : Option PendingClient}
    (hfails : s.internalSocketAddress.firstInt < 0 ∨ pending = none) :
    s.acceptSocket k pending = (1, s) := by
  have haccept : k.accept s.internalSocketAddress s.internalSocketAddress.firstInt pending =
      (-1, s.internalSocketAddress) := by
    rcases hfails with hnegative | rfl
    · exact k.invalid hnegative
    · exact k.nobody
  simp [ServerSocket.acceptSocket, haccept]

theorem acceptSocket_succeeds {client : PendingClient}
    (hlength : 0 ≤ s.internalSocketAddress.firstInt) :
    (s.acceptSocket k (some client)).1 = 0 := by
  have hfd : (k.accept s.internalSocketAddress s.internalSocketAddress.firstInt
      (some client)).1 ≠ -1 := by
    rw [k.accepts hlength]
    intro hminus
    have hnonneg : (0 : ℤ) ≤ client.fd := Int.natCast_nonneg client.fd
    rw [hminus] at hnonneg
    cases hnonneg
  simp [ServerSocket.acceptSocket, hfd]

theorem hostPort_acceptSocket (s : ServerSocket) (pending : Option PendingClient) :
    (s.acceptSocket k pending).2.hostPort = s.hostPort := by
  simp only [ServerSocket.acceptSocket]
  split <;> rfl

theorem hostPort_attempts (s : ServerSocket) (cycle : List (Option PendingClient)) :
    (s.attempts k cycle).2.hostPort = s.hostPort := by
  induction cycle generalizing s with
  | nil => rfl
  | cons pending later ih =>
      simp only [ServerSocket.attempts]
      split
      · exact hostPort_acceptSocket s pending
      · rw [ih, hostPort_acceptSocket]

/-- Every attempt of a cycle is made with the length that stands in the address at its
beginning. -/
theorem valid_iff_of_mem_attempts {cycle : List (Option PendingClient)} {attempt : AcceptAttempt}
    (hmem : attempt ∈ (s.attempts k cycle).1) :
    attempt.Valid ↔ 0 ≤ s.internalSocketAddress.firstInt := by
  induction cycle generalizing s with
  | nil => cases hmem
  | cons pending later ih =>
      simp only [ServerSocket.attempts] at hmem
      by_cases hfails : s.internalSocketAddress.firstInt < 0 ∨ pending = none
      · rw [acceptSocket_fails hfails] at hmem
        rcases List.mem_cons.mp hmem with rfl | hlater
        · rcases hfails with hnegative | rfl
          · exact iff_of_false (fun hvalid => absurd hvalid.1 (not_le.mpr hnegative))
              (not_le.mpr hnegative)
          · simp [AcceptAttempt.Valid]
        · exact ih hlater
      · rw [not_or, not_lt] at hfails
        obtain ⟨hlength, hsome⟩ := hfails
        obtain ⟨client, rfl⟩ := Option.ne_none_iff_exists'.mp hsome
        have hresult : (s.acceptSocket k (some client)).1 = 0 := acceptSocket_succeeds hlength
        simp only [hresult, if_true] at hmem
        rw [List.mem_singleton.mp hmem]
        exact iff_of_true ⟨hlength, fun _ => rfl⟩ hlength

/-- In every build cycle, whatever the structure held before and whoever waits when, an
attempt to accept is made with a valid length and accepts the client that waits exactly
when the low-order byte of the port is below 128. -/
theorem valid_iff_of_mem_buildCycles {cycles : List (List (Option PendingClient))}
    {attempt : AcceptAttempt} (hmem : attempt ∈ s.buildCycles k cycles) :
    attempt.Valid ↔ s.hostPort % 256 < 128 := by
  induction cycles generalizing s with
  | nil => cases hmem
  | cons cycle later ih =>
      simp only [ServerSocket.buildCycles] at hmem
      rcases List.mem_append.mp hmem with hnow | hlater
      · rw [valid_iff_of_mem_attempts hnow, firstInt_buildInternalSocketAddress_nonneg_iff]
      · rw [ih hlater, hostPort_attempts]
        rfl

/-- A client that serves a port, with a structure that holds zeros. -/
def servesPort (hostPort : ℤ) : ServerSocket where
  hostPort := hostPort
  internalSocketAddress := ⟨List.replicate 16 0, rfl⟩
  socketObject := 3
  connectionStatus := false

/-- A client that waits. -/
def someClient : PendingClient where
  fd := 4
  address := ⟨List.replicate 16 1, rfl⟩

/-- On port 7225 the second attempt finds a client and accepts it. -/
theorem valid_7225 : (⟨some someClient, 958136322, 0⟩ : AcceptAttempt).Valid := by
  have hmem : (⟨some someClient, 958136322, 0⟩ : AcceptAttempt) ∈
      (servesPort 7225).buildCycles AcceptCall.plain [[none, some someClient]] := by decide
  exact (valid_iff_of_mem_buildCycles hmem).mpr (by decide)

/-- On port 8080 the length is negative, and the client that waits is not accepted. -/
theorem not_valid_8080 :
    ∃ attempt ∈ (servesPort 8080).buildCycles AcceptCall.plain [[some someClient]],
      attempt.pending.isSome ∧ attempt.length < 0 ∧ attempt.result = 1 ∧ ¬ attempt.Valid := by
  refine ⟨⟨some someClient, -1877016574, 1⟩, by decide, rfl, by decide, rfl, ?_⟩
  rintro ⟨hlength, -⟩
  exact absurd hlength (by decide)

end ControlEngine
