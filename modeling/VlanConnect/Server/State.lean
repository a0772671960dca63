/-
  VlanConnect/Server/State.lean
  =============================
  **The state of the signaling server** (`server/src/signal_server.h`,
  `ClientSession` of `server/src/room.h`) and its indexes.

  The server is a value that its functions pass along; a `ClientSession&` is
  the descriptor the session is filed under.  What the operating system
  decides (clock readings, random bytes, results of `send`, descriptors) is in
  `Env`, `clock` and `openFds`.  Clock readings are increments, so the clock
  never goes back.  Ids and times are natural numbers.

  The fields marked as history (`sent`, `rejected`, `authFrame`, `frames`,
  `written`, `dataFrames`, `dataWritten`, `log`, `published`, `shortfalls`) are
  written and never read by the code modelled here.
  Log texts and sampling, and the two sockets of the listener, are left out.
-/
import VlanConnect.Room
import VlanConnect.SecureFrame

namespace VlanConnect

abbrev Fd := Nat

/-- `sockaddr_in`: address and port. -/
abbrev SockAddr := Nat × Nat

/-! ### Sessions -/

structure ClientSession where
  tcpFd : Fd
  dataFd : Option Fd := none
  peerId : Nat := 0
  virtualIP : Nat := 0
  roomId : Nat := 0
  remoteIpv4 : Nat := 0
  udpAddr : SockAddr := (0, 0)
  udpAddrKnown : Bool := false
  name : Bytes := []
  recvBuf : Bytes := []
  sendBuf : Bytes := []
  dataRecvBuf : Bytes := []
  dataSendBuf : Bytes := []
  lastPing : Nat := 0
  dataLastPing : Nat := 0
  alive : Bool := true
  state : SessionState := .awaitHello
  serverAuthOk : Bool := false
  secureEnabled : Bool := false
  secureSessionId : Nat := 0
  clientNonce : Bytes := List.replicate 16 0
  serverNonce : Bytes := List.replicate 16 0
  clientPubKey : Bytes := List.replicate 32 0
  serverPrivKey : Bytes := List.replicate 32 0
  serverPubKey : Bytes := List.replicate 32 0
  secureMaster : Bytes := List.replicate 32 0
  secureCipher : SecureFrameCipher := {}
  dataCipher : SecureFrameCipher := {}
  udpCipher : SecureFrameCipher := {}
  helloDeadline : Nat := 0
  authDeadline : Nat := 0
  sendBudgetFailures : Nat := 0
  pendingJoinRoomId : Nat := 0
  authChallenge : Bytes := List.replicate 32 0
  resumeRoomId : Nat := 0
  resumePeerId : Nat := 0
  resumeToken : Bytes := List.replicate RECONNECT_TOKEN_SIZE 0
  /-- History: type and body of the messages put on the signaling stream. -/
  sent : List (UInt8 × Bytes) := []
  /-- History: the messages to this session that a send limit turned away. -/
  rejected : List (UInt8 × Bytes) := []
  /-- History: the payload of the SERVER_AUTH frame that was accepted, with the
      private key it was checked against. -/
  authFrame : Option (Bytes × Bytes) := none
  /-- History: the frames put on the signaling stream and on the data channel,
      and the bytes of them that `send` has taken. -/
  frames : List Bytes := []
  written : Bytes := []
  dataFrames : List Bytes := []
  dataWritten : Bytes := []
deriving DecidableEq

/-! ### Rate limits per address -/

structure TokenBucket where
  tokens : Rat := 0
  updated : Nat := 0
deriving DecidableEq

structure IpState where
  clients : Nat := 0
  pending : Nat := 0
  accepts : TokenBucket := {}
  authFailures : TokenBucket := {}
  creates : TokenBucket := {}
  roomPasswordFailures : TokenBucket := {}
  lastActivity : Nat := 0
deriving DecidableEq

/-- `TokenBucket IpState::*`. -/
inductive IpBucket where
  | accepts | authFailures | creates | roomPasswordFailures
deriving DecidableEq

def IpState.bucket (ip : IpState) : IpBucket → TokenBucket
  | .accepts => ip.accepts
  | .authFailures => ip.authFailures
  | .creates => ip.creates
  | .roomPasswordFailures => ip.roomPasswordFailures

def IpState.setBucket (ip : IpState) (b : TokenBucket) : IpBucket → IpState
  | .accepts => { ip with accepts := b }
  | .authFailures => { ip with authFailures := b }
  | .creates => { ip with creates := b }
  | .roomPasswordFailures => { ip with roomPasswordFailures := b }

structure ServerLimits where
  maxClients : Nat := 256
  maxPending : Nat := 64
  maxRooms : Nat := 128
  maxClientsPerIp : Nat := 32
  maxPendingPerIp : Nat := 8
  maxSendBufferBytes : Nat := 64 * 1024 * 1024
deriving DecidableEq

structure PendingConn where
  fd : Fd
  remoteIpv4 : Nat := 0
  recvBuf : Bytes := []
  created : Nat := 0
deriving DecidableEq

/-- One entry of the published room list. -/
structure RoomListState where
  roomId : Nat
  roomName : Bytes
  playerCount : Nat
  maxPlayers : Nat
  tcpPolicy : RoomTrafficPolicy
  udpPolicy : RoomTrafficPolicy
  passwordProtected : Nat
  mtu : Nat
deriving DecidableEq

abbrev RoomTable := Std.ExtTreeMap Nat RoomListState

/-! ### The world outside -/

/-- What the calls of one step will return: clock increments, random bytes
    (`none` is a failure) and results of `send`. -/
structure Env where
  ticks : List Nat := []
  random : List (Option Bytes) := []
  sends : List SendResult := []

inductive Channel where
  | signal | data | udp
deriving DecidableEq

/-- History of a step. -/
inductive Act where
  /-- A business handler is called for the session. -/
  | handler (fd : Fd) (msgType : UInt8) (payload : Bytes)
  /-- A frame passed the session's cipher for the channel. -/
  | decrypted (fd : Fd) (channel : Channel) (frame plain : Bytes)
  /-- A message is put on a stream of the session, or sent as a datagram, with
      the encrypted frame that carries it. -/
  | output (fd : Fd) (channel : Channel) (plain frame : Bytes)
  /-- A message goes to the members of a room; `audience` are the sessions that
      are alive and in the room at this moment, without the excluded peer. -/
  | broadcast (roomId : Nat) (msgType : UInt8) (body : Bytes) (excludePeerId : Nat)
      (audience : List Fd)
deriving DecidableEq

/-- Where the event loop stands: between events, at the head of a receive
    loop, or behind the dispatch of a signaling frame. -/
inductive Control where
  | idle
  | signal (fd : Fd)
  | handled (fd : Fd) (frameLen : Nat)
  | data (fd : Fd)
deriving DecidableEq

structure Server where
  clients : Std.ExtTreeMap Fd ClientSession := ∅
  pending : Std.ExtTreeMap Fd PendingConn := ∅
  dataFdMap : Std.ExtTreeMap Fd Fd := ∅
  peerMap : Std.ExtTreeMap Nat Fd := ∅
  secureSessionMap : Std.ExtTreeMap Nat Fd := ∅
  rooms : RoomManager := {}
  nextPeerId : Nat := 1
  freePeerIds : Std.ExtTreeSet Nat := ∅
  serverAuthHash : Bytes
  serverAuthSalt : Bytes
  limits : ServerLimits := {}
  globalSendBytes : Nat := 0
  ipStates : Std.ExtTreeMap Nat IpState := ∅
  roomListRevision : Nat := 1
  publishedRooms : RoomTable := ∅
  openFds : Std.ExtTreeSet Fd := ∅
  clock : Nat := 0
  env : Env := {}
  control : Control := .idle
  /-- History: what the current step did. -/
  log : List Act := []
  /-- History: the room lists published so far, latest first. -/
  published : List (Nat × RoomTable) := [(1, ∅)]
  /-- History: how often a connection of an address was given up and its counter
      was at zero already. -/
  shortfalls : Nat := 0

namespace Server

def client (s : Server) (fd : Fd) : ClientSession := (s.clients[fd]?).getD { tcpFd := fd }

def modify (s : Server) (fd : Fd) (f : ClientSession → ClientSession) : Server :=
  { s with clients := s.clients.alter fd (·.map f) }

def kill (s : Server) (fd : Fd) : Server := s.modify fd fun c => { c with alive := false }

def act (s : Server) (a : Act) : Server := { s with log := s.log ++ [a] }

def setRoom (s : Server) (roomId : Nat) (r : Room) : Server :=
  { s with rooms := s.rooms.setRoom roomId r }

def close (s : Server) (fd : Fd) : Server := { s with openFds := s.openFds.erase fd }

/-- History: a counter is about to go down by one. -/
def countDown (s : Server) (counter : Nat) : Server :=
  if counter = 0 then { s with shortfalls := s.shortfalls + 1 } else s

/-- `time(nullptr)`. -/
def time (s : Server) : Nat × Server :=
  match s.env.ticks with
  | [] => (s.clock, s)
  | d :: ds => (s.clock + d, { s with clock := s.clock + d, env := { s.env with ticks := ds } })

def secureRandomBytes (s : Server) (size : Nat) : Option Bytes × Server :=
  match s.env.random with
  | [] => (none, s)
  | r :: rs =>
    (r.map fun b => (b ++ List.replicate size 0).take size,
      { s with env := { s.env with random := rs } })

/-! ### Rate limits -/

def takeIpToken (s : Server) (ip : Nat) (bucket : IpBucket) (burst refillSeconds : Rat) :
    Bool × Server :=
  let (now, s) := s.time
  let state := (s.ipStates[ip]?).getD {}
  let b := state.bucket bucket
  let b : TokenBucket :=
    if b.updated = 0 then { tokens := burst, updated := now }
    else if b.updated < now then
      { tokens := min burst (b.tokens + ((now - b.updated : Nat) : Rat) / refillSeconds),
        updated := now }
    else b
  let ok := decide (1 ≤ b.tokens)
  let b := if ok then { b with tokens := b.tokens - 1 } else b
  let state := { state.setBucket b bucket with lastActivity := now }
  (ok, { s with ipStates := s.ipStates.insert ip state })

/-! ### Indexes -/

/-- The session an index entry points to; an entry that does not match its
    session is dropped. -/
def findOwner {κ : Type} [Ord κ] [Std.TransOrd κ] (index : Std.ExtTreeMap κ Fd)
    (clients : Std.ExtTreeMap Fd ClientSession)
    (owns : ClientSession → Bool) (key : κ) : Option Fd × Std.ExtTreeMap κ Fd :=
  match index[key]? with
  | none => (none, index)
  | some fd =>
    match clients[fd]? with
    | none => (none, index.erase key)
    | some c => if c.tcpFd = fd ∧ owns c then (some fd, index) else (none, index.erase key)

def findClientOwnerByPeerId (s : Server) (peerId : Nat) : Option Fd × Server :=
  if peerId = 0 then (none, s)
  else
    let (owner, index) := findOwner s.peerMap s.clients (·.peerId == peerId) peerId
    (owner, { s with peerMap := index })

def findClientByPeerId (s : Server) (peerId : Nat) : Option Fd × Server :=
  let (owner, s) := s.findClientOwnerByPeerId peerId
  (owner.filter fun fd =>
    let c := s.client fd
    c.alive && c.serverAuthOk && c.secureEnabled && sessionHasPeerIdentity c.state, s)

def findClientOwnerBySecureSessionId (s : Server) (sessionId : Nat) : Option Fd × Server :=
  if sessionId = 0 then (none, s)
  else
    let (owner, index) :=
      findOwner s.secureSessionMap s.clients (·.secureSessionId == sessionId) sessionId
    (owner, { s with secureSessionMap := index })

def findClientBySecureSessionId (s : Server) (sessionId : Nat) : Option Fd × Server :=
  let (owner, s) := s.findClientOwnerBySecureSessionId sessionId
  (owner.filter fun fd =>
    let c := s.client fd
    c.alive && c.secureEnabled && c.serverAuthOk && decide (c.state ≠ .closing), s)

def findClientOwnerByDataFd (s : Server) (dataFd : Fd) : Option Fd × Server :=
  let (owner, index) := findOwner s.dataFdMap s.clients (·.dataFd == some dataFd) dataFd
  (owner, { s with dataFdMap := index })

def findClientByDataFd (s : Server) (dataFd : Fd) : Option Fd × Server :=
  let (owner, s) := s.findClientOwnerByDataFd dataFd
  (owner.filter fun fd =>
    let c := s.client fd
    c.alive && decide (c.peerId ≠ 0) && c.serverAuthOk && c.secureEnabled &&
      sessionCanBindDataChannel c.state, s)

def bindUniqueSessionIndex {κ : Type} [Ord κ] [Std.TransOrd κ] (index : Std.ExtTreeMap κ Fd)
    (key : κ) (signalFd : Fd) : Bool × Std.ExtTreeMap κ Fd :=
  match index[key]? with
  | some fd => if fd ≠ signalFd then (false, index) else (true, index.insert key signalFd)
  | none => (true, index.insert key signalFd)

def unbindSessionIndex {κ : Type} [Ord κ] [Std.TransOrd κ] (index : Std.ExtTreeMap κ Fd)
    (key : κ) (signalFd : Fd) : Std.ExtTreeMap κ Fd :=
  if index[key]? = some signalFd then index.erase key else index

/-- The body of the three `bind…Index` functions. -/
def bindIndex {κ : Type} [Ord κ] [Std.TransOrd κ] (index : Std.ExtTreeMap κ Fd)
    (clients : Std.ExtTreeMap Fd ClientSession)
    (owns : ClientSession → Bool) (key : κ) (signalFd : Fd) : Bool × Std.ExtTreeMap κ Fd :=
  match index[key]? with
  | some fd =>
    if fd ≠ signalFd then
      let (owner, index) := findOwner index clients owns key
      if owner.isSome then (false, index) else bindUniqueSessionIndex index key signalFd
    else bindUniqueSessionIndex index key signalFd
  | none => bindUniqueSessionIndex index key signalFd

def bindPeerIndex (s : Server) (fd : Fd) (peerId : Nat) : Bool × Server :=
  if peerId = 0 then (false, s)
  else
    let (ok, index) := bindIndex s.peerMap s.clients (·.peerId == peerId) peerId fd
    (ok, { s with peerMap := index })

def bindSecureSessionIndex (s : Server) (fd : Fd) (sessionId : Nat) : Bool × Server :=
  if sessionId = 0 then (false, s)
  else
    let (ok, index) :=
      bindIndex s.secureSessionMap s.clients (·.secureSessionId == sessionId) sessionId fd
    (ok, { s with secureSessionMap := index })

def bindDataFdIndex (s : Server) (fd : Fd) (dataFd : Fd) : Bool × Server :=
  let (ok, index) := bindIndex s.dataFdMap s.clients (·.dataFd == some dataFd) dataFd fd
  (ok, { s with dataFdMap := index })

def unbindClientIndexes (s : Server) (fd : Fd) : Server :=
  let c := s.client fd
  { s with
    dataFdMap := match c.dataFd with
      | some d => unbindSessionIndex s.dataFdMap d fd
      | none => s.dataFdMap
    peerMap := if c.peerId ≠ 0 then unbindSessionIndex s.peerMap c.peerId fd else s.peerMap
    secureSessionMap :=
      if c.secureSessionId ≠ 0 then unbindSessionIndex s.secureSessionMap c.secureSessionId fd
      else s.secureSessionMap }

/-! ### Peer ids -/

def allocatePeerId (s : Server) : Nat × Server :=
  match s.freePeerIds.toList.head? with
  | some peerId => (peerId, { s with freePeerIds := s.freePeerIds.erase peerId })
  | none => (s.nextPeerId, { s with nextPeerId := s.nextPeerId + 1 })

def releasePeerId (s : Server) (peerId : Nat) : Server :=
  if peerId = 0 then s
  else
    let (owner, s) := s.findClientOwnerByPeerId peerId
    if owner.isSome then s else { s with freePeerIds := s.freePeerIds.insert peerId }

def tokenIsZero (token : Bytes) : Bool := token.all (· == 0)

def generateLeaseToken (s : Server) : Option Bytes × Server :=
  let (token, s) := s.secureRandomBytes RECONNECT_TOKEN_SIZE
  (token.filter fun t => !tokenIsZero t, s)

end Server

end VlanConnect
