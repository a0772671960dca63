/-
  VlanConnect/Server/Dispatch.lean
  ================================
  **Events, dispatch and the steps of the server.**

  The receive loops of `handlePendingData`, `handleClientData` and
  `processDataRecvBuffer` are control states: a step handles at most one frame,
  and `resume` goes round the loop that the last step stopped in.  A signaling
  frame takes two steps, the dispatch and what the loop does after it.  No
  other event is taken in between, as the server has one thread.
-/
import VlanConnect.Server.Handlers

namespace VlanConnect

namespace Server

open ByteBuffer

variable (K : Crypto)

/-! ### Signaling messages -/

def dispatchClientMsg (s : Server) (fd : Fd) (msgType : UInt8) (payload : Bytes) : Server :=
  let s := s.act (.handler fd msgType payload)
  if msgType = MSG_LOGIN then s.onLogin K fd payload
  else if msgType = MSG_CREATE_ROOM then s.onCreateRoom K fd payload
  else if msgType = MSG_JOIN_ROOM then s.onJoinRoom K fd payload
  else if msgType = MSG_RESUME_ROOM then s.onResumeRoom K fd payload
  else if msgType = MSG_LEAVE_ROOM then s.onLeaveRoom K fd
  else if msgType = MSG_LOGOUT then s.onLogout K fd
  else if msgType = MSG_LIST_ROOMS then s.onListRooms K fd
  else if msgType = MSG_REQUEST_RELAY then s.onRequestRelay K fd payload
  else if msgType = MSG_AUTH_RESPONSE then s.onAuthResponse K fd payload
  else if msgType = MSG_PING then s.onPing K fd
  else if msgType = MSG_TCP_RELAY_DATA then s.onTcpRelayData K fd payload
  else s

/-- The checks every message passes before its handler runs. -/
def admitClientMsg (s : Server) (fd : Fd) (msgType : UInt8) (payload : Bytes)
    (handler : Server → Server) : Server :=
  match classifyClientSignalMessage (s.client fd).state msgType with
  | .ignoreUnknown => s
  | .close => s.kill fd
  | .dispatch =>
    if ¬ validateClientSignalPayload msgType payload then s.kill fd else handler s
  | .sendStateError =>
    if ¬ validateClientSignalPayload msgType payload then s.kill fd
    else s.sendError K fd "Message not allowed in current session state"

/-- `decryptClientFrame`: the inner type and payload. -/
def decryptClientFrame (s : Server) (fd : Fd) (payload : Bytes) : Option (UInt8 × Bytes) × Server :=
  let (plain, cipher) := (s.client fd).secureCipher.decrypt K payload []
  let s := s.modify fd fun c => { c with secureCipher := cipher }
  match plain with
  | some (innerType :: innerPayload) =>
    (some (innerType, innerPayload),
      s.act (.decrypted fd .signal payload (innerType :: innerPayload)))
  | _ => (none, s)

def processMessage (s : Server) (fd : Fd) (msgType : UInt8) (payload : Bytes) : Server :=
  let (now, s) := s.time
  let s := s.modify fd fun c => { c with lastPing := now }
  let c := s.client fd
  match c.state with
  | .closing => s
  | .awaitHello => s.admitClientMsg K fd msgType payload (·.onClientHello K fd payload)
  | .awaitServerAuth => s.admitClientMsg K fd msgType payload (·.onServerAuth K fd payload)
  | _ =>
    if ¬ c.serverAuthOk ∨ ¬ c.secureEnabled then s.kill fd
    else if msgType ≠ MSG_ENCRYPTED then s.kill fd
    else
      let (inner, s) := s.decryptClientFrame K fd payload
      match inner with
      | none => s.kill fd
      | some (innerType, innerPayload) =>
        s.admitClientMsg K fd innerType innerPayload
          (·.dispatchClientMsg K fd innerType innerPayload)

/-! ### The data channel -/

def dropDataChannel (s : Server) (fd : Fd) : Server :=
  match (s.client fd).dataFd with
  | some d => s.handleDataChannelDisconnect d
  | none => s

def processDataMessage (s : Server) (fd : Fd) (msgType : UInt8) (payload : Bytes) : Server :=
  let (now, s) := s.time
  let s := s.modify fd fun c => { c with dataLastPing := now }
  let c := s.client fd
  if ¬ c.serverAuthOk ∨ ¬ c.secureEnabled ∨ msgType ≠ MSG_ENCRYPTED then s.dropDataChannel fd
  else
    let (plain, cipher) := c.dataCipher.decrypt K payload []
    let s := s.modify fd fun c => { c with dataCipher := cipher }
    match plain with
    | some (innerType :: innerPayload) =>
      let s := s.act (.decrypted fd .data payload (innerType :: innerPayload))
      if innerType = MSG_PING ∧ innerPayload ≠ [] ∨
          innerType = MSG_TCP_RELAY_DATA ∧
            (¬ validateClientSignalPayload innerType innerPayload ∨ c.state ≠ .inRoom) then
        s.dropDataChannel fd
      else if innerType = MSG_TCP_RELAY_DATA then
        (s.act (.handler fd innerType innerPayload)).onTcpRelayData K fd innerPayload
      else if innerType = MSG_PING then
        if c.dataFd ≠ none then (s.sendDataMsg K fd MSG_PONG []).2 else s
      else s
    | _ => s.dropDataChannel fd

def onSecureDataChannelInit (s : Server) (fd : Fd) (p : Bytes) : Server :=
  if p.length ≠ SECURE_SESSION_ID_SIZE + SECURE_FRAME_OVERHEAD + 4 then s.close fd
  else
    let (client, s) := s.findClientBySecureSessionId (readU32BE p)
    match client.filter fun c => sessionCanBindDataChannel (s.client c).state with
    | none => s.close fd
    | some c =>
      let (plain, cipher) := (s.client c).dataCipher.decrypt K (p.drop SECURE_SESSION_ID_SIZE) []
      let s := s.modify c fun c => { c with dataCipher := cipher }
      match plain with
      | none => s.close fd
      | some plain =>
        if plain.length ≠ 4 ∨ BigEndian.decode plain ≠ (s.client c).peerId then s.close fd
        else
          let s := s.closeDataChannel c
          let (now, s) := s.time
          let s := s.modify c fun c => { c with dataFd := some fd, dataLastPing := now }
          let s := s.clearSendBuffer c true
          let s := s.modify c fun c => { c with dataRecvBuf := [] }
          let (ok, s) := s.bindDataFdIndex c fd
          if ¬ ok then (s.modify c fun c => { c with dataFd := none }).close fd
          else (s.sendDataMsg K c MSG_DATA_CHANNEL_ACK []).2

/-! ### UDP -/

structure UdpRelay where
  type : UInt8
  trafficClass : Nat
  source : Nat
  destination : Nat

/-- The fields of a `UdpRelayHeader`. -/
def readUdpRelayHeader (plain : Bytes) : Option UdpRelay :=
  match plain with
  | type :: trafficClass :: rest =>
    if plain.length < UDP_RELAY_HEADER_SIZE then none
    else some ⟨type, trafficClass.toNat, readU32BE rest, readU32BE (rest.drop 4)⟩
  | _ => none

def decryptUdpPacket (s : Server) (data : Bytes) : Option (Fd × Bytes) × Server :=
  if data.length < 1 + SECURE_SESSION_ID_SIZE + SECURE_FRAME_OVERHEAD then (none, s)
  else if data.head? ≠ some UDP_ENCRYPTED then (none, s)
  else
    let (client, s) := s.findClientBySecureSessionId (readU32BE (data.drop 1))
    match client with
    | none => (none, s)
    | some src =>
      let frame := data.drop (1 + SECURE_SESSION_ID_SIZE)
      let (plain, cipher) := (s.client src).udpCipher.decrypt K frame []
      let s := s.modify src fun c => { c with udpCipher := cipher }
      match plain with
      | none => (none, s)
      | some plain => (some (src, plain), s.act (.decrypted src .udp frame plain))

def relayUdp (s : Server) (sender : SockAddr) (src : Fd) (plain : Bytes) : Server :=
  let learnAddr := fun s : Server => s.modify src fun c =>
    { c with udpAddr := sender, udpAddrKnown := true }
  if plain.head? = some UDP_KEEPALIVE then learnAddr s
  else
    match readUdpRelayHeader plain with
    | none => s
    | some hdr =>
      if hdr.type ≠ UDP_RELAY_DATA ∧ hdr.type ≠ UDP_RAW_RELAY_DATA then s
      else if hdr.source ≠ (s.client src).peerId ∨ hdr.destination = 0 ∨ (s.client src).roomId = 0 ∨
          ¬ validTrafficClass hdr.trafficClass then s
      else
        let s := learnAddr s
        let (dstClient, s) := s.findClientByPeerId hdr.destination
        match dstClient with
        | none => s
        | some dst =>
          if ¬ (s.client dst).udpAddrKnown then s
          else if (s.client dst).roomId = 0 ∨ (s.client dst).roomId ≠ (s.client src).roomId then s
          else s.sendEncryptedUdp K dst plain

def handleUdpPacket (s : Server) (sender : SockAddr) (data : Bytes) : Server :=
  if data.head? ≠ some UDP_ENCRYPTED then s
  else
    let (packet, s) := s.decryptUdpPacket K data
    match packet with
    | none => s
    | some (src, plain) => s.relayUdp K sender src plain

/-! ### Connections -/

def removePending (s : Server) (fd : Fd) (closeFd : Bool) : Server :=
  match s.pending[fd]? with
  | none => s
  | some pc =>
    let s := match s.ipStates[pc.remoteIpv4]? with
      | none => s.countDown 0
      | some state =>
        let (now, s) := (s.countDown state.pending).time
        let state := { state with pending := state.pending - 1, lastActivity := now }
        { s with ipStates := s.ipStates.insert pc.remoteIpv4 state }
    let s := if closeFd then s.close fd else s
    { s with pending := s.pending.erase fd }

/-- `accept` has returned the descriptor `fd`. -/
def handleTcpAccept (s : Server) (fd : Fd) (remoteIp : Nat) : Server :=
  let s := { s with openFds := s.openFds.insert fd }
  let (now, s) := s.time
  let state := { (s.ipStates[remoteIp]?).getD {} with lastActivity := now }
  let s := { s with ipStates := s.ipStates.insert remoteIp state }
  if s.limits.maxPending ≤ s.pending.size ∨ s.limits.maxPendingPerIp ≤ state.pending then s.close fd
  else
    let (ok, s) := s.takeIpToken remoteIp .accepts 16 1
    if ¬ ok then s.close fd
    else
      let (now, s) := s.time
      let state := (s.ipStates[remoteIp]?).getD {}
      { s with
        pending := s.pending.insert fd { fd := fd, remoteIpv4 := remoteIp, created := now }
        ipStates := s.ipStates.insert remoteIp { state with pending := state.pending + 1 } }

/-- A connection whose first frame opens a data channel.  The source erases the
    pending entry after the init, which does not read it. -/
def promoteDataChannel (s : Server) (fd : Fd) (remoteIp : Nat) (payload trailing : Bytes) :
    Server :=
  let s := { s with pending := s.pending.erase fd }
  let s := s.onSecureDataChannelInit K fd payload
  let s := match s.ipStates[remoteIp]? with
    | some state =>
      { s.countDown state.pending with
        ipStates := s.ipStates.insert remoteIp { state with pending := state.pending - 1 } }
    | none => s.countDown 0
  let (dataClient, s) := s.findClientByDataFd fd
  match dataClient with
  | some c =>
    if trailing = [] then s
    else
      { s.modify c fun c => { c with dataRecvBuf := c.dataRecvBuf ++ trailing } with
        control := .data c }
  | none => s

/-- Any other connection becomes a session. -/
def promoteSession (s : Server) (fd : Fd) (remoteIp : Nat) (recvBuf : Bytes) : Server :=
  let state := (s.ipStates[remoteIp]?).getD {}
  let s := { s with ipStates := s.ipStates.insert remoteIp state }
  if s.limits.maxClients ≤ s.clients.size ∨ s.limits.maxClientsPerIp ≤ state.clients then
    s.removePending fd true
  else
    let (now, s) := s.time
    let c := { s.client fd with
      tcpFd := fd
      lastPing := now
      alive := true
      remoteIpv4 := remoteIp
      helloDeadline := now + CLIENT_HELLO_TIMEOUT_SEC
      recvBuf := recvBuf
      serverAuthOk := false }
    let (activity, s) := (s.countDown state.pending).time
    { s with
      clients := s.clients.insert fd c
      ipStates := s.ipStates.insert remoteIp { state with
        pending := state.pending - 1
        clients := state.clients + 1
        lastActivity := activity }
      pending := s.pending.erase fd
      control := .signal fd }

def handlePendingData (s : Server) (fd : Fd) (chunk : Bytes) : Server :=
  match s.pending[fd]? with
  | none => s
  | some pc =>
    if chunk = [] then s.removePending fd true
    else
      let recvBuf := pc.recvBuf ++ chunk
      let s := { s with pending := s.pending.insert fd { pc with recvBuf := recvBuf } }
      match probeFrame recvBuf with
      | .incomplete => s
      | .corrupted => s.removePending fd true
      | .frame f =>
        if f.msgType = MSG_DATA_CHANNEL_INIT then
          s.promoteDataChannel K fd pc.remoteIpv4 f.payload (recvBuf.drop f.frameLen)
        else s.promoteSession fd pc.remoteIpv4 recvBuf

/-! ### The receive loops -/

/-- `handleClientData` up to its loop. -/
def handleClientData (s : Server) (fd : Fd) (chunk : Bytes) : Server :=
  if fd ∉ s.clients then s
  else if ¬ (s.client fd).alive then s.handleClientDisconnect fd
  else if (s.client fd).state = .closing then
    if (s.client fd).sendBuf = [] then s.destroyClient fd .logoutComplete else s
  else if chunk = [] then s.handleClientDisconnect fd
  else
    { s.modify fd fun c => { c with recvBuf := c.recvBuf ++ chunk } with control := .signal fd }

/-- One round of the signaling loop, up to the dispatch of its frame. -/
def signalRound (s : Server) (fd : Fd) : Server :=
  match probeFrame (s.client fd).recvBuf with
  | .incomplete => { s with control := .idle }
  | .corrupted => { s.handleClientDisconnect fd with control := .idle }
  | .frame f => { s.processMessage K fd f.msgType f.payload with control := .handled fd f.frameLen }

/-- The rest of the round. -/
def signalRoundEnd (s : Server) (fd : Fd) (frameLen : Nat) : Server :=
  if ¬ (s.client fd).alive then { s.handleClientDisconnect fd with control := .idle }
  else
    let s := s.modify fd fun c => { c with recvBuf := c.recvBuf.drop frameLen }
    if (s.client fd).state = .closing then
      let s := s.modify fd fun c => { c with recvBuf := [] }
      let s := if (s.client fd).sendBuf = [] then s.destroyClient fd .logoutComplete else s
      { s with control := .idle }
    else { s with control := .signal fd }

def handleDataChannelData (s : Server) (dataFd : Fd) (chunk : Bytes) : Server :=
  let (owner, s) := s.findClientOwnerByDataFd dataFd
  match owner with
  | none => s
  | some o =>
    let (client, s) := s.findClientByDataFd dataFd
    match client with
    | none => s.closeDataChannel o
    | some fd =>
      if chunk = [] then s.handleDataChannelDisconnect dataFd
      else
        { s.modify fd fun c => { c with dataRecvBuf := c.dataRecvBuf ++ chunk } with
          control := .data fd }

/-- One round of `processDataRecvBuffer`. -/
def dataRound (s : Server) (fd : Fd) : Server :=
  match (s.client fd).dataFd with
  | none => { s with control := .idle }
  | some d =>
    match probeFrame (s.client fd).dataRecvBuf with
    | .incomplete => { s with control := .idle }
    | .corrupted => { s.handleDataChannelDisconnect d with control := .idle }
    | .frame f =>
      let s := s.processDataMessage K fd f.msgType f.payload
      if (s.client fd).dataFd = none ∨ (s.client fd).dataRecvBuf.length < f.frameLen then
        { s with control := .idle }
      else s.modify fd fun c => { c with dataRecvBuf := c.dataRecvBuf.drop f.frameLen }

/-! ### Writable sockets and timeouts -/

def handleWritable (s : Server) (fd : Fd) : Server :=
  if fd ∈ s.clients then
    let s := s.flushSendBuf fd
    if ¬ (s.client fd).alive then s.handleClientDisconnect fd
    else if (s.client fd).state = .closing ∧ (s.client fd).sendBuf = [] then
      s.destroyClient fd .logoutComplete
    else if MAX_TCP_SEND_BUF < (s.client fd).sendBuf.length then s.kill fd
    else s
  else
    let (owner, s) := s.findClientOwnerByDataFd fd
    match owner with
    | none => s
    | some o =>
      let (client, s) := s.findClientByDataFd fd
      match client with
      | none => s.closeDataChannel o
      | some c =>
        let (ok, s) := s.flushDataSendBuf c
        if ok ∧ MAX_TCP_SEND_BUF < (s.client c).dataSendBuf.length then s.closeDataChannel c else s

/-- The sessions that `checkTimeouts` marks dead for a missed deadline. -/
def expireHandshake (now : Nat) (s : Server) (fd : Fd) : Server :=
  let c := s.client fd
  let late := (c.state = .awaitHello ∧ 0 < c.helloDeadline ∧ c.helloDeadline < now) ∨
    (c.state = .awaitServerAuth ∧ 0 < c.authDeadline ∧ c.authDeadline < now)
  if late then s.kill fd else s

def timedOut (s : Server) (now : Nat) (fd : Fd) : Bool :=
  !(s.client fd).alive || decide (HEARTBEAT_TIMEOUT_SEC < now - (s.client fd).lastPing)

def cleanupIpStates (s : Server) (now : Nat) : Server :=
  { s with ipStates := s.ipStates.filter fun _ state =>
      !decide (state.clients = 0 ∧ state.pending = 0 ∧ 0 < state.lastActivity ∧
        600 ≤ now - state.lastActivity) }

def checkTimeouts (s : Server) : Server :=
  let (now, s) := s.time
  let s := s.clients.keys.foldl (expireHandshake now) s
  let dead := s.clients.keys.filter (s.timedOut now)
  let s := dead.foldl handleClientDisconnect s
  let deadPending :=
    (s.pending.toList.filter fun (_, pc) => decide (10 < now - pc.created)).map Prod.fst
  let s := deadPending.foldl (fun s fd => s.removePending fd true) s
  let s := s.cleanupExpiredLeases K now
  s.cleanupIpStates now

/-! ### Steps -/

/-- An event of the loop in `run`; an empty chunk is a closed connection. -/
inductive Event where
  | accept (fd : Fd) (remoteIp : Nat)
  | datagram (sender : SockAddr) (data : Bytes)
  | readable (fd : Fd) (chunk : Bytes)
  | writable (fd : Fd)
  | hangup (fd : Fd)
  | timer
  | resume
deriving DecidableEq

def readable (s : Server) (fd : Fd) (chunk : Bytes) : Server :=
  if fd ∈ s.pending then s.handlePendingData K fd chunk
  else if fd ∈ s.dataFdMap then s.handleDataChannelData fd chunk
  else s.handleClientData fd chunk

def hangup (s : Server) (fd : Fd) : Server :=
  if fd ∈ s.pending then s.removePending fd true
  else if fd ∈ s.dataFdMap then s.handleDataChannelDisconnect fd
  else s.handleClientDisconnect fd

/-- Events are taken between rounds of the loops; `accept` returns a
    descriptor that is not open. -/
def Enabled (s : Server) : Event → Prop
  | .accept fd _ => s.control = .idle ∧ fd ∉ s.openFds
  | .resume => s.control ≠ .idle
  | _ => s.control = .idle

instance (s : Server) (e : Event) : Decidable (s.Enabled e) := by
  cases e <;> unfold Enabled <;> infer_instance

def handle (s : Server) : Event → Server
  | .accept fd remoteIp => s.handleTcpAccept fd remoteIp
  | .datagram sender data => s.handleUdpPacket K sender data
  | .readable fd chunk => s.readable K fd chunk
  | .writable fd => if fd ∈ s.pending then s else s.handleWritable fd
  | .hangup fd => s.hangup fd
  | .timer => s.checkTimeouts K
  | .resume =>
    match s.control with
    | .idle => s
    | .signal fd => s.signalRound K fd
    | .handled fd frameLen => s.signalRoundEnd fd frameLen
    | .data fd => s.dataRound K fd

/-- The state in which an event is handled: fresh results from outside, and
    an empty history of the step. -/
def prepare (s : Server) (env : Env) : Server := { s with env := env, log := [] }

def step (s : Server) (env : Env) (e : Event) : Server := (s.prepare env).handle K e

/-- A server after `init`. -/
def start (limits : ServerLimits) (serverAuthHash serverAuthSalt : Bytes) : Server where
  limits := limits
  serverAuthHash := serverAuthHash
  serverAuthSalt := serverAuthSalt

inductive Reachable (limits : ServerLimits) (serverAuthHash serverAuthSalt : Bytes) :
    Server → Prop where
  | start :
      Reachable limits serverAuthHash serverAuthSalt (start limits serverAuthHash serverAuthSalt)
  | step {s : Server} (h : Reachable limits serverAuthHash serverAuthSalt s) (env : Env) {e : Event}
      (he : s.Enabled e) : Reachable limits serverAuthHash serverAuthSalt (s.step K env e)

end Server

end VlanConnect
