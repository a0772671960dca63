/-
  VlanConnect/Server/Send.lean
  ============================
  **Output of the server**: send buffers and their budgets, plain and
  encrypted messages, the data channel, and the broadcast to a room.

  The calls that only change which events `epoll` reports are left out: the
  model lets every event arrive at any time.
-/
import VlanConnect.Server.State

namespace VlanConnect

namespace Server

variable (K : Crypto)

/-! ### Send buffers -/

def setSendBuf (c : ClientSession) (dataChannel : Bool) (buf : Bytes) : ClientSession :=
  if dataChannel then { c with dataSendBuf := buf } else { c with sendBuf := buf }

def sendBufOf (c : ClientSession) (dataChannel : Bool) : Bytes :=
  if dataChannel then c.dataSendBuf else c.sendBuf

/-- History: a frame was accepted. -/
def recordFrame (c : ClientSession) (dataChannel : Bool) (frame : Bytes) : ClientSession :=
  if dataChannel then { c with dataFrames := c.dataFrames ++ [frame] }
    else { c with frames := c.frames ++ [frame] }

/-- History: `send` took bytes. -/
def recordWritten (c : ClientSession) (dataChannel : Bool) (bytes : Bytes) : ClientSession :=
  if dataChannel then { c with dataWritten := c.dataWritten ++ bytes }
    else { c with written := c.written ++ bytes }

/-- History: the stream has ended. -/
def recordEnd (c : ClientSession) (dataChannel : Bool) : ClientSession :=
  if dataChannel then { c with dataFrames := [], dataWritten := [] }
    else { c with frames := [], written := [] }

/-- A message is turned away when the session's buffer or all buffers together
    would grow beyond their limit. -/
def appendSendBuffer (s : Server) (fd : Fd) (dataChannel : Bool) (first second : Bytes) :
    Bool × Server :=
  let c := s.client fd
  let added := first.length + second.length
  if MAX_TCP_SEND_BUF - min added MAX_TCP_SEND_BUF < (sendBufOf c dataChannel).length ∨
      MAX_TCP_SEND_BUF < added ∨
      s.limits.maxSendBufferBytes - min added s.limits.maxSendBufferBytes < s.globalSendBytes ∨
      s.limits.maxSendBufferBytes < added then
    if dataChannel then (false, s)
    else
      (false, s.modify fd fun c => { c with
        sendBudgetFailures := if c.sendBudgetFailures < 255 then c.sendBudgetFailures + 1
          else c.sendBudgetFailures })
  else
    let s := s.modify fd fun c =>
      recordFrame (setSendBuf c dataChannel (sendBufOf c dataChannel ++ first ++ second))
        dataChannel (first ++ second)
    let s := { s with globalSendBytes := s.globalSendBytes + added }
    (true, if dataChannel then s else s.modify fd fun c => { c with sendBudgetFailures := 0 })

def clearSendBuffer (s : Server) (fd : Fd) (dataChannel : Bool) : Server :=
  let count := (sendBufOf (s.client fd) dataChannel).length
  let s := s.modify fd fun c => recordEnd (setSendBuf c dataChannel []) dataChannel
  { s with globalSendBytes := s.globalSendBytes - count }

inductive FlushResult where
  | drained | again | fail
deriving DecidableEq

/-- The `send` loop over a buffer: what is left of the buffer, of the global
    byte count and of the results. -/
def flushLoop (buf : Bytes) (globalSendBytes : Nat) :
    (sends : List SendResult) → FlushResult × Bytes × Nat × List SendResult
  | [] => (if buf = [] then .drained else .again, buf, globalSendBytes, [])
  | r :: rs =>
    if buf = [] then (.drained, buf, globalSendBytes, r :: rs)
    else
      match r with
      | .sent n =>
        let count := min (max n 1) buf.length
        flushLoop (buf.drop count) (globalSendBytes - count) rs
      | .again => (.again, buf, globalSendBytes, rs)
      | .fail => (.fail, buf, globalSendBytes, rs)

/-- Both flush functions up to the handling of the result. -/
def flushBuffer (s : Server) (fd : Fd) (dataChannel : Bool) : FlushResult × Server :=
  let (res, buf, globalSendBytes, sends) :=
    flushLoop (sendBufOf (s.client fd) dataChannel) s.globalSendBytes s.env.sends
  let s := s.modify fd fun c =>
    recordWritten (setSendBuf c dataChannel buf) dataChannel
      ((sendBufOf c dataChannel).take ((sendBufOf c dataChannel).length - buf.length))
  (res, { s with globalSendBytes := globalSendBytes, env := { s.env with sends := sends } })

def flushSendBuf (s : Server) (fd : Fd) : Server :=
  let (res, s) := s.flushBuffer fd false
  if res = .fail then s.kill fd else s

/-! ### Closing a data channel -/

def closeDataChannel (s : Server) (fd : Fd) : Server :=
  match (s.client fd).dataFd with
  | none =>
    (s.clearSendBuffer fd true).modify fd fun c => { c with dataRecvBuf := [] }
  | some d =>
    let s := { s with dataFdMap := unbindSessionIndex s.dataFdMap d fd }
    let s := s.modify fd fun c => { c with dataFd := none }
    let s := s.close d
    (s.clearSendBuffer fd true).modify fd fun c => { c with dataRecvBuf := [] }

/-! ### Messages -/

/-- Put a message on the signaling stream.  `carries` is the message inside:
    the one sent, or what an encrypted frame holds. -/
def sendMsg (s : Server) (fd : Fd) (msgType : UInt8) (body : Bytes) (carries : UInt8 × Bytes) :
    Bool × Server :=
  if fd ∉ s.clients then (false, s)
  else if ¬ (s.client fd).alive then (false, s)
  else if MAX_TCP_MSG_PAYLOAD < body.length then
    (false, s.modify fd fun c => { c with rejected := c.rejected ++ [carries] })
  else
    let (ok, s) := s.appendSendBuffer fd false (tcpMsgHeader msgType body.length) body
    if ¬ ok then
      let s := s.modify fd fun c => { c with rejected := c.rejected ++ [carries] }
      (false, if 3 ≤ (s.client fd).sendBudgetFailures then s.kill fd else s)
    else
      let s := s.modify fd fun c => { c with sent := c.sent ++ [carries] }
      let s := s.act (.output fd .signal (carries.1 :: carries.2) body)
      let s := s.flushSendBuf fd
      let s := if MAX_TCP_SEND_BUF < (s.client fd).sendBuf.length then s.kill fd else s
      ((s.client fd).alive, s)

def failRequiredControl (s : Server) (fd : Fd) : Server := s.kill fd

def isRequiredControlResponse (msgType : UInt8) : Bool :=
  [MSG_LOGIN_RESP, MSG_ROOM_CREATED, MSG_JOIN_RESP, MSG_AUTH_CHALLENGE, MSG_LOGOUT_ACK,
    MSG_ERROR].contains msgType

/-- The encrypted frame; the session dies when its send counter is used up. -/
def encryptForClient (s : Server) (fd : Fd) (msgType : UInt8) (body : Bytes) : Bytes × Server :=
  let (enc, cipher) := (s.client fd).secureCipher.encrypt K (msgType :: body) []
  let s := s.modify fd fun c => { c with secureCipher := cipher }
  (enc, if enc = [] then s.kill fd else s)

def sendClientMsg (s : Server) (fd : Fd) (msgType : UInt8) (body : Bytes) : Bool × Server :=
  if ¬ (s.client fd).alive then (false, s)
  else
    let (sent, s) :=
      if (s.client fd).secureEnabled ∧ (s.client fd).serverAuthOk then
        let (wrapped, s) := s.encryptForClient K fd msgType body
        if (s.client fd).alive ∧
          wrapped ≠ [] then s.sendMsg fd MSG_ENCRYPTED wrapped (msgType, body)
        else (false, s)
      else if msgType = MSG_SERVER_HELLO ∨ msgType = MSG_SERVER_AUTH_OK ∨ msgType = MSG_ERROR then
        s.sendMsg fd msgType body (msgType, body)
      else (false, s.kill fd)
    (sent, if ¬ sent ∧ isRequiredControlResponse msgType then s.failRequiredControl fd else s)

def sendError (s : Server) (fd : Fd) (text : String) (code : AuthErrorCode := .general) : Server :=
  let body := ByteBuffer.writeU16 code.value ++ ByteBuffer.writeString (ascii text)
  if fd ∈ s.clients then (s.sendClientMsg K fd MSG_ERROR body).2
  else (s.sendMsg fd MSG_ERROR body (MSG_ERROR, body)).2

/-! ### The data channel -/

def flushDataSendBuf (s : Server) (fd : Fd) : Bool × Server :=
  if (s.client fd).dataFd = none then (false, s)
  else
    let (res, s) := s.flushBuffer fd true
    if res = .fail then (false, s.closeDataChannel fd) else (true, s)

def sendDataMsg (s : Server) (fd : Fd) (msgType : UInt8) (body : Bytes) : Bool × Server :=
  let c := s.client fd
  if c.dataFd = none ∨ ¬ c.alive then (false, s)
  else if MAX_TCP_MSG_PAYLOAD < body.length then (false, s)
  else if ¬ c.secureEnabled ∨ ¬ c.serverAuthOk then (false, s)
  else
    let (enc, cipher) := c.dataCipher.encrypt K (msgType :: body) []
    let s := s.modify fd fun c => { c with dataCipher := cipher }
    if enc = [] then (false, s.kill fd)
    else if MAX_TCP_MSG_PAYLOAD < enc.length then (false, s)
    else
      let (ok, s) := s.appendSendBuffer fd true (tcpMsgHeader MSG_ENCRYPTED enc.length) enc
      if ¬ ok then (false, s.closeDataChannel fd)
      else
        let s := s.act (.output fd .data (msgType :: body) enc)
        if MAX_TCP_SEND_BUF < (s.client fd).dataSendBuf.length then (false, s.closeDataChannel fd)
        else s.flushDataSendBuf fd

/-! ### UDP -/

def sendEncryptedUdp (s : Server) (dst : Fd) (plain : Bytes) : Server :=
  let c := s.client dst
  if ¬ c.serverAuthOk ∨ c.secureSessionId = 0 ∨ ¬ c.udpAddrKnown then s
  else
    let (enc, cipher) := c.udpCipher.encrypt K plain []
    let s := s.modify dst fun c => { c with udpCipher := cipher }
    if enc = [] then s.kill dst else s.act (.output dst .udp plain enc)

/-! ### Rooms -/

def broadcastToMember (msgType : UInt8) (body : Bytes) (excludePeerId : Nat) (s : Server)
    (peerId : Nat) : Server :=
  if peerId = excludePeerId then s
  else
    let (target, s) := s.findClientByPeerId peerId
    match target with
    | some fd => (s.sendClientMsg K fd msgType body).2
    | none => s

/-- The sessions that are alive and in the room, without the excluded peer. -/
def audience (s : Server) (roomId excludePeerId : Nat) : List Fd :=
  s.clients.keys.filter fun fd =>
    let c := s.client fd
    c.alive && decide (c.state = .inRoom ∧ c.roomId = roomId ∧ c.peerId ≠ excludePeerId)

def broadcastToRoom (s : Server) (roomId : Nat) (msgType : UInt8) (body : Bytes)
    (excludePeerId : Nat) : Server :=
  match s.rooms.getRoom roomId with
  | none => s
  | some room =>
    let s := s.act (.broadcast roomId msgType body excludePeerId (s.audience roomId excludePeerId))
    room.peerIds.foldl (broadcastToMember K msgType body excludePeerId) s

def sendRelayReady (s : Server) (fd : Fd) (peerId : Nat) : Server :=
  (s.sendClientMsg K fd MSG_RELAY_READY (ByteBuffer.writeU32 peerId)).2

def notifyRelayPeer (fd : Fd) (s : Server) (peerId : Nat) : Server :=
  if peerId = (s.client fd).peerId then s
  else
    let (other, s) := s.findClientByPeerId peerId
    match other with
    | some o =>
      let s := s.sendRelayReady K fd (s.client o).peerId
      s.sendRelayReady K o (s.client fd).peerId
    | none => s

def notifyRelayPeers (s : Server) (fd : Fd) : Server :=
  match s.rooms.getRoom (s.client fd).roomId with
  | none => s
  | some room => room.peerIds.foldl (notifyRelayPeer K fd) s

end Server

end VlanConnect
