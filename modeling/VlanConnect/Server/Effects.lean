/-
  VlanConnect/Server/Effects.lean
  ===============================
  **What the functions of the server are made of.**

  A relation between server states that holds of every primitive change, and
  that is reflexive and transitive, holds between the states before and after
  every function.  `SendEffects` lists the changes that output is made of,
  `Effects` those of all events.  Nothing is assumed about the states, so the
  results also apply in the middle of a handler.
-/
import VlanConnect.Server.Dispatch

namespace VlanConnect

namespace Server

variable (K : Crypto)

/-- The buffers of the session, their history, and its address are the same. -/
structure SameBuffers (c c' : ClientSession) : Prop where
  sendBuf : c'.sendBuf = c.sendBuf
  dataSendBuf : c'.dataSendBuf = c.dataSendBuf
  frames : c'.frames = c.frames
  written : c'.written = c.written
  dataFrames : c'.dataFrames = c.dataFrames
  dataWritten : c'.dataWritten = c.dataWritten
  remoteIpv4 : c'.remoteIpv4 = c.remoteIpv4

/-! ### Output -/

theorem mem_modify (s : Server) (fd : Fd) (f : ClientSession → ClientSession) (g : Fd) :
    g ∈ (s.modify fd f).clients ↔ g ∈ s.clients := by
  simp only [modify, Std.ExtTreeMap.mem_iff_isSome_getElem?, Std.ExtTreeMap.getElem?_alter]
  split
  · next heq =>
    obtain rfl := Std.LawfulEqCmp.eq_of_compare heq
    cases s.clients[fd]? <;> rfl
  · exact Iff.rfl

theorem mem_of_dataFd {s : Server} {fd : Fd} (h : (s.client fd).dataFd ≠ none) :
    fd ∈ s.clients := by
  rw [Std.ExtTreeMap.mem_iff_isSome_getElem?]
  cases hc : s.clients[fd]? with
  | some c => rfl
  | none =>
    unfold client at h
    rw [hc] at h
    exact absurd rfl h

structure SendEffects (P : Server → Server → Prop) : Prop where
  refl : ∀ s, P s s
  trans : ∀ {a b c}, P a b → P b c → P a c
  modify : ∀ (s : Server) fd {f}, (∀ c, SameBuffers c (f c)) → P s (s.modify fd f)
  peerMap : ∀ s m, P s { s with peerMap := m }
  dataFdMap : ∀ s m, P s { s with dataFdMap := m }
  act : ∀ (s : Server) a, P s (s.act a)
  close : ∀ (s : Server) fd, P s (s.close fd)
  append : ∀ (s : Server) fd dataChannel msgType {body}, fd ∈ s.clients →
    body.length ≤ MAX_TCP_MSG_PAYLOAD →
    P s (s.appendSendBuffer fd dataChannel (tcpMsgHeader msgType body.length) body).2
  flush : ∀ (s : Server) fd dataChannel, P s (s.flushBuffer fd dataChannel).2
  clear : ∀ (s : Server) fd dataChannel, P s (s.clearSendBuffer fd dataChannel)

variable {P : Server → Server → Prop}

namespace SendEffects

variable (h : SendEffects P)

include h

theorem kill (s : Server) (fd : Fd) : P s (s.kill fd) :=
  h.modify s fd fun _ => ⟨rfl, rfl, rfl, rfl, rfl, rfl, rfl⟩

theorem findClientOwnerByPeerId (s : Server) (peerId : Nat) :
    P s (s.findClientOwnerByPeerId peerId).2 := by
  unfold Server.findClientOwnerByPeerId
  split
  · exact h.refl s
  · exact h.peerMap s _

theorem findClientByPeerId (s : Server) (peerId : Nat) : P s (s.findClientByPeerId peerId).2 :=
  h.findClientOwnerByPeerId s peerId

theorem flushSendBuf (s : Server) (fd : Fd) : P s (s.flushSendBuf fd) := by
  unfold Server.flushSendBuf
  dsimp only
  split
  · exact h.trans (h.flush s fd false) (h.kill _ fd)
  · exact h.flush s fd false

theorem closeDataChannel (s : Server) (fd : Fd) : P s (s.closeDataChannel fd) := by
  have hclear : ∀ s : Server,
      P s ((s.clearSendBuffer fd true).modify fd fun c => { c with dataRecvBuf := [] }) :=
    fun s => h.trans (h.clear s fd true)
      (h.modify _ fd fun _ => ⟨rfl, rfl, rfl, rfl, rfl, rfl, rfl⟩)
  unfold Server.closeDataChannel
  split
  · exact hclear s
  · refine h.trans (h.dataFdMap s _)
      (h.trans (h.modify _ fd fun _ => ?_) (h.trans (h.close _ _) (hclear _)))
    exact ⟨rfl, rfl, rfl, rfl, rfl, rfl, rfl⟩

theorem sendMsg (s : Server) (fd : Fd) (msgType : UInt8) (body : Bytes) (carries : UInt8 × Bytes) :
    P s (s.sendMsg fd msgType body carries).2 := by
  have hmodify : ∀ s : Server,
      P s (s.modify fd fun c => { c with rejected := c.rejected ++ [carries] }) :=
    fun s => h.modify s fd fun _ => ⟨rfl, rfl, rfl, rfl, rfl, rfl, rfl⟩
  unfold Server.sendMsg
  split
  · exact h.refl s
  next hmem =>
  split
  · exact h.refl s
  split
  · exact hmodify s
  next hlen =>
  have happend := h.append s fd false msgType (not_not.mp hmem) (Nat.le_of_not_lt hlen)
  generalize s.appendSendBuffer fd false (tcpMsgHeader msgType body.length) body = res at happend ⊢
  obtain ⟨ok, s₁⟩ := res
  dsimp only at happend ⊢
  split
  · have hrejected := h.trans happend (hmodify s₁)
    split
    · exact h.trans hrejected (h.kill _ fd)
    · exact hrejected
  · have hsent : P s ((s₁.modify fd fun c => { c with sent := c.sent ++ [carries] }).act
        (.output fd .signal (carries.1 :: carries.2) body)) := by
      refine h.trans happend (h.trans (h.modify s₁ fd fun _ => ?_) (h.act _ _))
      exact ⟨rfl, rfl, rfl, rfl, rfl, rfl, rfl⟩
    have hflushed := h.trans hsent (h.flushSendBuf _ fd)
    split
    · exact h.trans hflushed (h.kill _ fd)
    · exact hflushed

theorem encryptForClient (s : Server) (fd : Fd) (msgType : UInt8) (body : Bytes) :
    P s (s.encryptForClient K fd msgType body).2 := by
  unfold Server.encryptForClient
  dsimp only
  have hmodify := h.modify s fd (f := fun c =>
    { c with secureCipher := ((s.client fd).secureCipher.encrypt K (msgType :: body) []).2 })
    fun _ => ⟨rfl, rfl, rfl, rfl, rfl, rfl, rfl⟩
  split
  · exact h.trans hmodify (h.kill _ fd)
  · exact hmodify

theorem sendClientMsg (s : Server) (fd : Fd) (msgType : UInt8) (body : Bytes) :
    P s (s.sendClientMsg K fd msgType body).2 := by
  unfold Server.sendClientMsg
  split
  · exact h.refl s
  dsimp only
  generalize hres :
    (if (s.client fd).secureEnabled = true ∧ (s.client fd).serverAuthOk = true then _ else _) = res
  have hsent : P s res.2 := by
    subst hres
    split
    · have hwrap := h.encryptForClient K s fd msgType body
      generalize s.encryptForClient K fd msgType body = res at hwrap ⊢
      obtain ⟨wrapped, s₁⟩ := res
      dsimp only at hwrap ⊢
      split
      · exact h.trans hwrap (h.sendMsg s₁ fd MSG_ENCRYPTED wrapped (msgType, body))
      · exact hwrap
    split
    · exact h.sendMsg s fd msgType body (msgType, body)
    · exact h.kill s fd
  split
  · exact h.trans hsent (h.kill _ fd)
  · exact hsent

theorem sendError (s : Server) (fd : Fd) (text : String) (code : AuthErrorCode) :
    P s (s.sendError K fd text code) := by
  unfold Server.sendError
  dsimp only
  split
  · exact h.sendClientMsg K s fd MSG_ERROR _
  · exact h.sendMsg s fd MSG_ERROR _ _

theorem flushDataSendBuf (s : Server) (fd : Fd) : P s (s.flushDataSendBuf fd).2 := by
  unfold Server.flushDataSendBuf
  split
  · exact h.refl s
  dsimp only
  split
  · exact h.trans (h.flush s fd true) (h.closeDataChannel _ fd)
  · exact h.flush s fd true

theorem sendDataMsg (s : Server) (fd : Fd) (msgType : UInt8) (body : Bytes) :
    P s (s.sendDataMsg K fd msgType body).2 := by
  unfold Server.sendDataMsg
  dsimp only
  split
  · exact h.refl s
  next hopen =>
  have hmem : fd ∈ s.clients := mem_of_dataFd (fun hnone => hopen (Or.inl hnone))
  split
  · exact h.refl s
  split
  · exact h.refl s
  generalize ((s.client fd).dataCipher.encrypt K (msgType :: body) []) = res
  have hmem' := (mem_modify s fd (fun c => { c with dataCipher := res.2 }) fd).mpr hmem
  have hmodify := h.modify s fd (f := fun c => { c with dataCipher := res.2 })
    fun _ => ⟨rfl, rfl, rfl, rfl, rfl, rfl, rfl⟩
  generalize (s.modify fd fun c => { c with dataCipher := res.2 }) = s₁ at hmem' hmodify ⊢
  split
  · exact h.trans hmodify (h.kill _ fd)
  split
  · exact hmodify
  next hlen =>
  have happend := h.append s₁ fd true MSG_ENCRYPTED hmem' (Nat.le_of_not_lt hlen)
  generalize s₁.appendSendBuffer fd true (tcpMsgHeader MSG_ENCRYPTED res.1.length) res.1 =
    put at happend ⊢
  obtain ⟨ok, s₂⟩ := put
  dsimp only at happend ⊢
  split
  · exact h.trans hmodify (h.trans happend (h.closeDataChannel _ fd))
  · have hput :=
      h.trans hmodify (h.trans happend (h.act s₂ (.output fd .data (msgType :: body) res.1)))
    split
    · exact h.trans hput (h.closeDataChannel _ fd)
    · exact h.trans hput (h.flushDataSendBuf _ fd)

theorem sendEncryptedUdp (s : Server) (dst : Fd) (plain : Bytes) :
    P s (s.sendEncryptedUdp K dst plain) := by
  unfold Server.sendEncryptedUdp
  dsimp only
  split
  · exact h.refl s
  have hmodify := h.modify s dst (f := fun c => { c with
    udpCipher := ((s.client dst).udpCipher.encrypt K plain []).2 })
    fun _ => ⟨rfl, rfl, rfl, rfl, rfl, rfl, rfl⟩
  split
  · exact h.trans hmodify (h.kill _ dst)
  · exact h.trans hmodify (h.act _ _)

theorem foldl {α : Type} {f : Server → α → Server} (hf : ∀ s a, P s (f s a)) (xs : List α) :
    ∀ s, P s (xs.foldl f s) := by
  induction xs with
  | nil => exact h.refl
  | cons x xs ih => exact fun s => h.trans (hf s x) (ih (f s x))

theorem broadcastToMember (msgType : UInt8) (body : Bytes) (excludePeerId : Nat) (s : Server)
    (peerId : Nat) :
    P s (Server.broadcastToMember K msgType body excludePeerId s peerId) := by
  unfold Server.broadcastToMember
  split
  · exact h.refl s
  have hfind := h.findClientByPeerId s peerId
  generalize s.findClientByPeerId peerId = found at hfind ⊢
  obtain ⟨target, s₁⟩ := found
  dsimp only at hfind ⊢
  split
  · exact h.trans hfind (h.sendClientMsg K s₁ _ msgType body)
  · exact hfind

theorem broadcastToRoom (s : Server) (roomId : Nat) (msgType : UInt8) (body : Bytes)
    (excludePeerId : Nat) :
    P s (s.broadcastToRoom K roomId msgType body excludePeerId) := by
  unfold Server.broadcastToRoom
  split
  · exact h.refl s
  · exact h.trans (h.act s _) (h.foldl (h.broadcastToMember K msgType body excludePeerId) _ _)

theorem sendRelayReady (s : Server) (fd : Fd) (peerId : Nat) : P s (s.sendRelayReady K fd peerId) :=
  h.sendClientMsg K s fd MSG_RELAY_READY _

theorem notifyRelayPeer (fd : Fd) (s : Server) (peerId : Nat) :
    P s (Server.notifyRelayPeer K fd s peerId) := by
  unfold Server.notifyRelayPeer
  split
  · exact h.refl s
  have hfind := h.findClientByPeerId s peerId
  generalize s.findClientByPeerId peerId = found at hfind ⊢
  obtain ⟨other, s₁⟩ := found
  dsimp only at hfind ⊢
  split
  · exact h.trans hfind (h.trans (h.sendRelayReady K s₁ fd _) (h.sendRelayReady K _ _ _))
  · exact hfind

theorem notifyRelayPeers (s : Server) (fd : Fd) : P s (s.notifyRelayPeers K fd) := by
  unfold Server.notifyRelayPeers
  split
  · exact h.refl s
  · exact h.foldl (h.notifyRelayPeer K fd) _ s

end SendEffects

/-! ### Rooms -/

/-- The changes that the sweep of expired leases and the end of a membership
    are made of. -/
structure RoomEffects (P : Server → Server → Prop) : Prop extends SendEffects P where
  rooms : ∀ s m, P s { s with rooms := m }
  free : ∀ s ids, P s { s with freePeerIds := ids }
  revision : ∀ s n, P s { s with roomListRevision := n }
  publish : ∀ s m l, P s { s with publishedRooms := m, published := l }

namespace RoomEffects

variable (h : RoomEffects P)

include h

theorem pushRoomList (body : Bytes) (s : Server) (fd : Fd) :
    P s (Server.pushRoomList K body s fd) := by
  unfold Server.pushRoomList
  dsimp only
  split
  · exact h.refl s
  · exact h.sendClientMsg K s fd MSG_ROOM_LIST_PUSH body

theorem broadcastRoomListPush (s : Server) : P s (s.broadcastRoomListPush K) := by
  unfold Server.broadcastRoomListPush
  dsimp only
  split
  · exact h.refl s
  have hrev := h.revision s (s.roomListRevision + 1)
  split
  · exact hrev
  · exact h.trans hrev (h.trans (h.publish _ _ _) (h.foldl (h.pushRoomList K _) _ _))

theorem setRoom (s : Server) (roomId : Nat) (room : Room) : P s (s.setRoom roomId room) :=
  h.rooms s _

theorem releasePeerId (s : Server) (peerId : Nat) : P s (s.releasePeerId peerId) := by
  unfold Server.releasePeerId
  split
  · exact h.refl s
  have hfind := h.findClientOwnerByPeerId s peerId
  generalize s.findClientOwnerByPeerId peerId = found at hfind ⊢
  obtain ⟨owner, s₁⟩ := found
  dsimp only at hfind ⊢
  split
  · exact hfind
  · exact h.trans hfind (h.free s₁ _)

theorem removeMember (s : Server) (roomId peerId : Nat) : P s (s.removeMember roomId peerId) := by
  unfold Server.removeMember
  split
  · exact h.refl s
  dsimp only
  split
  · exact h.trans (h.setRoom s roomId _) (h.rooms _ _)
  · exact h.setRoom s roomId _

theorem rollbackNewMembership (s : Server) (fd : Fd) (roomId : Nat) :
    P s (s.rollbackNewMembership fd roomId) := by
  refine h.trans (h.removeMember s roomId _) (h.modify _ fd fun _ => ?_)
  exact ⟨rfl, rfl, rfl, rfl, rfl, rfl, rfl⟩

theorem setLeases (s : Server) (roomId : Nat) (f : List RoomLease → List RoomLease) :
    P s (s.setLeases roomId f) := by
  unfold Server.setLeases
  split
  · exact h.refl s
  · exact h.setRoom s roomId _

theorem expireLease (s : Server) (roomId i : Nat) (lease : RoomLease) :
    P s (s.expireLease K roomId i lease) := by
  unfold Server.expireLease
  dsimp only
  have hsent :=
    h.trans (h.broadcastToRoom K s roomId MSG_PEER_LEFT
      (ByteBuffer.writeU32 lease.peerId) lease.peerId)
    (h.setLeases _ roomId (·.eraseIdx i))
  have hfind := h.trans hsent (h.findClientByPeerId _ lease.peerId)
  split
  · exact hfind
  · exact h.trans hfind (h.releasePeerId _ lease.peerId)

theorem hasLiveSession (s : Server) (roomId peerId : Nat) :
    P s (s.hasLiveSession roomId peerId).2 :=
  h.findClientByPeerId s peerId

theorem sweepLeases (roomId now rounds : Nat) : ∀ (i : Nat) (s : Server),
    P s (Server.sweepLeases K roomId now rounds i s).2 := by
  induction rounds with
  | zero => exact fun _ s => h.refl s
  | succ rounds ih =>
    intro i s
    unfold Server.sweepLeases
    split
    · exact h.refl s
    next old _ =>
    have hlive := h.hasLiveSession s roomId old.peerId
    generalize s.hasLiveSession roomId old.peerId = found at hlive ⊢
    obtain ⟨live, s₁⟩ := found
    dsimp only at hlive ⊢
    have hset := h.trans hlive (h.setLeases s₁ roomId (·.set i (refreshLease old live now).1))
    split
    · exact h.trans hset (h.trans (h.expireLease K _ roomId i _) (ih i _))
    · exact h.trans hset (ih (i + 1) _)

theorem sweepRoom (now : Nat) (acc : Bool × List Nat × Server) (roomId : Nat) :
    P acc.2.2 (Server.sweepRoom K now acc roomId).2.2 := by
  obtain ⟨changed, emptyRooms, s⟩ := acc
  unfold Server.sweepRoom
  dsimp only
  split
  · exact h.refl s
  next room _ =>
  have hsweep := h.sweepLeases K roomId now room.leases.length 0 s
  generalize Server.sweepLeases K roomId now room.leases.length 0 s = res at hsweep ⊢
  obtain ⟨c, s₁⟩ := res
  dsimp only at hsweep ⊢
  split
  · exact hsweep
  · exact h.trans hsweep (h.setRoom s₁ roomId _)

theorem foldl_sweepRoom (now : Nat) (ids : List Nat) : ∀ acc : Bool × List Nat × Server,
    P acc.2.2 (ids.foldl (Server.sweepRoom K now) acc).2.2 := by
  induction ids with
  | nil => exact fun acc => h.refl acc.2.2
  | cons id ids ih => exact fun acc => h.trans (h.sweepRoom K now acc id) (ih _)

theorem cleanupExpiredLeases (s : Server) (now : Nat) : P s (s.cleanupExpiredLeases K now) := by
  unfold Server.cleanupExpiredLeases
  have hsweep := h.foldl_sweepRoom K now s.rooms.rooms.keys (false, [], s)
  generalize s.rooms.rooms.keys.foldl (Server.sweepRoom K now) (false, [], s) = res at hsweep ⊢
  obtain ⟨changed, emptyRooms, s₁⟩ := res
  dsimp only at hsweep ⊢
  have herase := h.trans hsweep
    (h.foldl (f := fun s roomId => { s with rooms := s.rooms.eraseRoom roomId })
    (fun s _ => h.rooms s _) emptyRooms s₁)
  split
  · exact h.trans herase (h.broadcastRoomListPush K _)
  · exact herase

end RoomEffects

end Server

end VlanConnect
