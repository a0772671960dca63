/-
  VlanConnect/Server/SendAccounting.lean
  ======================================
  **The send buffers of the server.**

  The global byte count is the sum of all send buffers and within its limit, and
  on both streams of a session the bytes that `send` has taken, followed by the
  buffer, are whole frames in the order in which they were accepted.

  All changes of a buffer come down to `Buffered.update`: the count moves by what
  the buffers of one session move by.
-/
import VlanConnect.Server.Accounting

namespace VlanConnect

open PieceTable Census

namespace Server

variable (K : Crypto)

def framesOf (c : ClientSession) (dataChannel : Bool) : List Bytes :=
  if dataChannel then c.dataFrames else c.frames

def writtenOf (c : ClientSession) (dataChannel : Bool) : Bytes :=
  if dataChannel then c.dataWritten else c.written

/-- The bytes of both buffers of a session. -/
def buffered (c : ClientSession) : Nat := c.sendBuf.length + c.dataSendBuf.length

/-- A header and the body it announces. -/
def IsFrame (f : Bytes) : Prop :=
  ∃ msgType body, body.length ≤ MAX_TCP_MSG_PAYLOAD ∧ f = tcpMsgHeader msgType body.length ++ body

structure Stream (c : ClientSession) (dataChannel : Bool) : Prop where
  bounded : (sendBufOf c dataChannel).length ≤ MAX_TCP_SEND_BUF
  bytes : writtenOf c dataChannel ++ sendBufOf c dataChannel = (framesOf c dataChannel).flatten
  whole : ∀ f ∈ framesOf c dataChannel, IsFrame f

structure Buffered (limits : ServerLimits) (s : Server) : Prop where
  config : s.limits = limits
  total : s.globalSendBytes = total buffered s.clients
  max : s.globalSendBytes ≤ limits.maxSendBufferBytes
  stream : ∀ {fd : Fd} {c : ClientSession}, s.clients[fd]? = some c →
      ∀ dataChannel, Stream c dataChannel

/-! ### One session -/

theorem Stream.congr {c c' : ClientSession} {dataChannel : Bool} (h : Stream c dataChannel)
    (hbuf : sendBufOf c' dataChannel = sendBufOf c dataChannel)
    (hwritten : writtenOf c' dataChannel = writtenOf c dataChannel)
    (hframes : framesOf c' dataChannel = framesOf c dataChannel) : Stream c' dataChannel := by
  constructor
  · rw [hbuf]
    exact h.bounded
  · rw [hwritten, hbuf, hframes]
    exact h.bytes
  · rw [hframes]
    exact h.whole

theorem SameBuffers.stream {c c' : ClientSession} (h : SameBuffers c c') {dataChannel : Bool}
    (hs : Stream c dataChannel) :
    Stream c' dataChannel := by
  cases dataChannel with
  | false => exact hs.congr h.sendBuf h.written h.frames
  | true => exact hs.congr h.dataSendBuf h.dataWritten h.dataFrames

theorem SameBuffers.buffered {c c' : ClientSession} (h : SameBuffers c c') :
    buffered c' = buffered c := by
  unfold Server.buffered
  rw [h.sendBuf, h.dataSendBuf]

/-- The other stream of a session is as it was. -/
theorem stream_other {c c' : ClientSession} {dataChannel : Bool}
    (hbuf : sendBufOf c' (!dataChannel) = sendBufOf c (!dataChannel))
    (hwritten : writtenOf c' (!dataChannel) = writtenOf c (!dataChannel))
    (hframes : framesOf c' (!dataChannel) = framesOf c (!dataChannel)) (hs : ∀ ch, Stream c ch)
    (hthis : Stream c' dataChannel) (ch : Bool) : Stream c' ch := by
  by_cases hch : ch = dataChannel
  · rw [hch]
    exact hthis
  · obtain rfl : ch = !dataChannel := by
      cases ch <;> cases dataChannel <;> simp_all
    exact (hs (!dataChannel)).congr hbuf hwritten hframes

theorem buffered_setSendBuf (c : ClientSession) (dataChannel : Bool) (buf : Bytes) :
    buffered (setSendBuf c dataChannel buf) + (sendBufOf c dataChannel).length =
    buffered c + buf.length := by
  cases dataChannel with
  | false =>
    show buf.length + c.dataSendBuf.length + c.sendBuf.length =
      c.sendBuf.length + c.dataSendBuf.length + buf.length
    omega
  | true =>
    show c.sendBuf.length + buf.length + c.dataSendBuf.length =
      c.sendBuf.length + c.dataSendBuf.length + buf.length
    omega

/-- The buffer after an accepted message. -/
def accept (c : ClientSession) (dataChannel : Bool) (first second : Bytes) : ClientSession :=
  recordFrame (setSendBuf c dataChannel (sendBufOf c dataChannel ++ first ++ second)) dataChannel
    (first ++ second)

theorem buffered_accept (c : ClientSession) (dataChannel : Bool) (first second : Bytes) :
    buffered (accept c dataChannel first second) = buffered c + (first.length + second.length) := by
  have h := buffered_setSendBuf c dataChannel (sendBufOf c dataChannel ++ first ++ second)
  have hrecord : buffered (accept c dataChannel first second) =
      buffered (setSendBuf c dataChannel (sendBufOf c dataChannel ++ first ++ second)) := by
    cases dataChannel <;> rfl
  simp only [List.length_append] at h
  omega

theorem stream_accept {c : ClientSession} {dataChannel : Bool} (hs : ∀ ch, Stream c ch)
    {first second : Bytes} (hframe : IsFrame (first ++ second))
    (hroom : (sendBufOf c dataChannel).length + (first.length + second.length) ≤ MAX_TCP_SEND_BUF)
    (ch : Bool) :
    Stream (accept c dataChannel first second) ch := by
  have hbuf : sendBufOf (accept c dataChannel first second) dataChannel = sendBufOf c dataChannel ++
      first ++ second := by
    cases dataChannel <;> rfl
  have hwritten : writtenOf (accept c dataChannel first second) dataChannel =
      writtenOf c dataChannel := by
    cases dataChannel <;> rfl
  have hframes : framesOf (accept c dataChannel first second) dataChannel =
      framesOf c dataChannel ++ [first ++ second] := by
    cases dataChannel <;> rfl
  have hthis : Stream (accept c dataChannel first second) dataChannel := by
    constructor
    · rw [hbuf, List.length_append, List.length_append]
      omega
    · rw [hwritten, hbuf, hframes, List.flatten_append, ← (hs dataChannel).bytes]
      simp
    · intro f hf
      rw [hframes, List.mem_append, List.mem_singleton] at hf
      rcases hf with hf | rfl
      · exact (hs dataChannel).whole f hf
      · exact hframe
  refine stream_other ?_ ?_ ?_ hs hthis ch
  · cases dataChannel <;> rfl
  · cases dataChannel <;> rfl
  · cases dataChannel <;> rfl

/-- The buffer after `send` has taken bytes of it. -/
def take (c : ClientSession) (dataChannel : Bool) (buf : Bytes) : ClientSession :=
  recordWritten (setSendBuf c dataChannel buf) dataChannel
    ((sendBufOf c dataChannel).take ((sendBufOf c dataChannel).length - buf.length))

theorem stream_take {c : ClientSession} {dataChannel : Bool} (hs : ∀ ch, Stream c ch) {buf : Bytes}
    (hbuf : buf = (sendBufOf c dataChannel).drop ((sendBufOf c dataChannel).length - buf.length))
    (ch : Bool) :
    Stream (take c dataChannel buf) ch := by
  have hbuf' : sendBufOf (take c dataChannel buf) dataChannel = buf := by
    cases dataChannel <;> rfl
  have hwritten : writtenOf (take c dataChannel buf) dataChannel = writtenOf c dataChannel ++
      (sendBufOf c dataChannel).take ((sendBufOf c dataChannel).length - buf.length) := by
    cases dataChannel <;> rfl
  have hframes : framesOf (take c dataChannel buf) dataChannel = framesOf c dataChannel := by
    cases dataChannel <;> rfl
  have hthis : Stream (take c dataChannel buf) dataChannel := by
    constructor
    · have hle : buf.length ≤ (sendBufOf c dataChannel).length := by
        rw [hbuf, List.length_drop]
        exact Nat.sub_le _ _
      rw [hbuf']
      exact hle.trans (hs dataChannel).bounded
    · rw [hwritten, hbuf', hframes, ← (hs dataChannel).bytes, List.append_assoc]
      congr 1
      conv_lhs => rhs; rw [hbuf]
      exact List.take_append_drop _ _
    · intro f hf
      rw [hframes] at hf
      exact (hs dataChannel).whole f hf
  refine stream_other ?_ ?_ ?_ hs hthis ch
  · cases dataChannel <;> rfl
  · cases dataChannel <;> rfl
  · cases dataChannel <;> rfl

/-- The stream ends. -/
def finish (c : ClientSession) (dataChannel : Bool) : ClientSession :=
  recordEnd (setSendBuf c dataChannel []) dataChannel

theorem stream_finish {c : ClientSession} {dataChannel : Bool} (hs : ∀ ch, Stream c ch)
    (ch : Bool) :
    Stream (finish c dataChannel) ch := by
  have hthis : Stream (finish c dataChannel) dataChannel := by
    cases dataChannel with
    | false => exact ⟨Nat.zero_le _, rfl, by simp [framesOf, finish, recordEnd, setSendBuf]⟩
    | true => exact ⟨Nat.zero_le _, rfl, by simp [framesOf, finish, recordEnd, setSendBuf]⟩
  refine stream_other ?_ ?_ ?_ hs hthis ch
  · cases dataChannel <;> rfl
  · cases dataChannel <;> rfl
  · cases dataChannel <;> rfl

/-! ### The flush loop -/

/-- What is left is a suffix, and the global count goes down by the rest. -/
theorem flushLoop_spec (sends : List SendResult) :
    ∀ (buf : Bytes) (globalSendBytes : Nat), buf.length ≤ globalSendBytes →
    ∃ count, count ≤ buf.length ∧ (flushLoop buf globalSendBytes sends).2.1 = buf.drop count ∧
      (flushLoop buf globalSendBytes sends).2.2.1 + count = globalSendBytes := by
  induction sends with
  | nil =>
    intro buf globalSendBytes _
    exact ⟨0, Nat.zero_le _, rfl, rfl⟩
  | cons r rs ih =>
    intro buf globalSendBytes hle
    unfold flushLoop
    split
    · exact ⟨0, Nat.zero_le _, rfl, rfl⟩
    split
    · next n =>
      dsimp only
      generalize hcount : min (max n 1) buf.length = count
      have hcount' : count ≤ buf.length := by
        rw [← hcount]
        exact Nat.min_le_right _ _
      obtain ⟨more, hmore, hdrop, hsum⟩ := ih (buf.drop count) (globalSendBytes - count)
        (by rw [List.length_drop]; omega)
      rw [List.length_drop] at hmore
      refine ⟨count + more, by omega, ?_, by omega⟩
      rw [hdrop, List.drop_drop]
    · exact ⟨0, Nat.zero_le _, rfl, rfl⟩
    · exact ⟨0, Nat.zero_le _, rfl, rfl⟩

/-! ### The server -/

section

variable {limits : ServerLimits} {s : Server}

/-- The sessions, the count and the limits are the same. -/
structure SameSessions (s s' : Server) : Prop where
  limits : s'.limits = s.limits
  clients : s'.clients = s.clients
  globalSendBytes : s'.globalSendBytes = s.globalSendBytes

theorem SameSessions.trans {a b c : Server} (h₁ : SameSessions a b) (h₂ : SameSessions b c) :
    SameSessions a c :=
  ⟨h₂.limits.trans h₁.limits, h₂.clients.trans h₁.clients,
    h₂.globalSendBytes.trans h₁.globalSendBytes⟩

theorem sameSessions_time (s : Server) : SameSessions s s.time.2 := by
  unfold time
  split
  · exact ⟨rfl, rfl, rfl⟩
  · exact ⟨rfl, rfl, rfl⟩

theorem sameSessions_countDown (s : Server) (counter : Nat) :
    SameSessions s (s.countDown counter) := by
  unfold countDown
  split
  · exact ⟨rfl, rfl, rfl⟩
  · exact ⟨rfl, rfl, rfl⟩

theorem sameSessions_random (s : Server) (size : Nat) :
    SameSessions s (s.secureRandomBytes size).2 := by
  unfold secureRandomBytes
  split
  · exact ⟨rfl, rfl, rfl⟩
  · exact ⟨rfl, rfl, rfl⟩

theorem sameSessions_take (s : Server) (ip : Nat) (bucket : IpBucket) (burst refillSeconds : Rat) :
    SameSessions s (s.takeIpToken ip bucket burst refillSeconds).2 :=
  (sameSessions_time s).trans ⟨rfl, rfl, rfl⟩

theorem sameSessions_removePending (s : Server) (fd : Fd) (closeFd : Bool) :
    SameSessions s (s.removePending fd closeFd) := by
  unfold removePending
  split
  · exact ⟨rfl, rfl, rfl⟩
  next pc _ =>
  cases hrecord : s.ipStates[pc.remoteIpv4]? with
  | none =>
    have hcount := sameSessions_countDown s 0
    dsimp only
    split
    · exact hcount.trans ⟨rfl, rfl, rfl⟩
    · exact hcount.trans ⟨rfl, rfl, rfl⟩
  | some state =>
    have hcount := (sameSessions_countDown s state.pending).trans (sameSessions_time _)
    dsimp only
    generalize (s.countDown state.pending).time = read at hcount ⊢
    split
    · exact hcount.trans ⟨rfl, rfl, rfl⟩
    · exact hcount.trans ⟨rfl, rfl, rfl⟩

theorem sameSessions_handleTcpAccept (s : Server) (fd : Fd) (remoteIp : Nat) :
    SameSessions s (s.handleTcpAccept fd remoteIp) := by
  unfold handleTcpAccept
  have hopen : SameSessions s { s with openFds := s.openFds.insert fd } := ⟨rfl, rfl, rfl⟩
  have htime := hopen.trans (sameSessions_time _)
  dsimp only
  generalize ({ s with openFds := s.openFds.insert fd } : Server).time = read at htime ⊢
  obtain ⟨now, s₁⟩ := read
  dsimp only at htime ⊢
  split
  · exact htime.trans ⟨rfl, rfl, rfl⟩
  generalize { (s₁.ipStates[remoteIp]?).getD {} with lastActivity := now } = state
  have hseen : SameSessions s { s₁ with ipStates := s₁.ipStates.insert remoteIp state } :=
    htime.trans ⟨rfl, rfl, rfl⟩
  have htaken := hseen.trans (sameSessions_take _ remoteIp .accepts 16 1)
  generalize ({ s₁ with ipStates := s₁.ipStates.insert remoteIp state } : Server).takeIpToken
    remoteIp .accepts 16 1 =
    taken at htaken ⊢
  obtain ⟨ok, s₂⟩ := taken
  dsimp only at htaken ⊢
  split
  · exact htaken.trans ⟨rfl, rfl, rfl⟩
  · exact (htaken.trans (sameSessions_time s₂)).trans ⟨rfl, rfl, rfl⟩

theorem Buffered.same {s' : Server} (h : Buffered limits s) (hs : SameSessions s s') :
    Buffered limits s' := by
  constructor
  · exact hs.limits.trans h.config
  · rw [hs.globalSendBytes, hs.clients]
    exact h.total
  · rw [hs.globalSendBytes]
    exact h.max
  · intro fd c hc
    rw [hs.clients] at hc
    exact h.stream hc

/-- The buffers of one session change, and the count with them. -/
theorem Buffered.update (h : Buffered limits s) {fd : Fd} {c : ClientSession}
    (hc : s.clients[fd]? = some c) {f : ClientSession → ClientSession} {n : Nat}
    (hbytes : n + buffered c = s.globalSendBytes + buffered (f c))
    (hmax : n ≤ limits.maxSendBufferBytes) (hstream : ∀ dataChannel, Stream (f c) dataChannel) :
    Buffered limits { s.modify fd f with globalSendBytes := n } := by
  have hclients : (s.modify fd f).clients = s.clients.insert fd (f c) := alter_map_eq hc f
  constructor
  · exact h.config
  · show n = PieceTable.total buffered (s.modify fd f).clients
    have htotal := h.total
    rw [total_erase buffered hc] at htotal
    rw [hclients, total_insert]
    omega
  · exact hmax
  · intro g d hd
    have hd' : (s.modify fd f).clients[g]? = some d := hd
    rw [hclients, Std.ExtTreeMap.getElem?_insert] at hd'
    split at hd'
    · obtain rfl := Option.some.inj hd'
      exact hstream
    · exact h.stream hd'

theorem Buffered.le_global (h : Buffered limits s) {fd : Fd} {c : ClientSession}
    (hc : s.clients[fd]? = some c) :
    buffered c ≤ s.globalSendBytes := by
  rw [h.total, total_erase buffered hc]
  exact Nat.le_add_right _ _

theorem modify_of_none {fd : Fd} (hc : s.clients[fd]? = none) (f : ClientSession → ClientSession) :
    s.modify fd f = s := by
  unfold modify
  rw [alter_map_of_none hc]

theorem Buffered.modify (h : Buffered limits s) (fd : Fd) {f : ClientSession → ClientSession}
    (hf : ∀ c, SameBuffers c (f c)) : Buffered limits (s.modify fd f) := by
  cases hc : s.clients[fd]? with
  | none =>
    rw [modify_of_none hc]
    exact h
  | some c =>
    refine (h.update hc (f := f) (n := s.globalSendBytes) ?_ h.max ?_).same ⟨rfl, rfl, rfl⟩
    · rw [(hf c).buffered]
    · intro dataChannel
      exact (hf c).stream (h.stream hc dataChannel)

theorem isFrame_header {msgType : UInt8} {body : Bytes}
    (hbody : body.length ≤ MAX_TCP_MSG_PAYLOAD) :
    IsFrame (tcpMsgHeader msgType body.length ++ body) :=
  ⟨msgType, body, hbody, rfl⟩

/-- A message is accepted when there is room for it in both limits. -/
theorem Buffered.appendSendBuffer (h : Buffered limits s) {fd : Fd} (hfd : fd ∈ s.clients)
    (dataChannel : Bool) {first second : Bytes} (hframe : IsFrame (first ++ second)) :
    Buffered limits (s.appendSendBuffer fd dataChannel first second).2 := by
  obtain ⟨c, hc⟩ := exists_client hfd
  unfold Server.appendSendBuffer
  dsimp only
  rw [client_eq hc]
  split
  · split
    · exact h
    · exact h.modify fd fun _ => ⟨rfl, rfl, rfl, rfl, rfl, rfl, rfl⟩
  next hroom =>
  rw [h.config] at hroom
  simp only [not_or, Nat.not_lt] at hroom
  obtain ⟨hbuf, hadded, hglobal, hall⟩ := hroom
  rw [Nat.min_eq_left hadded] at hbuf
  rw [Nat.min_eq_left hall] at hglobal
  have hput : Buffered limits { s.modify fd (fun c => accept c dataChannel first second) with
      globalSendBytes := s.globalSendBytes + (first.length + second.length) } := by
    refine h.update hc ?_ (by omega) ?_
    · rw [buffered_accept]
      omega
    · exact stream_accept (h.stream hc) hframe (by omega)
  split
  · exact hput
  · exact hput.modify fd fun _ => ⟨rfl, rfl, rfl, rfl, rfl, rfl, rfl⟩

theorem Buffered.flushBuffer (h : Buffered limits s) (fd : Fd) (dataChannel : Bool) :
    Buffered limits (s.flushBuffer fd dataChannel).2 := by
  unfold Server.flushBuffer
  cases hc : s.clients[fd]? with
  | none =>
    have hnil : sendBufOf (s.client fd) dataChannel = [] := by
      unfold client
      rw [hc]
      cases dataChannel <;> rfl
    obtain ⟨count, hcount, hdrop, hsum⟩ :=
      flushLoop_spec s.env.sends [] s.globalSendBytes (Nat.zero_le _)
    rw [hnil]
    dsimp only
    rw [modify_of_none hc]
    rw [Nat.le_zero.mp hcount] at hsum
    exact h.same ⟨rfl, rfl, hsum⟩
  | some c =>
    rw [client_eq hc]
    have hle : (sendBufOf c dataChannel).length ≤ s.globalSendBytes := by
      refine Nat.le_trans ?_ (h.le_global hc)
      cases dataChannel with
      | false => exact Nat.le_add_right _ _
      | true => exact Nat.le_add_left _ _
    obtain ⟨count, hcount, hdrop, hsum⟩ :=
      flushLoop_spec s.env.sends (sendBufOf c dataChannel) s.globalSendBytes hle
    generalize flushLoop (sendBufOf c dataChannel) s.globalSendBytes s.env.sends =
      flushed at hdrop hsum ⊢
    obtain ⟨res, buf, globalSendBytes, sends⟩ := flushed
    dsimp only at hdrop hsum ⊢
    have hlen : buf.length = (sendBufOf c dataChannel).length - count := by
      rw [hdrop, List.length_drop]
    have hupdate : Buffered limits { s.modify fd (fun c => take c dataChannel buf) with
        globalSendBytes := globalSendBytes } := by
      refine h.update hc ?_ ?_ ?_
      · have hset := buffered_setSendBuf c dataChannel buf
        have htake : buffered (take c dataChannel buf) =
            buffered (setSendBuf c dataChannel buf) := by
          cases dataChannel <;> rfl
        omega
      · exact Nat.le_trans (by omega) h.max
      · refine stream_take (h.stream hc) ?_
        rw [hlen, Nat.sub_sub_self hcount]
        exact hdrop
    exact hupdate.same ⟨rfl, rfl, rfl⟩

theorem Buffered.clearSendBuffer (h : Buffered limits s) (fd : Fd) (dataChannel : Bool) :
    Buffered limits (s.clearSendBuffer fd dataChannel) := by
  unfold Server.clearSendBuffer
  dsimp only
  cases hc : s.clients[fd]? with
  | none =>
    have hnil : sendBufOf (s.client fd) dataChannel = [] := by
      unfold client
      rw [hc]
      cases dataChannel <;> rfl
    rw [hnil, modify_of_none hc]
    exact h.same ⟨rfl, rfl, rfl⟩
  | some c =>
    rw [client_eq hc]
    have hset := buffered_setSendBuf c dataChannel []
    have hfinish : buffered (finish c dataChannel) = buffered (setSendBuf c dataChannel []) := by
      cases dataChannel <;> rfl
    have hle := h.le_global hc
    refine h.update (f := fun c => finish c dataChannel) hc ?_ ?_ ?_
    · simp only [List.length_nil] at hset
      show s.globalSendBytes - (sendBufOf c dataChannel).length + buffered c =
        s.globalSendBytes + buffered (finish c dataChannel)
      omega
    · exact (Nat.sub_le _ _).trans h.max
    · exact stream_finish (h.stream hc)

/-- A session without bytes in its buffers goes. -/
theorem Buffered.erase (h : Buffered limits s) {fd : Fd} {c : ClientSession}
    (hc : s.clients[fd]? = some c) (hempty : buffered c = 0) :
    Buffered limits { s with clients := s.clients.erase fd } := by
  constructor
  · exact h.config
  · have htotal := h.total
    rw [total_erase buffered hc, hempty, Nat.zero_add] at htotal
    exact htotal
  · exact h.max
  · intro g d hd
    have hd' : (s.clients.erase fd)[g]? = some d := hd
    rw [Std.ExtTreeMap.getElem?_erase] at hd'
    split at hd'
    · cases hd'
    · exact h.stream hd'

theorem clients_clearSendBuffer {fd : Fd} {c : ClientSession} (hc : s.clients[fd]? = some c)
    (dataChannel : Bool) :
    (s.clearSendBuffer fd dataChannel).clients[fd]? = some (finish c dataChannel) :=
  clients_modify hc

theorem Buffered.leave (h : Buffered limits s) {fd : Fd} (hfd : fd ∈ s.clients) :
    Buffered limits (s.leave fd) := by
  obtain ⟨c, hc⟩ := exists_client hfd
  have hcleared := (h.clearSendBuffer fd false).clearSendBuffer fd true
  have hc' := clients_clearSendBuffer (clients_clearSendBuffer hc false) true
  unfold Server.leave
  dsimp only
  generalize (s.clearSendBuffer fd false).clearSendBuffer fd true = s₁ at hcleared hc' ⊢
  unfold releaseClientIp
  dsimp only
  split
  · have hidle := sameSessions_countDown s₁ 0
    have hc₂ : (s₁.countDown 0).clients[fd]? = some (finish (finish c false) true) := by
      rw [hidle.clients]
      exact hc'
    exact ((hcleared.same hidle).erase hc₂ rfl).same ⟨rfl, rfl, rfl⟩
  next state _ =>
  have hidle := (sameSessions_countDown s₁ state.clients).trans (sameSessions_time _)
  have hc₂ : (s₁.countDown state.clients).time.2.clients[fd]? =
      some (finish (finish c false) true) := by
    rw [hidle.clients]
    exact hc'
  have hgone := (hcleared.same hidle).erase hc₂ rfl
  exact hgone.same ⟨rfl, erase_alter _ _ _, rfl⟩

end

theorem buffered_events :
    EventEffects fun s s' => ∀ limits, Buffered limits s → Buffered limits s' where
  refl _ _ h := h
  trans h₁ h₂ limits h := h₂ limits (h₁ limits h)
  modify _ fd _ hf _ h := h.modify fd hf
  peerMap _ _ _ h := h.same ⟨rfl, rfl, rfl⟩
  dataFdMap _ _ _ h := h.same ⟨rfl, rfl, rfl⟩
  act _ _ _ h := h.same ⟨rfl, rfl, rfl⟩
  close _ _ _ h := h.same ⟨rfl, rfl, rfl⟩
  append _ _ dataChannel _ _ hfd hbody _ h :=
    h.appendSendBuffer hfd dataChannel (isFrame_header hbody)
  flush _ fd dataChannel _ h := h.flushBuffer fd dataChannel
  clear _ fd dataChannel _ h := h.clearSendBuffer fd dataChannel
  rooms _ _ _ h := h.same ⟨rfl, rfl, rfl⟩
  free _ _ _ h := h.same ⟨rfl, rfl, rfl⟩
  revision _ _ _ h := h.same ⟨rfl, rfl, rfl⟩
  publish _ _ _ _ h := h.same ⟨rfl, rfl, rfl⟩
  secureSessionMap _ _ _ h := h.same ⟨rfl, rfl, rfl⟩
  nextPeerId _ _ _ h := h.same ⟨rfl, rfl, rfl⟩
  control _ _ _ h := h.same ⟨rfl, rfl, rfl⟩
  time s _ h := h.same (sameSessions_time s)
  random s size _ h := h.same (sameSessions_random s size)
  take s ip bucket burst refillSeconds _ h :=
    h.same (sameSessions_take s ip bucket burst refillSeconds)
  leave _ _ hfd _ h := h.leave hfd
  removePending s fd closeFd _ h := h.same (sameSessions_removePending s fd closeFd)
  cleanupIpStates _ _ _ h := h.same ⟨rfl, rfl, rfl⟩

/-! ### New sessions -/

section

variable {limits : ServerLimits} {s : Server}

/-- A new session has said nothing yet. -/
theorem Buffered.insert (h : Buffered limits s) {fd : Fd} (hnew : s.clients[fd]? = none)
    {c : ClientSession} (hc : SameBuffers { tcpFd := fd, remoteIpv4 := c.remoteIpv4 } c) :
    Buffered limits { s with clients := s.clients.insert fd c } := by
  have hempty : buffered c = 0 := hc.buffered
  constructor
  · exact h.config
  · show s.globalSendBytes = PieceTable.total buffered (s.clients.insert fd c)
    rw [total_insert, erase_of_none hnew, hempty, Nat.zero_add]
    exact h.total
  · exact h.max
  · intro g d hd dataChannel
    have hd' : (s.clients.insert fd c)[g]? = some d := hd
    rw [Std.ExtTreeMap.getElem?_insert] at hd'
    split at hd'
    · obtain rfl := Option.some.inj hd'
      refine hc.stream ⟨?_, ?_, ?_⟩
      · cases dataChannel <;> exact Nat.zero_le _
      · cases dataChannel <;> rfl
      · cases dataChannel <;> simp [framesOf]
    · exact h.stream hd' dataChannel

theorem Buffered.promoteDataChannel (h : Buffered limits s) (fd : Fd) (remoteIp : Nat)
    (payload trailing : Bytes) :
    Buffered limits (s.promoteDataChannel K fd remoteIp payload trailing) := by
  unfold Server.promoteDataChannel
  have hinit := buffered_events.onSecureDataChannelInit K { s with
    pending := s.pending.erase fd } fd payload limits
    (h.same ⟨rfl, rfl, rfl⟩)
  dsimp only
  generalize Server.onSecureDataChannelInit K { s with pending := s.pending.erase fd } fd payload =
    s₁ at hinit ⊢
  have htrailing : ∀ (s' : Server) (c : Fd), Buffered limits s' → Buffered limits
      { s'.modify c (fun c => { c with dataRecvBuf := c.dataRecvBuf ++ trailing }) with
        control := .data c } := by
    intro s' c h'
    have hmodified := h'.modify c (f := fun c => { c with
      dataRecvBuf := c.dataRecvBuf ++ trailing })
      fun _ => ⟨rfl, rfl, rfl, rfl, rfl, rfl, rfl⟩
    exact hmodified.same ⟨rfl, rfl, rfl⟩
  cases s₁.ipStates[remoteIp]? with
  | some state =>
    have hcount := hinit.same (sameSessions_countDown s₁ state.pending)
    dsimp only
    generalize s₁.countDown state.pending = s₂ at hcount ⊢
    have hwritten : Buffered limits { s₂ with
        ipStates := s₁.ipStates.insert remoteIp { state with pending := state.pending - 1 } } :=
      hcount.same ⟨rfl, rfl, rfl⟩
    have hfind := buffered_events.findClientByDataFd _ fd limits hwritten
    split
    · split
      · exact hfind
      · exact htrailing _ _ hfind
    · exact hfind
  | none =>
    have hfind :=
      buffered_events.findClientByDataFd _ fd limits (hinit.same (sameSessions_countDown s₁ 0))
    dsimp only
    split
    · split
      · exact hfind
      · exact htrailing _ _ hfind
    · exact hfind

theorem Buffered.promoteSession (h : Buffered limits s) {fd : Fd} (hnew : s.clients[fd]? = none)
    (remoteIp : Nat) (recvBuf : Bytes) :
    Buffered limits (s.promoteSession fd remoteIp recvBuf) := by
  unfold Server.promoteSession
  dsimp only
  generalize hstate : (s.ipStates[remoteIp]?).getD {} = state
  have hwritten : SameSessions s { s with
    ipStates := s.ipStates.insert remoteIp state } := ⟨rfl, rfl, rfl⟩
  have hnew' : ({ s with ipStates := s.ipStates.insert remoteIp state } : Server).clients[fd]? =
    none := hnew
  split
  · exact (h.same hwritten).same (sameSessions_removePending _ fd true)
  clear hstate
  have h₁ := h.same hwritten
  generalize ({ s with ipStates := s.ipStates.insert remoteIp state } : Server) = s₁ at h₁ hnew' ⊢
  have htime := sameSessions_time s₁
  generalize s₁.time = read at htime ⊢
  obtain ⟨now, s₂⟩ := read
  dsimp only at htime ⊢
  have hidle := (htime.trans (sameSessions_countDown s₂ state.pending)).trans (sameSessions_time _)
  have hfresh : s₂.client fd = { tcpFd := fd } := by
    unfold client
    rw [htime.clients, hnew']
    rfl
  rw [hfresh]
  generalize (s₂.countDown state.pending).time = read at hidle ⊢
  obtain ⟨activity, s₃⟩ := read
  dsimp only at hidle ⊢
  have hnew₃ : s₃.clients[fd]? = none := by
    rw [hidle.clients]
    exact hnew'
  have hinserted := (h₁.same hidle).insert hnew₃ (c := { ({ tcpFd := fd } : ClientSession) with
    lastPing := now
    alive := true
    remoteIpv4 := remoteIp
    helloDeadline := now + CLIENT_HELLO_TIMEOUT_SEC
    recvBuf := recvBuf
    serverAuthOk := false }) ⟨rfl, rfl, rfl, rfl, rfl, rfl, rfl⟩
  exact hinserted.same ⟨rfl, rfl, rfl⟩

theorem Buffered.handlePendingData (h : Buffered limits s)
    (hapart : ∀ fd : Fd, fd ∈ s.pending → s.clients[fd]? = none) (fd : Fd) (chunk : Bytes) :
    Buffered limits (s.handlePendingData K fd chunk) := by
  unfold Server.handlePendingData
  split
  · exact h
  next pc hp =>
  have hnew : s.clients[fd]? = none := by
    apply hapart
    rw [Std.ExtTreeMap.mem_iff_isSome_getElem?, hp]
    rfl
  split
  · exact h.same (sameSessions_removePending s fd true)
  dsimp only
  have hbuf : Buffered limits { s with
      pending := s.pending.insert fd { pc with
        recvBuf := pc.recvBuf ++ chunk } } := h.same ⟨rfl, rfl, rfl⟩
  split
  · exact hbuf
  · exact hbuf.same (sameSessions_removePending _ fd true)
  split
  · exact hbuf.promoteDataChannel K fd pc.remoteIpv4 _ _
  · exact hbuf.promoteSession hnew pc.remoteIpv4 _

end

/-! ### Runs -/

variable {limits : ServerLimits} {hash salt : Bytes} {s : Server}

theorem buffered_start : Buffered limits (start limits hash salt) := by
  constructor
  · rfl
  · exact (total_empty buffered).symm
  · exact Nat.zero_le _
  · intro fd c hc
    unfold start at hc
    dsimp only at hc
    rw [Std.ExtTreeMap.getElem?_empty] at hc
    cases hc

theorem Reachable.buffered (h : Reachable K limits hash salt s) : Buffered limits s := by
  induction h with
  | start => exact buffered_start
  | @step s hs env e he ih =>
    have hprepared : Buffered limits (s.prepare env) := ih.same ⟨rfl, rfl, rfl⟩
    cases e with
    | accept fd remoteIp => exact hprepared.same (sameSessions_handleTcpAccept _ fd remoteIp)
    | readable fd chunk =>
      by_cases hp : fd ∈ s.pending
      · show Buffered limits ((s.prepare env).readable K fd chunk)
        have hp' : fd ∈ (s.prepare env).pending := hp
        unfold readable
        rw [if_pos hp']
        exact hprepared.handlePendingData K (fun g hg => (hs.pending_apart K hg).1) fd chunk
      · exact buffered_events.handle K _ (by simp)
          (by rintro g c heq; cases heq; exact hp) limits hprepared
    | datagram sender data => exact buffered_events.handle K _ (by simp) (by simp) limits hprepared
    | writable fd => exact buffered_events.handle K _ (by simp) (by simp) limits hprepared
    | hangup fd => exact buffered_events.handle K _ (by simp) (by simp) limits hprepared
    | timer => exact buffered_events.handle K _ (by simp) (by simp) limits hprepared
    | resume => exact buffered_events.handle K _ (by simp) (by simp) limits hprepared

end Server

end VlanConnect
