/-
  VlanConnect/Client/DataChannel.lean
  ===================================
  **The receiving side of the data channel** (`CliDataChannel` of
  `client-cli/src/cli_net.cpp`).

  `onReadable` takes whole frames off its buffer and hands each to
  `processMessage`, which may end the connection.  What comes of a stream of
  frames does not depend on how the network cuts it up (`data_channel_stream`).
-/
import VlanConnect.Lib.Framing
import VlanConnect.SecureFrame
import VlanConnect.SignalMessageValidator
import VlanConnect.ClientMessageValidator

namespace VlanConnect

open Framing ByteBuffer

inductive DataCallback where
  | connected
  | disconnected
  | relayData (srcPeerId trafficClass : Nat) (data : Bytes)
deriving DecidableEq

/-- The fields of `CliDataChannel` that receiving reads, and the callbacks so far. -/
structure DataReceiver where
  peerId : Nat := 0
  established : Bool := false
  /-- `m_securityMode` is `Secure`. -/
  secure : Bool := false
  cipher : SecureFrameCipher := {}
  needReconnect : Bool := false
  log : List DataCallback := []

namespace DataReceiver

/-- What the application does in a callback; the answer is whether the channel is still
    connected. -/
abbrev App := DataCallback → DataReceiver → Bool × DataReceiver

variable (K : Crypto) (app : App)

def notify (c : DataReceiver) (cb : DataCallback) : Bool × DataReceiver :=
  app cb { c with log := c.log ++ [cb] }

def failDataChannelFrame (c : DataReceiver) : DataReceiver :=
  let wasEstablished := c.established
  let c := { c with established := false }
  let c := if wasEstablished then (c.notify app .disconnected).2 else c
  if c.peerId ≠ 0 then { c with needReconnect := true } else c

/-- The messages themselves; an exception of the parser fails the channel. -/
def handleMessage (c : DataReceiver) (msgType : UInt8) (payload : Bytes) : Bool × DataReceiver :=
  if msgType = MSG_DATA_CHANNEL_ACK then { c with established := true }.notify app .connected
  else if msgType = MSG_TCP_RELAY_DATA then
    match readRelayHeader payload with
    | none => (false, c.failDataChannelFrame app)
    | some (h, data) =>
      if h.destination = c.peerId then c.notify app (.relayData h.source h.trafficClass data)
        else (true, c)
  else (true, c)

def processMessage (c : DataReceiver) (msgType : UInt8) (payload : Bytes) : Bool × DataReceiver :=
  match validateServerDataPayload msgType payload with
  | .malformed _ _ => (false, c.failDataChannelFrame app)
  | .unknownType => (true, c)
  | .valid =>
    if msgType ≠ MSG_ENCRYPTED ∨ ¬ c.secure then (false, c.failDataChannelFrame app)
    else
      let (plain, cipher) := c.cipher.decrypt K payload []
      let c := { c with cipher := cipher }
      match plain with
      | none | some [] => (false, c.failDataChannelFrame app)
      | some (innerType :: inner) =>
        match validateServerDataPayload innerType inner with
        | .malformed _ _ => (false, c.failDataChannelFrame app)
        | .unknownType => (true, c)
        | .valid => c.handleMessage app innerType inner

/-- The loop of `onReadable`. -/
def frames : Loop DataReceiver TcpFrame UInt8 where
  probe buf :=
    match probeFrame buf with
    | .incomplete => .incomplete
    | .corrupted => .corrupted
    | .frame f => .frame f f.frameLen
  handle c f := c.processMessage K app f.msgType f.payload
  fail c := c.failDataChannelFrame app

/-- The channel and its receive buffer, which is gone when the connection is; an empty
    chunk is the end of the stream. -/
def onReadable (r : DataReceiver × Option Bytes) (chunk : Bytes) : DataReceiver × Option Bytes :=
  if chunk = [] then
    match r.2 with
    | none => r
    | some _ => (r.1.failDataChannelFrame app, none)
  else (frames K app).read r chunk

def onReadableAll (c : DataReceiver) (chunks : List Bytes) : DataReceiver × Option Bytes :=
  chunks.foldl (onReadable K app) (c, some [])

/-! ### Frames on the stream -/

def frameBytes (f : TcpFrame) : Bytes := tcpMsgHeader f.msgType f.payload.length ++ f.payload

/-- A message that fits, with its length on the stream. -/
structure Framed (f : TcpFrame) : Prop where
  payload : f.payload.length ≤ MAX_TCP_MSG_PAYLOAD
  frameLen : f.frameLen = TCP_MSG_HEADER_SIZE + f.payload.length

def streamOf (fs : List TcpFrame) : Bytes := (fs.map frameBytes).flatten

/-- The beginning of a frame, and not the whole of it. -/
def IsPart (rest : Bytes) : Prop := ∃ f, Framed f ∧ rest <+: frameBytes f ∧ rest ≠ frameBytes f

variable {K app}

theorem length_decode {n : Nat} (h : n ≤ MAX_TCP_MSG_PAYLOAD) :
    BigEndian.decode (BigEndian.encode 2 n) = n := by
  rw [BigEndian.decode_encode]
  apply Nat.mod_eq_of_lt
  exact lt_of_le_of_lt h (by decide)

theorem probe_frameBytes {f : TcpFrame} (h : Framed f) (rest : Bytes) :
    probeFrame (frameBytes f ++ rest) = .frame f := by
  have hdecode := length_decode h.payload
  unfold frameBytes tcpMsgHeader
  simp only [BigEndian.encode, List.cons_append, List.nil_append] at hdecode ⊢
  unfold probeFrame
  dsimp only
  rw [hdecode, if_neg (Nat.not_lt.mpr h.payload)]
  have hlen : ¬ (f.payload ++ rest).length < f.payload.length := by
    rw [List.length_append]
    omega
  rw [if_neg hlen, List.take_left, ← h.frameLen]

theorem probe_part {rest : Bytes} (h : IsPart rest) : probeFrame rest = .incomplete := by
  obtain ⟨f, hf, hprefix, hne⟩ := h
  have hdecode := length_decode hf.payload
  obtain ⟨tail, htail⟩ := hprefix
  have hpos : tail ≠ [] := by
    rintro rfl
    rw [List.append_nil] at htail
    exact hne htail
  unfold frameBytes tcpMsgHeader at htail
  simp only [BigEndian.encode, List.cons_append, List.nil_append] at hdecode htail
  cases rest with
  | nil => rfl
  | cons b₁ rest =>
    cases rest with
    | nil => rfl
    | cons b₂ rest =>
      cases rest with
      | nil => rfl
      | cons b₃ rest =>
        simp only [List.cons_append, List.cons.injEq] at htail
        obtain ⟨-, rfl, rfl, hpayload⟩ := htail
        have hlen : rest.length < f.payload.length := by
          rw [← hpayload, List.length_append]
          have := List.length_pos_of_ne_nil hpos
          omega
        unfold probeFrame
        dsimp only
        rw [hdecode, if_neg (Nat.not_lt.mpr hf.payload), if_pos hlen]

theorem stable_frames : Stable (frames K app).probe := by
  have hcons : ∀ {a : Bytes}, probeFrame a ≠ .incomplete →
      ∃ b₁ b₂ b₃ rest, a = b₁ :: b₂ :: b₃ :: rest := by
    intro a ha
    rcases a with _ | ⟨b₁, _ | ⟨b₂, _ | ⟨b₃, rest⟩⟩⟩
    · exact absurd rfl ha
    · exact absurd rfl ha
    · exact absurd rfl ha
    · exact ⟨b₁, b₂, b₃, rest, rfl⟩
  constructor
  · intro a f n h
    simp only [frames] at h ⊢
    have hne : probeFrame a ≠ .incomplete := by
      intro hinc
      rw [hinc] at h
      cases h
    obtain ⟨b₁, b₂, b₃, rest, rfl⟩ := hcons hne
    unfold probeFrame at h ⊢
    dsimp only [List.cons_append] at h ⊢
    by_cases hbig : MAX_TCP_MSG_PAYLOAD < BigEndian.decode [b₂, b₃]
    · rw [if_pos hbig] at h
      cases h
    rw [if_neg hbig] at h
    by_cases hshort : rest.length < BigEndian.decode [b₂, b₃]
    · rw [if_pos hshort] at h
      cases h
    rw [if_neg hshort] at h
    cases h
    refine ⟨Nat.lt_of_lt_of_le (by decide : 0 < TCP_MSG_HEADER_SIZE) (Nat.le_add_right _ _), ?_, ?_⟩
    · simp only [List.length_cons, TCP_MSG_HEADER_SIZE]
      omega
    · intro b
      have hlong : ¬ (rest ++ b).length < BigEndian.decode [b₂, b₃] := by
        rw [List.length_append]
        omega
      rw [if_neg hbig, if_neg hlong, List.take_append_of_le_length (by omega)]
  · intro a h b
    simp only [frames] at h ⊢
    have hne : probeFrame a ≠ .incomplete := by
      intro hinc
      rw [hinc] at h
      cases h
    obtain ⟨b₁, b₂, b₃, rest, rfl⟩ := hcons hne
    unfold probeFrame at h ⊢
    dsimp only [List.cons_append] at h ⊢
    by_cases hbig : MAX_TCP_MSG_PAYLOAD < BigEndian.decode [b₂, b₃]
    · rw [if_pos hbig]
    · rw [if_neg hbig] at h
      split at h
      · next heq =>
        split at heq
        · cases h
        · cases heq
      · next heq =>
        split at heq
        · cases heq
        · cases heq
      · cases h

/-- A cut through a stream leaves whole frames and a part of the next one. -/
theorem cut_stream {fs : List TcpFrame} (hfs : ∀ f ∈ fs, Framed f) {bytes : Bytes}
    (h : bytes <+: streamOf fs) :
    ∃ k rest, bytes = streamOf (fs.take k) ++ rest ∧ (rest = [] ∨ IsPart rest) := by
  induction fs generalizing bytes with
  | nil =>
    have hnil : bytes = [] := List.prefix_nil.mp h
    exact ⟨0, [], hnil, Or.inl rfl⟩
  | cons f fs ih =>
    have hcons : streamOf (f :: fs) = frameBytes f ++ streamOf fs := rfl
    rw [hcons] at h
    by_cases hwhole : frameBytes f <+: bytes
    · obtain ⟨bytes', rfl⟩ := hwhole
      have hrest : bytes' <+: streamOf fs := (List.prefix_append_right_inj _).mp h
      obtain ⟨k, rest, heq, hpart⟩ := ih (fun g hg => hfs g (List.mem_cons_of_mem _ hg)) hrest
      refine ⟨k + 1, rest, ?_, hpart⟩
      rw [heq, List.take_succ_cons, ← List.append_assoc]
      rfl
    · have hpart : bytes <+: frameBytes f := by
        rcases List.prefix_or_prefix_of_prefix h
          (List.prefix_append (frameBytes f) (streamOf fs)) with hle | hge
        · exact hle
        · exact absurd hge hwhole
      refine ⟨0, bytes, rfl, Or.inr ⟨f, hfs f List.mem_cons_self, hpart, ?_⟩⟩
      rintro rfl
      exact hwhole (List.prefix_refl _)

theorem onReadableAll_eq (c : DataReceiver) {chunks : List Bytes}
    (hchunks : ∀ chunk ∈ chunks, chunk ≠ []) :
    onReadableAll K app c chunks = (frames K app).readAll (c, some []) chunks := by
  unfold onReadableAll Loop.readAll
  apply List.foldl_ext
  intro r chunk hchunk
  unfold onReadable
  rw [if_neg (hchunks chunk hchunk)]

/-- `processMessage` on one message after the other, until it ends the connection. -/
def processAll (K : Crypto) (app : App) (c : DataReceiver) (fs : List TcpFrame) :
    Bool × DataReceiver :=
  (frames K app).handleAll c fs

/-- What a stream does to the channel, whatever the chunks. -/
structure StreamSpec (K : Crypto) (app : App) : Prop where
  /-- Only the bytes count. -/
  chunks : ∀ (c : DataReceiver) (cs cs' : List Bytes), (∀ chunk ∈ cs, chunk ≠ []) →
    (∀ chunk ∈ cs', chunk ≠ []) →
    cs.flatten = cs'.flatten → onReadableAll K app c cs = onReadableAll K app c cs'
  /-- Of a stream of frames that has come in up to any byte, each whole frame is processed
      once, in order, up to the one that ends the connection, and the rest is kept. -/
  frames : ∀ (c : DataReceiver) (fs : List TcpFrame) (cs : List Bytes), (∀ f ∈ fs, Framed f) →
    (∀ chunk ∈ cs, chunk ≠ []) → cs.flatten <+: streamOf fs →
      ∃ k rest, cs.flatten = streamOf (fs.take k) ++ rest ∧ (rest = [] ∨ IsPart rest) ∧
        onReadableAll K app c cs =
          ((processAll K app c (fs.take k)).2, if (processAll K app c (fs.take k)).1 then some rest
            else none)

/-- **The stream of the data channel.** -/
theorem data_channel_stream (K : Crypto) (app : App) : StreamSpec K app := by
  constructor
  · intro c cs cs' hcs hcs' heq
    rw [onReadableAll_eq c hcs, onReadableAll_eq c hcs', Loop.readAll_eq_loop stable_frames rfl,
      Loop.readAll_eq_loop stable_frames rfl, heq]
  · intro c fs cs hfs hcs hprefix
    obtain ⟨k, rest, hcut, hpart⟩ := cut_stream hfs hprefix
    refine ⟨k, rest, hcut, hpart, ?_⟩
    have hincomplete : (DataReceiver.frames K app).probe rest = .incomplete := by
      rcases hpart with rfl | hpart
      · rfl
      · simp only [DataReceiver.frames]
        rw [probe_part hpart]
    have hwhole : ∀ f ∈ fs.take k,
        (DataReceiver.frames K app).probe (frameBytes f) = .frame f (frameBytes f).length := by
      intro f hf
      have hframed := hfs f (List.mem_of_mem_take hf)
      have hprobe := probe_frameBytes hframed []
      rw [List.append_nil] at hprobe
      have hlen : (frameBytes f).length = f.frameLen := by
        rw [hframed.frameLen, frameBytes, List.length_append]
        rfl
      simp only [DataReceiver.frames]
      rw [hprobe, hlen]
    have hloop := Loop.loop_encoded stable_frames rfl hwhole hincomplete c
    rw [onReadableAll_eq c hcs, Loop.readAll_eq_loop stable_frames rfl, hcut]
    refine hloop.trans ?_
    unfold processAll
    generalize (DataReceiver.frames K app).handleAll c (fs.take k) = result
    obtain ⟨more, c'⟩ := result
    cases more with
    | true => rfl
    | false => rfl

/-! ### A channel on the sample primitives -/

def unopened : DataReceiver :=
  { peerId := 7, secure := true,
    cipher := ({} : SecureFrameCipher).init Crypto.sample [1] true "data" }

/-- The acknowledgement, and a packet from peer 3, as the server seals them. -/
def sealed : List TcpFrame :=
  let server := ({} : SecureFrameCipher).init Crypto.sample [1] false "data"
  let (ack, server) := server.encrypt Crypto.sample [MSG_DATA_CHANNEL_ACK] []
  let relay := writeU32 3 ++ writeU32 7 ++ writeU8 TRAFFIC_UDP ++ [8, 9]
  let (packet, _) := server.encrypt Crypto.sample (MSG_TCP_RELAY_DATA :: relay) []
  [⟨MSG_ENCRYPTED, ack, TCP_MSG_HEADER_SIZE + ack.length⟩,
    ⟨MSG_ENCRYPTED, packet, TCP_MSG_HEADER_SIZE + packet.length⟩]

def quietApp : App := fun _ c => (true, c)

/-- The acknowledgement and half of the packet come in byte by byte, then the other half. -/
theorem data_channel_stream_sealed :
    let arrived := (streamOf sealed).take 50
    let half := onReadableAll Crypto.sample quietApp unopened (arrived.map fun b => [b])
    half.1.log = [.connected] ∧ half.2 = some (((sealed.drop 1).flatMap frameBytes).take 22) ∧
      (onReadable Crypto.sample quietApp half ((streamOf sealed).drop 50)).1.log =
        [.connected, .relayData 3 TRAFFIC_UDP [8, 9]] := by
  intro arrived half
  have hone : half = onReadableAll Crypto.sample quietApp unopened [arrived] :=
    (data_channel_stream Crypto.sample quietApp).chunks unopened _ _ (by simp) (by decide +kernel)
      (by simp [← List.flatMap_def])
  rw [hone]
  decide +kernel

end DataReceiver

end VlanConnect
